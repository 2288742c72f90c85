import PageRoutes.Manifest.Compile
import PageRoutes.Proofs.Component.Named
import PageRoutes.Proofs.Manifest.Scraping
/-!
What is known of the entries of a host application. Their components have names, and the names of
their parameters are made of word characters, so that only a pattern, a component or a middleware
text can look like the label of a field.
-/

set_option autoImplicit false

namespace PageRoutes

open Text

namespace Uri

theorem isWordCharacter_of_readName? {text name rest : List Char}
    (read : readName? text = some (name, rest)) : ∀ c ∈ name, isWordCharacter c = true := by
  have run : ∀ c ∈ (cutRun isWordCharacter text).1, isWordCharacter c = true :=
    List.all_eq_true.mp List.all_takeWhile
  unfold readName? at read
  split at read
  · cases read
  · next cut =>
      cases read
      rw [cut] at run
      exact run

theorem isWordCharacter_of_readPlaceholder? {text name rest : List Char} {required : Bool}
    (read : readPlaceholder? text = some ((name, required), rest)) :
    ∀ c ∈ name, isWordCharacter c = true := by
  unfold readPlaceholder? at read
  split at read
  · split at read
    · next named =>
        cases read
        exact isWordCharacter_of_readName? named
    · next named =>
        cases read
        exact isWordCharacter_of_readName? named
    · cases read
  · cases read

/-- The names of parameters are made of word characters. -/
theorem isWordCharacter_of_mem_parameters {uri : String} {parameter : Parameter}
    (member : parameter ∈ parameters uri) :
    ∀ c ∈ parameter.name.toList, isWordCharacter c = true := by
  obtain ⟨⟨name, required⟩, found, rfl⟩ := List.mem_map.mp member
  obtain ⟨text, rest, read⟩ := Recogniser.exists_of_mem_all found
  rw [String.toList_ofList]
  exact isWordCharacter_of_readPlaceholder? read

end Uri

namespace Manifest

theorem exists_of_mem_compile {chain : StrategyChain} {filter : UriFilter} {routes : List Route}
    {entry : Entry} (member : entry ∈ compile chain filter routes) :
    ∃ route component, chain.resolve? route = some component ∧
      entry = Entry.ofRoute route component := by
  obtain ⟨route, -, found⟩ := List.mem_filterMap.mp member
  obtain ⟨component, resolved, rfl⟩ := Option.map_eq_some_iff.mp found
  exact ⟨route, component, resolved, rfl⟩

theorem silent_of_isWordCharacter {text : String}
    (word : ∀ c ∈ text.toList, isWordCharacter c = true) :
    Silent componentFields componentLabel text := by
  apply silent_of_not_infix
  intro inside
  have colon : ':' ∈ text.toList := inside.subset (by decide)
  exact absurd (word ':' colon) (by decide +kernel)

/-- The component of an entry is found in its line if it needs no escapes and neither the pattern
nor the middleware ends like the label of a component. -/
theorem showsComponent_of_mem_compile {tree : FileTree} {layout : Layout} {filter : UriFilter}
    {routes : List Route} {entry : Entry}
    (member : entry ∈ compile (.standard tree layout) filter routes)
    (plain : ∀ c ∈ entry.component.toList, IsPlain c)
    (safe : ∀ text ∈ entry.pattern :: entry.middleware, ¬EndsInComponentLabel text) :
    entry.ShowsComponent := by
  obtain ⟨route, component, resolved, rfl⟩ := exists_of_mem_compile member
  exact
    { component := isQuotable_of_isPlain (StrategyChain.standard_resolve?_ne_empty resolved) plain
      pattern := silent_of_not_endsInComponentLabel (safe _ List.mem_cons_self)
      middleware := fun text present =>
        silent_of_not_endsInComponentLabel (safe text (List.mem_cons_of_mem _ present))
      parameters := fun parameter present =>
        silent_of_isWordCharacter (Uri.isWordCharacter_of_mem_parameters present) }

end Manifest

end PageRoutes
