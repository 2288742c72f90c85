import Mathlib.Data.List.Basic
import PageRoutes.Manifest.Document
import PageRoutes.Manifest.Scrape
import PageRoutes.Proofs.Manifest.Written
import PageRoutes.Proofs.Text.Recogniser
/-!
What is read out of a written manifest by its labels alone. In a line, a label begins at its own field
and nowhere else, as long as no other text of the line brings it along; so one pass over a module
finds one field for each line, in order.
-/

set_option autoImplicit false

namespace PageRoutes.Manifest

open Text Recogniser

variable {α : Type} {what : Recogniser α} {word : List Char}

/-! ### Labels and quoted texts -/

theorem isLabel_componentLabel : IsLabel componentLabel where
  nonempty := by decide
  plain := by decide
  notMark := by decide

theorem isLabel_middlewareLabel : IsLabel middlewareLabel where
  nonempty := by decide
  plain := by decide
  notMark := by decide

theorem startsWith_componentLabel : componentFields.StartsWith componentLabel := by
  intro text nothing
  change readField? componentLabel readQuoted? text = none
  rw [readField?, nothing]

theorem componentFields_read_append (text : List Char) :
    componentFields.read (componentLabel ++ text) = readQuoted? (skipBlanks text) := by
  change readField? componentLabel readQuoted? (componentLabel ++ text) = _
  rw [readField?, after?_append]

theorem startsWith_middlewareLabel : middlewareFields.StartsWith middlewareLabel := by
  intro text nothing
  change readField? middlewareLabel readList? text = none
  rw [readField?, nothing]

/-- Nothing is read in an escaped text unless something is read at a label that the text itself
holds. -/
theorem passes_flatMap_escape (label : IsLabel word) (starts : what.StartsWith word)
    {text rest : List Char}
    (silent : ∀ before behind, text = before ++ word ++ behind →
      what.read (word ++ (behind.flatMap escape ++ '\'' :: rest)) = none) :
    what.Passes (text.flatMap escape) ('\'' :: rest) := by
  have head (c : Char) (differs : ∀ w ∈ word.head?, w ≠ c) (text : List Char) :
      what.read (c :: text) = none :=
    starts.read_eq_none_of_head label.nonempty differs text
  have headPlain (w : Char) (first : w ∈ word.head?) : IsPlain w :=
    label.plain w (List.mem_of_mem_head? first)
  induction text with
  | nil => trivial
  | cons c text ih =>
      have others : what.Passes (text.flatMap escape) ('\'' :: rest) := by
        apply ih
        intro before behind split
        exact silent (c :: before) behind (by rw [split]; rfl)
      -- A label can only begin at a character that stands for itself; there the text holds it too.
      by_cases plain : IsPlain c
      · rw [List.flatMap_cons, escape_of_isPlain plain]
        refine ⟨?_, others⟩
        cases found : after? word (c :: (text.flatMap escape ++ '\'' :: rest)) with
        | none => exact starts _ found
        | some behindWord =>
            have escaped : c :: (text.flatMap escape ++ '\'' :: rest) =
                (c :: text).flatMap escape ++ '\'' :: rest := by
              rw [List.flatMap_cons, escape_of_isPlain plain]
              rfl
            rw [escaped] at found
            obtain ⟨behind, split, behindEq⟩ :=
              exists_of_after?_flatMap_escape label.plain found
            have whole := after?_eq_some_iff.mp found
            have nothing := silent [] behind split
            rw [← behindEq, ← whole, ← escaped] at nothing
            exact nothing
      · obtain ⟨mark, escaped, isMark⟩ := escape_of_not_isPlain plain
        rw [List.flatMap_cons, escaped]
        refine ⟨head '\\' (fun w first => (headPlain w first).1) _, head mark ?_ _, others⟩
        rintro w first rfl
        rcases isMark with same | isLetter
        · exact plain (same ▸ headPlain w first)
        · exact label.notMark w first isLetter

/-- A text between quotes in which no field is found, whatever stands behind it. -/
def Silent (what : Recogniser α) (word : List Char) (text : String) : Prop :=
  ∀ rest before behind, text.toList = before ++ word ++ behind →
    what.read (word ++ (behind.flatMap escape ++ '\'' :: rest)) = none

theorem silent_of_not_infix {text : String} (absent : ¬word <:+: text.toList) :
    Silent what word text :=
  fun _ before behind split => absurd ⟨before, behind, split.symm⟩ absent

theorem middlewareFields_read_append (text : List Char) :
    middlewareFields.read (middlewareLabel ++ text) = readList? (skipBlanks text) := by
  change readField? middlewareLabel readList? (middlewareLabel ++ text) = _
  rw [readField?, after?_append]

/-! ### Passing over what has no label -/

def punctuation : List String :=
  [r"    { pattern: ", ", ", "], parameters: [", r"{ name: ", ", required: ", "true", "false",
    r" }", r"] },", "\n"]

/-- A recogniser of labelled fields. The label begins nowhere in the fixed texts of a module, apart from
those that hold a label. -/
structure ReadsFields (what : Recogniser α) (word : List Char) : Prop where
  label : IsLabel word
  starts : what.StartsWith word
  separate : ∀ text ∈ punctuation, neverBegins word text.toList = true
  head : neverBegins word moduleHead = true
  foot : neverBegins word moduleFoot = true

theorem readsFields_component : ReadsFields componentFields componentLabel where
  label := isLabel_componentLabel
  starts := startsWith_componentLabel
  separate := by decide +kernel
  head := by decide +kernel
  foot := by decide +kernel

theorem readsFields_middleware : ReadsFields middlewareFields middlewareLabel where
  label := isLabel_middlewareLabel
  starts := startsWith_middlewareLabel
  separate := by decide +kernel
  head := by decide +kernel
  foot := by decide +kernel

namespace ReadsFields

theorem passes_fixed (reads : ReadsFields what word) {text : String} (member : text ∈ punctuation)
    (rest : List Char) : what.Passes text.toList rest :=
  passes_of_neverBegins reads.starts (reads.separate text member) rest

theorem passes_quote (reads : ReadsFields what word) {text : String}
    (silent : Silent what word text) (rest : List Char) : what.Passes (quote text) rest := by
  have atQuote (text : List Char) : what.read ('\'' :: text) = none :=
    reads.starts.read_eq_none_of_head reads.label.nonempty
      (fun w first => (reads.label.plain w (List.mem_of_mem_head? first)).2.1) text
  refine ⟨atQuote _, passes_append.mpr ⟨?_, atQuote _, trivial⟩⟩
  exact passes_flatMap_escape reads.label reads.starts (silent rest)

theorem passes_commaSeparated (reads : ReadsFields what word) {items : List (List Char)}
    (each : ∀ item ∈ items, ∀ rest, what.Passes item rest) (rest : List Char) :
    what.Passes (commaSeparated items) rest := by
  induction items with
  | nil => trivial
  | cons first others ih =>
      have firstPasses : ∀ rest, what.Passes first rest := each first List.mem_cons_self
      have othersPass := ih fun item member => each item (List.mem_cons_of_mem first member)
      cases others with
      | nil => exact firstPasses rest
      | cons second others =>
          rw [commaSeparated_cons]
          refine passes_append.mpr ⟨passes_append.mpr ⟨firstPasses _, ?_⟩, othersPass⟩
          exact reads.passes_fixed (by decide) _

theorem passes_quotes (reads : ReadsFields what word) {texts : List String}
    (silent : ∀ text ∈ texts, Silent what word text) (rest : List Char) :
    what.Passes (commaSeparated (texts.map quote)) rest := by
  apply reads.passes_commaSeparated
  intro item member
  obtain ⟨text, present, rfl⟩ := List.mem_map.mp member
  exact reads.passes_quote (silent text present)

theorem passes_parameterText (reads : ReadsFields what word) {parameter : Parameter}
    (silent : Silent what word parameter.name) (rest : List Char) :
    what.Passes (parameterText parameter) rest := by
  have fixed {text : String} (member : text ∈ punctuation) (rest : List Char) :
      what.Passes text.toList rest := reads.passes_fixed member rest
  have truth (rest : List Char) :
      what.Passes (if parameter.required then "true" else "false").toList rest := by
    cases parameter.required
    · exact fixed (by decide) rest
    · exact fixed (by decide) rest
  delta parameterText
  simp only [passes_append]
  exact ⟨⟨⟨⟨fixed (by decide) _, reads.passes_quote silent _⟩, fixed (by decide) _⟩, truth _⟩,
    fixed (by decide) _⟩

/-- Nothing is read in the part of a line that stands behind the middleware. -/
theorem passes_parameters (reads : ReadsFields what word) {parameters : List Parameter}
    (silent : ∀ parameter ∈ parameters, Silent what word parameter.name) (rest : List Char) :
    what.Passes (commaSeparated (parameters.map parameterText)) rest := by
  apply reads.passes_commaSeparated
  intro item member
  obtain ⟨parameter, present, rfl⟩ := List.mem_map.mp member
  exact reads.passes_parameterText (silent parameter present)

theorem all_moduleChars (reads : ReadsFields what word) {item : Entry → α} {entries : List Entry}
    (line : ∀ entry ∈ entries, ∀ rest,
      what.all (entryText entry ++ rest) = item entry :: what.all rest) :
    what.all (moduleChars entries) = entries.map item := by
  have lines : what.all (entries.flatMap entryText ++ moduleFoot) = entries.map item := by
    induction entries with
    | nil =>
        have passes := (passes_of_neverBegins reads.starts reads.foot []).all_append
        rw [List.append_nil] at passes
        rw [List.flatMap_nil, List.nil_append, passes, all_nil, List.map_nil]
    | cons entry entries ih =>
        have others := ih fun other member => line other (List.mem_cons_of_mem entry member)
        rw [List.flatMap_cons, List.append_assoc, line entry List.mem_cons_self, others,
          List.map_cons]
  rw [moduleChars, List.append_assoc,
    (passes_of_neverBegins reads.starts reads.head _).all_append, lines]

end ReadsFields

/-! ### Components -/

structure IsQuotable (text : String) : Prop where
  nonempty : text ≠ ""
  noQuote : '\'' ∉ text.toList

theorem IsQuotable.readQuoted?_quote {text : String} (quotable : IsQuotable text)
    (rest : List Char) :
    readQuoted? (quote text ++ rest) = some (text.toList.flatMap escape, rest) := by
  have noQuote : '\'' ∉ text.toList.flatMap escape :=
    fun member => quotable.noQuote (mem_of_mem_flatMap_escape (by decide) (by decide) member)
  have keeps (c : Char) (member : c ∈ text.toList.flatMap escape) : decide (c ≠ '\'') = true :=
    decide_eq_true fun same => noQuote (same ▸ member)
  have stops : decide ('\'' ≠ '\'') = false := by decide
  have cut := cutRun_append_cons keeps stops rest
  have nonempty : text.toList ≠ [] :=
    fun empty => quotable.nonempty (String.toList_eq_nil_iff.mp empty)
  obtain ⟨c, others, inside⟩ := List.exists_cons_of_ne_nil (flatMap_escape_ne_nil nonempty)
  rw [quote_append, readQuoted?, cut, inside]

/-- A text that ends with the label of a component and with blanks that are not escaped. Behind them
its closing quote looks like the opening quote of a component. -/
def EndsInComponentLabel (text : String) : Prop :=
  ∃ before blanks, text.toList = before ++ componentLabel ++ blanks ∧
    ∀ c ∈ blanks, isBlank c = true ∧ IsPlain c

theorem not_endsInComponentLabel_of_not_infix {text : String}
    (absent : ¬componentLabel <:+: text.toList) : ¬EndsInComponentLabel text := by
  rintro ⟨before, blanks, split, -⟩
  exact absent ⟨before, blanks, split.symm⟩

theorem readQuoted?_skipBlanks_flatMap_escape {text : List Char}
    (notBlank : ¬∀ c ∈ text, isBlank c = true ∧ IsPlain c) (rest : List Char) :
    readQuoted? (skipBlanks (text.flatMap escape ++ rest)) = none := by
  induction text with
  | nil => exact absurd (fun _ member => absurd member List.not_mem_nil) notBlank
  | cons c text ih =>
      by_cases plain : IsPlain c
      · rw [List.flatMap_cons, escape_of_isPlain plain, List.append_assoc, List.singleton_append]
        cases blank : isBlank c with
        | true =>
            rw [skipBlanks_cons_of_isBlank _ blank]
            apply ih
            intro others
            apply notBlank
            intro d member
            rcases List.mem_cons.mp member with rfl | member
            · exact ⟨blank, plain⟩
            · exact others d member
        | false =>
            rw [skipBlanks_cons_of_not_isBlank _ blank]
            simp [readQuoted?, plain.2.1]
      · obtain ⟨mark, escapedAs, -⟩ := escape_of_not_isPlain plain
        have notBlank : isBlank '\\' = false := by decide
        rw [List.flatMap_cons, escapedAs, List.append_assoc, List.cons_append,
          skipBlanks_cons_of_not_isBlank _ notBlank]
        rfl

theorem silent_of_not_endsInComponentLabel {text : String} (safe : ¬EndsInComponentLabel text) :
    Silent componentFields componentLabel text := by
  intro rest before behind split
  rw [componentFields_read_append]
  apply readQuoted?_skipBlanks_flatMap_escape
  exact fun blanks => safe ⟨before, behind, split, blanks⟩

structure Entry.ShowsComponent (entry : Entry) : Prop where
  component : IsQuotable entry.component
  pattern : Silent componentFields componentLabel entry.pattern
  middleware : ∀ text ∈ entry.middleware, Silent componentFields componentLabel text
  parameters : ∀ parameter ∈ entry.parameters, Silent componentFields componentLabel parameter.name

theorem all_componentFields_entryText {entry : Entry} (shows : entry.ShowsComponent)
    (rest : List Char) :
    componentFields.all (entryText entry ++ rest) =
      entry.component.toList.flatMap escape :: componentFields.all rest := by
  have reads := readsFields_component
  have bracket (rest : List Char) : componentFields.Passes ", middleware: [".toList rest :=
    passes_of_neverBegins reads.starts (by decide +kernel) rest
  have label (text : List Char) : ", component: ".toList ++ text =
      ", ".toList ++ (componentLabel ++ ' ' :: text) := rfl
  have field (text : List Char) :
      componentFields.read (componentLabel ++ ' ' :: (quote entry.component ++ text)) =
        some (entry.component.toList.flatMap escape, text) := by
    rw [componentFields_read_append]
    exact shows.component.readQuoted?_quote text
  rw [entryText_append, (reads.passes_fixed (by decide) _).all_append,
    (reads.passes_quote shows.pattern _).all_append, label,
    (reads.passes_fixed (by decide) _).all_append, all_of_read (field _), (bracket _).all_append,
    (reads.passes_quotes shows.middleware _).all_append,
    (reads.passes_fixed (by decide) _).all_append,
    (reads.passes_parameters shows.parameters _).all_append,
    (reads.passes_fixed (by decide) _).all_append, (reads.passes_fixed (by decide) _).all_append]

/-- The components that are found in a module are those of its entries, as they stand between their
quotes. -/
theorem componentsIn_moduleText {entries : List Entry}
    (shows : ∀ entry ∈ entries, entry.ShowsComponent) :
    componentsIn (moduleText entries) =
      (entries.map fun entry => escaped entry.component).eraseDups := by
  have found := readsFields_component.all_moduleChars
    fun entry member rest => all_componentFields_entryText (shows entry member) rest
  rw [componentsIn, moduleText, String.toList_ofList, found, List.map_map]
  rfl

/-! ### Middleware -/

theorem mem_commaSeparated {c : Char} {items : List (List Char)} (member : c ∈ commaSeparated items) :
    c = ',' ∨ c = ' ' ∨ ∃ item ∈ items, c ∈ item := by
  induction items with
  | nil => exact absurd member List.not_mem_nil
  | cons first others ih =>
      cases others with
      | nil => exact Or.inr (Or.inr ⟨first, List.mem_cons_self, member⟩)
      | cons second others =>
          rw [commaSeparated_cons, List.mem_append, List.mem_append] at member
          rcases member with (inFirst | inComma) | inOthers
          · exact Or.inr (Or.inr ⟨first, List.mem_cons_self, inFirst⟩)
          · have cases : c = ',' ∨ c = ' ' := by simpa using inComma
            exact cases.imp_right Or.inl
          · refine (ih inOthers).imp_right (Or.imp_right ?_)
            rintro ⟨item, present, inItem⟩
            exact ⟨item, List.mem_cons_of_mem first present, inItem⟩

structure IsListable (text : String) : Prop extends IsQuotable text where
  noBracket : ']' ∉ text.toList

theorem bracket_not_mem_commaSeparated {texts : List String}
    (listable : ∀ text ∈ texts, IsListable text) : ']' ∉ commaSeparated (texts.map quote) := by
  intro member
  rcases mem_commaSeparated member with isComma | isSpace | ⟨item, present, inItem⟩
  · exact absurd isComma (by decide)
  · exact absurd isSpace (by decide)
  · obtain ⟨text, inTexts, rfl⟩ := List.mem_map.mp present
    have inside : ']' ∈ text.toList.flatMap escape := by simpa [quote] using inItem
    exact (listable text inTexts).noBracket
      (mem_of_mem_flatMap_escape (by decide) (by decide) inside)

theorem readList?_commaSeparated {texts : List String}
    (listable : ∀ text ∈ texts, IsListable text) (rest : List Char) :
    readList? ('[' :: (commaSeparated (texts.map quote) ++ ']' :: rest)) =
      some (commaSeparated (texts.map quote), rest) := by
  have noBracket := bracket_not_mem_commaSeparated listable
  have keeps (c : Char) (member : c ∈ commaSeparated (texts.map quote)) :
      decide (c ≠ ']') = true :=
    decide_eq_true fun same => noBracket (same ▸ member)
  have stops : decide (']' ≠ ']') = false := by decide
  rw [readList?, cutRun_append_cons keeps stops rest]

theorem all_quotedTexts_commaSeparated {texts : List String}
    (quotable : ∀ text ∈ texts, IsQuotable text) :
    quotedTexts.all (commaSeparated (texts.map quote)) =
      texts.map fun text => text.toList.flatMap escape := by
  have starts : quotedTexts.StartsWith ['\''] := by
    intro text nothing
    change readQuoted? text = none
    cases text with
    | nil => rfl
    | cons c text =>
        rw [after?] at nothing
        split at nothing
        · cases nothing
        · next differs => simp [readQuoted?, Ne.symm differs]
  have comma (rest : List Char) : quotedTexts.Passes ", ".toList rest :=
    passes_of_neverBegins starts (by decide) rest
  induction texts with
  | nil => exact all_nil quotedTexts
  | cons first others ih =>
      have readFirst (rest : List Char) : quotedTexts.read (quote first ++ rest) =
          some (first.toList.flatMap escape, rest) :=
        (quotable first List.mem_cons_self).readQuoted?_quote rest
      have readOthers := ih fun text member => quotable text (List.mem_cons_of_mem first member)
      cases others with
      | nil =>
          have found := all_of_read (readFirst [])
          rw [List.append_nil, all_nil] at found
          exact found
      | cons second others =>
          rw [List.map_cons, List.map_cons, commaSeparated_cons, List.append_assoc,
            all_of_read (readFirst _), (comma _).all_append, ← List.map_cons, readOthers]
          rfl

structure Entry.ShowsMiddleware (entry : Entry) : Prop where
  middleware : ∀ text ∈ entry.middleware, IsListable text
  pattern : Silent middlewareFields middlewareLabel entry.pattern
  component : Silent middlewareFields middlewareLabel entry.component
  parameters : ∀ parameter ∈ entry.parameters,
    Silent middlewareFields middlewareLabel parameter.name

theorem all_middlewareFields_entryText {entry : Entry} (shows : entry.ShowsMiddleware)
    (rest : List Char) :
    middlewareFields.all (entryText entry ++ rest) =
      commaSeparated (entry.middleware.map quote) :: middlewareFields.all rest := by
  have reads := readsFields_middleware
  have component (rest : List Char) : middlewareFields.Passes ", component: ".toList rest :=
    passes_of_neverBegins reads.starts (by decide +kernel) rest
  have behindBracket (rest : List Char) : middlewareFields.Passes ", parameters: [".toList rest :=
    passes_of_neverBegins reads.starts (by decide +kernel) rest
  have label (text : List Char) : ", middleware: [".toList ++ text =
      ", ".toList ++ (middlewareLabel ++ ' ' :: '[' :: text) := rfl
  have bracket (text : List Char) : "], parameters: [".toList ++ text =
      ']' :: (", parameters: [".toList ++ text) := rfl
  have field (text : List Char) :
      middlewareFields.read (middlewareLabel ++
        ' ' :: '[' :: (commaSeparated (entry.middleware.map quote) ++ ']' :: text)) =
        some (commaSeparated (entry.middleware.map quote), text) := by
    rw [middlewareFields_read_append]
    exact readList?_commaSeparated shows.middleware text
  rw [entryText_append, (reads.passes_fixed (by decide) _).all_append,
    (reads.passes_quote shows.pattern _).all_append, (component _).all_append,
    (reads.passes_quote shows.component _).all_append, label, bracket,
    (reads.passes_fixed (by decide) _).all_append, all_of_read (field _),
    (behindBracket _).all_append, (reads.passes_parameters shows.parameters _).all_append,
    (reads.passes_fixed (by decide) _).all_append, (reads.passes_fixed (by decide) _).all_append]

/-- The middleware that is found in a module is that of its entries, as it stands between its
quotes. -/
theorem middlewareIn_moduleText {entries : List Entry}
    (shows : ∀ entry ∈ entries, entry.ShowsMiddleware) :
    middlewareIn (moduleText entries) =
      ((entries.flatMap (·.middleware)).map escaped).eraseDups := by
  have found := readsFields_middleware.all_moduleChars
    fun entry member rest => all_middlewareFields_entryText (shows entry member) rest
  have texts : (entries.map fun entry => commaSeparated (entry.middleware.map quote)).flatMap
      quotedTexts.all =
      (entries.flatMap (·.middleware)).map fun text => text.toList.flatMap escape := by
    rw [List.flatMap_map, List.map_flatMap]
    apply List.flatMap_congr
    intro entry member
    apply all_quotedTexts_commaSeparated
    exact fun text present => ((shows entry member).middleware text present).toIsQuotable
  rw [middlewareIn, moduleText, String.toList_ofList, found, texts, List.map_map]
  rfl

/-! ### Entries whose texts need no escapes -/

theorem isQuotable_of_isPlain {text : String} (nonempty : text ≠ "")
    (plain : ∀ c ∈ text.toList, IsPlain c) : IsQuotable text where
  nonempty := nonempty
  noQuote member := (plain '\'' member).2.1 rfl

theorem Entry.showsComponent_of_absent {entry : Entry} (quotable : IsQuotable entry.component)
    (absent : ∀ text ∈ entry.pattern :: entry.middleware ++ entry.parameters.map (·.name),
      ¬componentLabel <:+: text.toList) : entry.ShowsComponent where
  component := quotable
  pattern := silent_of_not_infix (absent entry.pattern (by simp))
  middleware text present := silent_of_not_infix (absent text (by simp [present]))
  parameters parameter present :=
    silent_of_not_infix (absent parameter.name (by simp [List.mem_map_of_mem present]))

theorem Entry.showsMiddleware_of_absent {entry : Entry}
    (listable : ∀ text ∈ entry.middleware, IsListable text)
    (absent : ∀ text ∈ entry.pattern :: entry.component :: entry.parameters.map (·.name),
      ¬middlewareLabel <:+: text.toList) : entry.ShowsMiddleware where
  middleware := listable
  pattern := silent_of_not_infix (absent entry.pattern (by simp))
  component := silent_of_not_infix (absent entry.component (by simp))
  parameters parameter present :=
    silent_of_not_infix (absent parameter.name (by simp [List.mem_map_of_mem present]))

theorem map_escaped_middleware {entries : List Entry}
    (plain : ∀ entry ∈ entries, ∀ text ∈ entry.middleware, ∀ c ∈ text.toList, IsPlain c) :
    (entries.flatMap (·.middleware)).map escaped = entries.flatMap (·.middleware) := by
  rw [List.map_flatMap]
  apply List.flatMap_congr
  intro entry member
  have same : entry.middleware.map escaped = entry.middleware.map id :=
    List.map_congr_left fun text present => escaped_of_isPlain (plain entry member text present)
  rw [same, List.map_id]

/-- The components and the middleware that were written are found again, each once and in the order
in which they first occur: no component and no middleware needs escapes or closes a bracket, and no
other text holds a label. Patterns and names of parameters may hold quotes and backslashes. -/
theorem module_is_scraped_exactly (entries : List Entry)
    (components : ∀ entry ∈ entries,
      entry.component ≠ "" ∧ ∀ c ∈ entry.component.toList, IsPlain c)
    (middleware : ∀ entry ∈ entries, ∀ text ∈ entry.middleware,
      text ≠ "" ∧ (∀ c ∈ text.toList, IsPlain c) ∧ ']' ∉ text.toList)
    (noComponentLabel : ∀ entry ∈ entries,
      ∀ text ∈ entry.pattern :: entry.middleware ++ entry.parameters.map (·.name),
        ¬componentLabel <:+: text.toList)
    (noMiddlewareLabel : ∀ entry ∈ entries,
      ∀ text ∈ entry.pattern :: entry.component :: entry.parameters.map (·.name),
        ¬middlewareLabel <:+: text.toList) :
    componentsIn (render .module entries) = (entries.map (·.component)).eraseDups ∧
      middlewareIn (render .module entries) = (entries.flatMap (·.middleware)).eraseDups := by
  have showsComponent (entry : Entry) (member : entry ∈ entries) : entry.ShowsComponent :=
    Entry.showsComponent_of_absent
      (isQuotable_of_isPlain (components entry member).1 (components entry member).2)
      (noComponentLabel entry member)
  have showsMiddleware (entry : Entry) (member : entry ∈ entries) : entry.ShowsMiddleware := by
    apply Entry.showsMiddleware_of_absent _ (noMiddlewareLabel entry member)
    intro text present
    obtain ⟨nonempty, plain, noBracket⟩ := middleware entry member text present
    exact ⟨isQuotable_of_isPlain nonempty plain, noBracket⟩
  constructor
  · have sameComponents : entries.map (fun entry => escaped entry.component) =
        entries.map (·.component) :=
      List.map_congr_left fun entry member => escaped_of_isPlain (components entry member).2
    rw [render, componentsIn_moduleText showsComponent, sameComponents]
  · have sameMiddleware := map_escaped_middleware
      fun entry member text present => (middleware entry member text present).2.1
    rw [render, middlewareIn_moduleText showsMiddleware, sameMiddleware]

def lookalikes : List Entry :=
  [ ⟨"/it's \\', middleware ", "component: [Home]", ["middleware: [a", "auth:web"],
      [⟨"], component ", true⟩], none⟩,
    ⟨"/\\", "Users/Show", ["auth:web", "can:edit"], [], some "users.show"⟩ ]

theorem lookalikes_are_scraped_exactly :
    componentsIn (render .module lookalikes) = ["component: [Home]", "Users/Show"] ∧
      middlewareIn (render .module lookalikes) = ["middleware: [a", "auth:web", "can:edit"] := by
  have found := module_is_scraped_exactly lookalikes (by decide +kernel) (by decide +kernel)
    (by decide +kernel) (by decide +kernel)
  have components : (lookalikes.map (·.component)).eraseDups =
      ["component: [Home]", "Users/Show"] := by decide +kernel
  have middleware : (lookalikes.flatMap (·.middleware)).eraseDups =
      ["middleware: [a", "auth:web", "can:edit"] := by decide +kernel
  rw [components, middleware] at found
  exact found

end PageRoutes.Manifest
