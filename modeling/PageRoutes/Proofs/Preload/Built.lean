import PageRoutes.Proofs.Command.Preloaded
import PageRoutes.Proofs.Json.Members
/-!
Which pages get a tag. Two choices are made one after the other: the first of two places that holds
a JSON object, and for each component the first extension whose source file names a built file in
that object. What the object holds beside well-formed entries plays no part in either choice.
-/

set_option autoImplicit false

namespace PageRoutes

open Json

inductive NamesFile : Value → String → Prop where
  | member {members : List (String × Value)} {file : String}
      (named : members.lookup "file" = some (.str file)) : NamesFile (.obj members) file
  | item (file : String) : NamesFile (.arr [.str file]) file

theorem builtFile?_eq_some_iff {value : Value} {file : String} :
    builtFile? value = some file ↔ NamesFile value file := by
  constructor
  · intro built
    unfold builtFile? at built
    split at built
    · obtain ⟨named, found, text⟩ := Option.bind_eq_some_iff.mp built
      cases named <;> cases text
      exact .member found
    · cases built
      exact .item file
    · cases built
  · rintro (named | _)
    · rw [builtFile?, named]
      rfl
    · rfl

namespace Preload

/-- The file holds a JSON object. -/
def HoldsObject (tree : FileTree) (path : FilePath) (members : List (String × Value)) : Prop :=
  ∃ text, tree.readText? path = some text ∧ Value.ofText text = .ok (.obj members)

def IsBuilt (members : List (String × Value)) (source file : String) : Prop :=
  ∃ value, (source, value) ∈ members ∧ NamesFile value file

section

variable {members : List (String × Value)} {tree : FileTree} {path : FilePath}

theorem HoldsObject.unique {others : List (String × Value)} (held : HoldsObject tree path members)
    (heldToo : HoldsObject tree path others) : members = others := by
  obtain ⟨text, read, object⟩ := held
  obtain ⟨_, readToo, objectToo⟩ := heldToo
  obtain rfl := Option.some.inj (read.symm.trans readToo)
  cases object.symm.trans objectToo
  rfl

theorem HoldsObject.increasing (held : HoldsObject tree path members) : Increasing members := by
  obtain ⟨text, -, object⟩ := held
  exact increasing_of_ofText_eq_obj object

theorem buildManifestAt?_eq_some_iff {build : BuildManifest} :
    buildManifestAt? tree path = some build ↔
      ∃ members, HoldsObject tree path members ∧ accepted builtFile? members = build := by
  have readsBuild (text : String) :
      (BuildManifest.ofText text).toOption = some build ↔
        ∃ members, Value.ofText text = .ok (.obj members) ∧
          accepted builtFile? members = build := by
    have asOk : (BuildManifest.ofText text).toOption = some build ↔
        BuildManifest.ofText text = .ok build := by
      cases BuildManifest.ofText text <;> simp [Except.toOption]
    rw [asOk, BuildManifest.ofText, map_eq_ok_iff]
    simp only [read_readMap_value_eq_ok_iff]
    rfl
  rw [buildManifestAt?, Option.bind_eq_some_iff]
  simp only [readsBuild]
  constructor
  · rintro ⟨text, read, members, object, same⟩
    exact ⟨members, ⟨text, read, object⟩, same⟩
  · rintro ⟨members, ⟨text, read, object⟩, same⟩
    exact ⟨text, read, members, object, same⟩

theorem lookup_accepted_eq_some_iff (increasing : Increasing members) {source file : String} :
    (accepted builtFile? members).lookup source = some file ↔ IsBuilt members source file := by
  rw [(increasing.accepted builtFile?).lookup_eq_some_iff, mem_accepted_iff]
  simp only [builtFile?_eq_some_iff]
  rfl

end

variable {preload : Preload}

/-! ### The first place -/

/-- The object that tells the built files: the one in the directory of the build tool, or, only if
there is none, the one in the directory of the build. -/
def Uses (preload : Preload) (tree : FileTree) (members : List (String × Value)) : Prop :=
  let build := preload.publicDir.join ⟨preload.buildPath⟩
  HoldsObject tree (build.join ⟨".vite/manifest.json"⟩) members ∨
    (∀ others, ¬HoldsObject tree (build.join ⟨".vite/manifest.json"⟩) others) ∧
      HoldsObject tree (build.join ⟨"manifest.json"⟩) members

section

variable {tree : FileTree} {members : List (String × Value)}

theorem Uses.unique {others : List (String × Value)} (uses : preload.Uses tree members)
    (usesToo : preload.Uses tree others) : members = others := by
  rcases uses with first | ⟨noFirst, second⟩
  · rcases usesToo with firstToo | ⟨noFirst, -⟩
    · exact first.unique firstToo
    · exact absurd first (noFirst members)
  · rcases usesToo with firstToo | ⟨-, secondToo⟩
    · exact absurd firstToo (noFirst others)
    · exact second.unique secondToo

theorem Uses.increasing (uses : preload.Uses tree members) : Increasing members := by
  rcases uses with first | ⟨-, second⟩
  · exact first.increasing
  · exact second.increasing

theorem buildManifest?_eq_some_iff {build : BuildManifest} :
    preload.buildManifest? tree = some build ↔
      ∃ members, preload.Uses tree members ∧ accepted builtFile? members = build := by
  rw [buildManifest?, buildManifestPaths, List.findSome?_cons, List.findSome?_singleton]
  cases found : buildManifestAt? tree
      ((preload.publicDir.join ⟨preload.buildPath⟩).join ⟨".vite/manifest.json"⟩) with
  | some first =>
      obtain ⟨members, held, rfl⟩ := buildManifestAt?_eq_some_iff.mp found
      constructor
      · intro same
        exact ⟨members, .inl held, Option.some.inj same⟩
      · rintro ⟨others, uses, rfl⟩
        rw [Uses.unique (.inl held) uses]
  | none =>
      have noFirst (others : List (String × Value)) : ¬HoldsObject tree
          ((preload.publicDir.join ⟨preload.buildPath⟩).join ⟨".vite/manifest.json"⟩) others := by
        intro held
        rw [buildManifestAt?_eq_some_iff.mpr ⟨others, held, rfl⟩] at found
        cases found
      simp only [buildManifestAt?_eq_some_iff, Uses]
      constructor
      · rintro ⟨members, held, same⟩
        exact ⟨members, .inr ⟨noFirst, held⟩, same⟩
      · rintro ⟨members, held | ⟨-, held⟩, same⟩
        · exact absurd held (noFirst members)
        · exact ⟨members, held, same⟩

end

/-! ### The first extension -/

def source (preload : Preload) (component extension : String) : String :=
  preload.pagesDirectory ++ "/" ++ component ++ "." ++ extension

def Picks (preload : Preload) (members : List (String × Value)) (component file : String) : Prop :=
  ∃ before extension behind, pageExtensions = before ++ extension :: behind ∧
    IsBuilt members (preload.source component extension) file ∧
    ∀ earlier ∈ before, ∀ other, ¬IsBuilt members (preload.source component earlier) other

def IsUnbuilt (preload : Preload) (members : List (String × Value)) (component : String) : Prop :=
  ∀ extension ∈ pageExtensions, ∀ file, ¬IsBuilt members (preload.source component extension) file

inductive Shows (preload : Preload) (members : List (String × Value)) :
    List String → List String → Prop where
  | nil : Shows preload members [] []
  | tag {component file : String} {components tags : List String}
      (picks : preload.Picks members component file)
      (others : Shows preload members components tags) :
      Shows preload members (component :: components) (preload.tag file :: tags)
  | skip {component : String} {components tags : List String}
      (unbuilt : preload.IsUnbuilt members component)
      (others : Shows preload members components tags) :
      Shows preload members (component :: components) tags

section

variable {members : List (String × Value)} {component : String}

theorem fileOf?_accepted_eq_some_iff (increasing : Increasing members) {file : String} :
    preload.fileOf? (accepted builtFile? members) component = some file ↔
      preload.Picks members component file := by
  simp only [fileOf?, List.findSome?_eq_some_iff, Option.eq_none_iff_forall_ne_some, ne_eq,
    lookup_accepted_eq_some_iff increasing]
  rfl

theorem fileOf?_accepted_eq_none_iff (increasing : Increasing members) :
    preload.fileOf? (accepted builtFile? members) component = none ↔
      preload.IsUnbuilt members component := by
  rw [fileOf?, List.findSome?_eq_none_iff]
  simp only [Option.eq_none_iff_forall_ne_some, ne_eq, lookup_accepted_eq_some_iff increasing]
  rfl

theorem shows_tags (increasing : Increasing members) (components : List String) :
    preload.Shows members components (preload.tags (accepted builtFile? members) components) := by
  induction components with
  | nil => exact .nil
  | cons component components ih =>
      rw [tags] at ih ⊢
      rw [List.filterMap_cons]
      cases found : preload.fileOf? (accepted builtFile? members) component with
      | none => exact .skip ((fileOf?_accepted_eq_none_iff increasing).mp found) ih
      | some file => exact .tag ((fileOf?_accepted_eq_some_iff increasing).mp found) ih

theorem tags_accepted_eq_nil_iff (increasing : Increasing members) {components : List String} :
    preload.tags (accepted builtFile? members) components = [] ↔
      ∀ component ∈ components, preload.IsUnbuilt members component := by
  simp only [tags, List.filterMap_eq_nil_iff, Option.map_eq_none_iff,
    fileOf?_accepted_eq_none_iff increasing]

end

/-- A source file belongs to one component and one extension, as no extension holds a dot. -/
theorem component_eq_of_source_eq {component other extension otherExtension : String}
    (listed : extension ∈ pageExtensions) (otherListed : otherExtension ∈ pageExtensions)
    (same : preload.source component extension = preload.source other otherExtension) :
    component = other := by
  have noDot (extension : String) (listed : extension ∈ pageExtensions) :
      '.' ∉ extension.toList.reverse := by
    revert extension
    decide
  have cut (component extension : String) (listed : extension ∈ pageExtensions) :
      Text.cutAtFirst? '.' (component ++ "." ++ extension).toList.reverse =
        some (extension.toList.reverse, component.toList.reverse) := by
    refine Text.cutAtFirst?_eq_some_iff.mpr ⟨?_, noDot extension listed⟩
    simp
  have sameEnd : component ++ "." ++ extension = other ++ "." ++ otherExtension := by
    simpa [source, String.append_assoc] using same
  have cutSame := cut component extension listed
  rw [sameEnd, cut other otherExtension otherListed] at cutSame
  have reversed := (Prod.mk.inj (Option.some.inj cutSame)).2
  exact String.toList_inj.mp (List.reverse_injective reversed.symm)

theorem Picks.of_isBuilt_iff {members others : List (String × Value)} {component file : String}
    (picks : preload.Picks members component file)
    (same : ∀ extension ∈ pageExtensions, ∀ file,
      IsBuilt members (preload.source component extension) file ↔
        IsBuilt others (preload.source component extension) file) :
    preload.Picks others component file := by
  obtain ⟨before, extension, behind, split, built, noEarlier⟩ := picks
  have listed : extension ∈ pageExtensions := by
    rw [split]
    exact List.mem_append_right before List.mem_cons_self
  refine ⟨before, extension, behind, split, (same extension listed file).mp built, ?_⟩
  intro earlier member otherFile built
  have earlierListed : earlier ∈ pageExtensions := by
    rw [split]
    exact List.mem_append_left _ member
  exact noEarlier earlier member otherFile ((same earlier earlierListed otherFile).mpr built)

/-- What is built for one component does not matter to any other. -/
theorem picks_iff_of_other_component {members others : List (String × Value)} {component : String}
    (same : ∀ source,
      (∀ extension ∈ pageExtensions, source ≠ preload.source component extension) →
        ∀ file, IsBuilt members source file ↔ IsBuilt others source file)
    {other : String} (different : other ≠ component) (file : String) :
    preload.Picks members other file ↔ preload.Picks others other file := by
  have sameOther (extension : String) (listed : extension ∈ pageExtensions) (file : String) :
      IsBuilt members (preload.source other extension) file ↔
        IsBuilt others (preload.source other extension) file := by
    refine same _ (fun otherExtension otherListed sameSource => ?_) file
    exact different (component_eq_of_source_eq listed otherListed sameSource)
  constructor
  · intro picks
    exact picks.of_isBuilt_iff sameOther
  · intro picks
    exact picks.of_isBuilt_iff fun extension listed file => (sameOther extension listed file).symm

/-! ### The text of the tags -/

theorem text_eq {tree : FileTree} {members : List (String × Value)}
    (uses : preload.Uses tree members) :
    preload.text tree = tagSeparator.intercalate
      (preload.tags (accepted builtFile? members) (preload.components tree)) := by
  delta text
  rw [buildManifest?_eq_some_iff.mpr ⟨members, uses, rfl⟩]

theorem text_eq_empty {tree : FileTree} (unused : ∀ members, ¬preload.Uses tree members) :
    preload.text tree = "" := by
  delta text
  cases found : preload.buildManifest? tree with
  | none => rfl
  | some build =>
      obtain ⟨members, uses, -⟩ := buildManifest?_eq_some_iff.mp found
      exact absurd uses (unused members)

theorem text_eq_empty_iff {tree : FileTree} {members : List (String × Value)}
    (uses : preload.Uses tree members) :
    preload.text tree = "" ↔
      ∀ component ∈ preload.components tree, preload.IsUnbuilt members component := by
  rw [text_eq uses, intercalate_eq_empty_iff fun tag => tags_ne_empty,
    tags_accepted_eq_nil_iff uses.increasing]

/-- Objects in which the same source files have the same built files give the same tags. -/
theorem tags_eq_of_isBuilt_iff {members others : List (String × Value)}
    (increasing : Increasing members) (othersIncreasing : Increasing others)
    (same : ∀ source file, IsBuilt members source file ↔ IsBuilt others source file)
    (components : List String) :
    preload.tags (accepted builtFile? members) components =
      preload.tags (accepted builtFile? others) components := by
  have sameLookup (source : String) : (accepted builtFile? members).lookup source =
      (accepted builtFile? others).lookup source := by
    refine Option.ext fun file => ?_
    rw [lookup_accepted_eq_some_iff increasing, lookup_accepted_eq_some_iff othersIncreasing]
    exact same source file
  simp only [tags, fileOf?, sameLookup]

/-- The text is made of the tags of the components that the manifest of the routes names, in their
order, each by the first of its extensions that has a built file, and nothing is printed where there
is no such file. The built files are told by the object in the first place, and by the one in the
second place only if the first holds none. Entries that name no built file are as if they were not
there, and an entry for one component does not matter to any other. -/
theorem text_shows_built_components (root : FilePath) (settings : Settings) (tree : FileTree) :
    let preload := ofSettings root settings
    let components := (tree.readText? preload.manifestPath).elim [] Manifest.componentsIn
    ((∃ members tags, preload.Uses tree members ∧ preload.Shows members components tags ∧
          preload.text tree = tagSeparator.intercalate tags) ∨
        (∀ members, ¬preload.Uses tree members) ∧ preload.text tree = "") ∧
      (preload.text tree = "" ↔
        ∀ members, preload.Uses tree members →
          ∀ component ∈ components, preload.IsUnbuilt members component) ∧
      (∀ other members others, preload.Uses tree members → preload.Uses other others →
        other.readText? preload.manifestPath = tree.readText? preload.manifestPath →
        (∀ source file, IsBuilt members source file ↔ IsBuilt others source file) →
        preload.text tree = preload.text other) ∧
      ∀ members others component,
        (∀ source, (∀ extension ∈ pageExtensions, source ≠ preload.source component extension) →
          ∀ file, IsBuilt members source file ↔ IsBuilt others source file) →
        ∀ other ≠ component, ∀ file,
          preload.Picks members other file ↔ preload.Picks others other file := by
  intro preload components
  have named : components = preload.components tree := by
    rw [Preload.components]
    cases found : tree.readText? preload.manifestPath <;> simp only [components, found, Option.elim]
  rw [named]
  refine ⟨?_, ?_, ?_, ?_⟩
  · by_cases used : ∃ members, preload.Uses tree members
    · obtain ⟨members, uses⟩ := used
      exact .inl ⟨members, _, uses, shows_tags uses.increasing _, text_eq uses⟩
    · have unused := not_exists.mp used
      exact .inr ⟨unused, text_eq_empty unused⟩
  · constructor
    · intro empty members uses
      exact (text_eq_empty_iff uses).mp empty
    · intro unbuilt
      by_cases used : ∃ members, preload.Uses tree members
      · obtain ⟨members, uses⟩ := used
        exact (text_eq_empty_iff uses).mpr (unbuilt members uses)
      · exact text_eq_empty (not_exists.mp used)
  · intro other members others uses usesOther sameText same
    have sameComponents : preload.components other = preload.components tree := by
      rw [Preload.components, Preload.components, sameText]
    rw [text_eq uses, text_eq usesOther, sameComponents,
      tags_eq_of_isBuilt_iff uses.increasing usesOther.increasing same]
  · intro members others component same other different file
    exact picks_iff_of_other_component same different file

/-- The first place holds no object, and the preferred source file has no built file. -/
example :
    Preload.text ⟨⟨"/m"⟩, ⟨"/"⟩, "", "p", ""⟩
      ⟨[ ("m", .file (.text "component:'A'component:'B'")),
          (".vite", .directory [("manifest.json", .file (.text "[]"))]),
          ("manifest.json", .file (.text
            r#"{"p/A.ts":[],"p/A.js":["/a"],"p/B.ts":1}"#)) ], []⟩ =
      "<link rel=\"modulepreload\" href=\"/a\">" := by
  decide +kernel

end Preload

end PageRoutes
