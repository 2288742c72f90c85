import PageRoutes.Command.Run
import PageRoutes.Proofs.Host.Namespaces
import PageRoutes.Proofs.Text.Recogniser
/-!
Where the file lies that is found for a class. A lookup makes its attempts one after the other, each
in a directory and with a part of the class name. A part that begins with a separator becomes an
absolute path, which takes the place of the directory when it is joined to it; with any other part
the file lies under the directory, component by component.
-/

set_option autoImplicit false

namespace PageRoutes

open Text

namespace FilePath

/-- What a path is compared by: the root, if it is absolute, and the names that lead somewhere. A
relative path may also begin by staying where it is. -/
def components (path : FilePath) : List String :=
  match path.names with
  | [] => []
  | first :: others =>
      (if path.isAbsolute then ["/"] else if first = "" then [] else [first]) ++
        others.filter (!isIdle ·)

def IsUnder (path base : FilePath) : Prop :=
  base.components <+: path.components

instance (path base : FilePath) : Decidable (path.IsUnder base) :=
  inferInstanceAs (Decidable (base.components <+: path.components))

end FilePath

/-! ### Paths under a directory -/

namespace FilePath

theorem components_ofList {text first : List Char} {others : List (List Char)}
    (cut : splitOn '/' text = first :: others) :
    (⟨String.ofList text⟩ : FilePath).components =
      (if text.head? == some '/' then ["/"]
        else if String.ofList first = "" then [] else [String.ofList first]) ++
        (others.map String.ofList).filter (!isIdle ·) := by
  unfold components names isAbsolute
  rw [String.toList_ofList, cut]
  rfl

theorem components_append_slash (front rest : List Char) :
    (⟨String.ofList (front ++ '/' :: rest)⟩ : FilePath).components =
      (⟨String.ofList (front ++ ['/'])⟩ : FilePath).components ++
        ((splitOn '/' rest).map String.ofList).filter (!isIdle ·) := by
  have endsIdle : ((splitOn '/' []).map String.ofList).filter (!isIdle ·) = [] := by decide
  have sameRoot : (front ++ '/' :: rest).head? = (front ++ ['/']).head? := by
    cases front <;> rfl
  rcases List.exists_cons_of_ne_nil (splitOn_ne_nil '/' front) with ⟨first, others, cut⟩
  have cutOf (behind : List Char) :
      splitOn '/' (front ++ '/' :: behind) = first :: (others ++ splitOn '/' behind) := by
    rw [splitOn_append, cut, List.cons_append]
  rw [components_ofList (cutOf rest), components_ofList (cutOf []), sameRoot, List.map_append,
    List.filter_append, List.map_append, List.filter_append, endsIdle, List.append_nil,
    List.append_assoc]

/-- A slash at the end of a path does not count, unless it is all that there is. -/
theorem components_slash_end {front : List Char} (nonempty : front ≠ []) :
    (⟨String.ofList (front ++ ['/'])⟩ : FilePath).components =
      (⟨String.ofList front⟩ : FilePath).components := by
  have endsIdle : ((splitOn '/' []).map String.ofList).filter (!isIdle ·) = [] := by decide
  have sameRoot : (front ++ ['/']).head? = front.head? := by
    cases front with
    | nil => exact absurd rfl nonempty
    | cons c front => rfl
  rcases List.exists_cons_of_ne_nil (splitOn_ne_nil '/' front) with ⟨first, others, cut⟩
  have cutToo : splitOn '/' (front ++ ['/']) = first :: (others ++ splitOn '/' []) := by
    rw [splitOn_append, cut, List.cons_append]
  rw [components_ofList cutToo, components_ofList cut, sameRoot, List.map_append,
    List.filter_append, endsIdle, List.append_nil]

theorem isUnder_join (base : FilePath) {path : FilePath} (relative : path.isAbsolute = false) :
    (base.join path).IsUnder base := by
  have baseText : base = ⟨String.ofList base.text.toList⟩ := by rw [String.ofList_toList]
  unfold join IsUnder
  rw [if_neg (by simp [relative])]
  split
  · next short =>
      rcases short with isEmpty | endsWithSlash
      · have noComponents : base.components = [] := by
          rw [baseText, String.isEmpty_iff.mp isEmpty]
          rfl
        rw [noComponents]
        exact List.nil_prefix
      · rcases List.getLast?_eq_some_iff.mp endsWithSlash with ⟨front, isBase⟩
        have joined :
            base.text ++ path.text = String.ofList (front ++ '/' :: path.text.toList) := by
          apply String.toList_injective
          simp [isBase]
        rw [joined, components_append_slash, baseText, isBase]
        exact List.prefix_append _ _
  · next other =>
      have nonempty : base.text.toList ≠ [] := by
        intro isNil
        exact other (.inl (by simpa using isNil))
      have joined : base.text ++ "/" ++ path.text =
          String.ofList (base.text.toList ++ '/' :: path.text.toList) := by
        apply String.toList_injective
        simp
      rw [joined, components_append_slash, components_slash_end nonempty, ← baseText]
      exact List.prefix_append _ _

theorem join_of_isAbsolute (base : FilePath) {path : FilePath} (absolute : path.isAbsolute = true) :
    base.join path = path := by
  rw [join, if_pos absolute]

end FilePath

/-! ### Attempts -/

def BeginsWithSeparator (part : List Char) : Prop :=
  ∃ c ∈ part.head?, c = '\\' ∨ c = '/'

theorem isAbsolute_sourceFileName {part : List Char} :
    (sourceFileName part).isAbsolute = true ↔ BeginsWithSeparator part := by
  unfold FilePath.isAbsolute sourceFileName BeginsWithSeparator exchange
  cases part with
  | nil => simp
  | cons c part =>
      by_cases separator : c = '\\'
      · simp [separator]
      · simp [separator]

theorem sourceFileName_of_not_mem {part : List Char} (noBackslash : '\\' ∉ part) :
    sourceFileName part = ⟨String.ofList part ++ ".php"⟩ := by
  have unchanged : ∀ c ∈ part, (if c = '\\' then '/' else c) = id c := by
    intro c member
    have isOther : c ≠ '\\' := fun isBackslash => noBackslash (isBackslash ▸ member)
    exact if_neg isOther
  rw [sourceFileName, exchange, List.map_congr_left unchanged, List.map_id]

/-- A directory in which a class is looked for, and the part of the class name that leads to a file
there. -/
structure Attempt where
  directory : FilePath
  part : List Char
deriving DecidableEq, Repr

def Attempt.path (attempt : Attempt) : FilePath :=
  attempt.directory.join (sourceFileName attempt.part)

theorem Attempt.path_of_separator {attempt : Attempt} (begins : BeginsWithSeparator attempt.part) :
    attempt.path = sourceFileName attempt.part :=
  FilePath.join_of_isAbsolute _ (isAbsolute_sourceFileName.mpr begins)

theorem Attempt.isUnder {attempt : Attempt} (relative : ¬BeginsWithSeparator attempt.part) :
    attempt.path.IsUnder attempt.directory := by
  apply FilePath.isUnder_join
  rw [← Bool.not_eq_true, isAbsolute_sourceFileName]
  exact relative

/-- The parts of the name of a controller that lead to its file: what stands behind the namespace of
controllers, then what stands behind all namespaces. -/
def controllerParts (className : String) : List (List Char) :=
  (behindFirst? "Controllers\\".toList (bareClassName className)).toList ++
    [shortClassName (bareClassName className)]

theorem not_mem_shortClassName (className : List Char) : '\\' ∉ shortClassName className := by
  unfold shortClassName
  rw [List.mem_reverse]
  intro member
  have kept := List.all_eq_true.mp List.all_takeWhile _ member
  simp at kept

theorem controllerFileNames_eq (className : String) :
    controllerFileNames className = (controllerParts className).map sourceFileName := by
  simp only [controllerFileNames, controllerParts]
  rw [List.map_append, List.map_singleton,
    sourceFileName_of_not_mem (not_mem_shortClassName _)]
  cases behindFirst? "Controllers\\".toList (bareClassName className) <;> rfl

namespace ClassLookup

def directories : ClassLookup → List FilePath
  | .namespaces map => map.namespaces.flatMap (·.directories)
  | .controllers directories => directories
  | .assigned _ => []
  | .chain first second => first.directories ++ second.directories

def attempts : ClassLookup → String → List Attempt
  | .namespaces map, className =>
      map.namespaces.flatMap fun entry =>
        (after? entry.name.toList (bareClassName className)).elim [] fun part =>
          entry.directories.map (⟨·, part⟩)
  | .controllers directories, className =>
      directories.flatMap fun directory => (controllerParts className).map (⟨directory, ·⟩)
  | .assigned _, _ => []
  | .chain first second, className => first.attempts className ++ second.attempts className

/-- No part of a lookup assigns a file without looking for it. -/
def Searches : ClassLookup → Prop
  | .namespaces _ => True
  | .controllers _ => True
  | .assigned _ => False
  | .chain first second => first.Searches ∧ second.Searches

theorem mem_attempts_namespaces {map : NamespaceMap} {className : String} {attempt : Attempt}
    (member : attempt ∈ (namespaces map).attempts className) :
    ∃ entry ∈ map.namespaces, attempt.directory ∈ entry.directories ∧
      bareClassName className = entry.name.toList ++ attempt.part := by
  rcases List.mem_flatMap.mp member with ⟨entry, inMap, tried⟩
  cases found : after? entry.name.toList (bareClassName className) with
  | none =>
      rw [found] at tried
      cases tried
  | some part =>
      rw [found] at tried
      rcases List.mem_map.mp tried with ⟨directory, registered, rfl⟩
      exact ⟨entry, inMap, registered, after?_eq_some_iff.mp found⟩

theorem mem_attempts_controllers {directories : List FilePath} {className : String}
    {attempt : Attempt} (member : attempt ∈ (controllers directories).attempts className) :
    attempt.directory ∈ directories ∧ attempt.part ∈ controllerParts className := by
  rcases List.mem_flatMap.mp member with ⟨directory, registered, tried⟩
  rcases List.mem_map.mp tried with ⟨part, isPart, rfl⟩
  exact ⟨registered, isPart⟩

theorem mem_directories_of_mem_attempts {lookup : ClassLookup} {className : String}
    {attempt : Attempt} (member : attempt ∈ lookup.attempts className) :
    attempt.directory ∈ lookup.directories := by
  induction lookup with
  | namespaces map =>
      rcases mem_attempts_namespaces member with ⟨entry, inMap, registered, -⟩
      exact List.mem_flatMap.mpr ⟨entry, inMap, registered⟩
  | controllers directories => exact (mem_attempts_controllers member).1
  | assigned find => cases member
  | chain first second ihFirst ihSecond =>
      rcases List.mem_append.mp member with inFirst | inSecond
      · exact List.mem_append_left _ (ihFirst inFirst)
      · exact List.mem_append_right _ (ihSecond inSecond)

theorem locate_eq_find? {lookup : ClassLookup} (searches : lookup.Searches) (tree : FileTree)
    (className : String) :
    lookup.locate tree className =
      ((lookup.attempts className).map Attempt.path).find? tree.isFile := by
  induction lookup with
  | namespaces map =>
      rw [locate, NamespaceMap.locate, attempts, List.map_flatMap, List.find?_flatMap]
      congr 1
      funext entry
      cases after? entry.name.toList (bareClassName className) with
      | none => rfl
      | some part =>
          simp only [Option.bind_some, Option.elim_some, List.map_map]
          rfl
  | controllers directories =>
      rw [locate, locateController, controllerFileNames_eq, attempts, List.map_flatMap,
        List.find?_flatMap]
      congr 1
      funext directory
      simp only [List.map_map]
      rfl
  | assigned find => cases searches
  | chain first second ihFirst ihSecond =>
      rw [locate, ihFirst searches.1, ihSecond searches.2, attempts, List.map_append,
        List.find?_append]

end ClassLookup

/-! ### Names of classes -/

/-- A class name without slashes and with no two backslashes in a row, those in front of it
excepted. -/
structure IsQualifiedName (className : String) : Prop where
  noSlash : '/' ∉ className.toList
  single : ¬['\\', '\\'] <:+: bareClassName className

theorem mem_of_mem_bareClassName {c : Char} {className : String}
    (member : c ∈ bareClassName className) : c ∈ className.toList :=
  (List.dropWhile_suffix _).mem member

theorem head?_bareClassName (className : String) :
    ∀ c ∈ (bareClassName className).head?, c ≠ '\\' := by
  have stops := List.head?_dropWhile_not (· == '\\') className.toList
  intro c isHead
  rw [bareClassName] at isHead
  rw [Option.mem_def.mp isHead] at stops
  simpa using stops

/-- What stands behind a namespace of a class name, or behind nothing, begins with no separator. -/
theorem IsQualifiedName.not_begins {className : String} (qualified : IsQualifiedName className)
    {front part : List Char} (cut : bareClassName className = front ++ part)
    (ends : front = [] ∨ front.getLast? = some '\\') : ¬BeginsWithSeparator part := by
  intro begins
  rcases begins with ⟨c, isHead, isSeparator⟩
  rcases List.head?_eq_some_iff.mp isHead with ⟨rest, rfl⟩
  rcases isSeparator with rfl | rfl
  · rcases ends with rfl | atEnd
    · exact head?_bareClassName className '\\' (by rw [cut]; rfl) rfl
    · rcases List.getLast?_eq_some_iff.mp atEnd with ⟨before, rfl⟩
      exact qualified.single ⟨before, rest, by rw [cut]; simp⟩
  · exact qualified.noSlash (mem_of_mem_bareClassName (by rw [cut]; simp))

/-- Namespaces as they are put into a map: empty, or with a backslash at the end. -/
def NamespaceMap.WellNamed (map : NamespaceMap) : Prop :=
  ∀ entry ∈ map.namespaces, entry.name.toList = [] ∨ entry.name.toList.getLast? = some '\\'

namespace NamespaceMap

theorem wellNamed_empty (root : FilePath) : (empty root).WellNamed := by
  intro entry member
  cases member

theorem WellNamed.insert {map : NamespaceMap} (wellNamed : map.WellNamed) (name : String)
    (directories : List FilePath) : (map.insert name directories).WellNamed := by
  intro entry member
  rcases mem_insertByLength.mp member with rfl | inMap
  · unfold namespaceName
    simp only
    split
    · next kept =>
        rw [String.toList_ofList]
        exact kept.imp_left List.isEmpty_iff.mp
    · rw [String.toList_ofList, List.getLast?_concat]
      exact .inr rfl
  · exact wellNamed entry inMap

end NamespaceMap

namespace Composer

theorem wellNamed_namespaceMap (tree : FileTree) (root : FilePath) :
    (namespaceMap tree root).WellNamed := by
  have addition {map : NamespaceMap} (wellNamed : map.WellNamed)
      (namespaces : List (String × Json.Value)) : (addNamespaces map namespaces).WellNamed := by
    unfold addNamespaces
    induction namespaces generalizing map with
    | nil => exact wellNamed
    | cons member namespaces ih =>
        rcases member with ⟨name, value⟩
        rw [List.foldl_cons]
        apply ih
        dsimp only
        split
        · next directories _ => exact wellNamed.insert name directories
        · exact wellNamed
  rw [namespaceMap_eq_toMap]
  exact addition (addition (NamespaceMap.wellNamed_empty root) _) _

end Composer

namespace ClassLookup

def WellNamed : ClassLookup → Prop
  | .namespaces map => map.WellNamed
  | .controllers _ => True
  | .assigned _ => True
  | .chain first second => first.WellNamed ∧ second.WellNamed

end ClassLookup

theorem exists_front_of_mem_controllerParts {className : String} {part : List Char}
    (member : part ∈ controllerParts className) :
    ∃ front, bareClassName className = front ++ part ∧
      (front = [] ∨ front.getLast? = some '\\') := by
  unfold controllerParts at member
  rcases List.mem_append.mp member with isNested | isShort
  · have found := Option.mem_toList.mp isNested
    rcases exists_of_leftmost? found with ⟨before, behind, cut, read⟩
    refine ⟨before ++ "Controllers\\".toList, ?_, .inr ?_⟩
    · rw [cut, after?_eq_some_iff.mp read, List.append_assoc]
    · simp
  · rw [List.mem_singleton.mp isShort]
    let reversed := (bareClassName className).reverse
    refine ⟨(reversed.dropWhile (· ≠ '\\')).reverse, ?_, ?_⟩
    · rw [shortClassName, ← List.reverse_append, List.takeWhile_append_dropWhile,
        List.reverse_reverse]
    · have stops := List.head?_dropWhile_not (· ≠ '\\') reversed
      rw [List.getLast?_reverse, List.reverse_eq_nil_iff]
      cases first : (reversed.dropWhile (· ≠ '\\')).head? with
      | none => exact .inl (List.head?_eq_none_iff.mp first)
      | some c =>
          rw [first] at stops
          right
          simpa using stops

namespace ClassLookup

theorem relative_of_qualified {lookup : ClassLookup} (wellNamed : lookup.WellNamed)
    {className : String} (qualified : IsQualifiedName className) {attempt : Attempt}
    (member : attempt ∈ lookup.attempts className) : ¬BeginsWithSeparator attempt.part := by
  induction lookup with
  | namespaces map =>
      rcases mem_attempts_namespaces member with ⟨entry, inMap, -, cut⟩
      exact qualified.not_begins cut (wellNamed entry inMap)
  | controllers directories =>
      rcases exists_front_of_mem_controllerParts (mem_attempts_controllers member).2 with
        ⟨front, cut, ends⟩
      exact qualified.not_begins cut ends
  | assigned find => cases member
  | chain first second ihFirst ihSecond =>
      rcases List.mem_append.mp member with inFirst | inSecond
      · exact ihFirst wellNamed.1 inFirst
      · exact ihSecond wellNamed.2 inSecond

/-- Some attempt led to the file that is found. -/
theorem exists_attempt_of_locate {lookup : ClassLookup} (searches : lookup.Searches)
    {tree : FileTree} {className : String} {path : FilePath}
    (found : lookup.locate tree className = some path) :
    ∃ attempt ∈ lookup.attempts className, attempt.path = path := by
  rw [locate_eq_find? searches] at found
  exact List.mem_map.mp (List.mem_of_find?_eq_some found)

theorem locate_eq_of_first {lookup : ClassLookup} (searches : lookup.Searches) {tree : FileTree}
    {className : String} {before behind : List Attempt} {attempt : Attempt}
    (split : lookup.attempts className = before ++ attempt :: behind)
    (noneEarlier : ∀ other ∈ before, tree.isFile other.path = false)
    (isFile : tree.isFile attempt.path = true) :
    lookup.locate tree className = some attempt.path := by
  have nothing : (before.map Attempt.path).find? tree.isFile = none := by
    rw [List.find?_eq_none]
    intro path member
    rcases List.mem_map.mp member with ⟨other, isEarlier, rfl⟩
    simp [noneEarlier other isEarlier]
  rw [locate_eq_find? searches, split, List.map_append, List.find?_append, nothing, Option.none_or,
    List.map_cons, List.find?_cons_of_pos isFile]

theorem isUnder_of_qualified {lookup : ClassLookup} (searches : lookup.Searches)
    (wellNamed : lookup.WellNamed) {tree : FileTree} {className : String}
    (qualified : IsQualifiedName className) {path : FilePath}
    (found : lookup.locate tree className = some path) :
    ∃ directory ∈ lookup.directories, path.IsUnder directory := by
  rcases exists_attempt_of_locate searches found with ⟨attempt, member, rfl⟩
  exact ⟨attempt.directory, mem_directories_of_mem_attempts member,
    attempt.isUnder (relative_of_qualified wellNamed qualified member)⟩

/-- The file that is found for a class lies under a directory that the lookup was given, or it is
named by an absolute path that a part of the class name spells. A name that is written as class
names are leads to no file of the second kind; but a part that begins with a separator leads to the
file it spells, wherever this is, if no earlier attempt finds any. -/
theorem located_file_is_inside_or_absolute (lookup : ClassLookup) (searches : lookup.Searches)
    (tree : FileTree) (className : String) :
    (∀ path, lookup.locate tree className = some path →
      (∃ directory ∈ lookup.directories, path.IsUnder directory) ∨
        ∃ attempt ∈ lookup.attempts className,
          BeginsWithSeparator attempt.part ∧ path = sourceFileName attempt.part) ∧
    (lookup.WellNamed → IsQualifiedName className →
      ∀ path, lookup.locate tree className = some path →
        ∃ directory ∈ lookup.directories, path.IsUnder directory) ∧
    ∀ before attempt behind, lookup.attempts className = before ++ attempt :: behind →
      (∀ other ∈ before, tree.isFile other.path = false) →
      BeginsWithSeparator attempt.part → tree.isFile (sourceFileName attempt.part) = true →
        (sourceFileName attempt.part).isAbsolute = true ∧
          lookup.locate tree className = some (sourceFileName attempt.part) := by
  refine ⟨?_, ?_, ?_⟩
  · intro path found
    rcases exists_attempt_of_locate searches found with ⟨attempt, member, rfl⟩
    by_cases begins : BeginsWithSeparator attempt.part
    · exact .inr ⟨attempt, member, begins, attempt.path_of_separator begins⟩
    · exact .inl ⟨attempt.directory, mem_directories_of_mem_attempts member,
        attempt.isUnder begins⟩
  · intro wellNamed qualified path found
    exact isUnder_of_qualified searches wellNamed qualified found
  · intro before attempt behind split noneEarlier begins isFile
    have spelled := attempt.path_of_separator begins
    rw [← spelled] at isFile
    refine ⟨isAbsolute_sourceFileName.mpr begins, ?_⟩
    rw [locate_eq_of_first searches split noneEarlier isFile, spelled]

def appAndControllers : ClassLookup :=
  .chain (.namespaces ((NamespaceMap.empty ⟨"/srv"⟩).insert "App" [⟨"app"⟩]))
    (.controllers [⟨"/srv/app/Http/Controllers"⟩])

def serverWithPages : FileTree where
  entries :=
    [ ("srv", .directory [("app", .directory [("Page.php", .file (.text ""))])]),
      ("etc", .directory [("Page.php", .file (.text ""))]) ]
  workingDirectory := []

theorem page_is_found_outside :
    appAndControllers.locate serverWithPages "App\\\\etc\\Page" = some ⟨"/etc/Page.php"⟩ ∧
      appAndControllers.locate serverWithPages "/etc/Page" = some ⟨"/etc/Page.php"⟩ ∧
      (¬∃ directory ∈ appAndControllers.directories,
        (⟨"/etc/Page.php"⟩ : FilePath).IsUnder directory) ∧
      ∃ directory ∈ appAndControllers.directories,
        (⟨"/srv/app/Page.php"⟩ : FilePath).IsUnder directory := by
  have searches : appAndControllers.Searches := ⟨trivial, trivial⟩
  have wellNamed : appAndControllers.WellNamed :=
    ⟨(NamespaceMap.wellNamed_empty _).insert _ _, trivial⟩
  have byNamespace := (located_file_is_inside_or_absolute appAndControllers searches
    serverWithPages "App\\\\etc\\Page").2.2 [] ⟨⟨"/srv/app"⟩, "\\etc\\Page".toList⟩
      [⟨⟨"/srv/app/Http/Controllers"⟩, "Page".toList⟩] (by decide +kernel) (by decide)
      ⟨'\\', rfl, .inl rfl⟩ (by decide +kernel)
  have byDirectory := (located_file_is_inside_or_absolute appAndControllers searches
    serverWithPages "/etc/Page").2.2 [] ⟨⟨"/srv/app/Http/Controllers"⟩, "/etc/Page".toList⟩ []
      (by decide +kernel) (by decide) ⟨'/', rfl, .inr rfl⟩ (by decide +kernel)
  have inside := (located_file_is_inside_or_absolute appAndControllers searches
    serverWithPages "App\\Page").2.1 wellNamed ⟨by decide +kernel, by decide +kernel⟩
      ⟨"/srv/app/Page.php"⟩ (by decide +kernel)
  exact ⟨byNamespace.2, byDirectory.2, by decide +kernel, inside⟩

end ClassLookup

/-! ### The lookup of a project -/

namespace Command

variable (tree : FileTree) (root : FilePath) (settings : Settings)

theorem searches_layoutOf : (layoutOf tree root settings).classes.Searches :=
  ⟨trivial, trivial⟩

theorem wellNamed_layoutOf : (layoutOf tree root settings).classes.WellNamed :=
  ⟨Composer.wellNamed_namespaceMap tree root, trivial⟩

/-- Whatever a project registers, a name that is written as class names are leads to no file outside
of the directories that it registers. -/
theorem qualified_class_of_project_is_inside {className : String}
    (qualified : IsQualifiedName className) {path : FilePath}
    (found : (layoutOf tree root settings).classes.locate tree className = some path) :
    ∃ directory ∈ (layoutOf tree root settings).classes.directories, path.IsUnder directory :=
  ClassLookup.isUnder_of_qualified (searches_layoutOf tree root settings)
    (wellNamed_layoutOf tree root settings) qualified found

end Command

end PageRoutes
