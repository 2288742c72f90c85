import PageRoutes.Host.Composer
import Mathlib.Data.List.Perm.Basic
/-!
Which file the namespaces of a project lead to. They are put in one by one, in whatever order the
parts of `composer.json` are gone through, and a longer one always comes to stand in front of a
shorter one. Two different namespaces of one class are never equally long, so the order does not
show in what is found.
-/

set_option autoImplicit false

namespace PageRoutes

open Text

namespace NamespaceMap

/-! ### Putting namespaces in -/

def LongestFirst (entries : List NamespaceRoot) : Prop :=
  entries.Pairwise fun front behind => behind.name.utf8ByteSize ≤ front.name.utf8ByteSize

def directoriesOf (name : String) (entries : List NamespaceRoot) : List FilePath :=
  entries.flatMap fun entry => if entry.name = name then entry.directories else []

theorem directoriesOf_cons (name : String) (entry : NamespaceRoot)
    (entries : List NamespaceRoot) :
    directoriesOf name (entry :: entries) =
      (if entry.name = name then entry.directories else []) ++ directoriesOf name entries :=
  List.flatMap_cons

theorem directoriesOf_eq_nil {name : String} {entries : List NamespaceRoot}
    (absent : ∀ entry ∈ entries, entry.name ≠ name) : directoriesOf name entries = [] := by
  apply List.flatMap_eq_nil_iff.mpr
  intro entry member
  exact if_neg (absent entry member)

theorem mem_insertByLength {new other : NamespaceRoot} {entries : List NamespaceRoot} :
    other ∈ insertByLength new entries ↔ other = new ∨ other ∈ entries := by
  induction entries with
  | nil => simp [insertByLength]
  | cons old rest ih =>
      rw [insertByLength]
      split
      · rw [List.mem_cons]
      · rw [List.mem_cons, ih, List.mem_cons, or_left_comm]

theorem LongestFirst.insertByLength {entries : List NamespaceRoot}
    (sorted : LongestFirst entries) (new : NamespaceRoot) :
    LongestFirst (insertByLength new entries) := by
  induction entries with
  | nil => exact List.pairwise_singleton _ new
  | cons old rest ih =>
      obtain ⟨oldLongest, restSorted⟩ := List.pairwise_cons.mp sorted
      rw [NamespaceMap.insertByLength]
      split
      · next shorter =>
          refine List.pairwise_cons.mpr ⟨?_, sorted⟩
          intro other member
          rcases List.mem_cons.mp member with rfl | inRest
          · exact Nat.le_of_lt shorter
          · exact Nat.le_trans (oldLongest other inRest) (Nat.le_of_lt shorter)
      · next notShorter =>
          refine List.pairwise_cons.mpr ⟨?_, ih restSorted⟩
          intro other member
          rcases mem_insertByLength.mp member with rfl | inRest
          · exact Nat.le_of_not_lt notShorter
          · exact oldLongest other inRest

theorem directoriesOf_insertByLength {entries : List NamespaceRoot}
    (sorted : LongestFirst entries) (new : NamespaceRoot) (name : String) :
    directoriesOf name (insertByLength new entries) =
      directoriesOf name entries ++ if new.name = name then new.directories else [] := by
  induction entries with
  | nil => simp [insertByLength, directoriesOf]
  | cons old rest ih =>
      obtain ⟨oldLongest, restSorted⟩ := List.pairwise_cons.mp sorted
      rw [insertByLength]
      split
      · next shorter =>
          by_cases same : new.name = name
          · -- Nothing behind the new entry is as long, so nothing there has its name.
            have absent : ∀ entry ∈ old :: rest, entry.name ≠ name := by
              intro entry member equal
              rw [same, ← equal] at shorter
              rcases List.mem_cons.mp member with rfl | inRest
              · exact Nat.lt_irrefl _ shorter
              · exact absurd (oldLongest entry inRest) (Nat.not_le_of_lt shorter)
            rw [directoriesOf_cons, directoriesOf_eq_nil absent, List.append_nil, List.nil_append]
          · rw [directoriesOf_cons, if_neg same, List.nil_append, List.append_nil]
      · rw [directoriesOf_cons, ih restSorted, directoriesOf_cons, List.append_assoc]

structure Represents (map : NamespaceMap) (root : FilePath)
    (declared : String → List FilePath) : Prop where
  isRoot : map.root = root
  sorted : LongestFirst map.namespaces
  directories : ∀ name, directoriesOf name map.namespaces = (declared name).map root.join

theorem represents_empty (root : FilePath) : (empty root).Represents root fun _ => [] where
  isRoot := rfl
  sorted := List.Pairwise.nil
  directories := fun _ => rfl

theorem Represents.insert {map : NamespaceMap} {root : FilePath}
    {declared : String → List FilePath} (represents : map.Represents root declared)
    (key : String) (directories : List FilePath) :
    (map.insert key directories).Represents root fun name =>
      declared name ++ if namespaceName key = name then directories else [] where
  isRoot := represents.isRoot
  sorted := represents.sorted.insertByLength _
  directories := by
    intro name
    have inserted := directoriesOf_insertByLength represents.sorted
      ⟨namespaceName key, directories.map map.root.join⟩ name
    rw [NamespaceMap.insert, inserted, represents.directories, List.map_append,
      represents.isRoot]
    split <;> rfl

/-! ### Looking a class up -/

/-- The ways to cut a text in two, the longest front first. -/
def cuts : List Char → List (List Char × List Char)
  | [] => [([], [])]
  | c :: text => (cuts text).map (fun (front, rest) => (c :: front, rest)) ++ [([], c :: text)]

/-- The files that a class may be in: its namespaces from the longest to the empty one, and the
directories of each. The rest of the name, with slashes for backslashes, is joined to a directory
as any path is; it can only be absolute behind a repeated backslash. -/
def candidates (root : FilePath) (declared : String → List FilePath) (className : String) :
    List FilePath :=
  (cuts (bareClassName className)).flatMap fun (front, rest) =>
    (declared (String.ofList front)).map fun directory =>
      (root.join directory).join (sourceFileName rest)

theorem size_lt_size_of_cuts (text : List Char) :
    (cuts text).Pairwise fun longer shorter =>
      (String.ofList shorter.1).utf8ByteSize < (String.ofList longer.1).utf8ByteSize := by
  induction text with
  | nil => exact List.pairwise_singleton _ _
  | cons c text ih =>
      rw [cuts, List.pairwise_append]
      refine ⟨?_, List.pairwise_singleton _ _, ?_⟩
      · refine List.pairwise_map.mpr (ih.imp ?_)
        intro longer shorter shorterFront
        rw [String.ofList_cons, String.ofList_cons, String.utf8ByteSize_append,
          String.utf8ByteSize_append]
        omega
      · intro longer member shorter isLast
        obtain ⟨cut, -, rfl⟩ := List.mem_map.mp member
        rw [List.mem_singleton.mp isLast, String.ofList_cons, String.utf8ByteSize_append,
          String.utf8ByteSize_singleton]
        have positive := c.utf8Size_pos
        change 0 < _
        omega

/-- Only one cut has a given text in front. -/
theorem flatMap_cuts {α : Type} (name bare : List Char) (files : List Char → List α) :
    (cuts bare).flatMap (fun cut => if cut.1 = name then files cut.2 else []) =
      (after? name bare).elim [] files := by
  induction bare generalizing name with
  | nil =>
      cases name with
      | nil => simp [cuts, after?]
      | cons w name => simp [cuts, after?]
  | cons c text ih =>
      rw [cuts, List.flatMap_append, List.flatMap_map, List.flatMap_singleton]
      cases name with
      | nil =>
          have nothing : ((cuts text).flatMap fun cut =>
              if c :: cut.1 = [] then files cut.2 else []) = [] :=
            List.flatMap_eq_nil_iff.mpr fun cut _ => if_neg (List.cons_ne_nil c cut.1)
          rw [nothing]
          rfl
      | cons w name =>
          rw [if_neg (List.cons_ne_nil w name).symm, List.append_nil, after?]
          by_cases same : w = c
          · subst same
            rw [if_pos rfl, ← ih name]
            congr 1
            funext cut
            simp only [List.cons.injEq, true_and]
          · rw [if_neg same]
            apply List.flatMap_eq_nil_iff.mpr
            intro cut _
            exact if_neg fun equal => same (List.cons.inj equal).1.symm

/-- Two families of lists may be gone through one after the other if no list of the second stands in
front of one of the first. -/
theorem flatMap_append_of_pairwise {α β : Type} {first second : α → List β} {items : List α}
    (apart : items.Pairwise fun earlier later => first later = [] ∨ second earlier = []) :
    items.flatMap (fun item => first item ++ second item) =
      items.flatMap first ++ items.flatMap second := by
  induction items with
  | nil => rfl
  | cons item others ih =>
      obtain ⟨apartHere, apartBehind⟩ := List.pairwise_cons.mp apart
      have exchanged : second item ++ others.flatMap first =
          others.flatMap first ++ second item := by
        cases here : second item with
        | nil => rw [List.nil_append, List.append_nil]
        | cons file files =>
            have nothing : others.flatMap first = [] := by
              apply List.flatMap_eq_nil_iff.mpr
              intro other member
              rcases apartHere other member with isNil | isNil
              · exact isNil
              · rw [here] at isNil
                cases isNil
            rw [nothing, List.nil_append, List.append_nil]
      rw [List.flatMap_cons, List.flatMap_cons, List.flatMap_cons, ih apartBehind,
        List.append_assoc, ← List.append_assoc (second item), exchanged]
      simp only [List.append_assoc]

def filesOf (bare : List Char) (entry : NamespaceRoot) : List FilePath :=
  (after? entry.name.toList bare).elim [] fun rest =>
    entry.directories.map (·.join (sourceFileName rest))

theorem locate_eq_find? (map : NamespaceMap) (tree : FileTree) (className : String) :
    map.locate tree className =
      (map.namespaces.flatMap (filesOf (bareClassName className))).find? tree.isFile := by
  rw [List.find?_flatMap, locate]
  congr 1
  funext entry
  rw [filesOf]
  cases after? entry.name.toList (bareClassName className) with
  | none => rfl
  | some rest => rfl

theorem flatMap_filesOf {entries : List NamespaceRoot} (sorted : LongestFirst entries)
    (bare : List Char) :
    entries.flatMap (filesOf bare) = (cuts bare).flatMap fun (front, rest) =>
      (directoriesOf (String.ofList front) entries).map (·.join (sourceFileName rest)) := by
  induction entries with
  | nil => exact (List.flatMap_eq_nil_iff.mpr fun _ _ => rfl).symm
  | cons entry others ih =>
      obtain ⟨longest, othersSorted⟩ := List.pairwise_cons.mp sorted
      let own (cut : List Char × List Char) : List FilePath :=
        if cut.1 = entry.name.toList then entry.directories.map (·.join (sourceFileName cut.2))
        else []
      let behind (cut : List Char × List Char) : List FilePath :=
        (directoriesOf (String.ofList cut.1) others).map (·.join (sourceFileName cut.2))
      have apart : (cuts bare).Pairwise fun earlier later =>
          own later = [] ∨ behind earlier = [] := by
        refine (size_lt_size_of_cuts bare).imp ?_
        intro earlier later shorter
        by_cases atEntry : later.1 = entry.name.toList
        · right
          -- The other entries are no longer than this one, which is shorter than the earlier cut.
          have absent : ∀ other ∈ others, other.name ≠ String.ofList earlier.1 := by
            intro other member same
            have bounded := longest other member
            rw [atEntry, String.ofList_toList, ← same] at shorter
            omega
          exact List.map_eq_nil_iff.mpr (directoriesOf_eq_nil absent)
        · exact Or.inl (if_neg atEntry)
      have split (cut : List Char × List Char) :
          (directoriesOf (String.ofList cut.1) (entry :: others)).map
            (·.join (sourceFileName cut.2)) = own cut ++ behind cut := by
        rw [directoriesOf_cons, List.map_append]
        congr 1
        by_cases same : cut.1 = entry.name.toList
        · have named : entry.name = String.ofList cut.1 := by rw [same, String.ofList_toList]
          simp only [own, if_pos same, if_pos named]
        · have different : entry.name ≠ String.ofList cut.1 := by
            intro named
            exact same (by rw [named, String.toList_ofList])
          simp only [own, if_neg same, if_neg different, List.map_nil]
      rw [List.flatMap_cons, ih othersSorted, filesOf, ← flatMap_cuts]
      simp only [split]
      exact (flatMap_append_of_pairwise apart).symm

theorem Represents.locate_eq {map : NamespaceMap} {root : FilePath}
    {declared : String → List FilePath} (represents : map.Represents root declared)
    (tree : FileTree) (className : String) :
    map.locate tree className = (candidates root declared className).find? tree.isFile := by
  rw [locate_eq_find?, flatMap_filesOf represents.sorted, candidates]
  simp only [represents.directories, List.map_map]
  rfl

end NamespaceMap

/-! ### What a project declares -/

namespace Composer

open Json NamespaceMap

def directoriesIn (part : List (String × Value)) (name : String) : List FilePath :=
  part.flatMap fun (key, value) =>
    if namespaceName key = name then (directories? value).getD [] else []

theorem directoriesIn_cons (member : String × Value) (part : List (String × Value))
    (name : String) :
    directoriesIn (member :: part) name =
      (if namespaceName member.1 = name then (directories? member.2).getD [] else []) ++
        directoriesIn part name :=
  List.flatMap_cons

/-- The directories for a namespace, those for development behind the others. -/
def Autoload.directoriesOf (autoload : Autoload) (name : String) : List FilePath :=
  directoriesIn autoload.main name ++ directoriesIn autoload.development name

theorem represents_addNamespaces {map : NamespaceMap} {root : FilePath}
    {declared : String → List FilePath} (represents : map.Represents root declared)
    (part : List (String × Value)) :
    (addNamespaces map part).Represents root fun name =>
      declared name ++ directoriesIn part name := by
  induction part generalizing map declared with
  | nil => simpa [addNamespaces, directoriesIn] using represents
  | cons member part ih =>
      obtain ⟨key, value⟩ := member
      cases given : directories? value with
      | none =>
          have rest := ih represents
          simpa [addNamespaces, directoriesIn, given] using rest
      | some directories =>
          have rest := ih (represents.insert key directories)
          simpa [addNamespaces, directoriesIn, given] using rest

theorem Autoload.represents_toMap (autoload : Autoload) (root : FilePath) :
    (autoload.toMap root).Represents root autoload.directoriesOf := by
  have both := represents_addNamespaces
    (represents_addNamespaces (represents_empty root) autoload.main) autoload.development
  simp only [List.nil_append] at both
  exact both

/-- No two keys of a part stand for the same namespace. -/
def DistinctKeys (part : List (String × Value)) : Prop :=
  (part.map fun member => namespaceName member.1).Nodup

instance (part : List (String × Value)) : Decidable (DistinctKeys part) :=
  inferInstanceAs (Decidable (List.Nodup _))

theorem directoriesIn_of_perm {part other : List (String × Value)} (distinct : DistinctKeys part)
    (reordered : part.Perm other) (name : String) :
    directoriesIn other name = directoriesIn part name := by
  induction reordered with
  | nil => rfl
  | cons member _ ih =>
      have distinctOthers : DistinctKeys _ := (List.nodup_cons.mp distinct).2
      rw [directoriesIn_cons, directoriesIn_cons, ih distinctOthers]
  | swap first second part =>
      have apart : namespaceName second.1 ≠ namespaceName first.1 := by
        intro same
        exact (List.nodup_cons.mp distinct).1 (by simp [same])
      simp only [directoriesIn_cons]
      by_cases named : namespaceName first.1 = name
      · have otherName : namespaceName second.1 ≠ name := named ▸ apart
        simp only [if_neg otherName, List.nil_append]
      · simp only [if_neg named, List.nil_append]
  | trans firstStep _ ihFirst ihSecond =>
      have renamed := firstStep.map fun member : String × Value => namespaceName member.1
      rw [ihSecond (renamed.nodup_iff.mp distinct), ihFirst distinct]

def declared (tree : FileTree) (root : FilePath) : Autoload :=
  ((tree.readText? (root.join fileName)).bind fun text => (ofText text).toOption).getD ⟨[], []⟩

theorem namespaceMap_eq_toMap (tree : FileTree) (root : FilePath) :
    namespaceMap tree root = (declared tree root).toMap root := by
  unfold namespaceMap declared
  cases tree.readText? (root.join fileName) with
  | none => rfl
  | some text =>
      simp only [Option.bind_some]
      cases ofText text with
      | error fault => rfl
      | ok autoload => rfl

/-- In whatever order the keys of the two parts are gone through, the file of a class is the first
one that is there among its candidates: under its longest namespace first, and under a shorter one
only if there is none. -/
theorem class_file_ignores_order_of_keys (tree : FileTree) (root : FilePath) (className : String)
    (main development : List (String × Value))
    (distinctMain : DistinctKeys (declared tree root).main)
    (distinctDevelopment : DistinctKeys (declared tree root).development)
    (mainOrder : (declared tree root).main.Perm main)
    (developmentOrder : (declared tree root).development.Perm development) :
    ((Autoload.mk main development).toMap root).locate tree className =
        (candidates root (declared tree root).directoriesOf className).find? tree.isFile ∧
      (namespaceMap tree root).locate tree className =
        (candidates root (declared tree root).directoriesOf className).find? tree.isFile := by
  constructor
  · rw [(Autoload.represents_toMap _ root).locate_eq tree className]
    have sameDirectories : (Autoload.mk main development).directoriesOf =
        (declared tree root).directoriesOf := by
      funext name
      rw [Autoload.directoriesOf, Autoload.directoriesOf,
        directoriesIn_of_perm distinctMain mainOrder,
        directoriesIn_of_perm distinctDevelopment developmentOrder]
    rw [sameDirectories]
  · rw [namespaceMap_eq_toMap, (Autoload.represents_toMap _ root).locate_eq tree className]

/-- Two parts that declare the same namespace, spelled differently, and a longer and the empty one.
Files of the class are there under the namespace for development and under the empty one. -/
def billingProject : FileTree where
  entries :=
    [ ("composer.json", .file (.text
        (r#"{"autoload": {"psr-4": {"": "legacy", "App\\": ["src", 7, "app/"]}}, "# ++
          r#""autoload-dev": {"psr-4": {"App\\Billing\\": "modules", "\\App": "tests"}}}"#))),
      ("legacy", .directory [("App", .directory [("Billing", .directory
        [("Invoice.php", .file (.text ""))])])]),
      ("tests", .directory [("Billing", .directory [("Invoice.php", .file (.text ""))])]) ]
  workingDirectory := []

theorem invoice_is_found_for_development :
    ((Autoload.mk (declared billingProject ⟨"/"⟩).main.reverse
        (declared billingProject ⟨"/"⟩).development.reverse).toMap ⟨"/"⟩).locate billingProject
          "\\App\\Billing\\Invoice" = some ⟨"/tests/Billing/Invoice.php"⟩ ∧
      (namespaceMap billingProject ⟨"/"⟩).locate billingProject "\\App\\Billing\\Invoice" =
        some ⟨"/tests/Billing/Invoice.php"⟩ := by
  have checked : DistinctKeys (declared billingProject ⟨"/"⟩).main ∧
      DistinctKeys (declared billingProject ⟨"/"⟩).development ∧
      (candidates ⟨"/"⟩ (declared billingProject ⟨"/"⟩).directoriesOf
        "\\App\\Billing\\Invoice").find? billingProject.isFile =
          some ⟨"/tests/Billing/Invoice.php"⟩ := by
    decide +kernel
  obtain ⟨distinctMain, distinctDevelopment, found⟩ := checked
  have anyOrder := class_file_ignores_order_of_keys billingProject ⟨"/"⟩
    "\\App\\Billing\\Invoice" _ _ distinctMain distinctDevelopment
    (List.reverse_perm _).symm (List.reverse_perm _).symm
  rw [found] at anyOrder
  exact anyOrder

end Composer

end PageRoutes
