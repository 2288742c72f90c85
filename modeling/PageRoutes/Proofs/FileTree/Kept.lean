import PageRoutes.Proofs.FileTree.Written
/-!
What writing leaves alone. Directories are only made where nothing was, so every file stays what it
was; and a file is written in one place, or in none if something went wrong before.
-/

set_option autoImplicit false

namespace PageRoutes

namespace Node

def file? (node : Node) (place : Location) : Option Content :=
  match node.at? place with
  | some (.file content) => some content
  | _ => none

theorem at?_of_file? {node : Node} {place : Location} {content : Content}
    (found : node.file? place = some content) : node.at? place = some (.file content) := by
  rw [file?] at found
  split at found
  · next there =>
      cases found
      exact there
  · cases found

theorem file?_append (node : Node) (outer inner : Location) :
    node.file? (outer ++ inner) = (node.at? outer).bind (·.file? inner) := by
  rw [file?, at?_append]
  cases node.at? outer <;> rfl

theorem file?_cons (node : Node) (name : String) (names : Location) :
    node.file? (name :: names) = (node.child? name).bind (·.file? names) := by
  rw [file?, at?]
  cases node.child? name <;> rfl

@[simp] theorem file?_file (content : Content) (place : Location) :
    (file content).file? place = if place = [] then some content else none := by
  cases place <;> rfl

@[simp] theorem file?_empty (place : Location) : (directory []).file? place = none := by
  cases place <;> rfl

theorem file?_put_of_not_prefix {node : Node} {place other : Location}
    {entries : List (String × Node)} (isDirectory : node.at? place = some (.directory entries))
    {name : String} (apart : ¬place ++ [name] <+: other) (new : Node) :
    (node.put (place ++ [name]) new).file? other = node.file? other := by
  induction place generalizing node other with
  | nil =>
      cases Option.some.inj isDirectory
      cases other with
      | nil => rfl
      | cons first rest =>
          have different : first ≠ name := by
            rintro rfl
            exact apart ⟨rest, rfl⟩
          rw [file?_cons, file?_cons, List.nil_append, child?_put_of_ne different, child?]
  | cons outer place ih =>
      cases node with
      | file content => cases isDirectory
      | directory others =>
          cases other with
          | nil => rfl
          | cons first rest =>
              rw [file?_cons, file?_cons, List.cons_append]
              by_cases same : first = outer
              · subst same
                rw [at?, child?] at isDirectory
                cases found : others.lookup first with
                | none =>
                    rw [found] at isDirectory
                    cases isDirectory
                | some child =>
                    rw [found] at isDirectory
                    have apartBelow : ¬place ++ [name] <+: rest :=
                      fun inner => apart ((List.prefix_cons_inj first).mpr inner)
                    rw [child?_put_self, child?, found]
                    exact ih isDirectory apartBelow
              · rw [child?_put_of_ne same, child?]

end Node

namespace FileTree

def file? (tree : FileTree) (place : Location) : Option Content :=
  tree.root.file? place

/-- The two trees have the same files. They may differ in directories. -/
def SameFiles (before after : FileTree) : Prop :=
  ∀ place, after.file? place = before.file? place

theorem SameFiles.trans {first second third : FileTree} (one : first.SameFiles second)
    (two : second.SameFiles third) : first.SameFiles third :=
  fun place => (two place).trans (one place)

theorem file?_put_of_not_prefix {tree : FileTree} {directory other : Location}
    {entries : List (String × Node)}
    (isDirectory : tree.node? directory = some (.directory entries)) {name : String}
    (apart : ¬directory ++ [name] <+: other) (node : Node) :
    (tree.put (directory ++ [name]) node).file? other = tree.file? other := by
  rw [file?, root_put (List.concat_ne_nil name directory)]
  exact Node.file?_put_of_not_prefix isDirectory apart node

theorem file?_put_append {tree : FileTree} {directory : Location}
    {entries : List (String × Node)}
    (isDirectory : tree.node? directory = some (.directory entries)) (name : String) (node : Node)
    (inner : Location) :
    (tree.put (directory ++ [name]) node).file? (directory ++ [name] ++ inner) =
      node.file? inner := by
  rw [file?, root_put (List.concat_ne_nil name directory), Node.file?_append,
    Node.at?_put_self isDirectory]
  rfl

theorem file?_append {tree : FileTree} {directory : Location} {entries : List (String × Node)}
    (isDirectory : tree.node? directory = some (.directory entries)) (name : String)
    (inner : Location) :
    tree.file? (directory ++ [name] ++ inner) = (entries.lookup name).bind (·.file? inner) := by
  rw [file?, Node.file?_append, Node.at?_concat isDirectory]

/-- An empty directory where nothing was changes no file. -/
theorem sameFiles_put_directory {tree : FileTree} {directory : Location}
    {entries : List (String × Node)}
    (isDirectory : tree.node? directory = some (.directory entries)) {name : String}
    (free : entries.lookup name = none) :
    tree.SameFiles (tree.put (directory ++ [name]) (.directory [])) := by
  intro other
  by_cases below : directory ++ [name] <+: other
  · -- There is no file in a new directory, and there was none where nothing was.
    obtain ⟨inner, rfl⟩ := below
    rw [file?_put_append isDirectory, file?_append isDirectory, free, Node.file?_empty,
      Option.bind_none]
  · exact file?_put_of_not_prefix isDirectory below _

/-- A file where no directory was is the only one that changes. -/
theorem file?_put_file {tree : FileTree} {directory : Location} {entries : List (String × Node)}
    (isDirectory : tree.node? directory = some (.directory entries)) {name : String}
    (free : ∀ others, entries.lookup name ≠ some (.directory others)) (content : Content)
    (other : Location) :
    (tree.put (directory ++ [name]) (.file content)).file? other =
      if other = directory ++ [name] then some content else tree.file? other := by
  by_cases below : directory ++ [name] <+: other
  · obtain ⟨inner, rfl⟩ := below
    rw [file?_put_append isDirectory, file?_append isDirectory, Node.file?_file]
    simp only [List.append_right_eq_self]
    split
    · rfl
    · next deeper =>
        cases found : entries.lookup name with
        | none => rfl
        | some node =>
            cases node with
            | directory others => exact absurd found (free others)
            | file old => simp [deeper]
  · have different : other ≠ directory ++ [name] := by
      rintro rfl
      exact below (List.prefix_refl _)
    rw [if_neg different]
    exact file?_put_of_not_prefix isDirectory below _

/-! ### Making directories -/

theorem sameFiles_makeDirectory {tree made : FileTree} {path : FilePath}
    (done : tree.makeDirectory path = .ok made) : tree.SameFiles made := by
  rw [makeDirectory] at done
  split at done
  · cases done
  · next last looked =>
      split at done
      · cases done
      · split at done
        · cases done
        · split at done
          · cases done
          · next free =>
              cases done
              obtain ⟨-, -, isDirectory, -, -⟩ := lastStep_cases looked
              exact sameFiles_put_directory isDirectory free

/-- However far making directories gets, no file changes. -/
theorem sameFiles_makeNested (tree : FileTree) (paths : List FilePath) :
    tree.SameFiles (tree.makeNested paths).tree := by
  induction paths with
  | nil => exact fun _ => rfl
  | cons path outer ih =>
      rw [makeNested]
      split
      · exact fun _ => rfl
      · split
        · next made done => exact sameFiles_makeDirectory done
        · split
          · next changed =>
              rw [changed] at ih
              exact ih
          · next changed =>
              rw [changed] at ih
              split
              · next made done => exact ih.trans (sameFiles_makeDirectory done)
              · exact ih
        · exact fun _ => rfl

theorem sameFiles_makeParents (tree : FileTree) (path : FilePath) :
    tree.SameFiles (tree.makeParents path).tree := by
  rw [makeParents]
  cases path.parent? with
  | none => exact fun _ => rfl
  | some parent => exact sameFiles_makeNested tree _

/-! ### Writing a file -/

/-- The second tree has a text in the file to which a path leads, and all other files of the first. -/
def OnlyWrites (before after : FileTree) (path : FilePath) (text : String) : Prop :=
  ∃ place, after.LeadsTo path place ∧
    ∀ other, after.file? other = if other = place then some (.text text) else before.file? other

/-- The text that was written is read under its path. -/
theorem OnlyWrites.readText {before after : FileTree} {path : FilePath} {text : String}
    (writes : before.OnlyWrites after path text) : after.readText path = .ok text := by
  obtain ⟨place, leads, files⟩ := writes
  have content : after.root.file? place = some (.text text) := (files place).trans (if_pos rfl)
  rw [FileTree.readText, leads.find (Node.at?_of_file? content)]

theorem SameFiles.onlyWrites {first second third : FileTree} {path : FilePath} {text : String}
    (same : first.SameFiles second) (writes : second.OnlyWrites third path text) :
    first.OnlyWrites third path text := by
  obtain ⟨place, leads, files⟩ := writes
  refine ⟨place, leads, fun other => ?_⟩
  rw [files, same]

theorem onlyWrites_write {tree written : FileTree} {path : FilePath} {text : String}
    (done : tree.write path (.text text) = .ok written) : tree.OnlyWrites written path text := by
  rw [write] at done
  cases placed : tree.writePlace path with
  | error fault =>
      rw [placed] at done
      cases done
  | ok place =>
      rw [placed] at done
      cases done
      refine ⟨place, leadsTo_put placed _, fun other => ?_⟩
      obtain ⟨last, looked, -, -, -, -, free, rfl⟩ := writePlace_cases placed
      obtain ⟨-, -, isDirectory, -, -⟩ := lastStep_cases looked
      exact file?_put_file isDirectory free _ other

/-- Writing a text with the directories around it writes one file, or none if something went wrong. -/
theorem writeNested_cases (tree : FileTree) (path : FilePath) (text : String) :
    (∃ fault, (tree.writeNested path text).fault = some fault ∧
        tree.SameFiles (tree.writeNested path text).tree) ∨
      ((tree.writeNested path text).fault = none ∧
        tree.OnlyWrites (tree.writeNested path text).tree path text) := by
  have parents := sameFiles_makeParents tree path
  rw [writeNested]
  split
  · next around =>
      rw [around] at parents
      exact .inl ⟨_, rfl, parents⟩
  · next around =>
      rw [around] at parents
      split
      · next written done => exact .inr ⟨rfl, parents.onlyWrites (onlyWrites_write done)⟩
      · exact .inl ⟨_, rfl, parents⟩

end FileTree

end PageRoutes
