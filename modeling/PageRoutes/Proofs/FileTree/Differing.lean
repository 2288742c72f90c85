import PageRoutes.Proofs.FileTree.Kept
/-!
Trees that differ in what one file holds. Following a path depends on directories only, so a path
leads to the same place in both trees, and whatever is asked through it has the same answer in both
unless it is the text of that file.
-/

set_option autoImplicit false

namespace PageRoutes

/-- What is put in one place makes no directory in a place that is not below it. -/
theorem Node.exists_directory_of_put {node : Node} {place other : Location}
    {entries others : List (String × Node)}
    (isDirectory : node.at? place = some (.directory entries)) {name : String}
    (apart : ¬place ++ [name] <+: other) {new : Node}
    (after : (node.put (place ++ [name]) new).at? other = some (.directory others)) :
    ∃ others, node.at? other = some (.directory others) := by
  induction place generalizing node other with
  | nil =>
      cases Option.some.inj isDirectory
      cases other with
      | nil => exact ⟨entries, rfl⟩
      | cons first rest =>
          have different : first ≠ name := by
            rintro rfl
            exact apart ⟨rest, rfl⟩
          rw [List.nil_append, at?, child?_put_of_ne different] at after
          exact ⟨others, after⟩
  | cons outer place ih =>
      cases node with
      | file content => cases isDirectory
      | directory inside =>
          cases other with
          | nil => exact ⟨inside, rfl⟩
          | cons first rest =>
              rw [List.cons_append, at?] at after
              by_cases same : first = outer
              · subst same
                rw [at?, child?] at isDirectory
                cases found : inside.lookup first with
                | none =>
                    rw [found] at isDirectory
                    cases isDirectory
                | some child =>
                    rw [found] at isDirectory
                    rw [child?_put_self, found] at after
                    have apartBelow : ¬place ++ [name] <+: rest :=
                      fun inner => apart ((List.prefix_cons_inj first).mpr inner)
                    obtain ⟨others, there⟩ := ih isDirectory apartBelow after
                    refine ⟨others, ?_⟩
                    rw [at?, child?, found]
                    exact there
              · rw [child?_put_of_ne same] at after
                exact ⟨others, after⟩

namespace FileTree

/-! ### Questions through a path -/

def place? (tree : FileTree) (path : FilePath) : Option Location :=
  match pathFault? path with
  | some _ => none
  | none =>
      match tree.follow (tree.start path) path.names with
      | .error _ => none
      | .ok trail => some trail.place

theorem place?_eq_some_iff {tree : FileTree} {path : FilePath} {place : Location} :
    tree.place? path = some place ↔ tree.LeadsTo path place := by
  rw [place?, LeadsTo]
  cases pathFault? path with
  | some fault => simp
  | none =>
      cases followed : tree.follow (tree.start path) path.names with
      | error fault => simp
      | ok trail =>
          rw [start_eq_trailTo] at followed
          obtain ⟨rfl, -⟩ := follow_of_hasDirectory (fun _ has => has) followed
          simp only [place_trailTo, Option.some.injEq, Except.ok.injEq, true_and]
          constructor
          · rintro rfl
            rfl
          · intro same
            have places := congrArg Trail.place same
            rwa [place_trailTo, place_trailTo] at places

theorem find_eq_ok_iff {tree : FileTree} {path : FilePath} {node : Node} :
    tree.find path = .ok node ↔
      ∃ place, tree.place? path = some place ∧ tree.node? place = some node := by
  constructor
  · intro found
    rw [find] at found
    split at found
    · cases found
    · next usable =>
        split at found
        · cases found
        · next trail followed =>
            have reached := followed
            rw [start_eq_trailTo] at reached
            obtain ⟨isTrail, -⟩ := follow_of_hasDirectory (fun _ has => has) reached
            rw [isTrail, endOf?_trailTo] at found
            split at found
            · next there =>
                cases found
                refine ⟨_, place?_eq_some_iff.mpr ⟨usable, ?_⟩, there⟩
                rw [followed, isTrail]
            · cases found
  · rintro ⟨place, leads, there⟩
    exact (place?_eq_some_iff.mp leads).find there

theorem isDirectory_iff {tree : FileTree} {path : FilePath} :
    tree.isDirectory path = true ↔ ∃ place, tree.place? path = some place ∧ tree.HasDirectory place := by
  rw [isDirectory]
  constructor
  · intro found
    split at found
    · next entries isThere =>
        obtain ⟨place, leads, there⟩ := find_eq_ok_iff.mp isThere
        exact ⟨place, leads, entries, there⟩
    · cases found
  · rintro ⟨place, leads, entries, there⟩
    rw [find_eq_ok_iff.mpr ⟨place, leads, there⟩]

theorem file?_eq_some_iff {tree : FileTree} {place : Location} {content : Content} :
    tree.file? place = some content ↔ tree.node? place = some (.file content) := by
  constructor
  · exact Node.at?_of_file?
  · intro there
    rw [node?] at there
    rw [file?, Node.file?, there]

theorem isFile_iff {tree : FileTree} {path : FilePath} :
    tree.isFile path = true ↔
      ∃ place, tree.place? path = some place ∧ (tree.file? place).isSome = true := by
  rw [isFile]
  constructor
  · intro found
    split at found
    · next content isThere =>
        obtain ⟨place, leads, there⟩ := find_eq_ok_iff.mp isThere
        exact ⟨place, leads, by rw [file?_eq_some_iff.mpr there, Option.isSome_some]⟩
    · cases found
  · rintro ⟨place, leads, isThere⟩
    obtain ⟨content, there⟩ := Option.isSome_iff_exists.mp isThere
    rw [find_eq_ok_iff.mpr ⟨place, leads, file?_eq_some_iff.mp there⟩]

theorem readText?_eq_some_iff {tree : FileTree} {path : FilePath} {text : String} :
    tree.readText? path = some text ↔
      ∃ place, tree.place? path = some place ∧ tree.file? place = some (.text text) := by
  rw [readText?, readText]
  constructor
  · intro read
    split at read
    · next found =>
        split at found
        · next isThere =>
            cases found
            cases read
            obtain ⟨place, leads, there⟩ := find_eq_ok_iff.mp isThere
            exact ⟨place, leads, file?_eq_some_iff.mpr there⟩
        all_goals cases found
    · cases read
  · rintro ⟨place, leads, there⟩
    rw [find_eq_ok_iff.mpr ⟨place, leads, file?_eq_some_iff.mp there⟩]

/-! ### Two trees -/

/-- The trees have the same directories and the same files, but one file may hold something else. -/
structure DifferOnlyIn (first second : FileTree) (place : Location) : Prop where
  workingDirectory : first.workingDirectory = second.workingDirectory
  directories : ∀ other, first.HasDirectory other ↔ second.HasDirectory other
  files : ∀ other ≠ place, first.file? other = second.file? other
  isFile : (first.file? place).isSome ∧ (second.file? place).isSome

theorem LeadsTo.of_hasDirectory {tree other : FileTree} {path : FilePath} {place : Location}
    (leads : tree.LeadsTo path place) (sameStart : tree.workingDirectory = other.workingDirectory)
    (keeps : ∀ place, tree.HasDirectory place → other.HasDirectory place) :
    other.LeadsTo path place := by
  obtain ⟨usable, followed⟩ := leads
  rw [start_eq_trailTo] at followed
  obtain ⟨isTrail, followedToo⟩ := follow_of_hasDirectory keeps followed
  have isPlace : path.names.foldl walk (tree.startPlace path) = place := by
    have places := congrArg Trail.place isTrail
    rw [place_trailTo, place_trailTo] at places
    exact places.symm
  have start : other.startPlace path = tree.startPlace path := by
    rw [startPlace, startPlace, sameStart]
  refine ⟨usable, ?_⟩
  rw [start_eq_trailTo, start, followedToo, isPlace]

section

variable {first second : FileTree} {place : Location}

theorem DifferOnlyIn.place?_eq (differ : first.DifferOnlyIn second place) (path : FilePath) :
    first.place? path = second.place? path := by
  apply Option.ext
  intro other
  rw [place?_eq_some_iff, place?_eq_some_iff]
  constructor
  · intro leads
    exact leads.of_hasDirectory differ.workingDirectory fun other => (differ.directories other).mp
  · intro leads
    exact leads.of_hasDirectory differ.workingDirectory.symm
      fun other => (differ.directories other).mpr

theorem DifferOnlyIn.isDirectory_eq (differ : first.DifferOnlyIn second place) (path : FilePath) :
    first.isDirectory path = second.isDirectory path := by
  apply Bool.eq_iff_iff.mpr
  rw [isDirectory_iff, isDirectory_iff, differ.place?_eq]
  simp only [differ.directories]

theorem DifferOnlyIn.isFile_eq (differ : first.DifferOnlyIn second place) (path : FilePath) :
    first.isFile path = second.isFile path := by
  have present (other : Location) : (first.file? other).isSome = (second.file? other).isSome := by
    by_cases same : other = place
    · rw [same, differ.isFile.1, differ.isFile.2]
    · rw [differ.files other same]
  apply Bool.eq_iff_iff.mpr
  rw [isFile_iff, isFile_iff, differ.place?_eq]
  simp only [present]

/-- Every other file that a path leads to is read as before. -/
theorem DifferOnlyIn.readText?_eq (differ : first.DifferOnlyIn second place) {path : FilePath}
    (elsewhere : first.place? path ≠ some place) :
    first.readText? path = second.readText? path := by
  apply Option.ext
  intro text
  rw [readText?_eq_some_iff, readText?_eq_some_iff, ← differ.place?_eq]
  constructor
  · rintro ⟨other, leads, there⟩
    have different : other ≠ place := by
      rintro rfl
      exact elsewhere leads
    exact ⟨other, leads, differ.files other different ▸ there⟩
  · rintro ⟨other, leads, there⟩
    have different : other ≠ place := by
      rintro rfl
      exact elsewhere leads
    exact ⟨other, leads, (differ.files other different).symm ▸ there⟩

end

/-- A file that takes the place of another one leaves everything else as it was. -/
theorem differOnlyIn_put {tree : FileTree} {place : Location} {old : Content}
    (there : tree.file? place = some old) (new : Content) :
    tree.DifferOnlyIn (tree.put place (.file new)) place := by
  have isFile := file?_eq_some_iff.mp there
  obtain ⟨directory, name, rfl⟩ : ∃ directory name, place = directory ++ [name] := by
    cases place using List.reverseRecOn with
    | nil => cases isFile
    | append_singleton directory name => exact ⟨directory, name, rfl⟩
  have nonempty : directory ++ [name] ≠ [] := List.concat_ne_nil name directory
  have around : tree.HasDirectory directory := by
    rw [node?, Node.at?_append] at isFile
    obtain ⟨outer, found, below⟩ := Option.bind_eq_some_iff.mp isFile
    cases outer with
    | directory entries => exact ⟨entries, found⟩
    | file content => cases below
  obtain ⟨entries, isDirectory⟩ := around
  have entry : entries.lookup name = some (.file old) := by
    rw [← Node.at?_concat isDirectory name]
    exact isFile
  have noDirectory : ¬tree.HasDirectory (directory ++ [name]) := by
    rintro ⟨others, found⟩
    rw [isFile] at found
    cases found
  have files (other : Location) :
      (tree.put (directory ++ [name]) (.file new)).file? other =
        if other = directory ++ [name] then some new else tree.file? other :=
    file?_put_file isDirectory (by simp [entry]) new other
  refine
    { workingDirectory := (workingDirectory_put _ _ _).symm
      directories := ?_
      files := ?_
      isFile := ?_ }
  · intro other
    constructor
    · intro has
      exact has.put nonempty noDirectory _
    · rintro ⟨others, found⟩
      rw [node?, root_put nonempty] at found
      by_cases below : directory ++ [name] <+: other
      · obtain ⟨inner, rfl⟩ := below
        rw [Node.at?_append, Node.at?_put_self isDirectory] at found
        cases inner <;> cases found
      · exact Node.exists_directory_of_put isDirectory below found
  · intro other different
    rw [files, if_neg different]
  · rw [files, if_pos rfl, there]
    exact ⟨rfl, rfl⟩

end FileTree

end PageRoutes
