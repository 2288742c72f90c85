import Mathlib.Data.List.Induction
import PageRoutes.FileTree.Writing
/-!
A file that was written is found again. Following a path depends only on where the tree has
directories, and writing a file keeps all of them; so the same path leads to the same place
afterwards, where the new file is.
-/

set_option autoImplicit false

namespace PageRoutes

/-! ### Nodes -/

namespace Node

theorem at?_append (node : Node) (outer inner : Location) :
    node.at? (outer ++ inner) = (node.at? outer).bind (·.at? inner) := by
  induction outer generalizing node with
  | nil => rfl
  | cons name outer ih =>
      rw [List.cons_append, at?, at?]
      cases node.child? name with
      | none => rfl
      | some child => exact ih child

theorem at?_concat {node : Node} {place : Location} {entries : List (String × Node)}
    (isDirectory : node.at? place = some (.directory entries)) (name : String) :
    node.at? (place ++ [name]) = entries.lookup name := by
  rw [at?_append, isDirectory]
  exact Option.bind_fun_some (entries.lookup name)

theorem child?_put_self (entries : List (String × Node)) (name : String) (names : Location)
    (new : Node) :
    (put (.directory entries) (name :: names) new).child? name =
      some (((entries.lookup name).getD (.directory [])).put names new) := by
  rw [put, child?, lookup_setEntry_self]

theorem child?_put_of_ne {name other : String} (different : other ≠ name)
    (entries : List (String × Node)) (names : Location) (new : Node) :
    (put (.directory entries) (name :: names) new).child? other = entries.lookup other := by
  rw [put, child?, lookup_setEntry_of_ne _ _ different]

theorem at?_put_self {node : Node} {place : Location} {entries : List (String × Node)}
    (isDirectory : node.at? place = some (.directory entries)) (name : String) (new : Node) :
    (node.put (place ++ [name]) new).at? (place ++ [name]) = some new := by
  induction place generalizing node with
  | nil =>
      cases Option.some.inj isDirectory
      rw [List.nil_append, at?, child?_put_self]
      rfl
  | cons outer place ih =>
      cases node with
      | file content => cases isDirectory
      | directory others =>
          rw [at?, child?] at isDirectory
          cases found : others.lookup outer with
          | none =>
              rw [found] at isDirectory
              cases isDirectory
          | some child =>
              rw [found] at isDirectory
              rw [List.cons_append, at?, child?_put_self, found]
              exact ih isDirectory

/-- A directory stays one if nothing is put in its place or in a place around it. -/
theorem at?_put_directory {node : Node} {place other : Location}
    {entries : List (String × Node)} (isDirectory : node.at? other = some (.directory entries))
    (apart : ¬place <+: other) (new : Node) :
    ∃ entries, (node.put place new).at? other = some (.directory entries) := by
  induction place generalizing node other with
  | nil => exact absurd List.nil_prefix apart
  | cons name place ih =>
      cases node with
      | file content => exact ⟨entries, isDirectory⟩
      | directory others =>
          cases other with
          | nil => exact ⟨_, rfl⟩
          | cons first rest =>
              rw [at?, child?] at isDirectory
              by_cases same : first = name
              · subst same
                cases found : others.lookup first with
                | none =>
                    rw [found] at isDirectory
                    cases isDirectory
                | some child =>
                    rw [found] at isDirectory
                    have apartBelow : ¬place <+: rest :=
                      fun inner => apart ((List.prefix_cons_inj first).mpr inner)
                    obtain ⟨entries, kept⟩ := ih isDirectory apartBelow
                    refine ⟨entries, ?_⟩
                    rw [at?, child?_put_self, found]
                    exact kept
              · refine ⟨entries, ?_⟩
                rw [at?, child?_put_of_ne same]
                exact isDirectory

end Node

namespace FileTree

/-! ### Putting nodes into a tree -/

theorem root_put {tree : FileTree} {place : Location} (nonempty : place ≠ []) (node : Node) :
    (tree.put place node).root = tree.root.put place node := by
  cases place with
  | nil => exact absurd rfl nonempty
  | cons name place => rfl

theorem workingDirectory_put (tree : FileTree) (place : Location) (node : Node) :
    (tree.put place node).workingDirectory = tree.workingDirectory := by
  unfold put withRoot
  split <;> rfl

def HasDirectory (tree : FileTree) (place : Location) : Prop :=
  ∃ entries, tree.node? place = some (.directory entries)

theorem HasDirectory.of_prefix {tree : FileTree} {outer place : Location}
    (has : tree.HasDirectory place) (around : outer <+: place) : tree.HasDirectory outer := by
  obtain ⟨inner, rfl⟩ := around
  obtain ⟨entries, found⟩ := has
  rw [node?, Node.at?_append] at found
  cases node : tree.root.at? outer with
  | none =>
      rw [node] at found
      cases found
  | some outerNode =>
      rw [node] at found
      cases outerNode with
      | directory entries => exact ⟨entries, node⟩
      | file content => cases inner <;> cases found

/-- A file that is put where no directory is leaves every directory one. -/
theorem HasDirectory.put {tree : FileTree} {other : Location} (has : tree.HasDirectory other)
    {place : Location} (nonempty : place ≠ []) (free : ¬tree.HasDirectory place) (node : Node) :
    (tree.put place node).HasDirectory other := by
  -- A place around a directory is one itself, so it is not where the node is put.
  have apart : ¬place <+: other := fun around => free (has.of_prefix around)
  obtain ⟨entries, found⟩ := has
  obtain ⟨entries, kept⟩ := Node.at?_put_directory found apart node
  refine ⟨entries, ?_⟩
  rw [node?, root_put nonempty]
  exact kept

/-! ### Following a path -/

theorem trailTo_append (tree : FileTree) (place : Location) (name : String) :
    tree.trailTo (place ++ [name]) =
      (name, (tree.endOf? (tree.trailTo place)).bind (·.child? name)) :: tree.trailTo place := by
  rw [trailTo, List.foldl_append]
  rfl

theorem endOf?_trailTo (tree : FileTree) (place : Location) :
    tree.endOf? (tree.trailTo place) = tree.node? place := by
  induction place using List.reverseRecOn with
  | nil => rfl
  | append_singleton place name ih =>
      rw [trailTo_append, endOf?, ih, node?, node?, Node.at?_append]
      cases tree.root.at? place with
      | none => rfl
      | some node =>
          simp only [Option.bind_some, Node.at?]
          cases node.child? name <;> rfl

theorem tail_trailTo (tree : FileTree) (place : Location) :
    (tree.trailTo place).tail = tree.trailTo place.dropLast := by
  induction place using List.reverseRecOn with
  | nil => rfl
  | append_singleton place name ih => rw [trailTo_append, List.tail_cons, List.dropLast_concat]

theorem place_trailTo (tree : FileTree) (place : Location) :
    (tree.trailTo place).place = place := by
  induction place using List.reverseRecOn with
  | nil => rfl
  | append_singleton place name ih =>
      rw [Trail.place] at ih
      rw [trailTo_append, Trail.place, List.map_cons, List.reverse_cons, ih]

def walk (place : Location) (name : String) : Location :=
  if FilePath.isIdle name then place
  else if name = ".." then place.dropLast
  else place ++ [name]

def IsShort (name : String) : Prop :=
  FilePath.isIdle name ∨ name = ".." ∨ name.utf8ByteSize ≤ nameLimit

/-- A name leads on from a directory, and only from there, to the place that the names tell. -/
theorem step_trailTo_eq_ok_iff {tree : FileTree} {place : Location} {name : String}
    {trail : Trail} :
    tree.step (tree.trailTo place) name = .ok trail ↔
      tree.HasDirectory place ∧ IsShort name ∧ trail = tree.trailTo (walk place name) := by
  rw [step, endOf?_trailTo]
  cases found : tree.node? place with
  | none => simp [HasDirectory, found]
  | some node =>
      cases node with
      | file content => simp [HasDirectory, found]
      | directory entries =>
          have has : tree.HasDirectory place := ⟨entries, found⟩
          by_cases idle : FilePath.isIdle name = true
          · simp [has, IsShort, walk, idle, eq_comm]
          · by_cases up : name = ".."
            · subst up
              simp [has, IsShort, walk, idle, tail_trailTo, eq_comm]
            · by_cases long : nameLimit < name.utf8ByteSize
              · simp [has, IsShort, idle, up, long, Nat.not_le_of_lt long]
              · have child : tree.trailTo (place ++ [name]) =
                    (name, entries.lookup name) :: tree.trailTo place := by
                  rw [trailTo_append, endOf?_trailTo, found]
                  rfl
                have fits : name.utf8ByteSize ≤ nameLimit := Nat.le_of_not_lt long
                simp [has, IsShort, walk, idle, up, long, fits, child, eq_comm]

theorem follow_append (tree : FileTree) (trail : Trail) (names others : List String) :
    tree.follow trail (names ++ others) =
      (tree.follow trail names).bind fun next => tree.follow next others := by
  induction names generalizing trail with
  | nil => rfl
  | cons name names ih =>
      rw [List.cons_append, follow, follow]
      cases tree.step trail name with
      | error fault => rfl
      | ok next => exact ih next

/-- Names that lead on in a tree lead to the same place in every tree that has its directories. -/
theorem follow_of_hasDirectory {tree other : FileTree}
    (keeps : ∀ place, tree.HasDirectory place → other.HasDirectory place) {place : Location}
    {names : List String} {trail : Trail}
    (found : tree.follow (tree.trailTo place) names = .ok trail) :
    trail = tree.trailTo (names.foldl walk place) ∧
      other.follow (other.trailTo place) names = .ok (other.trailTo (names.foldl walk place)) := by
  induction names generalizing place with
  | nil => exact ⟨(Except.ok.inj found).symm, rfl⟩
  | cons name names ih =>
      rw [follow] at found
      cases stepped : tree.step (tree.trailTo place) name with
      | error fault =>
          rw [stepped] at found
          cases found
      | ok next =>
          rw [stepped] at found
          obtain ⟨has, short, rfl⟩ := step_trailTo_eq_ok_iff.mp stepped
          have steppedToo : other.step (other.trailTo place) name =
              .ok (other.trailTo (walk place name)) :=
            step_trailTo_eq_ok_iff.mpr ⟨keeps place has, short, rfl⟩
          rw [follow, steppedToo]
          exact ih found

def startPlace (tree : FileTree) (path : FilePath) : Location :=
  if path.isAbsolute then [] else tree.workingDirectory

theorem start_eq_trailTo (tree : FileTree) (path : FilePath) :
    tree.start path = tree.trailTo (tree.startPlace path) := by
  unfold start startPlace
  split <;> rfl

/-! ### The last name of a path -/

/-- The names of a path without the empty ones behind the slashes at its end. -/
def namesBeforeSlash (path : FilePath) : List String :=
  (path.names.reverse.dropWhile (· == "")).reverse

theorem namesBeforeSlash_eq_names {path : FilePath}
    (noSlash : ¬(namesBeforeSlash path).length < path.names.length) :
    namesBeforeSlash path = path.names := by
  rw [namesBeforeSlash] at noSlash ⊢
  have sublist : (path.names.reverse.dropWhile (· == "")).Sublist path.names.reverse :=
    List.dropWhile_sublist _
  have all : path.names.reverse.length ≤ (path.names.reverse.dropWhile (· == "")).length := by
    rw [List.length_reverse] at noSlash ⊢
    exact Nat.le_of_not_lt noSlash
  rw [sublist.eq_of_length_le all, List.reverse_reverse]

theorem names_ne_nil (path : FilePath) : path.names ≠ [] := by
  rw [FilePath.names]
  exact fun empty => Text.splitOn_ne_nil _ _ (List.map_eq_nil_iff.mp empty)

/-- The last name of a path is looked up in a directory that is there. -/
theorem lastStep_cases {tree : FileTree} {path : FilePath} {last : LastStep}
    (found : tree.lastStep path = .ok last) :
    pathFault? path = none ∧
      tree.follow (tree.start path) (namesBeforeSlash path).dropLast =
        .ok (tree.trailTo last.directory) ∧
      tree.node? last.directory = some (.directory last.entries) ∧
      last.name = (namesBeforeSlash path).getLastD "" ∧
      last.slash = decide ((namesBeforeSlash path).length < path.names.length) := by
  rw [lastStep] at found
  split at found
  · cases found
  · next usable =>
      dsimp only at found
      split at found
      · cases found
      · next trail followed =>
          have isTrail : trail = tree.trailTo trail.place := by
            have reached := followed
            rw [start_eq_trailTo] at reached
            rw [(follow_of_hasDirectory (fun _ has => has) reached).1, place_trailTo]
          split at found
          · cases found
          · cases found
          · next entries isDirectory =>
              cases found
              rw [isTrail] at followed isDirectory
              rw [endOf?_trailTo] at isDirectory
              exact ⟨usable, followed, isDirectory, rfl, rfl⟩

theorem lastStep_eq_ok {tree : FileTree} {path : FilePath} {last : LastStep}
    (found : tree.lastStep path = .ok last) (noSlash : last.slash = false) :
    ∃ outer, pathFault? path = none ∧ path.names = outer ++ [last.name] ∧
      tree.follow (tree.start path) outer = .ok (tree.trailTo last.directory) ∧
      tree.node? last.directory = some (.directory last.entries) := by
  obtain ⟨usable, followed, isDirectory, name, slash⟩ := lastStep_cases found
  have isAll : namesBeforeSlash path = path.names :=
    namesBeforeSlash_eq_names (of_decide_eq_false (slash.symm.trans noSlash))
  rw [isAll] at followed name
  have nonempty := names_ne_nil path
  have isLast : path.names = path.names.dropLast ++ [last.name] := by
    rw [name, List.getLastD_eq_getLast?, List.getLast?_eq_some_getLast nonempty,
      Option.getD_some, List.dropLast_concat_getLast nonempty]
  exact ⟨path.names.dropLast, usable, isLast, followed, isDirectory⟩

/-! ### Writing a file -/

theorem writePlace_cases {tree : FileTree} {path : FilePath} {place : Location}
    (found : tree.writePlace path = .ok place) :
    ∃ last, tree.lastStep path = .ok last ∧ last.slash = false ∧
      ¬FilePath.isIdle last.name ∧ last.name ≠ ".." ∧ last.name.utf8ByteSize ≤ nameLimit ∧
      (∀ entries, last.node? ≠ some (.directory entries)) ∧ place = last.place := by
  rw [writePlace] at found
  split at found
  · cases found
  · next last looked =>
      split at found
      · cases found
      · next leadsOn =>
          split at found
          · cases found
          · next fits =>
              split at found
              · cases found
              · next free =>
                  simp only [not_or, Bool.not_eq_true] at leadsOn
                  obtain ⟨noSlash, notIdle, notUp⟩ := leadsOn
                  refine ⟨last, looked, noSlash, by simp [notIdle], notUp, Nat.le_of_not_lt fits,
                    free, ?_⟩
                  exact (Except.ok.inj found).symm

/-- A file is written below a directory, under a short name to which the path leads. -/
theorem writePlace_eq_ok {tree : FileTree} {path : FilePath} {place : Location}
    (found : tree.writePlace path = .ok place) :
    ∃ (outer : List String) (directory : Location) (name : String),
      pathFault? path = none ∧ path.names = outer ++ [name] ∧
        tree.follow (tree.start path) outer = .ok (tree.trailTo directory) ∧
        tree.HasDirectory directory ∧ IsShort name ∧ walk directory name = place ∧
        place = directory ++ [name] ∧ ¬tree.HasDirectory place := by
  obtain ⟨last, looked, noSlash, notIdle, notUp, fits, free, rfl⟩ := writePlace_cases found
  obtain ⟨outer, usable, named, followed, directory⟩ := lastStep_eq_ok looked noSlash
  have isPlace : walk last.directory last.name = last.place := by
    rw [walk, if_neg notIdle, if_neg notUp, LastStep.place]
  have below : tree.node? last.place = last.node? := Node.at?_concat directory last.name
  have noDirectory : ¬tree.HasDirectory last.place := by
    rintro ⟨entries, node⟩
    exact free entries (below.symm.trans node)
  exact ⟨outer, last.directory, last.name, usable, named, followed, ⟨last.entries, directory⟩,
    Or.inr (Or.inr fits), isPlace, rfl, noDirectory⟩

def LeadsTo (tree : FileTree) (path : FilePath) (place : Location) : Prop :=
  pathFault? path = none ∧ tree.follow (tree.start path) path.names = .ok (tree.trailTo place)

theorem LeadsTo.find {tree : FileTree} {path : FilePath} {place : Location} {node : Node}
    (leads : tree.LeadsTo path place) (there : tree.node? place = some node) :
    tree.find path = .ok node := by
  rw [FileTree.find, leads.1]
  simp only [leads.2, endOf?_trailTo, there]

/-- The path of a file that was written leads to the place where it was put. -/
theorem leadsTo_put {tree : FileTree} {path : FilePath} {place : Location}
    (placed : tree.writePlace path = .ok place) (content : Content) :
    (tree.put place (.file content)).LeadsTo path place := by
  obtain ⟨outer, directory, name, usable, named, followed, has, short, leads, isBelow, free⟩ :=
    writePlace_eq_ok placed
  have nonempty : place ≠ [] := by simp [isBelow]
  -- The directories that led to the file are all there still, so its path leads there again.
  have keeps (other : Location) (has : tree.HasDirectory other) :
      (tree.put place (.file content)).HasDirectory other := has.put nonempty free _
  rw [start_eq_trailTo] at followed
  obtain ⟨isDirectory, followedAfter⟩ := follow_of_hasDirectory keeps followed
  have sameStart : (tree.put place (.file content)).startPlace path = tree.startPlace path := by
    rw [startPlace, startPlace, workingDirectory_put]
  have sameDirectory : outer.foldl walk (tree.startPlace path) = directory := by
    have places := congrArg Trail.place isDirectory
    rw [place_trailTo, place_trailTo] at places
    exact places.symm
  rw [sameDirectory] at followedAfter
  have stepped := step_trailTo_eq_ok_iff.mpr ⟨keeps directory has, short, rfl⟩
  refine ⟨usable, ?_⟩
  rw [start_eq_trailTo, sameStart, named, follow_append, followedAfter, Except.bind, follow,
    stepped, leads]
  rfl

theorem node?_put {tree : FileTree} {path : FilePath} {place : Location}
    (placed : tree.writePlace path = .ok place) (node : Node) :
    (tree.put place node).node? place = some node := by
  obtain ⟨-, directory, name, -, -, -, ⟨entries, there⟩, -, -, rfl, -⟩ := writePlace_eq_ok placed
  rw [node?, root_put (List.concat_ne_nil name directory)]
  exact Node.at?_put_self there name node

theorem find_write {tree written : FileTree} {path : FilePath} {content : Content}
    (done : tree.write path content = .ok written) : written.find path = .ok (.file content) := by
  rw [write] at done
  cases placed : tree.writePlace path with
  | error fault =>
      rw [placed] at done
      cases done
  | ok place =>
      rw [placed] at done
      cases done
      exact (leadsTo_put placed content).find (node?_put placed (.file content))

theorem workingDirectory_write {tree written : FileTree} {path : FilePath} {content : Content}
    (done : tree.write path content = .ok written) :
    written.workingDirectory = tree.workingDirectory := by
  rw [write] at done
  cases placed : tree.writePlace path with
  | error fault =>
      rw [placed] at done
      cases done
  | ok place =>
      rw [placed] at done
      cases done
      exact workingDirectory_put tree place _

/-! ### Directories on the way -/

theorem workingDirectory_makeDirectory {tree made : FileTree} {path : FilePath}
    (done : tree.makeDirectory path = .ok made) :
    made.workingDirectory = tree.workingDirectory := by
  rw [makeDirectory] at done
  split at done
  · cases done
  · split at done
    · cases done
    · split at done
      · cases done
      · split at done
        · cases done
        · cases done
          exact workingDirectory_put tree _ _

theorem workingDirectory_makeNested (tree : FileTree) (paths : List FilePath) :
    (tree.makeNested paths).tree.workingDirectory = tree.workingDirectory := by
  induction paths with
  | nil => rfl
  | cons path outer ih =>
      rw [makeNested]
      split
      · rfl
      · split
        · next made done => exact workingDirectory_makeDirectory done
        · split
          · next changed => rw [changed] at ih; exact ih
          · next changed =>
              rw [changed] at ih
              split
              · next made done => exact (workingDirectory_makeDirectory done).trans ih
              · exact ih
        · rfl

theorem workingDirectory_makeParents (tree : FileTree) (path : FilePath) :
    (tree.makeParents path).tree.workingDirectory = tree.workingDirectory := by
  rw [makeParents]
  cases path.parent? with
  | none => rfl
  | some parent => exact workingDirectory_makeNested tree _

/-- A text that was written is what is read under its path afterwards. -/
theorem readText?_writeNested {tree written : FileTree} {path : FilePath} {text : String}
    (done : tree.writeNested path text = ⟨written, none⟩) :
    written.readText? path = some text ∧ written.workingDirectory = tree.workingDirectory := by
  have parents := workingDirectory_makeParents tree path
  rw [writeNested] at done
  split at done
  · cases done
  · next made around =>
      rw [around] at parents
      split at done
      · next after wrote =>
          cases done
          constructor
          · rw [readText?, readText, find_write wrote]
          · exact (workingDirectory_write wrote).trans parents
      · cases done

end FileTree

end PageRoutes
