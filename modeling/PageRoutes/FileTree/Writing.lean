import PageRoutes.FileTree.Basic
/-!
Writing files and making directories through paths. What was made before something went wrong stays.
-/

set_option autoImplicit false

namespace PageRoutes.FileTree

/-- Where the last name of a path is looked up, with the place of that directory and what it holds. -/
structure LastStep where
  directory : Location
  entries : List (String × Node)
  /-- Empty if the path has no name. -/
  name : String
  slash : Bool

def LastStep.place (step : LastStep) : Location :=
  step.directory ++ [step.name]

def LastStep.node? (step : LastStep) : Option Node :=
  step.entries.lookup step.name

def lastStep (tree : FileTree) (path : FilePath) : Except FileFault LastStep :=
  match pathFault? path with
  | some fault => .error fault
  | none =>
      let names := (path.names.reverse.dropWhile (· == "")).reverse
      let slash := names.length < path.names.length
      match tree.follow (tree.start path) names.dropLast with
      | .error fault => .error fault
      | .ok trail =>
          match tree.endOf? trail with
          | none => .error .notFound
          | some (.file _) => .error .notADirectory
          | some (.directory entries) => .ok ⟨trail.place, entries, names.getLastD "", slash⟩

def writePlace (tree : FileTree) (path : FilePath) : Except FileFault Location :=
  match tree.lastStep path with
  | .error fault => .error fault
  | .ok last =>
      if last.slash ∨ FilePath.isIdle last.name ∨ last.name = ".." then .error .isADirectory
      else if nameLimit < last.name.utf8ByteSize then .error .nameTooLong
      else
        match last.node? with
        | some (.directory _) => .error .isADirectory
        | _ => .ok last.place

def write (tree : FileTree) (path : FilePath) (content : Content) : Except FileFault FileTree :=
  match tree.writePlace path with
  | .error fault => .error fault
  | .ok place => .ok (tree.put place (.file content))

def makeDirectory (tree : FileTree) (path : FilePath) : Except FileFault FileTree :=
  match tree.lastStep path with
  | .error fault => .error fault
  | .ok last =>
      if FilePath.isIdle last.name ∨ last.name = ".." then .error .alreadyExists
      else if nameLimit < last.name.utf8ByteSize then .error .nameTooLong
      else
        match last.node? with
        | some _ => .error .alreadyExists
        | none => .ok (tree.put last.place (.directory []))

/-- A tree after something was done to it, and what went wrong, if anything did. -/
structure Change where
  tree : FileTree
  fault : Option FileFault

/-- Makes the first of the paths a directory. The paths behind it are those of the directories
around it; they are made first where they are missing. -/
def makeNested (tree : FileTree) : List FilePath → Change
  | [] => ⟨tree, some .noWholeTree⟩
  | path :: outer =>
      if path.text.isEmpty then ⟨tree, none⟩
      else
        match tree.makeDirectory path with
        | .ok tree => ⟨tree, none⟩
        | .error .notFound =>
            match tree.makeNested outer with
            | ⟨tree, some fault⟩ => ⟨tree, some fault⟩
            | ⟨tree, none⟩ =>
                match tree.makeDirectory path with
                | .ok tree => ⟨tree, none⟩
                | .error fault => ⟨tree, if tree.isDirectory path then none else some fault⟩
        | .error fault => ⟨tree, if tree.isDirectory path then none else some fault⟩

def makeDirectories (tree : FileTree) (path : FilePath) : Change :=
  tree.makeNested path.ancestors

def makeParents (tree : FileTree) (path : FilePath) : Change :=
  match path.parent? with
  | none => ⟨tree, none⟩
  | some parent => tree.makeDirectories parent

/-- Writes a text and makes the directories around it. What was made before something went wrong
stays. -/
def writeNested (tree : FileTree) (path : FilePath) (text : String) : Change :=
  match tree.makeParents path with
  | ⟨tree, some fault⟩ => ⟨tree, some fault⟩
  | ⟨tree, none⟩ =>
      match tree.write path (.text text) with
      | .ok tree => ⟨tree, none⟩
      | .error fault => ⟨tree, some fault⟩

end PageRoutes.FileTree
