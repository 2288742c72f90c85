import PageRoutes.FilePath
import PageRoutes.FileTree.Node
/-!
A tree of files and directories, and what can be asked of it through paths. A path is followed name
by name from the top of the tree, or from the working directory if it is relative; every name but
the last must lead to a directory.
-/

set_option autoImplicit false

namespace PageRoutes

inductive FileFault where
  | notFound
  | alreadyExists
  | notADirectory
  | isADirectory
  | nameTooLong
  | zeroInPath
  | noWholeTree
  | notUtf8
deriving DecidableEq, Repr

def FileFault.message : FileFault → String
  | .notFound => "No such file or directory (os error 2)"
  | .alreadyExists => "File exists (os error 17)"
  | .notADirectory => "Not a directory (os error 20)"
  | .isADirectory => "Is a directory (os error 21)"
  | .nameTooLong => "File name too long (os error 36)"
  | .zeroInPath => "file name contained an unexpected NUL byte"
  | .noWholeTree => "failed to create whole tree"
  | .notUtf8 => "stream did not contain valid UTF-8"

/-- Files and directories. The top of the tree is always a directory. -/
structure FileTree where
  entries : List (String × Node)
  workingDirectory : Location

namespace FileTree

def root (tree : FileTree) : Node :=
  .directory tree.entries

def node? (tree : FileTree) (place : Location) : Option Node :=
  tree.root.at? place

def withRoot (tree : FileTree) : Node → FileTree
  | .directory entries => { tree with entries }
  | .file _ => tree

def put (tree : FileTree) (place : Location) (node : Node) : FileTree :=
  tree.withRoot (tree.root.put place node)

def ensureDirectory (tree : FileTree) (place : Location) : FileTree :=
  if (tree.node? place).isSome then tree else tree.put place (.directory [])

def erase (tree : FileTree) (place : Location) : FileTree :=
  tree.withRoot (tree.root.erase place)

def empty (workingDirectory : Location) : FileTree :=
  put ⟨[], workingDirectory⟩ workingDirectory (.directory [])

/-- What is in a tree but was not in `before`, with its places. -/
def additions (tree before : FileTree) : List (Location × Node) :=
  (tree.root.places []).filter fun (place, node) => !(before.node? place).any node.alike

def nameLimit : Nat := 255

/-- The way along some names, with what was found under each of them; the last name comes first. Only
under that one there may be nothing. -/
abbrev Trail := List (String × Option Node)

def Trail.place (trail : Trail) : Location :=
  (trail.map Prod.fst).reverse

def endOf? (tree : FileTree) : Trail → Option Node
  | [] => some tree.root
  | (_, node) :: _ => node

def step (tree : FileTree) (trail : Trail) (name : String) : Except FileFault Trail :=
  match tree.endOf? trail with
  | none => .error .notFound
  | some (.file _) => .error .notADirectory
  | some (.directory entries) =>
      if FilePath.isIdle name then .ok trail
      else if name = ".." then .ok trail.tail
      else if nameLimit < name.utf8ByteSize then .error .nameTooLong
      else .ok ((name, entries.lookup name) :: trail)

/-- The trail that leads on along some names. There need not be anything at its end. -/
def follow (tree : FileTree) : Trail → List String → Except FileFault Trail
  | trail, [] => .ok trail
  | trail, name :: names =>
      match tree.step trail name with
      | .error fault => .error fault
      | .ok next => tree.follow next names

def trailTo (tree : FileTree) (place : Location) : Trail :=
  place.foldl
    (fun trail name => (name, (tree.endOf? trail).bind (·.child? name)) :: trail) []

def start (tree : FileTree) (path : FilePath) : Trail :=
  if path.isAbsolute then [] else tree.trailTo tree.workingDirectory

def pathLimit : Nat := 4095

def pathFault? (path : FilePath) : Option FileFault :=
  if '\x00' ∈ path.text.toList then some .zeroInPath
  else if path.text.isEmpty then some .notFound
  else if pathLimit < path.text.utf8ByteSize then some .nameTooLong
  else none

def find (tree : FileTree) (path : FilePath) : Except FileFault Node :=
  match pathFault? path with
  | some fault => .error fault
  | none =>
      match tree.follow (tree.start path) path.names with
      | .error fault => .error fault
      | .ok trail =>
          match tree.endOf? trail with
          | some node => .ok node
          | none => .error .notFound

def pathExists (tree : FileTree) (path : FilePath) : Bool :=
  match tree.find path with
  | .ok _ => true
  | .error _ => false

def isFile (tree : FileTree) (path : FilePath) : Bool :=
  match tree.find path with
  | .ok (.file _) => true
  | _ => false

def isDirectory (tree : FileTree) (path : FilePath) : Bool :=
  match tree.find path with
  | .ok (.directory _) => true
  | _ => false

def readText (tree : FileTree) (path : FilePath) : Except FileFault String :=
  match tree.find path with
  | .ok (.file (.text text)) => .ok text
  | .ok (.file (.binary _)) => .error .notUtf8
  | .ok (.directory _) => .error .isADirectory
  | .error fault => .error fault

def readText? (tree : FileTree) (path : FilePath) : Option String :=
  match tree.readText path with
  | .ok text => some text
  | .error _ => none

end FileTree

end PageRoutes
