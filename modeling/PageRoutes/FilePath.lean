import PageRoutes.Text.Pieces
/-!
Paths of files as they are written. A path is a text whose names stand between slashes; it is
absolute when it starts with a slash. Joining never removes `.`, `..` or repeated slashes. Where a
path is taken apart, empty names and `.` do not count, except for a `.` that starts it.
-/

set_option autoImplicit false

namespace PageRoutes

structure FilePath where
  text : String
deriving DecidableEq, Repr, Inhabited

namespace FilePath

def isAbsolute (path : FilePath) : Bool :=
  path.text.toList.head? == some '/'

/-- `path` seen from `base`. An absolute path stands for itself; otherwise the two are put together
with one slash between them, unless the base is empty or ends with a slash. -/
def join (base path : FilePath) : FilePath :=
  if path.isAbsolute then path
  else if base.text.isEmpty ∨ base.text.toList.getLast? = some '/' then ⟨base.text ++ path.text⟩
  else ⟨base.text ++ "/" ++ path.text⟩

def resolve (root path : FilePath) : FilePath :=
  if path.isAbsolute then path else root.join path

def names (path : FilePath) : List String :=
  (Text.splitOn '/' path.text.toList).map String.ofList

def isIdle (name : String) : Bool :=
  name == "" || name == "."

/-- The names from the first to the last that leads somewhere. The first one of a relative path
counts even if it is `.`. -/
def dropIdleEnd : List String → List String
  | [] => []
  | first :: rest =>
      let rest := (rest.reverse.dropWhile isIdle).reverse
      if rest.isEmpty ∧ first == "" then [] else first :: rest

def body (path : FilePath) : List String :=
  if path.isAbsolute then (path.names.drop 1).reverse.dropWhile isIdle |>.reverse
  else dropIdleEnd path.names

private def ofBody (absolute : Bool) (names : List String) : FilePath :=
  ⟨(if absolute then "/" else "") ++ "/".intercalate names⟩

def parent? (path : FilePath) : Option FilePath :=
  match path.body with
  | [] => none
  | names =>
      let outer := names.dropLast
      let outer :=
        if path.isAbsolute then (outer.reverse.dropWhile isIdle).reverse else dropIdleEnd outer
      some (ofBody path.isAbsolute outer)

/-- The last name, unless the path ends by going up or staying where it is. -/
def fileName? (path : FilePath) : Option String :=
  match path.body.getLast? with
  | none | some "." | some ".." => none
  | some name => some name

/-- What follows the last dot of the file name, if something stands in front of that dot. -/
def extension? (path : FilePath) : Option String := do
  let name ← path.fileName?
  let (reversed, before) ← Text.cutAtFirst? '.' name.toList.reverse
  if before.isEmpty then none else some (String.ofList reversed.reverse)

def ancestors (path : FilePath) : List FilePath :=
  climb path.names.length path
where
  climb : Nat → FilePath → List FilePath
    | 0, path => [path]
    | steps + 1, path =>
        match path.parent? with
        | none => [path]
        | some parent => path :: climb steps parent

end FilePath

end PageRoutes
