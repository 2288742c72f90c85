import PageRoutes.Command.Run
/-!
The program itself: takes a picture of the files around the project, lets the command work on it,
and carries out what the command changed.
-/

set_option autoImplicit false

namespace PageRoutes.Program

open Command

def unreadDirectories : List String :=
  [".git", "node_modules"]

def depthLimit : Nat := 64

def locationOf (path : String) : Location :=
  (FilePath.names ⟨path⟩).filter (!FilePath.isIdle ·)

def addDirectory (tree : FileTree) (path : String) : Nat → IO FileTree
  | 0 => return tree
  | depth + 1 => do
      let mut tree := tree.ensureDirectory (locationOf path)
      let directory := (← IO.currentDir) / path
      for entry in ← directory.readDir do
        let inner := entry.path
        if ← inner.isDir then
          if entry.fileName ∉ unreadDirectories then
            tree ← addDirectory tree inner.toString depth
        else
          let bytes ← IO.FS.readBinFile inner
          tree := tree.put (locationOf inner.toString) (.file (.ofBytes bytes))
      return tree

def addPath (tree : FileTree) (path : String) : IO FileTree := do
  let place := locationOf path
  let tree := tree.ensureDirectory place.dropLast
  let absolute := (← IO.currentDir) / path
  if ← absolute.isDir then
    return tree.ensureDirectory place
  if ← absolute.pathExists then
    return tree.put place (.file (.ofBytes (← IO.FS.readBinFile absolute)))
  return tree

def outerPaths : Task → List FilePath
  | .generate options =>
      [options.routes, options.config, options.path].filterMap fun path =>
        path.filter (·.isAbsolute)
  | .preload options => [options.config].filterMap fun path => path.filter (·.isAbsolute)
  | .help | .version => []

def namedProject : Task → Option FilePath
  | .generate options => options.project
  | .preload options => options.project
  | .help | .version => none

def snapshot (task : Task) : IO FileTree := do
  let working := (← IO.currentDir).toString
  let mut tree ← addDirectory (.empty (locationOf working)) working depthLimit
  if let some project := namedProject task then
    let directory := ((← IO.currentDir) / project.text).toString
    tree ← addPath tree directory
    if project.isAbsolute then
      if ← ((← IO.currentDir) / directory).isDir then
        tree ← addDirectory tree directory depthLimit
  for path in outerPaths task do
    tree ← addPath tree path.text
  return tree

def carryOut (before after : FileTree) : IO Unit := do
  for (place, node) in after.additions before do
    let path := "/" ++ "/".intercalate place
    match node with
    | .directory _ => IO.FS.createDirAll path
    | .file (.text text) => IO.FS.writeFile path text
    | .file (.binary bytes) => IO.FS.writeBinFile path bytes

def readEnvironment : IO Environment := do
  let enabled ← IO.getEnv Settings.enabledVariable
  let preflight ← IO.getEnv Settings.preflightVariable
  return fun name =>
    if name = Settings.enabledVariable then enabled
    else if name = Settings.preflightVariable then preflight
    else none

end PageRoutes.Program

open PageRoutes PageRoutes.Command PageRoutes.Program in
def main (arguments : List String) : IO UInt32 := do
  match Task.ofArguments? arguments with
  | none =>
      IO.eprint helpText
      return 2
  | some task =>
      let before ← snapshot task
      let outcome := run? before (← readEnvironment) arguments
      if let some outcome := outcome then
        carryOut before outcome.tree
        IO.print outcome.output
        if let some line := outcome.failureLine? then
          IO.eprintln line
      return (exitCode outcome).toUInt32
