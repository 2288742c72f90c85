import PageRoutes.FileTree.Basic
import PageRoutes.Json.Shape
import PageRoutes.Manifest.Scrape
import PageRoutes.Settings.Basic
/-!
Hints that let a browser load the code of pages in advance. The build tool writes a manifest of its
own, which tells for each source file of a page the file it was built into; without it there are no
hints.
-/

set_option autoImplicit false

namespace PageRoutes

open Json

/-- The extensions that the source file of a page may have, the preferred one first. -/
def pageExtensions : List String :=
  ["tsx", "jsx", "ts", "js", "vue"]

def tagSeparator : String := "\n    "

abbrev BuildManifest := List (String × String)

/-- What the hints are made from. Directories and addresses have no slashes where they are joined.
-/
structure Preload where
  manifestPath : FilePath
  publicDir : FilePath
  buildPath : String
  pagesDirectory : String
  assetUrl : String
deriving DecidableEq, Repr

def trimStartSlashes (text : String) : String :=
  String.ofList (text.toList.dropWhile (· == '/'))

def trimEndSlashes (text : String) : String :=
  String.ofList (Text.trimEndWhile (· == '/') text.toList)

/-- The built file that the value of a source file names: under the key `file`, or as the only item
of an array. -/
def builtFile? : Value → Option String
  | .obj members => (members.lookup "file").bind Value.string?
  | .arr [.str file] => some file
  | _ => none

/-- The build manifest that a text holds. Source files without a built file are left out. -/
def BuildManifest.ofText (text : String) : Except Fault BuildManifest :=
  ((Document.ofText text).read (readMap Tree.value)).map fun members =>
    members.filterMap fun (source, value) => (builtFile? value).map fun file => (source, file)

namespace Preload

def ofSettings (root : FilePath) (settings : Settings) : Preload where
  manifestPath := root.resolve settings.manifestPath
  publicDir := root.resolve settings.publicDir
  buildPath := trimStartSlashes (trimEndSlashes settings.buildPath)
  pagesDirectory := trimEndSlashes settings.pagesDirectory
  assetUrl := trimEndSlashes settings.assetUrl

/-- The address of a built file. A build path that is empty takes no part in it. -/
def href (preload : Preload) (file : String) : String :=
  if preload.buildPath.isEmpty then preload.assetUrl ++ "/" ++ trimStartSlashes file
  else preload.assetUrl ++ "/" ++ preload.buildPath ++ "/" ++ trimStartSlashes file

def fileOf? (preload : Preload) (build : BuildManifest) (component : String) : Option String :=
  pageExtensions.findSome? fun extension =>
    build.lookup (preload.pagesDirectory ++ "/" ++ component ++ "." ++ extension)

def tag (preload : Preload) (file : String) : String :=
  "<link rel=\"modulepreload\" href=\"" ++ preload.href file ++ "\">"

def tags (preload : Preload) (build : BuildManifest) (components : List String) : List String :=
  components.filterMap fun component =>
    (preload.fileOf? build component).map preload.tag

def buildManifestPaths (preload : Preload) : List FilePath :=
  let build := preload.publicDir.join ⟨preload.buildPath⟩
  [build.join ⟨".vite/manifest.json"⟩, build.join ⟨"manifest.json"⟩]

def buildManifestAt? (tree : FileTree) (path : FilePath) : Option BuildManifest :=
  (tree.readText? path).bind fun text => (BuildManifest.ofText text).toOption

def buildManifest? (preload : Preload) (tree : FileTree) : Option BuildManifest :=
  preload.buildManifestPaths.findSome? (buildManifestAt? tree)

/-- The components that the manifest of the routes names; none if it cannot be read. -/
def components (preload : Preload) (tree : FileTree) : List String :=
  match tree.readText? preload.manifestPath with
  | some text => Manifest.componentsIn text
  | none => []

def text (preload : Preload) (tree : FileTree) : String :=
  match preload.buildManifest? tree with
  | none => ""
  | some build => tagSeparator.intercalate (preload.tags build (preload.components tree))

end Preload

end PageRoutes
