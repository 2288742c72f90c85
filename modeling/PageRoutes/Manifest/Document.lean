import PageRoutes.FileTree.Writing
import PageRoutes.Json.Value
import PageRoutes.Manifest.Module
/-!
Manifests as JSON, and writing a manifest in the form that its path asks for.
-/

set_option autoImplicit false

namespace PageRoutes.Manifest

open Json

def parameterValue (parameter : Parameter) : Value :=
  .obj [("name", .str parameter.name), ("required", .bool parameter.required)]

def entryValue (entry : Manifest.Entry) : Value :=
  .obj
    [ ("pattern", .str entry.pattern),
      ("component", .str entry.component),
      ("middleware", .strings entry.middleware),
      ("parameters", .arr (entry.parameters.map parameterValue)) ]

def toValue (entries : List Manifest.Entry) : Value :=
  .obj [("routes", .arr (entries.map entryValue))]

def jsonText (entries : List Manifest.Entry) : String :=
  (toValue entries).prettyText ++ "\n"

def render (format : Manifest.Format) (entries : List Manifest.Entry) : String :=
  match format with
  | .module => moduleText entries
  | .json => jsonText entries

def write (tree : FileTree) (path : FilePath) (format : Manifest.Format)
    (entries : List Manifest.Entry) : FileTree.Change :=
  tree.writeNested path (render format entries)

end PageRoutes.Manifest
