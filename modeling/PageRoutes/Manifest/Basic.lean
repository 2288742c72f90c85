import PageRoutes.FilePath
import PageRoutes.Uri
/-!
Manifests: what the client knows about the routes that render pages. A manifest is written as a
module or as JSON, which the path of its file decides.
-/

set_option autoImplicit false

namespace PageRoutes

structure Manifest.Entry where
  pattern : String
  component : String
  middleware : List String
  parameters : List Parameter
  /-- The name of the route, which is never written. -/
  name : Option String
deriving DecidableEq, Repr

def Manifest.Entry.unnamed (entry : Manifest.Entry) : Manifest.Entry :=
  { entry with name := none }

inductive Manifest.Format where
  | module
  | json
deriving DecidableEq, Repr

/-- Files that end with `.json` hold JSON and all others a module. -/
def Manifest.Format.ofPath (path : FilePath) : Manifest.Format :=
  if path.extension? = some "json" then .json else .module

end PageRoutes
