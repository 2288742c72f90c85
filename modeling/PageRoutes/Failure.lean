import PageRoutes.FileTree.Basic
import PageRoutes.Json.Tree
/-!
What can go wrong while a command runs.
-/

set_option autoImplicit false

namespace PageRoutes

def Json.Fault.message : Json.Fault → String
  | .malformed => "malformed text"
  | .ended => "unexpected end of text"
  | .mismatch => "unexpected shape"

inductive Failure where
  /-- A file could not be read or written. -/
  | file (fault : FileFault)
  /-- The text of the route list is not a list of routes. -/
  | json (fault : Json.Fault)
  /-- The text of a configuration file is not a configuration. -/
  | config (path : FilePath) (fault : Json.Fault)
  /-- The file of the route list could not be read. -/
  | routeList (path : FilePath) (fault : FileFault)
deriving DecidableEq, Repr

def Failure.message : Failure → String
  | .file fault => "I/O error: " ++ fault.message
  | .json fault => "JSON serialization/deserialization error: " ++ fault.message
  | .config path fault => "Configuration error: " ++ path.text ++ ": " ++ fault.message
  | .routeList path fault => "Route list error: cannot read " ++ path.text ++ ": " ++ fault.message

end PageRoutes
