import PageRoutes.Glob
import PageRoutes.Route.Basic
/-!
Choosing routes by patterns for their URIs. Patterns that are invalid are left out; if no valid
pattern asks for routes, all of them are asked for.
-/

set_option autoImplicit false

namespace PageRoutes

structure UriFilter where
  included : List String
  excluded : List String
deriving DecidableEq, Repr

namespace UriFilter

def validGlobs (patterns : List String) : List Glob :=
  patterns.filterMap Glob.ofText?

def admits (filter : UriFilter) (uri : String) : Bool :=
  let asked := validGlobs filter.included
  let unwanted := validGlobs filter.excluded
  (asked.isEmpty || asked.any (·.covers uri)) && !unwanted.any (·.covers uri)

/-- The routes whose URI is admitted as it is written. -/
def apply (filter : UriFilter) (routes : List Route) : List Route :=
  routes.filter fun route => filter.admits route.uri

end UriFilter

end PageRoutes
