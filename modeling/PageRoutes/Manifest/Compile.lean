import PageRoutes.Component.Strategy
import PageRoutes.Manifest.Basic
import PageRoutes.UriFilter
/-!
From routes to the entries of a manifest.
-/

set_option autoImplicit false

namespace PageRoutes

def apiGroup : String := "api"

def Route.isCandidate (route : Route) : Bool :=
  route.answersGet && !route.middlewareGroups.contains apiGroup

namespace Manifest

def candidates (routes : List Route) : List Route :=
  routes.filter (·.isCandidate)

def Entry.ofRoute (route : Route) (component : String) : Entry where
  pattern := Uri.pattern route.uri
  component := component
  middleware := route.allMiddleware
  parameters := Uri.parameters route.uri
  name := route.name

def compile (chain : StrategyChain) (filter : UriFilter) (routes : List Route) : List Entry :=
  (filter.apply (candidates routes)).filterMap fun route =>
    (chain.resolve? route).map (Entry.ofRoute route)

end Manifest

end PageRoutes
