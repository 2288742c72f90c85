import PageRoutes.Json.Value
import PageRoutes.Route.Action
/-!
Routes as the host application reports them.
-/

set_option autoImplicit false

namespace PageRoutes

structure Route where
  uri : String
  methods : List String
  action : Action
  /-- The middleware that the route itself names, with the names of middleware groups. -/
  middlewareGroups : List String
  /-- The middleware gathered from the route and its controller. -/
  middleware : List String
  /-- Values by key, keys in increasing order. -/
  defaults : List (String × Json.Value)
  name : Option String
deriving Repr

namespace Route

def new (uri : String) (action : Action) : Route where
  uri := uri
  methods := ["GET", "HEAD"]
  action := action
  middlewareGroups := []
  middleware := []
  defaults := []
  name := none

def withDefault (route : Route) (key : String) (value : Json.Value) : Route :=
  { route with defaults := Json.insertMember key value route.defaults }

def sameButCase (left right : String) : Bool :=
  left.toList.map Char.toLower == right.toList.map Char.toLower

def answersGet (route : Route) : Bool :=
  route.methods.any (sameButCase "GET")

/-- All middleware that takes effect on the route, each once, in the order in which it is first
named. -/
def allMiddleware (route : Route) : List String :=
  (route.middlewareGroups ++ route.middleware).eraseDups

end Route

end PageRoutes
