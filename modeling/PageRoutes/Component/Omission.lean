import PageRoutes.Route.Basic
/-!
Why a route has no entry in the manifest.
-/

set_option autoImplicit false

namespace PageRoutes

inductive Omission where
  | silentClosure
  | noAction
  | silentController
  | filteredOut
deriving DecidableEq, Repr

namespace Omission

def message : Omission → String
  | .silentClosure => "No Inertia::render() or inertia() call found in closure"
  | .noAction => "No action defined"
  | .silentController => "No Inertia::render() or inertia() call found in controller method"
  | .filteredOut => "Excluded by config filter"

def ofRoute (route : Route) : Omission :=
  match route.action with
  | .closure _ => silentClosure
  | .none => noAction
  | .controller _ _ | .invokable _ => silentController

end Omission

end PageRoutes
