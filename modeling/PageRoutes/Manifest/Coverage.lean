import PageRoutes.Component.Omission
import PageRoutes.Manifest.Compile
/-!
The report on which routes are in a manifest and why the others are not.
-/

set_option autoImplicit false

namespace PageRoutes

structure Coverage where
  included : List (String × String)
  skipped : List (String × Omission)
deriving DecidableEq, Repr

namespace Coverage

def add (chain : StrategyChain) (report : Coverage) (route : Route) : Coverage :=
  match chain.resolve? route with
  | some component => { report with included := report.included ++ [(route.uri, component)] }
  | none => { report with skipped := report.skipped ++ [(route.uri, Omission.ofRoute route)] }

/-- The report on some routes. Routes that are not admitted, which is to say those whose URI is not
the URI of an admitted one, come behind all others. -/
def ofRoutes (chain : StrategyChain) (filter : UriFilter) (routes : List Route) : Coverage :=
  let candidates := Manifest.candidates routes
  let admitted := filter.apply candidates
  let report := admitted.foldl (add chain) ⟨[], []⟩
  let excluded := candidates.filter fun route => !admitted.any (·.uri == route.uri)
  { report with
    skipped := report.skipped ++ excluded.map fun route => (route.uri, .filteredOut) }

end Coverage

end PageRoutes
