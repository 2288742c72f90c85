import PageRoutes.Json.Value
import PageRoutes.Manifest.Scrape
import PageRoutes.Text.Pieces
/-!
Checks that tell the client beforehand whether middleware would let a request pass. A registry holds
an evaluator for each middleware name; what stands behind the first colon of a middleware text goes
to the evaluator as its parameters.
-/

set_option autoImplicit false

namespace PageRoutes.Preflight

def verdictsKey : String := "_force10_preflight"

structure User where
  emailVerified : Bool
deriving DecidableEq, Repr

structure RequestView where
  /-- Who is signed in on a guard; without a name, on the default guard. -/
  user? : Option String → Option User
  session? : String → Option Json.Value
  /-- The time in seconds. -/
  now : Int64

structure Verdict where
  pass : Bool
  extra : List (String × Json.Value)

namespace Verdict

def new (pass : Bool) : Verdict :=
  ⟨pass, []⟩

def withValue (verdict : Verdict) (key : String) (value : Json.Value) : Verdict :=
  { verdict with extra := Json.insertMember key value verdict.extra }

def toValue (verdict : Verdict) : Json.Value :=
  .obj (Json.sortMembers (("pass", .bool verdict.pass) :: verdict.extra))

end Verdict

abbrev Evaluator := RequestView → Option String → Verdict

def splitMiddleware (middleware : String) : String × Option String :=
  match Text.cutAtFirst? ':' middleware.toList with
  | some (name, parameters) => (String.ofList name, some (String.ofList parameters))
  | none => (middleware, none)

/-- The evaluators by the name of their middleware. Of several for one name the first counts. -/
structure Registry where
  evaluators : List (String × Evaluator)

namespace Registry

def empty : Registry :=
  ⟨[]⟩

def register (registry : Registry) (name : String) (evaluator : Evaluator) : Registry :=
  ⟨(name, evaluator) :: registry.evaluators⟩

def evaluator? (registry : Registry) (name : String) : Option Evaluator :=
  registry.evaluators.lookup name

def isRegistered (registry : Registry) (name : String) : Bool :=
  (registry.evaluator? name).isSome

def verdict? (registry : Registry) (request : RequestView) (middleware : String) :
    Option Verdict :=
  let (name, parameters) := splitMiddleware middleware
  (registry.evaluator? name).map fun evaluator => evaluator request parameters

/-- The results for some middleware, by its full text. Each text is checked once, where it is first
given. -/
def verdicts (registry : Registry) (request : RequestView) (middleware : List String) :
    List (String × Verdict) :=
  middleware.eraseDups.filterMap fun text =>
    (registry.verdict? request text).map fun verdict => (text, verdict)

def verdictsOfManifest (registry : Registry) (request : RequestView) (manifest : String) :
    List (String × Verdict) :=
  registry.verdicts request (Manifest.middlewareIn manifest)

end Registry

end PageRoutes.Preflight
