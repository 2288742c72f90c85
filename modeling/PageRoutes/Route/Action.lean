import PageRoutes.FilePath
import PageRoutes.Text.Blank
import PageRoutes.Text.Pieces
/-!
What a route leads to: a method of a controller class, a class that is invoked as a whole, a
closure, or nothing. The host names class-based actions by an identifier, `Class@method` or `Class`.
-/

set_option autoImplicit false

namespace PageRoutes

open Text

/-- Where a closure is written: a file and the first and last of its lines, counted from one. -/
structure SourceLines where
  file : FilePath
  startLine : Nat
  endLine : Nat
deriving DecidableEq, Repr

inductive Action where
  | closure (location : Option SourceLines)
  | controller (className method : String)
  | invokable (className : String)
  | none
deriving DecidableEq, Repr

namespace Action

def invokeMethod : String := "__invoke"

/-- The action that an identifier names. Blanks around it do not count, and everything behind the
first `@` is the method. -/
def ofIdentifier (identifier : String) : Action :=
  let text := trimBlanks identifier.toList
  if text.isEmpty then .none
  else if text = "Closure".toList then .closure Option.none
  else
    match cutAtFirst? '@' text with
    | some (className, method) => .controller (String.ofList className) (String.ofList method)
    | Option.none => .invokable (String.ofList text)

def identifier? : Action → Option String
  | .controller className method => some (className ++ "@" ++ method)
  | .invokable className => some className
  | .closure _ | .none => Option.none

def target? : Action → Option (String × String)
  | .controller className method => some (className, method)
  | .invokable className => some (className, invokeMethod)
  | .closure _ | .none => Option.none

def isClosure : Action → Bool
  | .closure _ => true
  | _ => false

end Action

end PageRoutes
