import PageRoutes.Preflight.Registry
import PageRoutes.Settings.Basic
import PageRoutes.Text.Blank
/-!
The checks that every registry starts with: whether someone is signed in, is not, or has verified an
address, and whether the password was confirmed lately.
-/

set_option autoImplicit false

namespace PageRoutes.Preflight

open Json

def confirmationKey : String := "auth.password_confirmed_at"

/-- A guard that is not configured means the default guard. -/
def knownGuard? (settings : PreflightSettings) (guard : Option String) : Option String :=
  guard.filter settings.guards.contains

def userOn? (settings : PreflightSettings) (request : RequestView) (guard : Option String) :
    Option User :=
  request.user? (knownGuard? settings guard)

def signedIn (settings : PreflightSettings) : Evaluator := fun request guard =>
  .new (userOn? settings request guard).isSome

def signedOut (settings : PreflightSettings) : Evaluator := fun request guard =>
  .new (userOn? settings request guard).isNone

def verified (settings : PreflightSettings) : Evaluator := fun request guard =>
  .new ((userOn? settings request guard).any (·.emailVerified))

def int64? (value : Int) : Option Int64 :=
  if minInt64 ≤ value ∧ value ≤ maxInt64 then some (Int64.ofInt value) else none

def int64OfText? (text : List Char) : Option Int64 :=
  let (negative, digits) : Bool × List Char :=
    match text with
    | '-' :: digits => (true, digits)
    | '+' :: digits => (false, digits)
    | digits => (false, digits)
  if digits.isEmpty ∨ ¬ digits.all Char.isDigit then none
  else int64? (if negative then -(Decimal.ofDigits digits : Int) else Decimal.ofDigits digits)

/-- The seconds that a value of the session denotes. A number that is no integer of 64 bits is cut
off to one, and a text may have blanks around it. -/
def seconds? : Value → Option Int64
  | .num (.int value) => some ((int64? value).getD (Int64.ofInt maxInt64))
  | .num (.real value) => some value.toInt64
  | .str text => int64OfText? (Text.trimBlanks text.toList)
  | _ => none

/-- When the password was confirmed; zero means that it never was. -/
def confirmedAt? (request : RequestView) : Option Int64 :=
  ((request.session? confirmationKey).bind seconds?).filter (· ≠ 0)

/-- The confirmation of a password counts for a time; none of it counts if its end cannot be told.
-/
def passwordConfirmed (settings : PreflightSettings) : Evaluator := fun request _ =>
  let expiry := (confirmedAt? request).bind fun confirmed =>
    int64? (confirmed.toInt + settings.passwordTimeout.toInt)
  match expiry with
  | none => .new false
  | some expiry =>
      (Verdict.new (request.now < expiry)).withValue "expiresAt" (.num (.int expiry.toInt))

def Registry.ofSettings (settings : PreflightSettings) : Registry :=
  Registry.empty
    |>.register "auth" (signedIn settings)
    |>.register "guest" (signedOut settings)
    |>.register "verified" (verified settings)
    |>.register "password.confirm" (passwordConfirmed settings)

end PageRoutes.Preflight
