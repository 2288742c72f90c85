/-!
Natural numbers in decimal notation.
-/

set_option autoImplicit false

namespace PageRoutes.Decimal

def digitValue (digit : Char) : Nat :=
  digit.toNat - '0'.toNat

def ofDigits (digits : List Char) : Nat :=
  digits.foldl (fun value digit => value * 10 + digitValue digit) 0

def toDigits (value : Nat) : List Char :=
  Nat.toDigits 10 value

def ofInt : Int → List Char
  | .ofNat value => toDigits value
  | .negSucc value => '-' :: toDigits (value + 1)

def hexValue? (digit : Char) : Option Nat :=
  if '0' ≤ digit ∧ digit ≤ '9' then some (digit.toNat - '0'.toNat)
  else if 'a' ≤ digit ∧ digit ≤ 'f' then some (digit.toNat - 'a'.toNat + 10)
  else if 'A' ≤ digit ∧ digit ≤ 'F' then some (digit.toNat - 'A'.toNat + 10)
  else none

end PageRoutes.Decimal
