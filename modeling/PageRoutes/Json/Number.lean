import PageRoutes.Decimal.Shortest
/-!
Numbers of JSON texts. A numeral without fraction and exponent that fits 64 bits is an integer;
every other numeral is a double precision number, and a numeral too large for one has no value.
-/

set_option autoImplicit false

namespace PageRoutes.Json

open Decimal

inductive Number where
  | int (value : Int)
  | real (value : Float)
deriving Repr

def minInt64 : Int := -(Int.pow 2 63)

def maxInt64 : Int := Int.pow 2 63 - 1

def maxWord64 : Nat := Nat.pow 2 64 - 1

/-- A numeral as it is written: the digits in front of the point, the digits behind it, and the
exponent with whether it is negative. -/
structure Numeral where
  negative : Bool
  whole : List Char
  fraction : Option (List Char)
  exponent : Option (Bool × List Char)
deriving DecidableEq, Repr

/-- Appends digits to a number as long as it stays within 64 bits, and returns the digits that are
left over. -/
def appendDigits (value : Nat) : List Char → Nat × List Char
  | [] => (value, [])
  | digit :: digits =>
      let longer := value * 10 + digitValue digit
      if longer ≤ maxWord64 then appendDigits longer digits else (value, digit :: digits)

def powerOfTen (power : Nat) : Float :=
  Float.ofScientific 1 false power

def scaleDown (value : Float) (power : Nat) : Float :=
  if power ≤ 308 then value / powerOfTen power
  else if value == 0 then value
  else scaleDown (value / powerOfTen 308) (power - 308)
termination_by power

def scaleUp? (value : Float) (power : Nat) : Option Float :=
  if power ≤ 308 then
    let product := value * powerOfTen power
    if product.isInf then none else some product
  else if value == 0 then some value
  else none

def scale? (significand : Nat) (power : Int) : Option Float :=
  let value := significand.toUInt64.toFloat
  if 0 ≤ power then scaleUp? value power.toNat else some (scaleDown value (-power).toNat)

/-- The number that a numeral denotes. The digits of its significand count as far as they fit
64 bits. -/
def Numeral.number? (numeral : Numeral) : Option Number :=
  let (whole, dropped) := appendDigits 0 numeral.whole
  if dropped.isEmpty ∧ numeral.fraction.isNone ∧ numeral.exponent.isNone then
    if ¬ numeral.negative then some (.int whole)
    else if 0 < whole ∧ whole ≤ Nat.pow 2 63 then some (.int (-(whole : Int)))
    else some (.real (-whole.toUInt64.toFloat))
  else
    let (significand, ignored) := appendDigits whole (numeral.fraction.getD [])
    let places := (numeral.fraction.getD []).length - ignored.length
    let power : Int :=
      match numeral.exponent with
      | none => 0
      | some (true, digits) => -(ofDigits digits : Int)
      | some (false, digits) => ofDigits digits
    (scale? significand (dropped.length - places + power)).map fun value =>
      .real (if numeral.negative then -value else value)

/-- A positive decimal with a point; from `10 ^ 16` on and below `10 ^ -5` with an exponent, which
always has a sign. -/
def decimalText (digits : List Char) (magnitude : Int) : List Char :=
  if magnitude < -5 ∨ 15 < magnitude then
    let fraction := if digits.length ≤ 1 then [] else '.' :: digits.drop 1
    digits.take 1 ++ fraction ++ ['e', if magnitude < 0 then '-' else '+'] ++
      toDigits magnitude.natAbs
  else if magnitude < 0 then
    ['0', '.'] ++ List.replicate (magnitude.natAbs - 1) '0' ++ digits
  else
    let wholeLength := magnitude.natAbs + 1
    let fraction := digits.drop wholeLength
    digits.take wholeLength ++ List.replicate (wholeLength - digits.length) '0' ++ ['.'] ++
      (if fraction.isEmpty then ['0'] else fraction)

def realText (value : Float) : List Char :=
  let sign := if value.toBits.toNat < Nat.pow 2 63 then [] else ['-']
  if value == 0 then sign ++ ['0', '.', '0']
  else
    let (digits, magnitude) := (Binary.ofFloat value).shortest.digits
    sign ++ decimalText digits magnitude

def Number.text : Number → List Char
  | .int value => ofInt value
  | .real value => realText value

end PageRoutes.Json
