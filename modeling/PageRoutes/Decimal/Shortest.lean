import PageRoutes.Decimal.Digits
/-!
The shortest decimal that denotes a binary floating point number. A finite number is
`significand · 2 ^ exponent`; every real that lies closer to it than to its neighbours rounds to it,
and so do the two midpoints when the significand is even. Among the decimals in that interval the
ones with the fewest digits win, and of those the nearest; of two equally near ones the even one.
-/

set_option autoImplicit false

namespace PageRoutes.Decimal

/-- A positive decimal `coefficient · 10 ^ power`. -/
structure Scientific where
  coefficient : Nat
  power : Int
deriving DecidableEq, Repr

structure Ratio where
  numerator : Nat
  denominator : Nat
deriving Repr

def Ratio.scale (value : Ratio) (base : Nat) (power : Int) : Ratio :=
  if 0 ≤ power then ⟨value.numerator * base.pow power.toNat, value.denominator⟩
  else ⟨value.numerator, value.denominator * base.pow (-power).toNat⟩

def Ratio.lt (left right : Ratio) : Bool :=
  left.numerator * right.denominator < right.numerator * left.denominator

def Ratio.le (left right : Ratio) : Bool :=
  left.numerator * right.denominator ≤ right.numerator * left.denominator

/-- A positive binary number `significand · 2 ^ exponent`. The number below it is only half as far
away as the one above it when `atBoundary` holds. -/
structure Binary where
  significand : Nat
  exponent : Int
  atBoundary : Bool
deriving Repr

def Binary.value (number : Binary) : Ratio :=
  (Ratio.mk number.significand 1).scale 2 number.exponent

def Binary.lowerEnd (number : Binary) : Ratio :=
  if number.atBoundary then (Ratio.mk (4 * number.significand - 1) 1).scale 2 (number.exponent - 2)
  else (Ratio.mk (2 * number.significand - 1) 1).scale 2 (number.exponent - 1)

def Binary.upperEnd (number : Binary) : Ratio :=
  (Ratio.mk (2 * number.significand + 1) 1).scale 2 (number.exponent - 1)

/-- Whether a real rounds to the number; ties go to the even significand. -/
def Binary.rounds (number : Binary) (real : Ratio) : Bool :=
  if number.significand % 2 = 0 then number.lowerEnd.le real && real.le number.upperEnd
  else number.lowerEnd.lt real && real.lt number.upperEnd

/-- How often a positive ratio below one has to be taken times ten until it reaches one; never more
often than its denominator has digits. -/
def Ratio.leadingZeros (value : Ratio) : Nat :=
  let limit := (toDigits value.denominator).length
  let reached := fun count => decide (value.denominator ≤ value.numerator * Nat.pow 10 count)
  ((List.range limit).find? reached).getD limit

def Ratio.magnitude (value : Ratio) : Int :=
  let whole := value.numerator / value.denominator
  if 0 < whole then (toDigits whole).length - 1 else -(value.leadingZeros : Int)

/-- The two neighbours of the number on the grid of the multiples of `10 ^ power`, the nearer one
first. -/
def Binary.neighbours (number : Binary) (power : Int) : List Nat :=
  let onGrid := number.value.scale 10 (-power)
  let below := onGrid.numerator / onGrid.denominator
  let twiceOver := 2 * (onGrid.numerator % onGrid.denominator)
  if twiceOver < onGrid.denominator ∨ (twiceOver = onGrid.denominator ∧ below % 2 = 0) then
    [below, below + 1]
  else [below + 1, below]

def Binary.onGrid? (number : Binary) (power : Int) : Option Scientific :=
  (number.neighbours power).findSome? fun coefficient =>
    if number.rounds ((Ratio.mk coefficient 1).scale 10 power) then some ⟨coefficient, power⟩
    else none

def Binary.shortest (number : Binary) : Scientific :=
  let magnitude := number.value.magnitude
  ((List.range 17).findSome? fun (more : Nat) => number.onGrid? (magnitude - more)).getD ⟨0, 0⟩

/-- The decimal digits of the coefficient without the zeros at its end, and the power of ten of the
first of them. -/
def Scientific.digits (decimal : Scientific) : List Char × Int :=
  let all := toDigits decimal.coefficient
  ((all.reverse.dropWhile (· == '0')).reverse, decimal.power + (all.length - 1))

def Binary.ofFloat (number : Float) : Binary :=
  let bits := number.toBits.toNat
  let fraction : Nat := bits % Nat.pow 2 52
  let field : Nat := bits / Nat.pow 2 52 % Nat.pow 2 11
  if field = 0 then ⟨fraction, -1074, false⟩
  else ⟨Nat.pow 2 52 + fraction, (field : Int) - 1075, decide (fraction = 0 ∧ 1 < field)⟩

end PageRoutes.Decimal
