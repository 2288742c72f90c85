import Mathlib.Data.List.Induction
import Mathlib.Data.Nat.Digits.Defs
import PageRoutes.Preflight.BuiltIn
import PageRoutes.Proofs.Text.Trimming
/-!
Decimal numerals with or without a sign, and the integers of 64 bits that they spell. A text is read
as such an integer exactly if it spells one by the values of its places.
-/

set_option autoImplicit false

namespace PageRoutes

open Text

namespace Decimal

def IsRow (digits : List Char) : Prop :=
  digits ≠ [] ∧ ∀ c ∈ digits, c.isDigit = true

/-- What a row of digits denotes: each digit counts ten times as much as the one behind it. -/
def placeValue (digits : List Char) : Nat :=
  Nat.ofDigits 10 (digits.map digitValue).reverse

inductive SpellsInt : List Char → Int → Prop
  | plain {digits : List Char} (row : IsRow digits) : SpellsInt digits (placeValue digits)
  | plus {digits : List Char} (row : IsRow digits) : SpellsInt ('+' :: digits) (placeValue digits)
  | minus {digits : List Char} (row : IsRow digits) : SpellsInt ('-' :: digits) (-(placeValue digits))

theorem ofDigits_eq_placeValue (digits : List Char) : ofDigits digits = placeValue digits := by
  -- The reader adds one digit at the end, where a place value takes its first one.
  induction digits using List.reverseRecOn with
  | nil => rfl
  | append_singleton digits digit ih =>
      unfold ofDigits placeValue at ih ⊢
      rw [List.foldl_append, List.foldl_cons, List.foldl_nil, ih, List.map_append,
        List.reverse_append, List.map_singleton, List.reverse_singleton, List.singleton_append,
        Nat.ofDigits_cons]
      omega

theorem placeValue_toDigits (value : Nat) : placeValue (toDigits value) = value := by
  have steps : ofDigits (toDigits value) = Nat.ofDigitChars 10 (toDigits value) 0 := by
    unfold ofDigits Nat.ofDigitChars
    congr 1
    funext sofar digit
    rw [Nat.mul_comm]
    rfl
  rw [← ofDigits_eq_placeValue, steps]
  exact Nat.ofDigitChars_ten_toDigits

theorem isRow_toDigits (value : Nat) : IsRow (toDigits value) :=
  ⟨Nat.toDigits_ne_nil, fun _ => Nat.isDigit_of_mem_toDigits (by omega) (by omega)⟩

theorem spellsInt_toString (value : Int) : SpellsInt (toString value).toList value := by
  cases value with
  | ofNat value =>
      have spelled := SpellsInt.plain (isRow_toDigits value)
      rw [placeValue_toDigits] at spelled
      have printed : (toString (Int.ofNat value)).toList = toDigits value := Nat.toList_repr
      rwa [printed]
  | negSucc value =>
      have spelled := SpellsInt.minus (isRow_toDigits (value + 1))
      rw [placeValue_toDigits] at spelled
      have printed : (toString (Int.negSucc value)).toList = '-' :: toDigits (value + 1) := by
        change ("-" ++ (value + 1).repr).toList = _
        rw [String.toList_append, Nat.toList_repr]
        rfl
      rwa [printed]

theorem isBlank_of_isDigit {c : Char} (digit : c.isDigit = true) : isBlank c = false := by
  have bounds : 48 ≤ c.toNat ∧ c.toNat ≤ 57 := Char.isDigit_iff_toNat.mp digit
  unfold isBlank
  simp only [Bool.or_eq_false_iff, Bool.and_eq_false_iff, beq_eq_false_iff_ne,
    decide_eq_false_iff_not]
  omega

theorem SpellsInt.isTrimmed {text : List Char} {value : Int} (spells : SpellsInt text value) :
    IsTrimmed text := by
  have ofRow {digits : List Char} (row : IsRow digits) : ∀ c ∈ digits, isBlank c = false :=
    fun c member => isBlank_of_isDigit (row.2 c member)
  have noBlank : ∀ c ∈ text, isBlank c = false := by
    cases spells with
    | plain row => exact ofRow row
    | plus row => exact List.forall_mem_cons.mpr ⟨by decide, ofRow row⟩
    | minus row => exact List.forall_mem_cons.mpr ⟨by decide, ofRow row⟩
  exact ⟨fun c isHead => noBlank c (List.mem_of_mem_head? isHead),
    fun c isLast => noBlank c (List.mem_of_mem_getLast? isLast)⟩

end Decimal

namespace Preflight

open Json Decimal

/-! ### Integers of 64 bits -/

theorem minInt64_eq : minInt64 = -2 ^ 63 := by decide

theorem maxInt64_eq : maxInt64 = 2 ^ 63 - 1 := by decide

theorem toInt_inRange (word : Int64) : minInt64 ≤ word.toInt ∧ word.toInt ≤ maxInt64 := by
  have lower := word.le_toInt
  have upper := word.toInt_lt
  rw [minInt64_eq, maxInt64_eq]
  omega

theorem int64?_eq_some_iff {value : Int} {word : Int64} :
    int64? value = some word ↔ word.toInt = value := by
  unfold int64?
  constructor
  · intro found
    split at found
    · next inRange =>
        cases found
        rw [minInt64_eq, maxInt64_eq] at inRange
        exact Int64.toInt_ofInt_of_le inRange.1 (by omega)
    · cases found
  · intro same
    subst same
    rw [if_pos (toInt_inRange word), Int64.ofInt_toInt]

def signed? (negative : Bool) (digits : List Char) : Option Int64 :=
  if digits.isEmpty ∨ ¬ digits.all Char.isDigit then none
  else int64? (if negative then -(ofDigits digits : Int) else ofDigits digits)

theorem signed?_eq_some_iff {negative : Bool} {digits : List Char} {word : Int64} :
    signed? negative digits = some word ↔
      IsRow digits ∧
        word.toInt = if negative then -(placeValue digits : Int) else placeValue digits := by
  have isRow_iff : IsRow digits ↔ ¬(digits.isEmpty = true ∨ ¬ digits.all Char.isDigit = true) := by
    rw [not_or, not_not, List.all_eq_true, List.isEmpty_iff]
    rfl
  unfold signed?
  rw [ofDigits_eq_placeValue]
  by_cases row : IsRow digits
  · rw [if_neg (isRow_iff.mp row), int64?_eq_some_iff]
    exact (and_iff_right row).symm
  · rw [if_pos (not_not.mp (mt isRow_iff.mpr row))]
    constructor
    · intro impossible
      cases impossible
    · intro both
      exact absurd both.1 row

theorem int64OfText?_plain {text : List Char} (noMinus : text.head? ≠ some '-')
    (noPlus : text.head? ≠ some '+') : int64OfText? text = signed? false text := by
  unfold int64OfText?
  split
  next negative digits sign =>
    split at sign
    · exact absurd rfl noMinus
    · exact absurd rfl noPlus
    · cases sign
      rfl

theorem int64OfText?_eq_some_iff {text : List Char} {word : Int64} :
    int64OfText? text = some word ↔ SpellsInt text word.toInt := by
  have ofMinus (digits : List Char) : int64OfText? ('-' :: digits) = signed? true digits := rfl
  have ofPlus (digits : List Char) : int64OfText? ('+' :: digits) = signed? false digits := rfl
  have ofPlain (row : IsRow text) : int64OfText? text = signed? false text := by
    apply int64OfText?_plain
    · exact fun isMinus => absurd (row.2 '-' (List.mem_of_mem_head? isMinus)) (by decide)
    · exact fun isPlus => absurd (row.2 '+' (List.mem_of_mem_head? isPlus)) (by decide)
  constructor
  · intro found
    by_cases minus : text.head? = some '-'
    · obtain ⟨digits, rfl⟩ := List.head?_eq_some_iff.mp minus
      obtain ⟨row, same⟩ := signed?_eq_some_iff.mp ((ofMinus digits).symm.trans found)
      rw [same]
      exact .minus row
    · by_cases plus : text.head? = some '+'
      · obtain ⟨digits, rfl⟩ := List.head?_eq_some_iff.mp plus
        obtain ⟨row, same⟩ := signed?_eq_some_iff.mp ((ofPlus digits).symm.trans found)
        rw [same]
        exact .plus row
      · rw [int64OfText?_plain minus plus] at found
        obtain ⟨row, same⟩ := signed?_eq_some_iff.mp found
        rw [same]
        exact .plain row
  · intro spells
    -- How a text spells an integer decides which integer it is, so that is a variable at first.
    generalize denoted : word.toInt = value at spells
    cases spells with
    | plain row => rw [ofPlain row, signed?_eq_some_iff]; exact ⟨row, denoted⟩
    | plus row => rw [ofPlus, signed?_eq_some_iff]; exact ⟨row, denoted⟩
    | minus row => rw [ofMinus, signed?_eq_some_iff]; exact ⟨row, denoted⟩

end Preflight

end PageRoutes
