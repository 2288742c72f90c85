import Mathlib.Data.List.TakeWhile
import Mathlib.Tactic.IntervalCases
import PageRoutes.Json.Reader
/-!
The tokens of JSON texts are read back: space between parts, quoted texts and integers, the last two
in the form in which they are printed. A token is read whatever stands behind it, except that a
numeral must end there.
-/

set_option autoImplicit false

namespace PageRoutes.Json

open Decimal Text

/-! ### Space -/

def IsSpacing (text : List Char) : Prop :=
  ∀ c ∈ text, isSpace c = true

theorem skipSpace_append {space : List Char} (spacing : IsSpacing space) (text : List Char) :
    skipSpace (space ++ text) = skipSpace text :=
  List.dropWhile_append_of_pos spacing

theorem skipSpace_cons {c : Char} (visible : isSpace c = false) (text : List Char) :
    skipSpace (c :: text) = c :: text :=
  List.dropWhile_cons_of_neg (by rw [visible]; exact Bool.false_ne_true)

theorem skipSpace_append_cons {space : List Char} {c : Char} (spacing : IsSpacing space)
    (visible : isSpace c = false) (text : List Char) :
    skipSpace (space ++ c :: text) = c :: text := by
  rw [skipSpace_append spacing, skipSpace_cons visible]

theorem skipSpace_of_isSpacing {space : List Char} (spacing : IsSpacing space) :
    skipSpace space = [] :=
  List.dropWhile_eq_nil_iff.mpr spacing

/-! ### Quoted texts -/

def Quoted.ofText (text : String) : Quoted :=
  ⟨text.toList.map .char, none⟩

theorem readUnits_map_char (text : List Char) : readUnits (text.map .char) = .ok text := by
  induction text with
  | nil => rfl
  | cons c text ih =>
      rw [List.map_cons, readUnits, ih]
      rfl

theorem Quoted.read_ofText (text : String) : (Quoted.ofText text).read = .ok text := by
  simp only [Quoted.read, Quoted.ofText, readUnits_map_char, readBreak, bind, Except.bind, pure,
    Except.pure, String.ofList_toList]

theorem readHex_control {value : Nat} (control : value < 0x20) (text : List Char) :
    readHex ('0' :: '0' :: hexDigit (value / 16) :: hexDigit (value % 16) :: text) =
      .ok (value, text) := by
  interval_cases value <;> rfl

theorem readEscape_control {c : Char} (control : c.toNat < 0x20) (text : List Char) :
    readEscape ('u' :: '0' :: '0' :: hexDigit (c.toNat / 16) :: hexDigit (c.toNat % 16) :: text) =
      .ok (.char c, text) := by
  have notLow : isLowSurrogate c.toNat = false := by
    simp only [isLowSurrogate, Bool.and_eq_false_iff, decide_eq_false_iff_not]
    omega
  have notHigh : isHighSurrogate c.toNat = false := by
    simp only [isHighSurrogate, Bool.and_eq_false_iff, decide_eq_false_iff_not]
    omega
  simp [readEscape, readUnit, readHex_control control, notLow, notHigh, bind, Except.bind, pure,
    Except.pure]

/-- An escaped character takes one step. -/
theorem readQuoted_escape_append (c : Char) (fuel : Nat) (text : List Char) :
    readQuoted (fuel + 1) (escape c ++ text) =
      (⟨.char c :: (readQuoted fuel text).1.units, (readQuoted fuel text).1.broken⟩,
        (readQuoted fuel text).2) := by
  unfold escape
  split_ifs with isMark isBackslash isBackspace isTab isFeed isPage isReturn isControl
  · subst isMark
    rfl
  · subst isBackslash
    rfl
  · obtain rfl : c = '\x08' := Char.toNat_inj.mp isBackspace
    rfl
  · obtain rfl : c = '\t' := Char.toNat_inj.mp isTab
    rfl
  · obtain rfl : c = '\n' := Char.toNat_inj.mp isFeed
    rfl
  · obtain rfl : c = '\x0c' := Char.toNat_inj.mp isPage
    rfl
  · obtain rfl : c = '\r' := Char.toNat_inj.mp isReturn
    rfl
  · simp only [List.cons_append, List.nil_append, readQuoted, readEscape_control isControl]
  · rw [List.singleton_append, readQuoted, if_neg isControl]
    · exact isMark
    · exact isBackslash

/-- Behind the opening mark, an escaped text is read up to the mark that closes it. -/
theorem readQuoted_flatMap_escape (text rest : List Char) {fuel : Nat}
    (enough : text.length < fuel) :
    readQuoted fuel (text.flatMap escape ++ '"' :: rest) = (⟨text.map .char, none⟩, rest) := by
  induction text generalizing fuel with
  | nil =>
      obtain ⟨fuel, rfl⟩ := Nat.exists_eq_add_of_lt enough
      rfl
  | cons c text ih =>
      cases fuel with
      | zero => exact absurd enough (Nat.not_lt_zero _)
      | succ fuel =>
          rw [List.flatMap_cons, List.append_assoc, readQuoted_escape_append,
            ih (Nat.lt_of_succ_lt_succ enough)]
          rfl

theorem length_le_length_flatMap_escape (text : List Char) :
    text.length ≤ (text.flatMap escape).length := by
  induction text with
  | nil => exact Nat.zero_le _
  | cons c text ih =>
      have nonempty : 1 ≤ (escape c).length := by
        unfold escape
        split_ifs <;> simp
      rw [List.flatMap_cons, List.length_append, List.length_cons]
      omega

/-- What stands behind the opening mark of a quoted text is read with as much fuel as it is long. -/
theorem readQuoted_of_quoted (text : String) (rest : List Char) {fuel : Nat}
    (enough : (quoted text).length ≤ fuel + 1) :
    readQuoted fuel (text.toList.flatMap escape ++ '"' :: rest) = (.ofText text, rest) := by
  have bound := length_le_length_flatMap_escape text.toList
  simp only [quoted, List.length_cons, List.length_append, List.length_nil] at enough
  exact readQuoted_flatMap_escape text.toList rest (by omega)

theorem quoted_append (text : String) (rest : List Char) :
    quoted text ++ rest = '"' :: (text.toList.flatMap escape ++ '"' :: rest) := by
  simp only [quoted, List.cons_append, List.append_assoc, List.nil_append]

theorem skipSpace_append_quoted {space : List Char} (spacing : IsSpacing space) (text : String)
    (rest : List Char) :
    skipSpace (space ++ (quoted text ++ rest)) =
      '"' :: (text.toList.flatMap escape ++ '"' :: rest) := by
  rw [quoted_append]
  exact skipSpace_append_cons spacing rfl _

/-! ### Integers -/

def Numeral.ofInt : Int → Numeral
  | .ofNat value => ⟨false, toDigits value, none, none⟩
  | .negSucc value => ⟨true, toDigits (value + 1), none, none⟩

/-- A text that does not go on with a numeral in front of it. -/
def EndsNumeral (text : List Char) : Prop :=
  ∀ c ∈ text.head?, c.isDigit = false ∧ c ≠ '.' ∧ c ≠ 'e' ∧ c ≠ 'E'

theorem endsNumeral_nil : EndsNumeral [] := by
  intro c member
  cases member

theorem endsNumeral_cons {c : Char} (ends : c.isDigit = false ∧ c ≠ '.' ∧ c ≠ 'e' ∧ c ≠ 'E')
    (text : List Char) : EndsNumeral (c :: text) := by
  rintro d member
  obtain rfl : c = d := Option.some.inj member
  exact ends

theorem endsNumeral_append {space text : List Char} (spacing : IsSpacing space)
    (ends : EndsNumeral text) : EndsNumeral (space ++ text) := by
  cases space with
  | nil => exact ends
  | cons c space =>
      have isSpacing := spacing c List.mem_cons_self
      simp only [isSpace, Bool.or_eq_true, beq_iff_eq] at isSpacing
      apply endsNumeral_cons
      rcases isSpacing with ((rfl | rfl) | rfl) | rfl <;> decide

theorem cutRun_isDigit_append {digits rest : List Char} (all : ∀ c ∈ digits, c.isDigit = true)
    (ends : EndsNumeral rest) : cutRun Char.isDigit (digits ++ rest) = (digits, rest) := by
  have stops : rest.takeWhile Char.isDigit = [] ∧ rest.dropWhile Char.isDigit = rest := by
    cases rest with
    | nil => exact ⟨rfl, rfl⟩
    | cons c rest =>
        have notDigit := (ends c rfl).1
        simp [notDigit]
  rw [cutRun, List.takeWhile_append_of_pos all, List.dropWhile_append_of_pos all, stops.1, stops.2,
    List.append_nil]

theorem isDigit_of_mem_toDigits (value : Nat) : ∀ c ∈ toDigits value, c.isDigit = true :=
  fun _ member => Nat.isDigit_of_mem_toDigits (by omega) (by omega) member

theorem exists_toDigits_eq_cons (value : Nat) :
    ∃ c digits, toDigits value = c :: digits ∧ c.isDigit = true := by
  obtain ⟨c, digits, starts⟩ := List.exists_cons_of_ne_nil (Nat.toDigits_ne_nil (n := value))
  refine ⟨c, digits, starts, isDigit_of_mem_toDigits value c ?_⟩
  rw [toDigits, starts]
  exact List.mem_cons_self

/-- Only zero is written with a zero in front. -/
theorem head?_toDigits_ne_zero {value : Nat} (positive : 0 < value) :
    (toDigits value).head? ≠ some '0' := by
  induction value using Nat.strong_induction_on with
  | _ value ih =>
      rw [toDigits, Nat.toDigits_eq_if (by omega)]
      split_ifs with single
      · intro isZero
        have : value = 0 := Nat.digitChar_eq_zero.mp (Option.some.inj isZero)
        omega
      · have notZero := ih (value / 10) (by omega) (by omega)
        obtain ⟨c, digits, starts, -⟩ := exists_toDigits_eq_cons (value / 10)
        rw [starts] at notZero
        rw [← toDigits, starts]
        exact notZero

theorem readDigits_toDigits_append (value : Nat) {rest : List Char} (ends : EndsNumeral rest) :
    readDigits (toDigits value ++ rest) = .ok (toDigits value, rest) := by
  have run := cutRun_isDigit_append (isDigit_of_mem_toDigits value) ends
  have nonempty : toDigits value ≠ [] := Nat.toDigits_ne_nil
  rw [readDigits, run]
  split
  · next same => exact absurd (congrArg Prod.fst same) nonempty
  · next same => exact absurd (congrArg Prod.fst same) nonempty
  · next same =>
      cases same
      rfl

theorem readWhole_toDigits_append (value : Nat) {rest : List Char} (ends : EndsNumeral rest) :
    readWhole (toDigits value ++ rest) = .ok (toDigits value, rest) := by
  simp only [readWhole, readDigits_toDigits_append value ends, bind, Except.bind]
  split
  · next leading =>
      rcases Nat.eq_zero_or_pos value with rfl | positive
      · cases leading
      · exact absurd (by rw [leading]; rfl) (head?_toDigits_ne_zero positive)
  · rfl

theorem readFraction_of_endsNumeral {rest : List Char} (ends : EndsNumeral rest) :
    readFraction rest = .ok (none, rest) := by
  unfold readFraction
  split
  · exact absurd rfl (ends '.' rfl).2.1
  · rfl

theorem readExponent_of_endsNumeral {rest : List Char} (ends : EndsNumeral rest) :
    readExponent rest = .ok (none, rest) := by
  cases rest with
  | nil => rfl
  | cons c rest =>
      obtain ⟨-, -, notSmall, notLarge⟩ := ends c rfl
      simp only [readExponent, notSmall, notLarge, or_self, if_false]

theorem readMagnitude_toDigits_append (negative : Bool) (value : Nat) {rest : List Char}
    (ends : EndsNumeral rest) :
    readMagnitude negative (toDigits value ++ rest) =
      .ok (⟨negative, toDigits value, none, none⟩, rest) := by
  simp only [readMagnitude, readWhole_toDigits_append value ends, bind, Except.bind,
    readFraction_of_endsNumeral ends, readExponent_of_endsNumeral ends, pure, Except.pure]

theorem isSpace_of_startsNumeral {c : Char} (starts : c = '-' ∨ c.isDigit = true) :
    isSpace c = false := by
  by_contra isSpacing
  simp only [Bool.not_eq_false, isSpace, Bool.or_eq_true, beq_iff_eq] at isSpacing
  rcases isSpacing with ((rfl | rfl) | rfl) | rfl <;> exact absurd starts (by decide)

end PageRoutes.Json
