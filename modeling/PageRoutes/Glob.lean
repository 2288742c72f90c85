import PageRoutes.Text.Recogniser
/-!
Patterns for route URIs. A star stands for any text, slashes included, and a run of stars for one
star. A question mark stands for any one character, and brackets for one character that is in a set
or, behind an exclamation mark, is not. A bracket that is never closed makes a pattern invalid; all
other characters stand for themselves, and nothing escapes them.
-/

set_option autoImplicit false

namespace PageRoutes

open Text

structure CharacterRange where
  first : Char
  last : Char
deriving DecidableEq, Repr

def CharacterRange.has (range : CharacterRange) (c : Char) : Bool :=
  range.first ≤ c && c ≤ range.last

inductive GlobPart where
  | literal (c : Char)
  | anyCharacter
  | anyText
  | within (ranges : List CharacterRange)
  | outside (ranges : List CharacterRange)
deriving DecidableEq, Repr

structure Glob where
  parts : List GlobPart
deriving DecidableEq, Repr

namespace Glob

def collapseStars : List Char → List Char
  | [] => []
  | c :: pattern =>
      match c, collapseStars pattern with
      | '*', '*' :: rest => '*' :: rest
      | c, rest => c :: rest

/-- The set that stands between brackets. A hyphen between two characters makes a range of them. -/
def readRanges : List Char → List CharacterRange
  | first :: '-' :: last :: rest => ⟨first, last⟩ :: readRanges rest
  | c :: rest => ⟨c, c⟩ :: readRanges rest
  | [] => []

/-- The text up to a closing bracket and the text behind it. A bracket in the first place does not
close. -/
def readBracket? : List Char → Option (List Char × List Char)
  | [] => none
  | c :: text =>
      match cutRun (· ≠ ']') text with
      | (inside, _ :: rest) => some (c :: inside, rest)
      | (_, []) => none

def readSet? : List Char → Option (GlobPart × List Char)
  | '!' :: text => (readBracket? text).map fun (set, rest) => (.outside (readRanges set), rest)
  | text => (readBracket? text).map fun (set, rest) => (.within (readRanges set), rest)

/-- The parts of a pattern. Two stars in a row are none of them: they would stand for directories,
and only as a whole name between slashes. Every step takes at least one character, so `fuel` may be
the length of the pattern. -/
def readParts? : Nat → List Char → Option (List GlobPart)
  | _, [] => some []
  | 0, _ => none
  | _ + 1, '*' :: '*' :: _ => none
  | fuel + 1, '*' :: pattern => (readParts? fuel pattern).map (.anyText :: ·)
  | fuel + 1, '?' :: pattern => (readParts? fuel pattern).map (.anyCharacter :: ·)
  | fuel + 1, '[' :: pattern =>
      match readSet? pattern with
      | some (set, rest) => (readParts? fuel rest).map (set :: ·)
      | none => none
  | fuel + 1, c :: pattern => (readParts? fuel pattern).map (.literal c :: ·)

/-- The pattern that a text means, read with one star for each run of stars; none if the text is no
valid pattern. -/
def ofText? (text : String) : Option Glob :=
  let pattern := collapseStars text.toList
  (readParts? pattern.length pattern).map Glob.mk

def accepts (part : GlobPart) (c : Char) : Bool :=
  match part with
  | .literal expected => c == expected
  | .anyCharacter => true
  | .anyText => false
  | .within ranges => ranges.any (·.has c)
  | .outside ranges => !ranges.any (·.has c)

/-- How parts fit a text: they stand for the whole of it, they do not, or the text ends before they
do. -/
inductive Fit where
  | whole
  | different
  | tooShort
deriving DecidableEq, Repr

/-- Fits what follows a star to the ends of a text, the whole text first. A text that is too short for
it has no end that is long enough, so nothing more is tried behind such a place. -/
def fitSomeEnd (rest : List Char → Fit) : List Char → Fit
  | [] => rest []
  | c :: text =>
      match rest (c :: text) with
      | .different => fitSomeEnd rest text
      | found => found

def fit : List GlobPart → List Char → Fit
  | [], [] => .whole
  | [], _ :: _ => .different
  | .anyText :: parts, text => fitSomeEnd (fit parts) text
  | _ :: _, [] => .tooShort
  | part :: parts, c :: text => if accepts part c then fit parts text else .different

def covers (glob : Glob) (text : String) : Bool :=
  fit glob.parts text.toList = .whole

theorem fit_cons_nil {part : GlobPart} (parts : List GlobPart) (single : part ≠ .anyText) :
    fit (part :: parts) [] = .tooShort := by
  cases part <;> simp_all [fit]

theorem fit_cons_cons {part : GlobPart} (parts : List GlobPart) (c : Char) (text : List Char)
    (single : part ≠ .anyText) :
    fit (part :: parts) (c :: text) = if accepts part c then fit parts text else .different := by
  cases part <;> simp_all [fit]

def Settles (rest : List Char → Fit) : Prop :=
  ∀ text, rest text = .tooShort → ∀ tail, tail <:+ text → rest tail ≠ .whole

theorem exists_of_fitSomeEnd {rest : List Char → Fit} {text : List Char}
    (h : fitSomeEnd rest text = .whole) : ∃ tail, tail <:+ text ∧ rest tail = .whole := by
  induction text with
  | nil => exact ⟨[], List.suffix_refl [], h⟩
  | cons c text ih =>
      cases found : rest (c :: text) with
      | whole => exact ⟨c :: text, List.suffix_refl _, found⟩
      | tooShort => simp [fitSomeEnd, found] at h
      | different =>
          simp only [fitSomeEnd, found] at h
          obtain ⟨tail, suffix, fits⟩ := ih h
          exact ⟨tail, suffix.trans (List.suffix_cons c text), fits⟩

theorem fitSomeEnd_of_suffix {rest : List Char → Fit} (settles : Settles rest)
    {text tail : List Char} (suffix : tail <:+ text) (h : rest tail = .whole) :
    fitSomeEnd rest text = .whole := by
  induction text with
  | nil =>
      rw [List.suffix_nil.mp suffix] at h
      exact h
  | cons c text ih =>
      cases found : rest (c :: text) with
      | whole => simp [fitSomeEnd, found]
      | tooShort => exact absurd h (settles _ found tail suffix)
      | different =>
          rcases List.suffix_cons_iff.mp suffix with rfl | inner
          · rw [found] at h
            cases h
          · simp only [fitSomeEnd, found]
            exact ih inner

theorem ne_whole_of_fitSomeEnd {rest : List Char → Fit} (settles : Settles rest)
    {text tail : List Char} (h : fitSomeEnd rest text = .tooShort) (suffix : tail <:+ text) :
    rest tail ≠ .whole := by
  intro fits
  rw [fitSomeEnd_of_suffix settles suffix fits] at h
  cases h

/-- Parts that need more than a text has need more than any end of it has. -/
theorem settles_fit (parts : List GlobPart) : Settles (fit parts) := by
  induction parts with
  | nil =>
      intro text short
      cases text <;> simp [fit] at short
  | cons part parts ih =>
      intro text short tail suffix fits
      by_cases star : part = .anyText
      · subst star
        simp only [fit] at short fits
        obtain ⟨inner, behind, inside⟩ := exists_of_fitSomeEnd fits
        exact ne_whole_of_fitSomeEnd ih short (behind.trans suffix) inside
      · cases tail with
        | nil =>
            rw [fit_cons_nil parts star] at fits
            cases fits
        | cons d tail =>
            rw [fit_cons_cons parts d tail star] at fits
            split at fits
            · cases text with
              | nil => cases List.suffix_nil.mp suffix
              | cons c text =>
                  rw [fit_cons_cons parts c text star] at short
                  split at short
                  · refine ih text short tail ?_ fits
                    rcases List.suffix_cons_iff.mp suffix with same | inner
                    · have equal := (List.cons.inj same).2
                      subst equal
                      exact List.suffix_refl _
                    · exact (List.suffix_cons d tail).trans inner
                  · cases short
            · cases fits

/-- A star stands for any text: what follows it may fit any end. -/
theorem fit_anyText_iff {parts : List GlobPart} {text : List Char} :
    fit (.anyText :: parts) text = .whole ↔ ∃ tail, tail <:+ text ∧ fit parts tail = .whole := by
  simp only [fit]
  constructor
  · exact exists_of_fitSomeEnd
  · rintro ⟨tail, suffix, fits⟩
    exact fitSomeEnd_of_suffix (settles_fit parts) suffix fits

end Glob

end PageRoutes
