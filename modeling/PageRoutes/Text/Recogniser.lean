/-!
Reading text from the left. A recogniser takes something off the front of a text and returns what
stands behind it. `Recogniser.all` and `Recogniser.replaceAll` go through a text once, from left to
right, and continue behind each reading, so readings never overlap.
-/

set_option autoImplicit false

namespace PageRoutes.Text

def after? : List Char → List Char → Option (List Char)
  | [], text => some text
  | _ :: _, [] => none
  | w :: word, c :: text => if w = c then after? word text else none

theorem after?_eq_some_iff {word text rest : List Char} :
    after? word text = some rest ↔ text = word ++ rest := by
  induction word generalizing text with
  | nil => simp [after?]
  | cons w word ih =>
      cases text with
      | nil => simp [after?]
      | cons c text =>
          by_cases same : w = c
          · simp [after?, same, ih]
          · simp [after?, same, Ne.symm same]

@[simp] theorem after?_append (word rest : List Char) : after? word (word ++ rest) = some rest :=
  after?_eq_some_iff.mpr rfl

theorem length_of_after? {word text rest : List Char} (h : after? word text = some rest) :
    text.length = word.length + rest.length := by
  rw [after?_eq_some_iff.mp h, List.length_append]

def cutRun (keep : Char → Bool) (text : List Char) : List Char × List Char :=
  (text.takeWhile keep, text.dropWhile keep)

theorem cutRun_append (keep : Char → Bool) (text : List Char) :
    (cutRun keep text).1 ++ (cutRun keep text).2 = text :=
  List.takeWhile_append_dropWhile

theorem length_of_cutRun {keep : Char → Bool} {text run rest : List Char}
    (h : cutRun keep text = (run, rest)) : text.length = run.length + rest.length := by
  have parts := cutRun_append keep text
  rw [h] at parts
  rw [← parts, List.length_append]

/-- What `read` finds at the leftmost place of the text where it finds anything. -/
def leftmost? {α : Type} (read : List Char → Option α) : List Char → Option α
  | [] => read []
  | c :: text =>
      match read (c :: text) with
      | some found => some found
      | none => leftmost? read text

/-- As `leftmost?`, but `read` also sees the character in front of the place, if there is one. -/
def leftmostBehind? {α : Type} (read : Option Char → List Char → Option α) :
    Option Char → List Char → Option α
  | previous, [] => read previous []
  | previous, c :: text =>
      match read previous (c :: text) with
      | some found => some found
      | none => leftmostBehind? read (some c) text

/-- A reading that takes at least one character off the front of a text. -/
structure Recogniser (α : Type) where
  read : List Char → Option (α × List Char)
  shorter : ∀ {text rest : List Char} {found : α},
    read text = some (found, rest) → rest.length < text.length

def Recogniser.all {α : Type} (what : Recogniser α) : List Char → List α
  | [] => []
  | c :: text =>
      match found : what.read (c :: text) with
      | some (item, rest) =>
          have : rest.length < (c :: text).length := what.shorter found
          item :: what.all rest
      | none => what.all text
termination_by text => text.length
decreasing_by
  · exact this
  · exact Nat.lt_succ_self text.length

def Recogniser.replaceAll {α : Type} (what : Recogniser α) (write : α → List Char) :
    List Char → List Char
  | [] => []
  | c :: text =>
      match found : what.read (c :: text) with
      | some (item, rest) =>
          have : rest.length < (c :: text).length := what.shorter found
          write item ++ what.replaceAll write rest
      | none => c :: what.replaceAll write text
termination_by text => text.length
decreasing_by
  · exact this
  · exact Nat.lt_succ_self text.length

end PageRoutes.Text
