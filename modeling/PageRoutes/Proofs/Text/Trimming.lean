import Mathlib.Data.List.TakeWhile
import PageRoutes.Proofs.Text.Recogniser
import PageRoutes.Text.Blank
/-!
What is left of a text when the characters of one kind are taken from its ends. It does not matter
which end is trimmed first, and more characters of that kind around the text leave the same.
-/

set_option autoImplicit false

namespace PageRoutes.Text

variable {pad : Char → Bool} {core text : List Char}

def IsPadded (pad : Char → Bool) (core text : List Char) : Prop :=
  ∃ front back, text = front ++ core ++ back ∧
    (∀ c ∈ front, pad c = true) ∧ ∀ c ∈ back, pad c = true

def IsBare (pad : Char → Bool) (text : List Char) : Prop :=
  (∀ c ∈ text.head?, pad c = false) ∧ ∀ c ∈ text.getLast?, pad c = false

/-! ### One end -/

theorem dropWhile_of_head? (first : ∀ c ∈ text.head?, pad c = false) :
    text.dropWhile pad = text := by
  cases text with
  | nil => rfl
  | cons c text => rw [List.dropWhile_cons, first c rfl, if_neg Bool.false_ne_true]

theorem head?_dropWhile (pad : Char → Bool) (text : List Char) :
    ∀ c ∈ (text.dropWhile pad).head?, pad c = false := by
  have stops := List.head?_dropWhile_not pad text
  intro c isHead
  rw [Option.mem_def.mp isHead] at stops
  exact stops

theorem trimEndWhile_of_getLast? (last : ∀ c ∈ text.getLast?, pad c = false) :
    trimEndWhile pad text = text := by
  rw [← List.head?_reverse] at last
  rw [trimEndWhile, dropWhile_of_head? last, List.reverse_reverse]

theorem getLast?_trimEndWhile (pad : Char → Bool) (text : List Char) :
    ∀ c ∈ (trimEndWhile pad text).getLast?, pad c = false := by
  unfold trimEndWhile
  rw [List.getLast?_reverse]
  exact head?_dropWhile pad text.reverse

theorem trimEndWhile_append {back : List Char} (padded : ∀ c ∈ back, pad c = true) :
    trimEndWhile pad (text ++ back) = trimEndWhile pad text := by
  have reversed : ∀ c ∈ back.reverse, pad c = true := fun c member =>
    padded c (List.mem_reverse.mp member)
  rw [trimEndWhile, List.reverse_append, List.dropWhile_append_of_pos reversed, ← trimEndWhile]

theorem exists_trimEndWhile_append (pad : Char → Bool) (text : List Char) :
    ∃ back, text = trimEndWhile pad text ++ back ∧ ∀ c ∈ back, pad c = true := by
  refine ⟨(text.reverse.takeWhile pad).reverse, ?_, ?_⟩
  · rw [trimEndWhile, ← List.reverse_append, List.takeWhile_append_dropWhile, List.reverse_reverse]
  · intro c member
    exact List.mem_takeWhile_imp (List.mem_reverse.mp member)

/-! ### Both ends -/

theorem trim_eq_iff :
    trimEndWhile pad (text.dropWhile pad) = core ↔ IsPadded pad core text ∧ IsBare pad core := by
  constructor
  · intro trimmed
    subst core
    obtain ⟨back, behind, padded⟩ := exists_trimEndWhile_append pad (text.dropWhile pad)
    refine ⟨⟨text.takeWhile pad, back, ?_, fun c => List.mem_takeWhile_imp, padded⟩, ?_,
      getLast?_trimEndWhile pad _⟩
    · rw [List.append_assoc, ← behind, List.takeWhile_append_dropWhile]
    · intro c isHead
      apply head?_dropWhile pad text
      rw [behind, List.head?_append, Option.mem_def.mp isHead]
      rfl
  · intro both
    obtain ⟨⟨front, back, isText, inFront, inBack⟩, first, last⟩ := both
    rw [isText, List.append_assoc, List.dropWhile_append_of_pos inFront]
    -- Without a core there is nothing to stop at before the characters behind it.
    cases core with
    | nil => rw [List.nil_append, List.dropWhile_eq_nil_iff.mpr inBack]; rfl
    | cons c core =>
        have kept : (c :: core ++ back).dropWhile pad = c :: core ++ back :=
          dropWhile_of_head? first
        rw [kept, trimEndWhile_append inBack, trimEndWhile_of_getLast? last]

theorem dropWhile_trimEndWhile (pad : Char → Bool) (text : List Char) :
    (trimEndWhile pad text).dropWhile pad = trimEndWhile pad (text.dropWhile pad) := by
  obtain ⟨back, behind, padded⟩ := exists_trimEndWhile_append pad text
  have split : (trimEndWhile pad text).takeWhile pad ++ (trimEndWhile pad text).dropWhile pad =
      trimEndWhile pad text := List.takeWhile_append_dropWhile
  refine (trim_eq_iff.mpr ⟨⟨(trimEndWhile pad text).takeWhile pad, back, ?_,
    fun c => List.mem_takeWhile_imp, padded⟩, head?_dropWhile pad _, ?_⟩).symm
  · rw [split, ← behind]
  · intro c isLast
    apply getLast?_trimEndWhile pad text
    rw [← split, List.getLast?_append, Option.mem_def.mp isLast]
    rfl

theorem IsPadded.append (padded : IsPadded pad core text) {front back : List Char}
    (inFront : ∀ c ∈ front, pad c = true) (inBack : ∀ c ∈ back, pad c = true) :
    IsPadded pad core (front ++ text ++ back) := by
  obtain ⟨before, behind, isText, padsBefore, padsBehind⟩ := padded
  refine ⟨front ++ before, behind ++ back, ?_, ?_, ?_⟩
  · rw [isText]
    simp only [List.append_assoc]
  · intro c member
    exact (List.mem_append.mp member).elim (inFront c) (padsBefore c)
  · intro c member
    exact (List.mem_append.mp member).elim (padsBehind c) (inBack c)

theorem trim_append {front back : List Char} (inFront : ∀ c ∈ front, pad c = true)
    (inBack : ∀ c ∈ back, pad c = true) :
    trimEndWhile pad ((front ++ text ++ back).dropWhile pad) =
      trimEndWhile pad (text.dropWhile pad) := by
  obtain ⟨padded, bare⟩ := trim_eq_iff.mp (Eq.refl (trimEndWhile pad (text.dropWhile pad)))
  exact trim_eq_iff.mpr ⟨padded.append inFront inBack, bare⟩

/-! ### Blanks -/

def IsTrimmed (text : List Char) : Prop :=
  (∀ c ∈ text.head?, isBlank c = false) ∧ ∀ c ∈ text.getLast?, isBlank c = false

instance (text : List Char) : Decidable (IsTrimmed text) :=
  inferInstanceAs (Decidable (_ ∧ _))

theorem trimBlanks_eq_iff :
    trimBlanks text = core ↔ IsPadded isBlank core text ∧ IsTrimmed core :=
  trim_eq_iff

theorem isPadded_self (pad : Char → Bool) (text : List Char) : IsPadded pad text text :=
  ⟨[], [], by simp, by simp, by simp⟩

theorem trimBlanks_of_isTrimmed (trimmed : IsTrimmed text) : trimBlanks text = text :=
  trimBlanks_eq_iff.mpr ⟨isPadded_self isBlank text, trimmed⟩

theorem trimBlanks_of_blank (blank : ∀ c ∈ text, isBlank c = true) : trimBlanks text = [] :=
  trimBlanks_eq_iff.mpr ⟨⟨text, [], by simp, blank, by simp⟩, by decide⟩

end PageRoutes.Text
