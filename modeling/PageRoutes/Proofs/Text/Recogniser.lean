import PageRoutes.Text.Recogniser
/-!
What one pass over a text reads. A stretch of text that a recogniser passes over adds nothing to
what is read behind it; a recogniser that always starts with one word passes over every stretch in
which that word cannot begin. Whatever is found in a text was read at one of its places.
-/

set_option autoImplicit false

namespace PageRoutes.Text

variable {α : Type}

-- There is an instance for quantifiers over all characters, which would go through every one of
-- them; these go through the given ones.
instance decidableForallMem (text : List Char) (holds : Char → Prop) [DecidablePred holds] :
    Decidable (∀ c ∈ text, holds c) :=
  List.decidableBAll holds text

instance decidableForallMemOption (first : Option Char) (holds : Char → Prop)
    [DecidablePred holds] : Decidable (∀ c ∈ first, holds c) :=
  Option.decidableForallMem first

theorem cutRun_append_cons {keep : Char → Bool} {run : List Char} {stop : Char}
    (keeps : ∀ c ∈ run, keep c = true) (stops : keep stop = false) (rest : List Char) :
    cutRun keep (run ++ stop :: rest) = (run, stop :: rest) := by
  induction run with
  | nil => simp [cutRun, stops]
  | cons c run ih =>
      have keepsFirst : keep c = true := keeps c List.mem_cons_self
      have cut := ih fun d member => keeps d (List.mem_cons_of_mem c member)
      simp only [cutRun, Prod.mk.injEq] at cut
      simp [cutRun, keepsFirst, cut.1, cut.2]

/-- A run ends at the first character that is not kept, or with the text. -/
theorem cutRun_eq_iff {keep : Char → Bool} {text run rest : List Char} :
    cutRun keep text = (run, rest) ↔
      text = run ++ rest ∧ (∀ c ∈ run, keep c = true) ∧ ∀ c ∈ rest.head?, keep c = false := by
  constructor
  · intro cut
    have parts := cutRun_append keep text
    have keeps : ∀ c ∈ (cutRun keep text).1, keep c = true :=
      List.all_eq_true.mp List.all_takeWhile
    have stops := List.head?_dropWhile_not keep text
    rw [cut] at parts keeps
    obtain ⟨-, isRest⟩ := Prod.mk.inj cut
    rw [isRest] at stops
    refine ⟨parts.symm, keeps, ?_⟩
    intro c isHead
    rw [Option.mem_def.mp isHead] at stops
    exact stops
  · rintro ⟨rfl, keeps, stops⟩
    cases rest with
    | nil =>
        rw [cutRun, List.takeWhile_append_of_pos keeps, List.dropWhile_append_of_pos keeps]
        simp
    | cons c rest => exact cutRun_append_cons keeps (stops c rfl) rest

namespace Recogniser

@[simp] theorem all_nil (what : Recogniser α) : what.all [] = [] := by
  rw [all]

theorem all_of_read {what : Recogniser α} {text rest : List Char} {item : α}
    (found : what.read text = some (item, rest)) : what.all text = item :: what.all rest := by
  cases text with
  | nil => exact absurd (what.shorter found) (Nat.not_lt_zero _)
  | cons c text =>
      rw [all]
      split
      · next other behind read =>
          rw [found] at read
          cases read
          rfl
      · next read =>
          rw [found] at read
          cases read

theorem all_of_read_eq_none {what : Recogniser α} {c : Char} {text : List Char}
    (nothing : what.read (c :: text) = none) : what.all (c :: text) = what.all text := by
  rw [all]
  split
  · next read =>
      rw [nothing] at read
      cases read
  · rfl

@[simp] theorem replaceAll_nil (what : Recogniser α) (write : α → List Char) :
    what.replaceAll write [] = [] := by
  rw [replaceAll]

theorem replaceAll_of_read {what : Recogniser α} {text rest : List Char} {item : α}
    (found : what.read text = some (item, rest)) (write : α → List Char) :
    what.replaceAll write text = write item ++ what.replaceAll write rest := by
  cases text with
  | nil => exact absurd (what.shorter found) (Nat.not_lt_zero _)
  | cons c text =>
      rw [replaceAll]
      split
      · next other behind read =>
          rw [found] at read
          cases read
          rfl
      · next read =>
          rw [found] at read
          cases read

theorem replaceAll_of_read_eq_none {what : Recogniser α} {c : Char} {text : List Char}
    (nothing : what.read (c :: text) = none) (write : α → List Char) :
    what.replaceAll write (c :: text) = c :: what.replaceAll write text := by
  rw [replaceAll]
  split
  · next read =>
      rw [nothing] at read
      cases read
  · rfl

theorem exists_of_mem_all {what : Recogniser α} {text : List Char} {item : α}
    (member : item ∈ what.all text) : ∃ behind rest, what.read behind = some (item, rest) := by
  fun_induction what.all text with
  | case1 => exact absurd member List.not_mem_nil
  | case2 c text first rest read shorter ih =>
      rcases List.mem_cons.mp member with rfl | inRest
      · exact ⟨c :: text, rest, read⟩
      · exact ih inRest
  | case3 c text nothing ih => exact ih member

/-- Nothing is read at any place of a text that stands in front of `rest`. -/
def Passes (what : Recogniser α) : List Char → List Char → Prop
  | [], _ => True
  | c :: text, rest => what.read (c :: (text ++ rest)) = none ∧ what.Passes text rest

theorem Passes.all_append {what : Recogniser α} {text rest : List Char}
    (passes : what.Passes text rest) : what.all (text ++ rest) = what.all rest := by
  induction text with
  | nil => rfl
  | cons c text ih =>
      rw [List.cons_append, all_of_read_eq_none passes.1]
      exact ih passes.2

theorem Passes.replaceAll_append {what : Recogniser α} {text rest : List Char}
    (passes : what.Passes text rest) (write : α → List Char) :
    what.replaceAll write (text ++ rest) = text ++ what.replaceAll write rest := by
  induction text with
  | nil => rfl
  | cons c text ih =>
      rw [List.cons_append, replaceAll_of_read_eq_none passes.1, ih passes.2]
      rfl

theorem passes_append {what : Recogniser α} {first second rest : List Char} :
    what.Passes (first ++ second) rest ↔
      what.Passes first (second ++ rest) ∧ what.Passes second rest := by
  induction first with
  | nil => simp [Passes]
  | cons c first ih =>
      rw [List.cons_append, Passes, Passes, ih, List.append_assoc, and_assoc]

def StartsWith (what : Recogniser α) (word : List Char) : Prop :=
  ∀ text, after? word text = none → what.read text = none

theorem StartsWith.read_eq_none_of_head {what : Recogniser α} {word : List Char} {c : Char}
    (starts : what.StartsWith word) (nonempty : word ≠ []) (differs : ∀ w ∈ word.head?, w ≠ c)
    (text : List Char) : what.read (c :: text) = none := by
  apply starts
  cases word with
  | nil => exact absurd rfl nonempty
  | cons w word => rw [after?, if_neg (differs w rfl)]

/-- A text without the character that every reading starts with is passed over. -/
theorem StartsWith.passes_of_not_mem {what : Recogniser α} {mark : Char} {text : List Char}
    (starts : what.StartsWith [mark]) (absent : mark ∉ text) (rest : List Char) :
    what.Passes text rest := by
  induction text with
  | nil => trivial
  | cons c text ih =>
      rw [List.mem_cons, not_or] at absent
      refine ⟨starts.read_eq_none_of_head (List.cons_ne_nil _ _) ?_ _, ih absent.2⟩
      intro w isMark
      cases isMark
      exact absent.1

end Recogniser

def clash : List Char → List Char → Bool
  | w :: word, c :: text => w ≠ c || clash word text
  | _, _ => false

/-- Whether a word differs from every end of a text, so that it cannot begin there however the text
goes on. -/
def neverBegins (word : List Char) : List Char → Bool
  | [] => true
  | c :: text => clash word (c :: text) && neverBegins word text

theorem after?_append_eq_none {word text : List Char} (differ : clash word text = true)
    (rest : List Char) : after? word (text ++ rest) = none := by
  induction word generalizing text with
  | nil => cases text <;> cases differ
  | cons w word ih =>
      cases text with
      | nil => cases differ
      | cons c text =>
          rw [List.cons_append, after?]
          split
          · next same =>
              simp only [clash, same, ne_eq, not_true_eq_false, decide_false, Bool.false_or] at differ
              exact ih differ
          · rfl

theorem Recogniser.passes_of_neverBegins {what : Recogniser α} {word text : List Char}
    (starts : what.StartsWith word) (never : neverBegins word text = true) (rest : List Char) :
    what.Passes text rest := by
  induction text with
  | nil => trivial
  | cons c text ih =>
      rw [neverBegins, Bool.and_eq_true] at never
      refine ⟨starts _ ?_, ih never.2⟩
      rw [← List.cons_append]
      exact after?_append_eq_none never.1 rest

/-! ### The leftmost reading -/

theorem leftmost?_of_read {read : List Char → Option α} {text : List Char} {found : α}
    (here : read text = some found) : leftmost? read text = some found := by
  cases text with
  | nil => exact here
  | cons c text => rw [leftmost?, here]

/-- What is found in a text is read at one of its places. -/
theorem exists_of_leftmost? {read : List Char → Option α} {text : List Char} {found : α}
    (leftmost : leftmost? read text = some found) :
    ∃ before behind, text = before ++ behind ∧ read behind = some found := by
  induction text with
  | nil => exact ⟨[], [], rfl, leftmost⟩
  | cons c text ih =>
      rw [leftmost?] at leftmost
      cases here : read (c :: text) with
      | some item =>
          rw [here] at leftmost
          exact ⟨[], c :: text, rfl, here.trans leftmost⟩
      | none =>
          rw [here] at leftmost
          obtain ⟨before, behind, split, isRead⟩ := ih leftmost
          exact ⟨c :: before, behind, congrArg (c :: ·) split, isRead⟩

theorem exists_of_leftmostBehind? {read : Option Char → List Char → Option α}
    {previous : Option Char} {text : List Char} {found : α}
    (leftmost : leftmostBehind? read previous text = some found) :
    ∃ previous before behind, text = before ++ behind ∧ read previous behind = some found := by
  induction text generalizing previous with
  | nil => exact ⟨previous, [], [], rfl, leftmost⟩
  | cons c text ih =>
      rw [leftmostBehind?] at leftmost
      cases here : read previous (c :: text) with
      | some item =>
          rw [here] at leftmost
          exact ⟨previous, [], c :: text, rfl, here.trans leftmost⟩
      | none =>
          rw [here] at leftmost
          obtain ⟨previous, before, behind, split, isRead⟩ := ih leftmost
          exact ⟨previous, c :: before, behind, congrArg (c :: ·) split, isRead⟩

end PageRoutes.Text
