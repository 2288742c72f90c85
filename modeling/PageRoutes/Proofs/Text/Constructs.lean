import PageRoutes.Proofs.Text.Recogniser
import PageRoutes.Text.Blank
/-!
Constructs in a text and their first places. A construct is written in some way and may ask for
something of the text in front of it. A reading that finds at each place exactly the constructs that
start there finds, from the left, the one with the leftmost start, and nothing only if none stands
anywhere in the text.
-/

set_option autoImplicit false

namespace PageRoutes.Text

variable {α β : Type}

abbrev Blanks : Type := {run : List Char // ∀ c ∈ run, isBlank c = true}

theorem skipBlanks_append (run : Blanks) (text : List Char) :
    skipBlanks (run.1 ++ text) = skipBlanks text :=
  List.dropWhile_append_of_pos run.2

/-- Blanks in front of something else are skipped, and nothing more. -/
theorem skipBlanks_eq_cons_iff {text rest : List Char} {c : Char} :
    skipBlanks text = c :: rest ↔
      isBlank c = false ∧ ∃ run : Blanks, text = run.1 ++ c :: rest := by
  constructor
  · intro skipped
    obtain ⟨parts, blank, stops⟩ :=
      cutRun_eq_iff.mp (show cutRun isBlank text = (text.takeWhile isBlank, c :: rest) from
        congrArg (Prod.mk _) skipped)
    exact ⟨stops c rfl, ⟨_, blank⟩, parts⟩
  · rintro ⟨notBlank, run, rfl⟩
    rw [skipBlanks_append, skipBlanks_cons_of_not_isBlank rest notBlank]

/-! ### The leftmost place of a reading -/

section

variable {read : Option Char → List Char → Option α} {front text : List Char} {found : α}

theorem leftmostBehind?_cons (previous : Option Char) (c : Char) (text : List Char) :
    leftmostBehind? read previous (c :: text) =
      (read previous (c :: text)).or (leftmostBehind? read (some c) text) := by
  rw [leftmostBehind?]
  cases read previous (c :: text) <;> rfl

/-- Every place of a text is its start or a place of what stands behind its first character. -/
theorem forall_place_cons {c : Char} {holds : List Char → List Char → Prop} :
    (∀ before behind, c :: text = before ++ behind → holds before behind) ↔
      holds [] (c :: text) ∧
        ∀ before behind, text = before ++ behind → holds (c :: before) behind := by
  constructor
  · intro everywhere
    exact ⟨everywhere [] _ rfl, fun before behind parts =>
      everywhere (c :: before) behind (congrArg (c :: ·) parts)⟩
  · rintro ⟨atStart, further⟩ before behind parts
    cases before with
    | nil =>
        obtain rfl : c :: text = behind := parts
        exact atStart
    | cons d before =>
        obtain ⟨rfl, tail⟩ := List.cons.inj parts
        exact further before behind tail

/-- The search goes on behind a text that was passed, so there may be any text in front. -/
theorem leftmostBehind?_eq_none_iff :
    leftmostBehind? read front.getLast? text = none ↔
      ∀ before behind, text = before ++ behind → read (front ++ before).getLast? behind = none := by
  induction text generalizing front with
  | nil =>
      constructor
      · intro nothing before behind parts
        obtain ⟨rfl, rfl⟩ := List.append_eq_nil_iff.mp parts.symm
        rwa [List.append_nil]
      · intro nowhere
        have atEnd := nowhere [] [] rfl
        rwa [List.append_nil] at atEnd
  | cons c text ih =>
      have last : (front ++ [c]).getLast? = some c := List.getLast?_concat
      have passed (before : List Char) : front ++ [c] ++ before = front ++ c :: before := by simp
      rw [leftmostBehind?_cons, Option.or_eq_none_iff, ← last, ih, forall_place_cons,
        List.append_nil]
      simp only [passed]

theorem leftmostBehind?_eq_some_iff :
    leftmostBehind? read front.getLast? text = some found ↔
      ∃ before behind, text = before ++ behind ∧
        read (front ++ before).getLast? behind = some found ∧
        ∀ other rest, text = other ++ rest → other.length < before.length →
          read (front ++ other).getLast? rest = none := by
  induction text generalizing front with
  | nil =>
      constructor
      · intro isRead
        exact ⟨[], [], rfl, by rwa [List.append_nil],
          fun _ _ _ shorter => absurd shorter (Nat.not_lt_zero _)⟩
      · rintro ⟨before, behind, parts, isRead, -⟩
        obtain ⟨rfl, rfl⟩ := List.append_eq_nil_iff.mp parts.symm
        rwa [List.append_nil] at isRead
  | cons c text ih =>
      have last : (front ++ [c]).getLast? = some c := List.getLast?_concat
      have passed (before : List Char) : front ++ [c] ++ before = front ++ c :: before := by simp
      rw [leftmostBehind?_cons, Option.or_eq_some_iff, ← last, ih]
      simp only [forall_place_cons, passed]
      constructor
      · rintro (atStart | ⟨nothing, before, behind, rfl, isRead, earlier⟩)
        · exact ⟨[], c :: text, rfl, by rwa [List.append_nil],
            fun shorter => absurd shorter (Nat.not_lt_zero _),
            fun _ _ _ shorter => absurd shorter (Nat.not_lt_zero _)⟩
        · refine ⟨c :: before, behind, rfl, isRead, fun _ => by rwa [List.append_nil], ?_⟩
          intro other rest parts shorter
          exact earlier other rest parts (Nat.lt_of_succ_lt_succ shorter)
      · rintro ⟨before, behind, parts, isRead, nothing, earlier⟩
        cases before with
        | nil =>
            rw [List.append_nil, ← List.nil_append behind, ← parts] at isRead
            exact .inl isRead
        | cons d before =>
            obtain ⟨rfl, tail⟩ := List.cons.inj parts
            have notHere := nothing (Nat.succ_pos _)
            rw [List.append_nil] at notHere
            refine .inr ⟨notHere, before, behind, tail, isRead, ?_⟩
            intro other rest inText shorter
            exact earlier other rest inText (Nat.succ_lt_succ shorter)

end

/-- A reading that does not look back. -/
theorem leftmostBehind?_const (read : List Char → Option α) (previous : Option Char)
    (text : List Char) : leftmostBehind? (fun _ => read) previous text = leftmost? read text := by
  induction text generalizing previous with
  | nil => rfl
  | cons c text ih => rw [leftmostBehind?, leftmost?, ih]

theorem leftmost?_cons (read : List Char → Option α) (c : Char) (text : List Char) :
    leftmost? read (c :: text) = (read (c :: text)).or (leftmost? read text) := by
  rw [leftmost?]
  cases read (c :: text) <;> rfl

theorem leftmost?_eq_none_iff {read : List Char → Option α} {text : List Char} :
    leftmost? read text = none ↔ ∀ behind, behind <:+ text → read behind = none := by
  induction text with
  | nil => simp [leftmost?, List.suffix_nil]
  | cons c text ih => simp [leftmost?_cons, ih, List.suffix_cons_iff]

/-! ### Places where a word cannot begin -/

section

variable {word first second front rest : List Char} {c : Char}

theorem not_infix_append_cons (absent : c ∉ word) (notFirst : ¬word <:+: first)
    (notSecond : ¬word <:+: second) : ¬word <:+: first ++ c :: second := by
  intro inBoth
  rcases List.infix_append_iff.mp inBoth with inFirst | inSecond | ⟨start, rest, rfl, atEnd, atStart⟩
  · exact notFirst inFirst
  · rcases List.infix_cons_iff.mp inSecond with atStart | inSecond
    · cases word with
      | nil => exact notFirst (List.nil_infix)
      | cons w word => exact absent ((List.cons_prefix_cons.mp atStart).1 ▸ List.mem_cons_self)
    · exact notSecond inSecond
  · cases rest with
    | nil => exact notFirst (by simpa using atEnd.isInfix)
    | cons d rest =>
        obtain ⟨rfl, -⟩ := List.cons_prefix_cons.mp atStart
        exact absent (List.mem_append_right start List.mem_cons_self)

theorem not_infix_append (absent : c ∉ first) (notSecond : ¬c :: word <:+: second) :
    ¬c :: word <:+: first ++ second := by
  intro inBoth
  rcases List.infix_append_iff.mp inBoth with inFirst | inSecond | ⟨start, rest, parts, atEnd, atStart⟩
  · exact absent (inFirst.mem List.mem_cons_self)
  · exact notSecond inSecond
  · cases start with
    | nil => exact notSecond (parts ▸ atStart.isInfix)
    | cons d start =>
        obtain ⟨rfl, -⟩ := List.cons.inj parts
        exact absent (atEnd.mem List.mem_cons_self)

/-- A word that does not stand in a text does not begin there either, if what follows cannot go on
with it. -/
theorem after?_eq_none_of_absent (absent : ¬word <:+: front)
    (ends : ∀ c ∈ rest.head?, c ∉ word.tail) {behind : List Char} (isEnd : behind <:+ front)
    (nonempty : behind ≠ []) : after? word (behind ++ rest) = none := by
  cases found : after? word (behind ++ rest) with
  | none => rfl
  | some left =>
      exfalso
      rcases List.append_eq_append_iff.mp (after?_eq_some_iff.mp found) with
        ⟨further, isWord, isRest⟩ | ⟨further, isBehind, -⟩
      · cases further with
        | nil => exact absent (by simpa [isWord] using isEnd.isInfix)
        | cons d further =>
            obtain ⟨b, others, rfl⟩ := List.exists_cons_of_ne_nil nonempty
            refine ends d (by simp [isRest]) ?_
            simp [isWord]
      · exact absent ((isBehind ▸ List.prefix_append word further).isInfix.trans isEnd.isInfix)

theorem leftmost?_append_of_silent {read : List Char → Option α}
    (silent : ∀ behind, behind <:+ front → behind ≠ [] → read (behind ++ rest) = none) :
    leftmost? read (front ++ rest) = leftmost? read rest := by
  induction front with
  | nil => rfl
  | cons c front ih =>
      have notHere : read (c :: (front ++ rest)) = none :=
        silent (c :: front) List.suffix_rfl (List.cons_ne_nil c front)
      rw [List.cons_append, leftmost?_cons, notHere, Option.none_or]
      exact ih fun behind isEnd => silent behind (isEnd.trans (List.suffix_cons c front))

end

/-! ### Constructs -/

/-- A kind of construct: how each one is written, and what may stand in front of it. -/
structure Construct (α : Type) where
  written : α → List Char
  mayFollow : List Char → Prop := fun _ => True

namespace Construct

variable {construct : Construct α}

structure StandsIn (construct : Construct α) (text before : List Char) (item : α)
    (behind : List Char) : Prop where
  parts : text = before ++ (construct.written item ++ behind)
  follows : construct.mayFollow before

structure StandsFirstIn (construct : Construct α) (text before : List Char) (item : α)
    (behind : List Char) : Prop extends construct.StandsIn text before item behind where
  leftmost : ∀ {other rest : List Char} {later : α}, construct.StandsIn text other later rest →
    before.length ≤ other.length

/-- At each place the reading finds exactly the items that start there; `value` is what it makes of
an item and the text behind it. -/
def IsReadBy (construct : Construct α) (read : Option Char → List Char → Option β)
    (value : α → List Char → β) : Prop :=
  ∀ before text found, read before.getLast? text = some found ↔
    construct.mayFollow before ∧
      ∃ item behind, text = construct.written item ++ behind ∧ value item behind = found

variable {read : Option Char → List Char → Option β} {value : α → List Char → β}
  {text : List Char}

theorem IsReadBy.leftmostBehind?_eq_none_iff (reads : construct.IsReadBy read value) :
    leftmostBehind? read none text = none ↔
      ∀ before item behind, ¬construct.StandsIn text before item behind := by
  change leftmostBehind? read ([] : List Char).getLast? text = none ↔ _
  rw [Text.leftmostBehind?_eq_none_iff]
  constructor
  · intro nowhere before item behind stands
    have nothing := nowhere before _ stands.parts
    rw [List.nil_append,
      (reads before _ _).mpr ⟨stands.follows, item, behind, rfl, rfl⟩] at nothing
    cases nothing
  · intro nowhere before behind parts
    rw [List.nil_append]
    cases isRead : read before.getLast? behind with
    | none => rfl
    | some found =>
        obtain ⟨follows, item, rest, rfl, -⟩ := (reads before behind found).mp isRead
        exact absurd ⟨parts, follows⟩ (nowhere before item rest)

theorem IsReadBy.leftmostBehind?_eq_some_iff (reads : construct.IsReadBy read value) {found : β} :
    leftmostBehind? read none text = some found ↔
      ∃ before item behind, construct.StandsFirstIn text before item behind ∧
        value item behind = found := by
  change leftmostBehind? read ([] : List Char).getLast? text = some found ↔ _
  rw [Text.leftmostBehind?_eq_some_iff]
  simp only [List.nil_append]
  constructor
  · rintro ⟨before, behind, parts, isRead, earlier⟩
    obtain ⟨follows, item, rest, rfl, isFound⟩ := (reads before behind found).mp isRead
    refine ⟨before, item, rest, ⟨⟨parts, follows⟩, ?_⟩, isFound⟩
    intro other rest' later stands
    refine Nat.le_of_not_lt fun shorter => ?_
    have nothing := earlier other _ stands.parts shorter
    rw [(reads other _ _).mpr ⟨stands.follows, later, rest', rfl, rfl⟩] at nothing
    cases nothing
  · rintro ⟨before, item, behind, first, isFound⟩
    refine ⟨before, _, first.parts,
      (reads before _ found).mpr ⟨first.follows, item, behind, rfl, isFound⟩, ?_⟩
    intro other rest parts shorter
    cases isRead : read other.getLast? rest with
    | none => rfl
    | some found' =>
        obtain ⟨follows, later, rest', rfl, -⟩ := (reads other rest found').mp isRead
        exact absurd (first.leftmost ⟨parts, follows⟩) (Nat.not_le_of_lt shorter)

section

variable {read : List Char → Option β}

theorem IsReadBy.leftmost?_eq_none_iff (reads : construct.IsReadBy (fun _ => read) value) :
    leftmost? read text = none ↔ ∀ before item behind, ¬construct.StandsIn text before item behind := by
  rw [← leftmostBehind?_const read none]
  exact reads.leftmostBehind?_eq_none_iff

theorem IsReadBy.leftmost?_eq_some_iff (reads : construct.IsReadBy (fun _ => read) value)
    {found : β} :
    leftmost? read text = some found ↔
      ∃ before item behind, construct.StandsFirstIn text before item behind ∧
        value item behind = found := by
  rw [← leftmostBehind?_const read none]
  exact reads.leftmostBehind?_eq_some_iff

end

end Construct

end PageRoutes.Text
