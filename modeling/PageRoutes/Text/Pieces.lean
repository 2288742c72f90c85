/-!
Cutting text at a separator character and putting pieces together again.
-/

set_option autoImplicit false

namespace PageRoutes.Text

/-- The text before and behind the first `mark`; none if `mark` does not occur. -/
def cutAtFirst? (mark : Char) : List Char → Option (List Char × List Char)
  | [] => none
  | c :: text =>
      if c = mark then some ([], text)
      else (cutAtFirst? mark text).map fun (before, behind) => (c :: before, behind)

theorem cutAtFirst?_eq_some_iff {mark : Char} {text before behind : List Char} :
    cutAtFirst? mark text = some (before, behind) ↔
      text = before ++ mark :: behind ∧ mark ∉ before := by
  induction text generalizing before with
  | nil => simp [cutAtFirst?]
  | cons c text ih =>
      by_cases same : c = mark
      · subst same
        cases before with
        | nil => simp [cutAtFirst?]
        | cons b before =>
            simp only [cutAtFirst?, if_pos, Option.some.injEq, Prod.mk.injEq, List.cons_append,
              List.cons.injEq, List.mem_cons, not_or]
            constructor
            · rintro ⟨impossible, -⟩
              cases impossible
            · rintro ⟨⟨rfl, -⟩, different, -⟩
              exact absurd rfl different
      · cases before with
        | nil => simp [cutAtFirst?, same, Option.map_eq_some_iff]
        | cons b before =>
            simp only [cutAtFirst?, if_neg same, Option.map_eq_some_iff, Prod.exists,
              Prod.mk.injEq, List.cons.injEq, List.cons_append, List.mem_cons, not_or]
            constructor
            · rintro ⟨start, stop, cut, ⟨rfl, rfl⟩, rfl⟩
              obtain ⟨rfl, free⟩ := ih.mp cut
              exact ⟨⟨rfl, rfl⟩, Ne.symm same, free⟩
            · rintro ⟨⟨rfl, rfl⟩, -, free⟩
              exact ⟨before, behind, ih.mpr ⟨rfl, free⟩, ⟨rfl, rfl⟩, rfl⟩

theorem cutAtFirst?_eq_none_iff {mark : Char} {text : List Char} :
    cutAtFirst? mark text = none ↔ mark ∉ text := by
  induction text with
  | nil => simp [cutAtFirst?]
  | cons c text ih =>
      by_cases same : c = mark
      · simp [cutAtFirst?, same]
      · simp [cutAtFirst?, same, Ne.symm same, ih]

/-- The pieces between the separators; a text without one is a single piece. -/
def splitOn (separator : Char) : List Char → List (List Char)
  | [] => [[]]
  | c :: text =>
      if c = separator then [] :: splitOn separator text
      else
        match splitOn separator text with
        | piece :: pieces => (c :: piece) :: pieces
        | [] => [[c]]

def joinWith (separator : List Char) : List (List Char) → List Char
  | [] => []
  | [piece] => piece
  | piece :: next :: pieces => piece ++ separator ++ joinWith separator (next :: pieces)

theorem splitOn_ne_nil (separator : Char) (text : List Char) : splitOn separator text ≠ [] := by
  cases text with
  | nil => simp [splitOn]
  | cons c text =>
      simp only [splitOn]
      split
      · simp
      · split <;> simp

/-- A text that holds no separator is one piece. -/
theorem splitOn_of_not_mem {separator : Char} {text : List Char} (h : separator ∉ text) :
    splitOn separator text = [text] := by
  induction text with
  | nil => rfl
  | cons c text ih =>
      simp only [List.mem_cons, not_or] at h
      rw [splitOn, if_neg (Ne.symm h.1), ih h.2]

/-- A separator keeps apart the pieces on its two sides. -/
theorem splitOn_append (separator : Char) (front rest : List Char) :
    splitOn separator (front ++ separator :: rest) =
      splitOn separator front ++ splitOn separator rest := by
  induction front with
  | nil => simp [splitOn]
  | cons c front ih =>
      by_cases same : c = separator
      · rw [List.cons_append, splitOn, if_pos same, ih, splitOn, if_pos same, List.cons_append]
      · rw [List.cons_append, splitOn, if_neg same, ih, splitOn, if_neg same]
        cases pieces : splitOn separator front with
        | nil => exact absurd pieces (splitOn_ne_nil separator front)
        | cons piece others => rfl

/-- A piece without separator in front of a separator is split off as it is. -/
theorem splitOn_append_cons {separator : Char} {piece : List Char} (text : List Char)
    (h : separator ∉ piece) :
    splitOn separator (piece ++ separator :: text) = piece :: splitOn separator text := by
  rw [splitOn_append, splitOn_of_not_mem h, List.singleton_append]

def exchange (old new : Char) (text : List Char) : List Char :=
  text.map fun c => if c = old then new else c

end PageRoutes.Text
