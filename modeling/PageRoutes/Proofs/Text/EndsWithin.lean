import PageRoutes.Proofs.Text.Recogniser
/-!
Readings that end within what they look for. Such a reading takes some signs off the front of a text,
one behind the other, and a front of the text that holds them decides the answer. Where the leftmost
one ends is not changed by anything behind it.
-/

set_option autoImplicit false

namespace PageRoutes.Text

/-! ### Signs in order -/

/-- A run that the first of some signs cannot belong to ends in front of it. -/
theorem exists_run_in_front (keep : Char → Bool) {sign : Char} {signs front : List Char}
    (stops : keep sign = false) (holds : (sign :: signs).Sublist front) :
    ∃ run c rest, front = run ++ c :: rest ∧ (∀ d ∈ run, keep d = true) ∧ keep c = false ∧
      (sign :: signs).Sublist (c :: rest) := by
  induction front with
  | nil => cases holds
  | cons c front ih =>
      by_cases kept : keep c = true
      · have behind : (sign :: signs).Sublist front := by
          cases holds with
          | cons _ behind => exact behind
          | cons_cons _ _ =>
              rw [stops] at kept
              cases kept
        obtain ⟨run, stop, rest, rfl, keeps, stopsThere, inRest⟩ := ih behind
        refine ⟨c :: run, stop, rest, rfl, ?_, stopsThere, inRest⟩
        intro d member
        rcases List.mem_cons.mp member with rfl | inRun
        · exact kept
        · exact keeps d inRun
      · exact ⟨[], c, front, rfl, by simp, by simpa using kept, holds⟩

theorem sublist_of_sublist_append (front : List Char) {sign : Char} {signs rest : List Char}
    (absent : sign ∉ front) (holds : (sign :: signs).Sublist (front ++ rest)) :
    (sign :: signs).Sublist rest := by
  induction front with
  | nil => exact holds
  | cons c front ih =>
      rw [List.mem_cons, not_or] at absent
      rw [List.cons_append] at holds
      cases holds with
      | cons _ behind => exact ih absent.2 behind
      | cons_cons _ _ => exact absurd rfl absent.1

/-- A word without a sign that the text holds does not reach behind that sign. -/
theorem after?_append_of_mem {word front : List Char} {sign : Char} (absent : sign ∉ word)
    (holds : sign ∈ front) (tail : List Char) :
    after? word (front ++ tail) = (after? word front).map (· ++ tail) := by
  induction word generalizing front with
  | nil => rfl
  | cons w word ih =>
      rw [List.mem_cons, not_or] at absent
      cases front with
      | nil => cases holds
      | cons c front =>
          rw [List.cons_append, after?, after?]
          by_cases same : w = c
          · subst same
            have behind : sign ∈ front := (List.mem_cons.mp holds).resolve_left absent.1
            rw [if_pos rfl, if_pos rfl]
            exact ih absent.2 behind
          · rw [if_neg same, if_neg same]
            rfl

theorem exists_of_dropWhile {drop : Char → Bool} {text rest : List Char}
    (dropped : text.dropWhile drop = rest) : ∃ run, text = run ++ rest :=
  ⟨text.takeWhile drop, by rw [← dropped, List.takeWhile_append_dropWhile]⟩

/-! ### Readings with signs -/

/-- A reading that takes some signs in order off the front of a text. No text that holds them leaves
the answer to what stands behind it. -/
structure EndsWithin (signs : List Char) (read : List Char → Option (List Char)) : Prop where
  takes : ∀ {text rest}, read text = some rest →
    ∃ front, text = front ++ rest ∧ signs.Sublist front
  decided : ∀ {front}, signs.Sublist front →
    ∀ tail, read (front ++ tail) = (read front).map (· ++ tail)

section

variable {signs : List Char} {read : List Char → Option (List Char)} {sign : Char}

theorem EndsWithin.behind_word (inside : EndsWithin (sign :: signs) read) {word : List Char}
    (absent : sign ∉ word) :
    EndsWithin (sign :: signs) fun text => (after? word text).bind read where
  takes := by
    intro text rest found
    obtain ⟨behind, named, found⟩ := Option.bind_eq_some_iff.mp found
    obtain ⟨front, rfl, holds⟩ := inside.takes found
    refine ⟨word ++ front, ?_, holds.trans (List.sublist_append_right _ _)⟩
    rw [after?_eq_some_iff.mp named, List.append_assoc]
  decided := by
    intro front holds tail
    rw [after?_append_of_mem absent (holds.subset List.mem_cons_self)]
    cases named : after? word front with
    | none => rfl
    | some behind =>
        rw [after?_eq_some_iff.mp named] at holds
        exact inside.decided (sublist_of_sublist_append word absent holds) tail

theorem EndsWithin.exists_of_read (inside : EndsWithin signs read) {text rest : List Char}
    (found : read text = some rest) :
    ∃ front, text = front ++ rest ∧ signs.Sublist front ∧
      ∀ other, read (front ++ other) = some other := by
  obtain ⟨front, rfl, holds⟩ := inside.takes found
  refine ⟨front, rfl, holds, ?_⟩
  rw [inside.decided holds rest] at found
  obtain ⟨nothing, here, same⟩ := Option.map_eq_some_iff.mp found
  have isNil : nothing = [] := List.append_left_eq_self.mp same
  intro other
  rw [inside.decided holds other, here, isNil]
  rfl

/-- The leftmost reading ends at the same place whatever stands behind it: the places in front of it,
where nothing is read, have the signs behind them as well. -/
theorem EndsWithin.exists_of_leftmost? (inside : EndsWithin signs read) {text rest : List Char}
    (found : leftmost? read text = some rest) :
    ∃ front, text = front ++ rest ∧ signs.Sublist front ∧
      ∀ other, leftmost? read (front ++ other) = some other := by
  induction text with
  | nil =>
      obtain ⟨front, split, holds, anyRest⟩ := inside.exists_of_read found
      exact ⟨front, split, holds, fun other => leftmost?_of_read (anyRest other)⟩
  | cons c text ih =>
      rw [leftmost?] at found
      cases here : read (c :: text) with
      | some item =>
          rw [here] at found
          cases found
          obtain ⟨front, split, holds, anyRest⟩ := inside.exists_of_read here
          exact ⟨front, split, holds, fun other => leftmost?_of_read (anyRest other)⟩
      | none =>
          rw [here] at found
          obtain ⟨front, rfl, holds, anyRest⟩ := ih found
          refine ⟨c :: front, rfl, holds.cons c, ?_⟩
          have decided := inside.decided (holds.cons c)
          have nothing : read (c :: front) = none := by
            rw [← List.cons_append, decided rest] at here
            exact Option.map_eq_none_iff.mp here
          intro other
          have stillNothing := decided other
          rw [nothing, Option.map_none, List.cons_append] at stillNothing
          rw [List.cons_append, leftmost?, stillNothing]
          exact anyRest other

end

end PageRoutes.Text
