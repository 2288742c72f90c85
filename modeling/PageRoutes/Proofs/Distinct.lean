import Mathlib.Data.List.Basic
/-!
Lists without repeated items. Of equal items the first is kept, which gives a list without repeats
with the same members, in the order in which they first occur; such a list is kept as it is.
-/

set_option autoImplicit false

namespace PageRoutes.Distinct

variable {α : Type} [BEq α] [LawfulBEq α]

theorem nodup_eraseDups (items : List α) : items.eraseDups.Nodup := by
  match items with
  | [] => exact List.nodup_nil
  | first :: others =>
      have shorter : (others.filter fun item => !item == first).length < others.length + 1 :=
        Nat.lt_succ_of_le (List.length_filter_le _ _)
      rw [List.eraseDups_cons, List.nodup_cons]
      refine ⟨?_, nodup_eraseDups _⟩
      intro member
      have kept := List.mem_eraseDups.mp member
      simp at kept
termination_by items.length

theorem eraseDups_of_nodup {items : List α} (distinct : items.Nodup) : items.eraseDups = items := by
  induction items with
  | nil => rfl
  | cons first others ih =>
      obtain ⟨firstOnce, othersDistinct⟩ := List.nodup_cons.mp distinct
      have allKept : (others.filter fun item => !item == first) = others := by
        apply List.filter_eq_self.mpr
        intro item member
        have different : item ≠ first := fun same => firstOnce (same ▸ member)
        simp [different]
      rw [List.eraseDups_cons, allKept, ih othersDistinct]

theorem eraseDups_eraseDups (items : List α) : items.eraseDups.eraseDups = items.eraseDups :=
  eraseDups_of_nodup (nodup_eraseDups items)

theorem eraseDups_filter (keep : α → Bool) (items : List α) :
    (items.filter keep).eraseDups = items.eraseDups.filter keep := by
  match items with
  | [] => rfl
  | first :: others =>
      have shorter : (others.filter fun item => !item == first).length < others.length + 1 :=
        Nat.lt_succ_of_le (List.length_filter_le _ _)
      have ih := eraseDups_filter keep (others.filter fun item => !item == first)
      rw [List.eraseDups_cons]
      by_cases kept : keep first = true
      · rw [List.filter_cons_of_pos kept, List.filter_cons_of_pos kept, List.eraseDups_cons,
          List.filter_comm, ih]
      · have noFirst : (others.filter fun item => !item == first).filter keep =
            others.filter keep := by
          rw [List.filter_filter]
          apply List.filter_congr
          intro item _
          by_cases same : item = first
          · simp [same, kept]
          · simp [same]
        rw [List.filter_cons_of_neg kept, List.filter_cons_of_neg kept, ← ih, noFirst]
termination_by items.length

theorem idxOf_lt_idxOf_of_filter (keep : α → Bool) {first second : α} (keepsFirst : keep first)
    (keepsSecond : keep second) {items : List α}
    (earlier : (items.filter keep).idxOf first < (items.filter keep).idxOf second) :
    items.idxOf first < items.idxOf second := by
  induction items with
  | nil => exact earlier
  | cons item items ih =>
      rw [List.idxOf_cons, List.idxOf_cons]
      by_cases isFirst : item = first
      · subst isFirst
        rw [List.filter_cons_of_pos keepsFirst, List.idxOf_cons_self, List.idxOf_cons] at earlier
        cases isSecond : item == second with
        | true =>
            rw [isSecond] at earlier
            exact absurd earlier (Nat.lt_irrefl 0)
        | false => simp
      · have notFirst : (item == first) = false := beq_eq_false_iff_ne.mpr isFirst
        by_cases kept : keep item = true
        · rw [List.filter_cons_of_pos kept, List.idxOf_cons, List.idxOf_cons, notFirst] at earlier
          cases isSecond : item == second with
          | true =>
              rw [isSecond] at earlier
              exact absurd earlier (Nat.not_lt_zero _)
          | false =>
              rw [isSecond] at earlier
              rw [notFirst]
              exact Nat.succ_lt_succ (ih (Nat.lt_of_succ_lt_succ earlier))
        · have isSecond : (item == second) = false := by
            apply beq_eq_false_iff_ne.mpr
            rintro rfl
            exact kept keepsSecond
          rw [List.filter_cons_of_neg kept] at earlier
          rw [notFirst, isSecond]
          exact Nat.succ_lt_succ (ih earlier)

/-- Items are kept in the order in which they first occur. -/
theorem pairwise_idxOf_eraseDups (items : List α) :
    items.eraseDups.Pairwise fun first second => items.idxOf first < items.idxOf second := by
  match items with
  | [] => exact List.Pairwise.nil
  | first :: others =>
      have shorter : (others.filter fun item => !item == first).length < others.length + 1 :=
        Nat.lt_succ_of_le (List.length_filter_le _ _)
      have kept : ∀ item ∈ (others.filter fun item => !item == first).eraseDups,
          (!item == first) = true :=
        fun item member => (List.mem_filter.mp (List.mem_eraseDups.mp member)).2
      have position (item : α) (other : (!item == first) = true) :
          (first :: others).idxOf item = others.idxOf item + 1 := by
        have different : (first == item) = false := by
          apply beq_eq_false_iff_ne.mpr
          rintro rfl
          simp at other
        rw [List.idxOf_cons, different]
        rfl
      rw [List.eraseDups_cons, List.pairwise_cons]
      constructor
      · intro item member
        rw [List.idxOf_cons_self, position item (kept item member)]
        exact Nat.succ_pos _
      · refine (pairwise_idxOf_eraseDups _).imp_of_mem ?_
        intro left right leftMember rightMember earlier
        rw [position left (kept left leftMember), position right (kept right rightMember)]
        exact Nat.succ_lt_succ (idxOf_lt_idxOf_of_filter (fun item => !item == first)
          (kept left leftMember) (kept right rightMember) earlier)
termination_by items.length

end PageRoutes.Distinct
