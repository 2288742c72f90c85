import Mathlib.Data.List.TakeWhile
import PageRoutes.Invalidation
/-!
Directives in the text of the cache middleware. Between commas they ask for the same as in a list:
their patterns are read back in order, and an item that is no such directive does not count, wherever
it stands. Whether the text is read at all depends only on what is in front of its first colon.
-/

set_option autoImplicit false

namespace PageRoutes.Invalidation

open Text

variable {items padded : List String}

def directive (pattern : String) : String :=
  "invalidate:" ++ pattern

def middlewareText (items : List String) : String :=
  "force10.cache:" ++ ",".intercalate items

/-- The second list has the items of the first one in their order, and anywhere between them items
that name no pattern, such as empty ones. -/
inductive AddsIdle : List String → List String → Prop
  | nil : AddsIdle [] []
  | keep {items padded : List String} (item : String) (rest : AddsIdle items padded) :
      AddsIdle (item :: items) (item :: padded)
  | idle {items padded : List String} (item : String)
      (different : ¬"invalidate:".toList <+: item.toList) (rest : AddsIdle items padded) :
      AddsIdle items (item :: padded)

/-! ### Directives -/

theorem patternOf?_directive (pattern : String) :
    patternOf? (directive pattern).toList = some pattern := by
  rw [directive, String.toList_append]
  change (after? invalidateKeyword (invalidateKeyword ++ pattern.toList)).map String.ofList = _
  rw [after?_append, Option.map_some, String.ofList_toList]

theorem patternOf?_eq_none_iff {item : List Char} :
    patternOf? item = none ↔ ¬"invalidate:".toList <+: item := by
  rw [patternOf?, Option.map_eq_none_iff]
  constructor
  · intro unread starts
    obtain ⟨rest, rfl⟩ := starts
    cases (after?_append invalidateKeyword rest).symm.trans unread
  · intro different
    cases found : after? invalidateKeyword item with
    | none => rfl
    | some rest => exact absurd ⟨rest, (after?_eq_some_iff.mp found).symm⟩ different

theorem ofDirectives_map_directive (patterns : List String) :
    ofDirectives (patterns.map directive) = ⟨patterns⟩ := by
  have named : (fun item : String => patternOf? item.toList) ∘ directive = some :=
    funext patternOf?_directive
  rw [ofDirectives, List.filterMap_map, named, List.filterMap_some]

theorem AddsIdle.sublist (adds : AddsIdle items padded) : items.Sublist padded := by
  induction adds with
  | nil => exact .slnil
  | keep item rest ih => exact ih.cons_cons item
  | idle item different rest ih => exact ih.cons item

theorem AddsIdle.ofDirectives_eq (adds : AddsIdle items padded) :
    ofDirectives padded = ofDirectives items := by
  unfold ofDirectives
  congr 1
  induction adds with
  | nil => rfl
  | keep item rest ih => rw [List.filterMap_cons, List.filterMap_cons, ih]
  | idle item different rest ih =>
      have unread := patternOf?_eq_none_iff.mpr different
      rw [List.filterMap_cons, unread]
      exact ih

theorem payload?_eq (invalidation : Invalidation) :
    invalidation.payload? =
      if invalidation.patterns = [] then none else some invalidation.patterns := by
  unfold payload?
  exact if_congr List.isEmpty_iff rfl rfl

/-! ### Middleware texts -/

theorem splitOn_intercalate (nonempty : items ≠ []) (free : ∀ item ∈ items, ',' ∉ item.toList) :
    splitOn ',' (",".intercalate items).toList = items.map String.toList := by
  induction items with
  | nil => exact absurd rfl nonempty
  | cons item items ih =>
      obtain ⟨freeItem, freeItems⟩ := List.forall_mem_cons.mp free
      cases items with
      | nil =>
          rw [String.intercalate_singleton, splitOn_of_not_mem freeItem, List.map_singleton]
      | cons next items =>
          have spelled : (",".intercalate (item :: next :: items)).toList =
              item.toList ++ ',' :: (",".intercalate (next :: items)).toList := by
            rw [String.intercalate_cons_cons, String.append_assoc, String.toList_append,
              String.toList_append]
            rfl
          rw [spelled, splitOn_append_cons _ freeItem, ih (List.cons_ne_nil _ _) freeItems]
          rfl

theorem ofMiddleware?_parameters (parameters : String) :
    ofMiddleware? ("force10.cache:" ++ parameters) =
      some ⟨(splitOn ',' parameters.toList).filterMap patternOf?⟩ := by
  have cut : cutAtFirst? ':' ("force10.cache:" ++ parameters).toList =
      some (cacheMiddleware.toList, parameters.toList) := by
    refine cutAtFirst?_eq_some_iff.mpr ⟨?_, by decide⟩
    rw [String.toList_append]
    rfl
  -- The empty items that are passed over name no pattern anyway.
  have idle : (fun item : List Char => if !item.isEmpty then patternOf? item else none) =
      patternOf? := by
    funext item
    cases item with
    | nil => rfl
    | cons c item => rfl
  unfold ofMiddleware?
  rw [cut, Option.getD_some]
  dsimp only
  rw [if_pos rfl, List.filterMap_filter, idle]

/-- Between commas the items ask for what they ask for in a list. -/
theorem ofMiddleware?_middlewareText (free : ∀ item ∈ items, ',' ∉ item.toList) :
    ofMiddleware? (middlewareText items) = some (ofDirectives items) := by
  rw [middlewareText, ofMiddleware?_parameters]
  by_cases empty : items = []
  · rw [empty]
    rfl
  · rw [splitOn_intercalate empty free, List.filterMap_map]
    rfl

theorem fst_getD_cutAtFirst? (mark : Char) (text : List Char) :
    ((cutAtFirst? mark text).getD (text, [])).1 = text.takeWhile (· ≠ mark) := by
  have passes (front : List Char) (absent : mark ∉ front) :
      ∀ c ∈ front, decide (c ≠ mark) = true := by
    intro c member
    exact decide_eq_true (ne_of_mem_of_not_mem member absent)
  cases cut : cutAtFirst? mark text with
  | none => exact (List.takeWhile_eq_self_iff.mpr (passes _ (cutAtFirst?_eq_none_iff.mp cut))).symm
  | some parts =>
      obtain ⟨whole, absent⟩ := cutAtFirst?_eq_some_iff.mp cut
      rw [whole, List.takeWhile_append_of_pos (passes _ absent),
        List.takeWhile_cons_of_neg (by simp), List.append_nil]
      rfl

theorem ofMiddleware?_eq_none_iff (middleware : String) :
    ofMiddleware? middleware = none ↔
      String.ofList (middleware.toList.takeWhile (· ≠ ':')) ≠ "force10.cache" := by
  rw [← fst_getD_cutAtFirst?]
  unfold ofMiddleware?
  cases (cutAtFirst? ':' middleware.toList).getD (middleware.toList, []) with
  | mk name parameters =>
      have same : name = cacheMiddleware.toList ↔ String.ofList name = "force10.cache" := by
        rw [← String.toList_inj, String.toList_ofList]
        rfl
      dsimp only
      rw [ne_eq, ← same]
      by_cases ours : name = cacheMiddleware.toList
      · rw [if_pos ours]
        exact iff_of_false (Option.some_ne_none _) (not_not_intro ours)
      · rw [if_neg ours]
        exact iff_of_true rfl ours

/-- Directives between commas are read back from a middleware text: their patterns in order, and
nothing to be sent exactly if there are none. Items that name no pattern may stand anywhere between
the items of a text and change nothing. A text is read exactly if the cache middleware is named in
front of its first colon, or by the whole text if it has no colon. -/
theorem directives_survive_middleware_text :
    (∀ patterns : List String, (∀ pattern ∈ patterns, ',' ∉ pattern.toList) →
        ∃ invalidation, ofMiddleware? (middlewareText (patterns.map directive)) =
            some invalidation ∧
          invalidation.patterns = patterns ∧
          invalidation.payload? = if patterns = [] then none else some patterns) ∧
      (∀ items padded : List String, AddsIdle items padded →
        (∀ item ∈ padded, ',' ∉ item.toList) →
          ofMiddleware? (middlewareText padded) = ofMiddleware? (middlewareText items)) ∧
      ∀ middleware : String, ofMiddleware? middleware = none ↔
        String.ofList (middleware.toList.takeWhile (· ≠ ':')) ≠ "force10.cache" := by
  refine ⟨?_, ?_, ofMiddleware?_eq_none_iff⟩
  · intro patterns free
    have freeDirectives : ∀ item ∈ patterns.map directive, ',' ∉ item.toList := by
      intro item member
      obtain ⟨pattern, isPattern, rfl⟩ := List.mem_map.mp member
      rw [directive, String.toList_append, List.mem_append, not_or]
      exact ⟨by decide, free pattern isPattern⟩
    refine ⟨⟨patterns⟩, ?_, rfl, payload?_eq _⟩
    rw [ofMiddleware?_middlewareText freeDirectives, ofDirectives_map_directive]
  · intro items padded adds free
    have freeItems : ∀ item ∈ items, ',' ∉ item.toList :=
      fun item member => free item (adds.sublist.subset member)
    rw [ofMiddleware?_middlewareText free, ofMiddleware?_middlewareText freeItems,
      adds.ofDirectives_eq]

/-- One pattern is empty and one, which comes twice, reads like the text that it stands in; between
them are nothing at all and a directive of another kind. -/
theorem repeated_directives_are_read_back :
    ofMiddleware? ("force10.cache:,invalidate:,invalidate:force10.cache:/a,refresh:/b," ++
        "invalidate:force10.cache:/a") =
        some ⟨["", "force10.cache:/a", "force10.cache:/a"]⟩ ∧
      ofMiddleware? "force10.cached:invalidate:/a" = none := by
  obtain ⟨readBack, ignores, readsOnly⟩ := directives_survive_middleware_text
  have adds : AddsIdle (["", "force10.cache:/a", "force10.cache:/a"].map directive)
      ["", "invalidate:", "invalidate:force10.cache:/a", "refresh:/b",
        "invalidate:force10.cache:/a"] :=
    .idle "" (by decide) (.keep _ (.keep _ (.idle "refresh:/b" (by decide) (.keep _ .nil))))
  obtain ⟨⟨found⟩, read, rfl, -⟩ :=
    readBack ["", "force10.cache:/a", "force10.cache:/a"] (by decide)
  exact ⟨(ignores _ _ adds (by decide)).trans read, (readsOnly _).mpr (by decide)⟩

end PageRoutes.Invalidation
