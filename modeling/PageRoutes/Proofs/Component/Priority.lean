import Mathlib.Data.List.InsertIdx
import PageRoutes.Component.Strategy
/-!
What a chain of strategies finds depends only on the parts that its strategies are made of and on
their order: strategies from the first to the last, and inside each one from left to right. How the
parts are put together does not count.
-/

set_option autoImplicit false

namespace PageRoutes

/-! ### Parts of strategies -/

namespace Strategy

def parts : Strategy → List (Route → Option String)
  | .leaf _ find => [find]
  | .orElse first second => first.parts ++ second.parts

theorem find?_eq_parts (strategy : Strategy) (route : Route) :
    strategy.find? route = strategy.parts.findSome? (· route) := by
  induction strategy with
  | leaf name find =>
      rw [find?, parts, List.findSome?_cons]
      cases find route <;> rfl
  | orElse first second ihFirst ihSecond =>
      rw [find?, parts, List.findSome?_append, ← ihFirst, ← ihSecond]
      cases first.find? route <;> rfl

/-- Two strategies that put the same parts together in different groups. -/
inductive Regrouped : Strategy → Strategy → Prop
  | assoc (first second third : Strategy) :
      Regrouped (.orElse (.orElse first second) third) (.orElse first (.orElse second third))
  | inFirst {first other : Strategy} (second : Strategy) :
      Regrouped first other → Regrouped (.orElse first second) (.orElse other second)
  | inSecond (first : Strategy) {second other : Strategy} :
      Regrouped second other → Regrouped (.orElse first second) (.orElse first other)
  | refl (strategy : Strategy) : Regrouped strategy strategy
  | symm {one other : Strategy} : Regrouped one other → Regrouped other one
  | trans {one other third : Strategy} :
      Regrouped one other → Regrouped other third → Regrouped one third

theorem Regrouped.parts_eq {one other : Strategy} (regrouped : Regrouped one other) :
    one.parts = other.parts := by
  induction regrouped with
  | assoc first second third => exact List.append_assoc _ _ _
  | inFirst second _ ih => rw [parts, parts, ih]
  | inSecond first _ ih => rw [parts, parts, ih]
  | refl strategy => rfl
  | symm _ ih => exact ih.symm
  | trans _ _ ihFirst ihSecond => exact ihFirst.trans ihSecond

end Strategy

namespace StrategyChain

/-! ### What a chain finds -/

def parts (chain : StrategyChain) : List (Route → Option String) :=
  chain.strategies.flatMap (·.parts)

theorem resolve?_eq_parts (chain : StrategyChain) (route : Route) :
    chain.resolve? route = chain.parts.findSome? (· route) := by
  rw [resolve?, parts]
  induction chain.strategies with
  | nil => rfl
  | cons strategy strategies ih =>
      rw [List.findSome?_cons, List.flatMap_cons, List.findSome?_append,
        ← strategy.find?_eq_parts, ih]
      cases strategy.find? route <;> rfl

/-- Chains with the same parts find the same components. -/
theorem resolve?_eq_of_parts {one other : StrategyChain} (same : one.parts = other.parts) :
    one.resolve? = other.resolve? := by
  funext route
  rw [resolve?_eq_parts, resolve?_eq_parts, same]

theorem resolve?_append (front back : List Strategy) (route : Route) :
    resolve? ⟨front ++ back⟩ route = (resolve? ⟨front⟩ route).or (resolve? ⟨back⟩ route) :=
  List.findSome?_append

theorem resolve?_singleton (strategy : Strategy) (route : Route) :
    resolve? ⟨[strategy]⟩ route = strategy.find? route := by
  rw [resolve?, List.findSome?_cons]
  cases strategy.find? route <;> rfl

/-! ### Chains that are made step by step -/

inductive Change where
  | push (strategy : Strategy)
  | insert (position : Nat) (strategy : Strategy)

def change (chain : StrategyChain) : Change → StrategyChain
  | .push strategy => chain.push strategy
  | .insert position strategy => chain.insert position strategy

def ofChanges (changes : List Change) : StrategyChain :=
  changes.foldl change empty

/-- The order of priority after a change: what is inserted takes the position that it asks for, or
the last one if there are not that many. -/
def Change.reorder (order : List Strategy) : Change → List Strategy
  | .push strategy => order ++ [strategy]
  | .insert position strategy => order.insertIdx (min position order.length) strategy

def priorities (changes : List Change) : List Strategy :=
  changes.foldl Change.reorder []

theorem insertIdx_min (order : List Strategy) (position : Nat) (strategy : Strategy) :
    order.insertIdx (min position order.length) strategy =
      order.take position ++ strategy :: order.drop position := by
  induction order generalizing position with
  | nil => simp
  | cons first others ih =>
      cases position with
      | zero => simp
      | succ position =>
          rw [List.length_cons, Nat.succ_min_succ, List.insertIdx_succ_cons, ih]
          rfl

theorem strategies_change (chain : StrategyChain) (step : Change) :
    (chain.change step).strategies = step.reorder chain.strategies := by
  cases step with
  | push strategy => rfl
  | insert position strategy => exact (insertIdx_min _ _ _).symm

theorem strategies_foldl_change (chain : StrategyChain) (changes : List Change) :
    (changes.foldl change chain).strategies = changes.foldl Change.reorder chain.strategies := by
  induction changes generalizing chain with
  | nil => rfl
  | cons step changes ih => rw [List.foldl_cons, List.foldl_cons, ih, strategies_change]

theorem parts_ofChanges (changes : List Change) :
    (ofChanges changes).parts = (priorities changes).flatMap (·.parts) := by
  rw [parts, ofChanges, strategies_foldl_change]
  rfl

/-! ### Where a strategy is put -/

/-- A strategy has a place in a chain, in front of those that stood there or behind and behind all
others. -/
structure TakesPlace (strategy : Strategy) (place : Nat) (before after : StrategyChain) :
    Prop where
  itself : after.strategies[place]? = some strategy
  inFront : ∀ earlier < place, after.strategies[earlier]? = before.strategies[earlier]?
  behind : ∀ later ≥ place, after.strategies[later + 1]? = before.strategies[later]?
  finds : ∀ route, after.resolve? route =
    (resolve? ⟨before.strategies.take place⟩ route).or
      ((strategy.find? route).or (resolve? ⟨before.strategies.drop place⟩ route))

theorem takesPlace_insert (chain : StrategyChain) (position : Nat) (strategy : Strategy) :
    TakesPlace strategy (min position chain.strategies.length) chain
      (chain.insert position strategy) := by
  let place := min position chain.strategies.length
  have inserted : (chain.insert position strategy).strategies =
      chain.strategies.insertIdx place strategy :=
    (insertIdx_min _ _ _).symm
  have within : place ≤ chain.strategies.length := Nat.min_le_right _ _
  refine
    { itself := ?_
      inFront := ?_
      behind := ?_
      finds := ?_ }
  · rw [inserted, List.getElem?_insertIdx_self, if_pos within]
  · intro earlier isBefore
    rw [inserted, List.getElem?_insertIdx_of_lt isBefore]
  · intro later isBehind
    rw [inserted, List.getElem?_insertIdx_of_gt (Nat.lt_succ_of_le isBehind)]
    rfl
  · intro route
    have apart : chain.insert position strategy =
        ⟨chain.strategies.take place ++ ([strategy] ++ chain.strategies.drop place)⟩ := by
      rw [StrategyChain.mk.injEq, inserted]
      have cut := insertIdx_min chain.strategies place strategy
      rwa [Nat.min_eq_left within] at cut
    rw [apart, resolve?_append, resolve?_append, resolve?_singleton]

/-- A chain finds what the first part finds that finds anything, in the order of priority that its
changes made. Neither taking a strategy apart where it stands nor grouping its parts in another way
makes a difference, and an inserted strategy comes before those that stood at its position or behind
it, and before no others. -/
theorem first_part_in_order_wins (changes : List Change) (route : Route) :
    (∀ component, (ofChanges changes).resolve? route = some component ↔
        ∃ earlier part later,
          (priorities changes).flatMap (·.parts) = earlier ++ part :: later ∧
            part route = some component ∧ ∀ other ∈ earlier, other route = none) ∧
      ((ofChanges changes).resolve? route = none ↔
        ∀ part ∈ (priorities changes).flatMap (·.parts), part route = none) ∧
      (∀ front first second back,
        resolve? ⟨front ++ .orElse first second :: back⟩ route =
          resolve? ⟨front ++ first :: second :: back⟩ route) ∧
      (∀ front one other back, Strategy.Regrouped one other →
        resolve? ⟨front ++ one :: back⟩ route = resolve? ⟨front ++ other :: back⟩ route) ∧
      ∀ (chain : StrategyChain) (position : Nat) (strategy : Strategy),
        TakesPlace strategy (min position chain.strategies.length) chain
          (chain.insert position strategy) := by
  rw [resolve?_eq_parts, parts_ofChanges]
  refine ⟨?_, List.findSome?_eq_none_iff, ?_, ?_, takesPlace_insert⟩
  · intro component
    exact List.findSome?_eq_some_iff
  · intro front first second back
    apply congrFun (resolve?_eq_of_parts _)
    simp [parts, Strategy.parts]
  · intro front one other back regrouped
    apply congrFun (resolve?_eq_of_parts _)
    simp [parts, regrouped.parts_eq]

def fixed (component : Option String) : Strategy :=
  .leaf "fixed" fun _ => component

/-- The early page is found behind a part that finds nothing, in whichever groups the parts stand, and
a page that is asked for far beyond the end of the chain does not come before it. -/
theorem early_page_is_found_in_any_group :
    Strategy.Regrouped (.orElse (.orElse (fixed none) (fixed "Early")) (fixed none))
        (.orElse (fixed none) (.orElse (fixed "Early") (fixed none))) ∧
      (ofChanges
          [ .push (.orElse (fixed none) (.orElse (fixed "Early") (fixed none))),
            .insert 7 (fixed "Late") ]).resolve? (.new "about" .none) = some "Early" := by
  have regrouped : Strategy.Regrouped
      (.orElse (.orElse (fixed none) (fixed "Early")) (fixed none))
      (.orElse (fixed none) (.orElse (fixed "Early") (fixed none))) := .assoc _ _ _
  obtain ⟨-, -, -, anyGroup, -⟩ := first_part_in_order_wins [] (.new "about" .none)
  refine ⟨regrouped, ?_⟩
  exact (anyGroup [] _ _ [fixed "Late"] regrouped).symm

end StrategyChain

end PageRoutes
