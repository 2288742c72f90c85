import PageRoutes.Proofs.Uri.Globs
import PageRoutes.UriFilter
/-!
Which routes a filter keeps. What its two lists say is compared with what is kept: the patterns that
are no valid ones are left out before it is asked whether there are any, so a list that holds
nothing but such patterns asks for all routes.
-/

set_option autoImplicit false

namespace PageRoutes

def Glob.Matches (pattern uri : String) : Prop :=
  ∃ glob, Glob.ofText? pattern = some glob ∧ Glob.StandsFor glob.parts uri.toList

instance (pattern uri : String) : Decidable (Glob.Matches pattern uri) :=
  decidable_of_iff ((Glob.ofText? pattern).any (·.covers uri) = true) (by
    simp only [Option.any_eq_true, Glob.covers_iff]
    rfl)

namespace UriFilter

def Excludes (filter : UriFilter) (uri : String) : Prop :=
  ∃ pattern ∈ filter.excluded, Glob.Matches pattern uri

/-- What the lists of a filter say about a URI. Everything is asked for only if nothing is named. -/
structure Chooses (filter : UriFilter) (uri : String) : Prop where
  asked : filter.included = [] ∨ ∃ pattern ∈ filter.included, Glob.Matches pattern uri
  notExcluded : ¬filter.Excludes uri

instance (filter : UriFilter) (uri : String) : Decidable (filter.Excludes uri) :=
  inferInstanceAs (Decidable (∃ pattern ∈ filter.excluded, Glob.Matches pattern uri))

instance (filter : UriFilter) (uri : String) : Decidable (filter.Chooses uri) :=
  decidable_of_iff
    ((filter.included = [] ∨ ∃ pattern ∈ filter.included, Glob.Matches pattern uri) ∧
      ¬filter.Excludes uri)
    ⟨fun both => ⟨both.1, both.2⟩, fun chosen => ⟨chosen.asked, chosen.notExcluded⟩⟩

theorem any_covers_validGlobs {patterns : List String} {uri : String} :
    (validGlobs patterns).any (·.covers uri) = true ↔
      ∃ pattern ∈ patterns, Glob.Matches pattern uri := by
  unfold validGlobs
  rw [List.any_eq_true]
  constructor
  · intro covered
    rcases covered with ⟨glob, member, covers⟩
    rcases List.mem_filterMap.mp member with ⟨pattern, isGiven, valid⟩
    exact ⟨pattern, isGiven, glob, valid, Glob.covers_iff.mp covers⟩
  · intro matched
    rcases matched with ⟨pattern, isGiven, glob, valid, stands⟩
    exact ⟨glob, List.mem_filterMap.mpr ⟨pattern, isGiven, valid⟩, Glob.covers_iff.mpr stands⟩

theorem isEmpty_validGlobs {patterns : List String} :
    (validGlobs patterns).isEmpty = true ↔
      ∀ pattern ∈ patterns, Glob.ofText? pattern = none := by
  rw [List.isEmpty_iff, validGlobs, List.filterMap_eq_nil_iff]

theorem admits_iff {filter : UriFilter} {uri : String} :
    filter.admits uri = true ↔
      ((∀ pattern ∈ filter.included, Glob.ofText? pattern = none) ∨
        ∃ pattern ∈ filter.included, Glob.Matches pattern uri) ∧ ¬filter.Excludes uri := by
  unfold admits Excludes
  rw [Bool.and_eq_true, Bool.or_eq_true, Bool.not_eq_true', isEmpty_validGlobs,
    any_covers_validGlobs, ← Bool.not_eq_true, any_covers_validGlobs]

theorem mem_apply {filter : UriFilter} {routes : List Route} {route : Route} :
    route ∈ filter.apply routes ↔
      route ∈ routes ∧
        ((∀ pattern ∈ filter.included, Glob.ofText? pattern = none) ∨
          ∃ pattern ∈ filter.included, Glob.Matches pattern route.uri) ∧
        ¬filter.Excludes route.uri := by
  rw [apply, List.mem_filter, admits_iff]

/-- A filter with some valid pattern among those that ask for routes, or with none that asks for
any, admits what its lists say. -/
theorem admits_iff_chooses {filter : UriFilter}
    (sound : filter.included = [] ∨
      ∃ pattern ∈ filter.included, (Glob.ofText? pattern).isSome = true) (uri : String) :
    filter.admits uri = true ↔ filter.Chooses uri := by
  rw [admits_iff]
  rcases sound with isNil | ⟨pattern, isGiven, valid⟩
  · constructor
    · intro admitted
      exact ⟨.inl isNil, admitted.2⟩
    · intro chosen
      refine ⟨.inl ?_, chosen.notExcluded⟩
      rw [isNil]
      intro pattern isGiven
      cases isGiven
  · constructor
    · intro admitted
      refine ⟨.inr (admitted.1.resolve_left ?_), admitted.2⟩
      intro allInvalid
      rw [allInvalid pattern isGiven] at valid
      cases valid
    · intro chosen
      refine ⟨.inr (chosen.asked.resolve_left ?_), chosen.notExcluded⟩
      exact List.ne_nil_of_mem isGiven

/-- A list that asks for something but holds no valid pattern chooses nothing and yet admits
everything. -/
theorem admits_of_all_invalid {filter : UriFilter}
    (allInvalid : ∀ pattern ∈ filter.included, Glob.ofText? pattern = none) (uri : String) :
    filter.admits uri = true ↔ ¬filter.Excludes uri := by
  rw [admits_iff]
  exact ⟨And.right, fun notExcluded => ⟨.inl allInvalid, notExcluded⟩⟩

theorem not_chooses_of_all_invalid {filter : UriFilter} (asks : filter.included ≠ [])
    (allInvalid : ∀ pattern ∈ filter.included, Glob.ofText? pattern = none) (uri : String) :
    ¬filter.Chooses uri := by
  intro chosen
  rcases chosen.asked with isNil | ⟨pattern, isGiven, glob, valid, -⟩
  · exact asks isNil
  · rw [allInvalid pattern isGiven] at valid
    cases valid

/-- The routes that are kept are those that the lists of the filter choose, in their order, exactly
if no pattern asks for routes, or some pattern that does is valid, or all of the routes are
excluded. Otherwise all routes are kept that are not excluded. -/
theorem filter_keeps_chosen_iff (filter : UriFilter) (routes : List Route) :
    (filter.apply routes = routes.filter (fun route => decide (filter.Chooses route.uri)) ↔
      filter.included = [] ∨
        (∃ pattern ∈ filter.included, (Glob.ofText? pattern).isSome = true) ∨
          ∀ route ∈ routes, filter.Excludes route.uri) ∧
    ((∀ pattern ∈ filter.included, Glob.ofText? pattern = none) →
      filter.apply routes = routes.filter fun route => decide ¬filter.Excludes route.uri) := by
  constructor
  · constructor
    · intro same
      by_cases isNil : filter.included = []
      · exact .inl isNil
      by_cases someValid : ∃ pattern ∈ filter.included, (Glob.ofText? pattern).isSome = true
      · exact .inr (.inl someValid)
      have allInvalid : ∀ pattern ∈ filter.included, Glob.ofText? pattern = none := by
        simpa using someValid
      refine .inr (.inr ?_)
      intro route member
      by_contra notExcluded
      have kept : route ∈ filter.apply routes :=
        mem_apply.mpr ⟨member, .inl allInvalid, notExcluded⟩
      rw [same] at kept
      exact not_chooses_of_all_invalid isNil allInvalid route.uri
        (of_decide_eq_true (List.mem_filter.mp kept).2)
    · intro condition
      apply List.filter_congr
      intro route member
      rw [Bool.eq_iff_iff, decide_eq_true_iff]
      rcases condition with isNil | someValid | allExcluded
      · exact admits_iff_chooses (.inl isNil) route.uri
      · exact admits_iff_chooses (.inr someValid) route.uri
      · have excluded := allExcluded route member
        rw [admits_iff]
        exact iff_of_false (fun admitted => admitted.2 excluded)
          fun chosen => chosen.notExcluded excluded
  · intro allInvalid
    apply List.filter_congr
    intro route _
    rw [Bool.eq_iff_iff, decide_eq_true_iff]
    exact admits_of_all_invalid allInvalid route.uri

def unclosed : UriFilter where
  included := ["["]
  excluded := ["telescope*"]

theorem unclosed_keeps_users :
    unclosed.apply [.new "users" .none, .new "telescope/requests" .none] ≠
        [Route.new "users" .none, .new "telescope/requests" .none].filter
          (fun route => decide (unclosed.Chooses route.uri)) ∧
      unclosed.apply [.new "users" .none, .new "telescope/requests" .none] =
        [Route.new "users" .none, .new "telescope/requests" .none].filter
          fun route => decide ¬unclosed.Excludes route.uri := by
  rcases filter_keeps_chosen_iff unclosed
    [.new "users" .none, .new "telescope/requests" .none] with ⟨exact, otherwise⟩
  refine ⟨?_, otherwise (by decide +kernel)⟩
  rw [Ne, exact]
  decide +kernel

/-- A pattern without brackets is never lost, however many stars stand in a row in it: no two of
them are left next to each other when it is read. It matches the URIs that split along it, and that
is how it counts in either list of a filter. -/
theorem pattern_without_bracket_is_honoured (pattern : String) (noBracket : '[' ∉ pattern.toList) :
    ((Glob.collapseStars pattern.toList).IsChain fun c d => ¬(c = '*' ∧ d = '*')) ∧
      (∃ glob, Glob.ofText? pattern = some glob ∧
        ∀ uri, glob.covers uri = true ↔ Glob.SplitsAlong pattern.toList uri.toList) ∧
      ∀ (before behind others : List String) (routes : List Route) (route : Route),
        (route ∈ apply ⟨before ++ pattern :: behind, others⟩ routes ↔
          route ∈ routes ∧
            (Glob.SplitsAlong pattern.toList route.uri.toList ∨
              ∃ other ∈ before ++ behind, Glob.Matches other route.uri) ∧
            ∀ other ∈ others, ¬Glob.Matches other route.uri) ∧
        (route ∈ apply ⟨others, before ++ pattern :: behind⟩ routes ↔
          route ∈ apply ⟨others, before ++ behind⟩ routes ∧
            ¬Glob.SplitsAlong pattern.toList route.uri.toList) := by
  rcases Glob.ofText?_of_not_mem noBracket with ⟨glob, valid, covers⟩
  have matches_iff (uri : String) :
      Glob.Matches pattern uri ↔ Glob.SplitsAlong pattern.toList uri.toList := by
    simp only [Glob.Matches, valid, Option.some.injEq, exists_eq_left', ← covers, Glob.covers_iff]
  refine ⟨Glob.isChain_collapseStars _, ⟨glob, valid, covers⟩, ?_⟩
  intro before behind others routes route
  have someMatches : (∃ other ∈ before ++ pattern :: behind, Glob.Matches other route.uri) ↔
      Glob.SplitsAlong pattern.toList route.uri.toList ∨
        ∃ other ∈ before ++ behind, Glob.Matches other route.uri := by
    rw [← matches_iff]
    simp only [List.mem_append, List.mem_cons]
    grind
  constructor
  · have notAllInvalid :
        ¬∀ other ∈ before ++ pattern :: behind, Glob.ofText? other = none := by
      intro allInvalid
      rw [allInvalid pattern (by simp)] at valid
      cases valid
    rw [mem_apply, or_iff_right notAllInvalid, someMatches]
    simp only [Excludes, not_exists, not_and]
  · rw [mem_apply, mem_apply, Excludes, Excludes, someMatches, not_or]
    constructor
    · intro kept
      rcases kept with ⟨member, asked, splitsNot, noneMatches⟩
      exact ⟨⟨member, asked, noneMatches⟩, splitsNot⟩
    · intro kept
      rcases kept with ⟨⟨member, asked, noneMatches⟩, splitsNot⟩
      exact ⟨member, asked, splitsNot, noneMatches⟩

theorem double_star_excludes_reports :
    '[' ∉ "reports/**".toList ∧
      Glob.SplitsAlong "reports/**".toList "reports/2024/.q1".toList ∧
      Route.new "reports/2024/.q1" .none ∉
        apply ⟨["*"], ["users", "reports/**"]⟩ [.new "reports/2024/.q1" .none] := by
  have noBracket : '[' ∉ "reports/**".toList := by decide +kernel
  rcases pattern_without_bracket_is_honoured "reports/**" noBracket with ⟨-, -, counts⟩
  have splits : Glob.SplitsAlong "reports/**".toList "reports/2024/.q1".toList :=
    Glob.splitsAlong_of_standsFor (Glob.fit_eq_whole_iff.mp (by decide +kernel))
  refine ⟨noBracket, splits, ?_⟩
  intro kept
  exact ((counts ["users"] [] ["*"] _ _).2.mp kept).2 splits

end UriFilter

end PageRoutes
