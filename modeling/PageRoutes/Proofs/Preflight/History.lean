import PageRoutes.Preflight.BuiltIn
import PageRoutes.Proofs.Distinct
/-!
What a registry answers in the course of a run in which checks are registered and made in any order.
An answer depends on the registrations that came before it, of which the last one for a name counts,
and on nothing else: neither on checks that were made before nor on the order of other names.
-/

set_option autoImplicit false

namespace PageRoutes.Preflight

open Text

/-! ### Names and parameters -/

inductive Splits : String → String → Option String → Prop
  | bare {name : String} : ':' ∉ name.toList → Splits name name none
  | withParameters {name : String} (parameters : String) :
      ':' ∉ name.toList → Splits (name ++ ":" ++ parameters) name (some parameters)

theorem splitMiddleware_eq_iff {text name : String} {parameters : Option String} :
    splitMiddleware text = (name, parameters) ↔ Splits text name parameters := by
  constructor
  · intro split
    rw [splitMiddleware] at split
    cases found : cutAtFirst? ':' text.toList with
    | none =>
        rw [found] at split
        cases split
        exact .bare (cutAtFirst?_eq_none_iff.mp found)
    | some cut =>
        obtain ⟨before, behind⟩ := cut
        rw [found] at split
        cases split
        obtain ⟨whole, noColon⟩ := cutAtFirst?_eq_some_iff.mp found
        have isText : text = String.ofList before ++ ":" ++ String.ofList behind := by
          apply String.toList_inj.mp
          simp [whole]
        rw [isText]
        exact .withParameters _ (by rwa [String.toList_ofList])
  · rintro (noColon | ⟨parameters, noColon⟩)
    · rw [splitMiddleware, cutAtFirst?_eq_none_iff.mpr noColon]
    · have cut : cutAtFirst? ':' (name ++ ":" ++ parameters).toList =
          some (name.toList, parameters.toList) :=
        cutAtFirst?_eq_some_iff.mpr ⟨by simp, noColon⟩
      rw [splitMiddleware, cut]
      simp

/-! ### Registrations -/

def IsLatest (history : List (String × Evaluator)) (name : String) (evaluator : Evaluator) : Prop :=
  ∃ earlier later, history = earlier ++ (name, evaluator) :: later ∧
    ∀ entry ∈ later, entry.1 ≠ name

theorem isLatest_iff_lookup {history : List (String × Evaluator)} {name : String}
    {evaluator : Evaluator} :
    IsLatest history name evaluator ↔ history.reverse.lookup name = some evaluator := by
  rw [List.lookup_eq_some_iff]
  constructor
  · rintro ⟨earlier, later, rfl, last⟩
    refine ⟨later.reverse, earlier.reverse, by simp, ?_⟩
    intro entry member
    exact bne_iff_ne.mpr (last entry (List.mem_reverse.mp member)).symm
  · rintro ⟨later, earlier, turned, last⟩
    refine ⟨earlier.reverse, later.reverse, ?_, ?_⟩
    · rw [← List.reverse_reverse history, turned]
      simp
    · intro entry member
      exact (bne_iff_ne.mp (last entry (List.mem_reverse.mp member))).symm

theorem exists_isLatest_iff {history : List (String × Evaluator)} {name : String} :
    (∃ evaluator, IsLatest history name evaluator) ↔ name ∈ history.map Prod.fst := by
  simp only [isLatest_iff_lookup]
  rw [← Option.isSome_iff_exists]
  constructor
  · intro found
    obtain ⟨evaluator, found⟩ := Option.isSome_iff_exists.mp found
    obtain ⟨earlier, later, rfl, -⟩ := isLatest_iff_lookup.mpr found
    simp
  · intro member
    obtain ⟨entry, inHistory, rfl⟩ := List.mem_map.mp member
    by_contra missing
    have noEntry := List.lookup_eq_none_iff.mp (Option.not_isSome_iff_eq_none.mp missing)
    have different := noEntry entry (List.mem_reverse.mpr inHistory)
    simp at different

/-- What a registry answers about some middleware after such a history of registrations: each text
whose name was registered is answered once and in the order in which it is first given, by what was
registered last for its name. -/
structure Answers (history : List (String × Evaluator)) (request : RequestView)
    (middleware : List String) (results : List (String × Verdict)) : Prop where
  once : (results.map Prod.fst).Nodup
  mem_iff : ∀ text, text ∈ results.map Prod.fst ↔
    text ∈ middleware ∧
      ∃ name parameters, Splits text name parameters ∧ name ∈ history.map Prod.fst
  inOrder : (results.map Prod.fst).Pairwise fun first second =>
    middleware.idxOf first < middleware.idxOf second
  byLatest : ∀ text verdict, (text, verdict) ∈ results →
    ∃ name parameters evaluator, Splits text name parameters ∧
      IsLatest history name evaluator ∧ verdict = evaluator request parameters

namespace Registry

def registerAll (registry : Registry) (history : List (String × Evaluator)) : Registry :=
  history.foldl (fun registry (name, evaluator) => registry.register name evaluator) registry

theorem evaluators_registerAll (registry : Registry) (history : List (String × Evaluator)) :
    (registry.registerAll history).evaluators = history.reverse ++ registry.evaluators := by
  induction history generalizing registry with
  | nil => rfl
  | cons entry history ih =>
      rw [registerAll, List.foldl_cons, ← registerAll, ih]
      simp [register]

theorem evaluator?_registerAll_iff {history : List (String × Evaluator)} {name : String}
    {evaluator : Evaluator} :
    (empty.registerAll history).evaluator? name = some evaluator ↔
      IsLatest history name evaluator := by
  rw [evaluator?, evaluators_registerAll, isLatest_iff_lookup, empty, List.append_nil]

theorem verdict?_registerAll_iff {history : List (String × Evaluator)} {request : RequestView}
    {text : String} {verdict : Verdict} :
    (empty.registerAll history).verdict? request text = some verdict ↔
      ∃ name parameters evaluator, Splits text name parameters ∧
        IsLatest history name evaluator ∧ verdict = evaluator request parameters := by
  cases split : splitMiddleware text with
  | mk name parameters =>
      simp only [verdict?, split, Option.map_eq_some_iff, evaluator?_registerAll_iff]
      constructor
      · rintro ⟨evaluator, latest, rfl⟩
        exact ⟨name, parameters, evaluator, splitMiddleware_eq_iff.mp split, latest, rfl⟩
      · rintro ⟨_, _, evaluator, splits, latest, rfl⟩
        rw [splitMiddleware_eq_iff.mpr splits] at split
        cases split
        exact ⟨evaluator, latest, rfl⟩

/-! ### Answers -/

/-- The texts that are answered are those of the given ones whose names are registered. -/
theorem map_fst_verdicts (registry : Registry) (request : RequestView)
    (middleware : List String) :
    (registry.verdicts request middleware).map Prod.fst =
      middleware.eraseDups.filter fun text => (registry.verdict? request text).isSome := by
  rw [verdicts]
  induction middleware.eraseDups with
  | nil => rfl
  | cons text texts ih =>
      cases found : registry.verdict? request text with
      | none => simpa [found] using ih
      | some verdict => simpa [found] using ih

theorem answers_verdicts (history : List (String × Evaluator)) (request : RequestView)
    (middleware : List String) :
    Answers history request middleware
      ((empty.registerAll history).verdicts request middleware) := by
  have registered (text : String) :
      ((empty.registerAll history).verdict? request text).isSome ↔
        ∃ name parameters, Splits text name parameters ∧ name ∈ history.map Prod.fst := by
    simp only [Option.isSome_iff_exists, verdict?_registerAll_iff, ← exists_isLatest_iff]
    constructor
    · rintro ⟨_, name, parameters, evaluator, splits, latest, rfl⟩
      exact ⟨name, parameters, splits, evaluator, latest⟩
    · rintro ⟨name, parameters, splits, evaluator, latest⟩
      exact ⟨_, name, parameters, evaluator, splits, latest, rfl⟩
  refine
    { once := ?_
      mem_iff := ?_
      inOrder := ?_
      byLatest := ?_ }
  · rw [map_fst_verdicts]
    exact (Distinct.nodup_eraseDups middleware).filter _
  · intro text
    rw [map_fst_verdicts, List.mem_filter, List.mem_eraseDups, registered]
  · rw [map_fst_verdicts]
    exact (Distinct.pairwise_idxOf_eraseDups middleware).filter _
  · intro text verdict member
    obtain ⟨_, -, found⟩ := List.mem_filterMap.mp member
    obtain ⟨_, found, same⟩ := Option.map_eq_some_iff.mp found
    cases same
    exact verdict?_registerAll_iff.mp found

/-- More middleware behind some is answered behind it, as far as it was not answered already. -/
theorem verdicts_append (registry : Registry) (request : RequestView)
    (middleware more : List String) :
    registry.verdicts request (middleware ++ more) =
      registry.verdicts request middleware ++
        (registry.verdicts request more).filter fun (text, _) =>
          text ∉ (registry.verdicts request middleware).map Prod.fst := by
  let answer (text : String) : Option (String × Verdict) :=
    (registry.verdict? request text).map fun verdict => (text, verdict)
  have answered (text : String) :
      text ∈ (registry.verdicts request middleware).map Prod.fst ↔
        text ∈ middleware ∧ (registry.verdict? request text).isSome := by
    rw [map_fst_verdicts, List.mem_filter, List.mem_eraseDups]
  have removed : (more.removeAll middleware).eraseDups =
      more.eraseDups.filter fun text => !middleware.elem text :=
    Distinct.eraseDups_filter _ _
  have remaining : (more.removeAll middleware).eraseDups.filterMap answer =
      (more.eraseDups.filterMap answer).filter fun (text, _) =>
        text ∉ (registry.verdicts request middleware).map Prod.fst := by
    rw [removed, List.filterMap_filter, List.filter_filterMap]
    apply List.filterMap_congr
    intro text _
    simp only [answer, answered]
    cases found : registry.verdict? request text with
    | none => simp
    | some verdict =>
        by_cases member : text ∈ middleware <;> simp [member, found, Option.filter_some]
  calc registry.verdicts request (middleware ++ more)
      = (middleware ++ more).eraseDups.filterMap answer := rfl
    _ = middleware.eraseDups.filterMap answer ++
          (more.removeAll middleware).eraseDups.filterMap answer := by
        rw [List.eraseDups_append, List.filterMap_append]
    _ = _ := by
        rw [remaining]
        rfl

theorem isRegistered_registerAll_iff {history : List (String × Evaluator)} {name : String} :
    (empty.registerAll history).isRegistered name = true ↔ name ∈ history.map Prod.fst := by
  simp only [isRegistered, Option.isSome_iff_exists, evaluator?_registerAll_iff,
    exists_isLatest_iff]

/-! ### Runs -/

inductive Step where
  | register (name : String) (evaluator : Evaluator)
  | evaluate (request : RequestView) (middleware : List String)

def step (registry : Registry) : Step → Registry × List (List (String × Verdict))
  | .register name evaluator => (registry.register name evaluator, [])
  | .evaluate request middleware => (registry, [registry.verdicts request middleware])

def run : Registry → List Step → Registry × List (List (String × Verdict))
  | registry, [] => (registry, [])
  | registry, step :: steps =>
      let (next, here) := registry.step step
      let (last, later) := run next steps
      (last, here ++ later)

def registrations : List Step → List (String × Evaluator)
  | [] => []
  | .register name evaluator :: steps => (name, evaluator) :: registrations steps
  | .evaluate _ _ :: steps => registrations steps

theorem registerAll_append (registry : Registry) (history more : List (String × Evaluator)) :
    registry.registerAll (history ++ more) = (registry.registerAll history).registerAll more :=
  List.foldl_append

/-- One step changes the registry by its registration only. -/
theorem step_fst (registry : Registry) (step : Step) :
    (registry.step step).1 = registry.registerAll (registrations [step]) := by
  cases step <;> rfl

theorem run_fst (registry : Registry) (steps : List Step) :
    (registry.run steps).1 = registry.registerAll (registrations steps) := by
  induction steps generalizing registry with
  | nil => rfl
  | cons step steps ih =>
      have apart : registrations (step :: steps) = registrations [step] ++ registrations steps := by
        cases step <;> rfl
      rw [apart, registerAll_append, ← step_fst, ← ih]
      rfl

theorem run_append (registry : Registry) (before after : List Step) :
    registry.run (before ++ after) =
      (((registry.run before).1.run after).1,
        (registry.run before).2 ++ ((registry.run before).1.run after).2) := by
  induction before generalizing registry with
  | nil => rfl
  | cons step before ih =>
      simp only [List.cons_append, run, ih, List.append_assoc]

def initial : Option PreflightSettings → Registry
  | none => empty
  | some settings => ofSettings settings

def usualChecks : Option PreflightSettings → List (String × Evaluator)
  | none => []
  | some settings =>
      [ ("auth", signedIn settings), ("guest", signedOut settings),
        ("verified", verified settings), ("password.confirm", passwordConfirmed settings) ]

theorem initial_eq (settings : Option PreflightSettings) :
    initial settings = empty.registerAll (usualChecks settings) := by
  cases settings <;> rfl

/-- Wherever some middleware is checked in a run, the results follow from what was registered before
it. The check itself leaves no trace in the registry or in the results of other checks, and more
middleware would only add results behind those of the given one. -/
theorem checks_answer_by_registrations (settings : Option PreflightSettings)
    (before after : List Step) (request : RequestView) (middleware : List String) :
    let registry := ((initial settings).run before).1
    let history := usualChecks settings ++ registrations before
    let results := registry.verdicts request middleware
    (initial settings).run (before ++ .evaluate request middleware :: after) =
        (((initial settings).run (before ++ after)).1,
          ((initial settings).run before).2 ++ results :: (registry.run after).2) ∧
      ((initial settings).run (before ++ after)).2 =
        ((initial settings).run before).2 ++ (registry.run after).2 ∧
      (∀ name, registry.isRegistered name = true ↔ name ∈ history.map Prod.fst) ∧
      Answers history request middleware results ∧
      ∀ more, registry.verdicts request (middleware ++ more) =
        results ++ (registry.verdicts request more).filter fun (text, _) =>
          text ∉ results.map Prod.fst := by
  intro registry history results
  have byHistory : registry = empty.registerAll history := by
    rw [registerAll_append, ← initial_eq, ← run_fst]
  refine ⟨?_, ?_, ?_, ?_, verdicts_append registry request middleware⟩
  · rw [run_append, run_append]
    rfl
  · rw [run_append]
  · rw [byHistory]
    exact fun name => isRegistered_registerAll_iff
  · rw [show results = registry.verdicts request middleware from rfl, byHistory]
    exact answers_verdicts history request middleware

end Registry

end PageRoutes.Preflight
