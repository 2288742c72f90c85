import Mathlib.Data.List.Nodup
import PageRoutes.Proofs.Preflight.History
/-!
The checks that every registry starts with, as long as no later registration takes their names, and
the three of them that ask for a user. For any guard these three look at one and the same user, who
is on the guard if it is configured and on the default guard otherwise, so they never contradict
each other.
-/

set_option autoImplicit false

namespace PageRoutes.Preflight

def textOf (name : String) : Option String → String
  | none => name
  | some parameters => name ++ ":" ++ parameters

theorem splits_textOf {name : String} (noColon : ':' ∉ name.toList) (parameters : Option String) :
    Splits (textOf name parameters) name parameters := by
  cases parameters with
  | none => exact .bare noColon
  | some parameters => exact .withParameters parameters noColon

theorem textOf_injective (parameters : Option String) :
    Function.Injective (textOf · parameters) := by
  intro name other same
  cases parameters with
  | none => exact same
  | some parameters =>
      apply String.toList_inj.mp
      have sameChars := congrArg String.toList same
      simpa only [textOf, String.toList_append, List.append_left_inj] using sameChars

namespace Registry

variable {settings : PreflightSettings} {history : List (String × Evaluator)} {name : String}
  {check : Evaluator} {request : RequestView}

/-! ### Checks that are kept -/

theorem isLatest_usual (usual : (name, check) ∈ usualChecks (some settings))
    (kept : ∀ entry ∈ history, entry.1 ≠ name) :
    IsLatest (usualChecks (some settings) ++ history) name check := by
  have distinct : ((usualChecks (some settings)).map Prod.fst).Nodup := by
    change ["auth", "guest", "verified", "password.confirm"].Nodup
    decide
  -- No two of the usual checks have one name, so the later ones among them do not take it either.
  obtain ⟨earlier, later, split⟩ := List.append_of_mem usual
  rw [split, List.map_append, List.map_cons] at distinct
  have onlyOnce := (List.nodup_cons.mp (List.nodup_append.mp distinct).2.1).1
  refine ⟨earlier, later ++ history, ?_, ?_⟩
  · rw [split, List.append_assoc, List.cons_append]
  · intro entry member
    rcases List.mem_append.mp member with isUsual | isRegistered
    · exact fun same => onlyOnce (List.mem_map.mpr ⟨entry, isUsual, same⟩)
    · exact kept entry isRegistered

/-- Registrations of other names leave a check as every registry starts with it. -/
theorem verdict?_usual (usual : (name, check) ∈ usualChecks (some settings))
    (kept : ∀ entry ∈ history, entry.1 ≠ name) (parameters : Option String) :
    ((ofSettings settings).registerAll history).verdict? request (textOf name parameters) =
      some (check request parameters) := by
  have noColon : ∀ entry ∈ usualChecks (some settings), ':' ∉ entry.1.toList := by
    simp only [usualChecks, List.forall_mem_cons]
    decide
  have start : ofSettings settings = empty.registerAll (usualChecks (some settings)) :=
    initial_eq (some settings)
  rw [start, ← registerAll_append]
  exact verdict?_registerAll_iff.mpr ⟨name, parameters, check,
    splits_textOf (noColon _ usual) parameters, isLatest_usual usual kept, rfl⟩

/-- Texts that differ from each other and are all answered get their answers in their order. -/
theorem verdicts_of_answered {registry : Registry} {results : List (String × Verdict)}
    (distinct : (results.map Prod.fst).Nodup)
    (answered : ∀ result ∈ results, registry.verdict? request result.1 = some result.2) :
    registry.verdicts request (results.map Prod.fst) = results := by
  rw [verdicts, Distinct.eraseDups_of_nodup distinct, List.filterMap_map]
  have kept : ∀ result ∈ results,
      ((registry.verdict? request result.1).map fun verdict => (result.1, verdict)) =
        some result := by
    intro result member
    rw [answered result member]
    rfl
  exact (List.filterMap_congr kept).trans List.filterMap_some

theorem verdicts_singleton {registry : Registry} {text : String} {verdict : Verdict}
    (answered : registry.verdict? request text = some verdict) :
    registry.verdicts request [text] = [(text, verdict)] := by
  have distinct : ([(text, verdict)].map Prod.fst).Nodup := List.nodup_singleton text
  exact verdicts_of_answered distinct (List.forall_mem_singleton.mpr answered)

/-! ### Checks of users -/

/-- The user whom the checks look at is on this guard: on the given one if it is configured, and
otherwise on the default guard. -/
inductive Asks (settings : PreflightSettings) : Option String → Option String → Prop
  | default : Asks settings none none
  | configured {guard : String} (known : guard ∈ settings.guards) :
      Asks settings (some guard) (some guard)
  | fallback {guard : String} (unknown : guard ∉ settings.guards) : Asks settings (some guard) none

theorem exists_asks (settings : PreflightSettings) (guard : Option String) :
    ∃ asked, Asks settings guard asked := by
  cases guard with
  | none => exact ⟨none, .default⟩
  | some guard =>
      by_cases known : guard ∈ settings.guards
      · exact ⟨some guard, .configured known⟩
      · exact ⟨none, .fallback known⟩

theorem Asks.userOn?_eq {guard asked : Option String} (asks : Asks settings guard asked) :
    userOn? settings request guard = request.user? asked := by
  unfold userOn? knownGuard?
  cases asks with
  | default => rfl
  | configured known => rw [Option.filter_some, if_pos (List.contains_iff_mem.mpr known)]
  | fallback unknown =>
      rw [Option.filter_some, if_neg fun contained => unknown (List.contains_iff_mem.mp contained)]

theorem Asks.eq_none {guard asked : Option String} (asks : Asks settings guard asked)
    (unconfigured : ∀ name ∈ guard, name ∉ settings.guards) : asked = none := by
  cases asks with
  | default => rfl
  | configured known => exact absurd known (unconfigured _ rfl)
  | fallback unknown => rfl

def userChecks : List String :=
  ["auth", "guest", "verified"]

def userVerdicts (user : Option User) : List Verdict :=
  [.new user.isSome, .new user.isNone, .new (user.any (·.emailVerified))]

def userResults (guard : Option String) (user : Option User) : List (String × Verdict) :=
  (userChecks.map (textOf · guard)).zip (userVerdicts user)

theorem verdicts_userChecks (kept : ∀ entry ∈ history, entry.1 ∉ userChecks)
    {guard asked : Option String} (asks : Asks settings guard asked) :
    ((ofSettings settings).registerAll history).verdicts request
        (userChecks.map (textOf · guard)) = userResults guard (request.user? asked) := by
  have names : (userResults guard (request.user? asked)).map Prod.fst =
      userChecks.map (textOf · guard) := rfl
  have distinct : (userChecks.map (textOf · guard)).Nodup :=
    List.Nodup.map (textOf_injective guard) (by decide)
  have others (name : String) (member : name ∈ userChecks) : ∀ entry ∈ history, entry.1 ≠ name :=
    fun entry inHistory same => kept entry inHistory (same ▸ member)
  have answer {name : String} {check : Evaluator}
      (usual : (name, check) ∈ usualChecks (some settings)) (member : name ∈ userChecks) :
      ((ofSettings settings).registerAll history).verdict? request (textOf name guard) =
        some (check request guard) := verdict?_usual usual (others name member) guard
  have isIn := @answer "auth" (signedIn settings) (by simp [usualChecks]) (by decide)
  have isOut := @answer "guest" (signedOut settings) (by simp [usualChecks]) (by decide)
  have isVerified := @answer "verified" (verified settings) (by simp [usualChecks]) (by decide)
  rw [← names] at distinct ⊢
  apply verdicts_of_answered distinct
  rw [← asks.userOn?_eq]
  intro result member
  simp only [userResults, userChecks, userVerdicts, List.map_cons, List.map_nil, List.zip_cons_cons,
    List.zip_nil_right, List.mem_cons, List.not_mem_nil, or_false] at member
  rcases member with rfl | rfl | rfl
  · exact isIn
  · exact isOut
  · exact isVerified

/-- The three checks of users go together, whatever their parameters are: all look at the same user,
`auth` passes exactly if there is one and `guest` exactly if there is none, and `verified` exactly
for one with a verified address. A guard that is not configured counts as if none was given, and the
answers depend on no user but the one that is asked for. -/
theorem user_checks_agree (settings : PreflightSettings) (history : List (String × Evaluator))
    (kept : ∀ entry ∈ history, entry.1 ∉ userChecks) (guard : Option String) :
    let registry := (ofSettings settings).registerAll history
    let results := fun (request : RequestView) (guard : Option String) =>
      registry.verdicts request (userChecks.map (textOf · guard))
    ∃ asked, Asks settings guard asked ∧
      (∀ request, ∃ isIn isOut isVerified : Bool,
        results request guard =
            [(textOf "auth" guard, .new isIn), (textOf "guest" guard, .new isOut),
              (textOf "verified" guard, .new isVerified)] ∧
          (isIn = true ↔ ∃ user, request.user? asked = some user) ∧
          (isIn = true ↔ isOut = false) ∧
          (isVerified = true ↔
            ∃ user, request.user? asked = some user ∧ user.emailVerified = true) ∧
          (isVerified = true → isIn = true) ∧
          ((∀ name ∈ guard, name ∉ settings.guards) →
            results request none =
              [("auth", .new isIn), ("guest", .new isOut), ("verified", .new isVerified)])) ∧
      ∀ request other, request.user? asked = other.user? asked →
        results request guard = results other guard := by
  intro registry results
  obtain ⟨asked, asks⟩ := exists_asks settings guard
  have answers (request : RequestView) :
      results request guard = userResults guard (request.user? asked) :=
    verdicts_userChecks kept asks
  refine ⟨asked, asks, ?_, ?_⟩
  · intro request
    refine ⟨(request.user? asked).isSome, (request.user? asked).isNone,
      (request.user? asked).any User.emailVerified, answers request, Option.isSome_iff_exists, ?_,
      Option.any_eq_true _ _, ?_, ?_⟩
    · cases request.user? asked <;> simp
    · cases request.user? asked with
      | none => exact id
      | some user => exact fun _ => rfl
    · intro unconfigured
      cases asks.eq_none unconfigured
      exact verdicts_userChecks kept .default
  · intro request other same
    rw [answers request, answers other, same]

/-- Someone is signed in on the default guard; the guard asked for is not configured. -/
theorem unknown_guard_asks_default_user :
    ((ofSettings .default).registerAll [("can", fun _ _ => .new false)]).verdicts
        ⟨fun guard => if guard = none then some ⟨false⟩ else none, fun _ => none, 0⟩
        ["auth:api:v1,v2", "guest:api:v1,v2", "verified:api:v1,v2"] =
      [("auth:api:v1,v2", .new true), ("guest:api:v1,v2", .new false),
        ("verified:api:v1,v2", .new false)] := by
  obtain ⟨asked, asks, agree, -⟩ := user_checks_agree .default [("can", fun _ _ => .new false)]
    (by decide) (some "api:v1,v2")
  cases asks.eq_none (by decide)
  obtain ⟨isIn, isOut, isVerified, answered, inIff, outIff, verifiedIff, -⟩ :=
    agree ⟨fun guard => if guard = none then some ⟨false⟩ else none, fun _ => none, 0⟩
  have signedIn : isIn = true := inIff.mpr ⟨⟨false⟩, rfl⟩
  have notOut : isOut = false := outIff.mp signedIn
  have notVerified : isVerified = false := by
    rw [← Bool.not_eq_true, verifiedIff]
    intro found
    obtain ⟨user, isUser, isVerified⟩ := found
    cases isUser
    cases isVerified
  rw [signedIn, notOut, notVerified] at answered
  exact answered

end Registry

end PageRoutes.Preflight
