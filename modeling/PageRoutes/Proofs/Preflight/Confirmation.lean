import PageRoutes.Proofs.Preflight.Numerals
import PageRoutes.Proofs.Preflight.UserChecks
/-!
How long the confirmation of a password counts: up to its time plus the configured one, by exact
arithmetic, and not at all if there is no such time among the integers of 64 bits. The session may
hold the time of the confirmation as an integer or as a decimal numeral in a text.
-/

set_option autoImplicit false

namespace PageRoutes.Preflight

open Json Decimal Text

/-! ### The time of the confirmation -/

def IsExact : Value → Prop
  | .num (.int value) => minInt64 ≤ value ∧ value ≤ maxInt64
  | .num (.real _) => False
  | _ => True

/-- The value of the session tells a time: as an integer, or by a text that spells one, perhaps with
blanks around it. -/
inductive Tells : Value → Int64 → Prop
  | integer (time : Int64) : Tells (.num (.int time.toInt)) time
  | text {text : String} {numeral : List Char} {time : Int64}
      (padded : IsPadded isBlank numeral text.toList) (spells : SpellsInt numeral time.toInt) :
      Tells (.str text) time

theorem seconds?_eq_some_iff {value : Value} (exact : IsExact value) {time : Int64} :
    seconds? value = some time ↔ Tells value time := by
  constructor
  · intro found
    unfold seconds? at found
    split at found
    · next number =>
        obtain ⟨word, same⟩ : ∃ word, int64? number = some word := ⟨_, if_pos exact⟩
        rw [same] at found
        cases found
        rw [← int64?_eq_some_iff.mp same]
        exact .integer word
    · exact exact.elim
    · next text =>
        obtain ⟨padded, -⟩ := trimBlanks_eq_iff.mp (Eq.refl (trimBlanks text.toList))
        exact .text padded (int64OfText?_eq_some_iff.mp found)
    · cases found
  · intro tells
    cases tells with
    | integer =>
        rw [seconds?, int64?_eq_some_iff.mpr rfl]
        rfl
    | text padded spells =>
        rw [seconds?, trimBlanks_eq_iff.mpr ⟨padded, spells.isTrimmed⟩]
        exact int64OfText?_eq_some_iff.mpr spells

theorem seconds?_toInt (time : Int64) : seconds? (.num (.int time.toInt)) = some time := by
  have exact : IsExact (.num (.int time.toInt)) := toInt_inRange time
  exact (seconds?_eq_some_iff exact).mpr (.integer time)

theorem seconds?_toString (time : Int64) : seconds? (.str (toString time.toInt)) = some time := by
  have exact : IsExact (.str (toString time.toInt)) := trivial
  exact (seconds?_eq_some_iff exact).mpr (.text (isPadded_self isBlank _) (spellsInt_toString _))

/-- The confirmation counts up to this time: a time other than zero that the session tells, plus the
configured duration, is within the integers of 64 bits. -/
def Expires (settings : PreflightSettings) (request : RequestView) (expiry : Int64) : Prop :=
  ∃ value confirmed, request.session? confirmationKey = some value ∧ Tells value confirmed ∧
    confirmed ≠ 0 ∧ expiry.toInt = confirmed.toInt + settings.passwordTimeout.toInt

def HoldsExact (request : RequestView) : Prop :=
  ∀ value ∈ request.session? confirmationKey, IsExact value

section

variable {settings : PreflightSettings} {request : RequestView} {expiry : Int64}

def expiry? (settings : PreflightSettings) (request : RequestView) : Option Int64 :=
  (confirmedAt? request).bind fun confirmed =>
    int64? (confirmed.toInt + settings.passwordTimeout.toInt)

theorem expiry?_eq_some_iff (exact : HoldsExact request) :
    expiry? settings request = some expiry ↔ Expires settings request expiry := by
  unfold expiry? confirmedAt? Expires
  simp only [Option.bind_eq_some_iff, Option.filter_eq_some_iff, int64?_eq_some_iff,
    decide_eq_true_eq]
  constructor
  · intro found
    obtain ⟨confirmed, ⟨⟨value, held, told⟩, nonzero⟩, sum⟩ := found
    exact ⟨value, confirmed, held, (seconds?_eq_some_iff (exact value held)).mp told, nonzero, sum⟩
  · intro expires
    obtain ⟨value, confirmed, held, tells, nonzero, sum⟩ := expires
    exact ⟨confirmed, ⟨⟨value, held, (seconds?_eq_some_iff (exact value held)).mpr tells⟩, nonzero⟩,
      sum⟩

theorem passwordConfirmed_of_expiry (found : expiry? settings request = some expiry)
    (parameters : Option String) :
    passwordConfirmed settings request parameters =
      ⟨decide (request.now < expiry), [("expiresAt", .num (.int expiry.toInt))]⟩ := by
  unfold expiry? at found
  simp only [passwordConfirmed, found]
  rfl

theorem passwordConfirmed_of_none (none : expiry? settings request = none)
    (parameters : Option String) :
    passwordConfirmed settings request parameters = .new false := by
  unfold expiry? at none
  simp only [passwordConfirmed, none]

theorem passwordConfirmed_of_expires (exact : HoldsExact request)
    (expires : Expires settings request expiry) (parameters : Option String) :
    ((passwordConfirmed settings request parameters).pass = true ↔
        request.now.toInt < expiry.toInt) ∧
      (passwordConfirmed settings request parameters).extra =
        [("expiresAt", .num (.int expiry.toInt))] := by
  rw [passwordConfirmed_of_expiry ((expiry?_eq_some_iff exact).mpr expires)]
  exact ⟨decide_eq_true_iff.trans Int64.lt_iff_toInt_lt, rfl⟩

theorem passwordConfirmed_of_not_expires (exact : HoldsExact request)
    (unlimited : ¬∃ expiry, Expires settings request expiry) (parameters : Option String) :
    passwordConfirmed settings request parameters = .new false := by
  apply passwordConfirmed_of_none
  apply Option.eq_none_iff_forall_ne_some.mpr
  intro expiry found
  exact unlimited ⟨expiry, (expiry?_eq_some_iff exact).mp found⟩

/-- A check of the confirmation that fails keeps failing as time goes by. -/
theorem passwordConfirmed_later {later : Int64} (isLater : request.now ≤ later)
    {parameters : Option String}
    (fails : (passwordConfirmed settings request parameters).pass = false) :
    (passwordConfirmed settings { request with now := later } parameters).pass = false := by
  have sameExpiry : expiry? settings { request with now := later } = expiry? settings request := rfl
  cases found : expiry? settings request with
  | none => rw [passwordConfirmed_of_none (sameExpiry.trans found)]; rfl
  | some expiry =>
      rw [passwordConfirmed_of_expiry found] at fails
      rw [passwordConfirmed_of_expiry (sameExpiry.trans found)]
      -- The end does not depend on the time of the request: what is over stays over.
      have ended : ¬request.now < expiry := of_decide_eq_false fails
      rw [Int64.lt_iff_toInt_lt] at ended
      rw [Int64.le_iff_toInt_le] at isLater
      apply decide_eq_false
      rw [Int64.lt_iff_toInt_lt]
      change ¬later.toInt < expiry.toInt
      omega

end

namespace Registry

theorem verdicts_confirmation {settings : PreflightSettings} {history : List (String × Evaluator)}
    (kept : ∀ entry ∈ history, entry.1 ≠ "password.confirm") (request : RequestView)
    (parameters : Option String) :
    ((ofSettings settings).registerAll history).verdicts request
        [textOf "password.confirm" parameters] =
      [(textOf "password.confirm" parameters, passwordConfirmed settings request parameters)] := by
  have usual : ("password.confirm", passwordConfirmed settings) ∈ usualChecks (some settings) := by
    simp [usualChecks]
  exact verdicts_singleton (verdict?_usual usual kept parameters)

/-- The check of the confirmation is exact. Where the session tells the time of the confirmation and
its end is within the integers of 64 bits, the check passes before that end and tells it; in all
other cases it fails and tells no end. A time counts the same as an integer and as the text that
spells it, and a check that fails does not pass later. -/
theorem confirmation_counts_up_to_its_end (settings : PreflightSettings)
    (history : List (String × Evaluator)) (kept : ∀ entry ∈ history, entry.1 ≠ "password.confirm")
    (parameters : Option String) :
    let registry := (ofSettings settings).registerAll history
    let text := textOf "password.confirm" parameters
    (∀ request, ∃ verdict, registry.verdicts request [text] = [(text, verdict)] ∧
      (HoldsExact request →
        (∀ expiry, Expires settings request expiry →
          (verdict.pass = true ↔ request.now.toInt < expiry.toInt) ∧
            verdict.extra = [("expiresAt", .num (.int expiry.toInt))]) ∧
        ((¬∃ expiry, Expires settings request expiry) →
          verdict.pass = false ∧ verdict.extra = [])) ∧
      (verdict.pass = false → ∀ later, request.now ≤ later → ∃ laterVerdict,
        registry.verdicts { request with now := later } [text] = [(text, laterVerdict)] ∧
          laterVerdict.pass = false)) ∧
      ∀ (request other : RequestView) (time : Int64),
        request.session? confirmationKey = some (.num (.int time.toInt)) →
        other.session? confirmationKey = some (.str (toString time.toInt)) →
        request.now = other.now →
          registry.verdicts request [text] = registry.verdicts other [text] := by
  intro registry text
  have answer (request : RequestView) : registry.verdicts request [text] =
      [(text, passwordConfirmed settings request parameters)] :=
    verdicts_confirmation kept request parameters
  constructor
  · intro request
    refine ⟨_, answer request, ?_, ?_⟩
    · intro exact
      constructor
      · intro expiry expires
        exact passwordConfirmed_of_expires exact expires parameters
      · intro unlimited
        rw [passwordConfirmed_of_not_expires exact unlimited]
        exact ⟨rfl, rfl⟩
    · intro fails later isLater
      exact ⟨_, answer _, passwordConfirmed_later isLater fails⟩
  · intro request other time held heldSpelled sameNow
    have sameTime : confirmedAt? request = confirmedAt? other := by
      unfold confirmedAt?
      rw [held, heldSpelled, Option.bind_some, Option.bind_some, seconds?_toInt, seconds?_toString]
    rw [answer request, answer other, passwordConfirmed, passwordConfirmed, sameTime, sameNow]

def confirmedRequest (spelling : String) (now : Int64) : RequestView where
  user? _ := none
  session? key := if key = confirmationKey then some (.str spelling) else none
  now := now

/-- The last second that can be told ends a confirmation; one second more of duration leaves no end
that can be told. -/
theorem confirmation_ends_with_the_integers :
    ((ofSettings ⟨true, [], 9223372036854775707⟩).registerAll
          [("can", fun _ _ => .new false)]).verdicts
        (confirmedRequest "\u00a0+0100\n" 9223372036854775806) ["password.confirm"] =
      [("password.confirm", ⟨true, [("expiresAt", .num (.int 9223372036854775807))]⟩)] ∧
    ((ofSettings ⟨true, [], 9223372036854775708⟩).registerAll
          [("can", fun _ _ => .new false)]).verdicts
        (confirmedRequest "\u00a0+0100\n" 9223372036854775806) ["password.confirm"] =
      [("password.confirm", .new false)] := by
  let request := confirmedRequest "\u00a0+0100\n" 9223372036854775806
  let history : List (String × Evaluator) := [("can", fun _ _ => .new false)]
  have kept : ∀ entry ∈ history, entry.1 ≠ "password.confirm" := by decide
  have exact : HoldsExact request := by
    intro value held
    cases Option.some.inj held
    trivial
  constructor
  · have expires : Expires ⟨true, [], 9223372036854775707⟩ request 9223372036854775807 :=
      (expiry?_eq_some_iff exact).mp (by decide +kernel)
    obtain ⟨⟨pass, extra⟩, answered, exactly, -⟩ := (confirmation_counts_up_to_its_end
      ⟨true, [], 9223372036854775707⟩ history kept none).1 request
    obtain ⟨passes, tellsEnd⟩ := (exactly exact).1 _ expires
    cases tellsEnd
    cases passes.mpr (by decide)
    exact answered
  · have unlimited : ¬∃ expiry, Expires ⟨true, [], 9223372036854775708⟩ request expiry := by
      intro found
      obtain ⟨expiry, expires⟩ := found
      have computed : expiry? ⟨true, [], 9223372036854775708⟩ request = none := by decide +kernel
      cases computed.symm.trans ((expiry?_eq_some_iff exact).mpr expires)
    obtain ⟨⟨pass, extra⟩, answered, exactly, -⟩ := (confirmation_counts_up_to_its_end
      ⟨true, [], 9223372036854775708⟩ history kept none).1 request
    obtain ⟨fails, tellsNothing⟩ := (exactly exact).2 unlimited
    cases fails
    cases tellsNothing
    exact answered

end Registry

end PageRoutes.Preflight
