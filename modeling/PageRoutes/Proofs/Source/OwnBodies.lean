import PageRoutes.Proofs.Source.Bodies
import PageRoutes.Text.WordCharacter
/-!
Which body a method gets. A result type may be any text up to the next brace, so a declaration that
has a result type and no body runs on into what stands behind it and takes the body that the next
brace opens. A body is the method's own exactly when such a declaration never stands in front of all
declarations that own their body.
-/

set_option autoImplicit false

namespace PageRoutes.Source

open Text

/-- The keyword of a declaration stands in the text as a word of its own. -/
def HoldsKeyword (text : List Char) : Prop :=
  ∃ before behind, text = before ++ (functionKeyword ++ behind) ∧
    (∀ c ∈ before.getLast?, isWordCharacter c = false) ∧
    ∀ c ∈ behind.head?, isWordCharacter c = false

/-- The brace of a declaration opens its own body: the declaration does not end in front of the brace,
and neither does another body end or another declaration begin there. -/
structure Declaration.Owns (declaration : Declaration) : Prop where
  noEnd : ';' ∉ declaration.between
  noClosing : '}' ∉ declaration.between
  noOther : ¬HoldsKeyword declaration.between

/-- If a body is found for the method, the declaration that it was found by owns it. -/
def FindsOwnBody (source method : String) : Prop :=
  ∀ body, methodBody? source method = some body → ∀ before declaration rest,
    (declarations method.toList).StandsFirstIn source.toList before declaration rest →
      declaration.Owns

section

variable {source method : String}

/-- If any declaration of the method stands in the source, one of them stands first. -/
theorem exists_standsFirstIn {before rest : List Char} {declaration : Declaration}
    (stands : (declarations method.toList).StandsIn source.toList before declaration rest) :
    ∃ body start first behind, methodBody? source method = some body ∧
      (declarations method.toList).StandsFirstIn source.toList start first behind := by
  cases found : methodBody? source method with
  | none => exact absurd stands (methodBody?_eq_none_iff.mp found before declaration rest)
  | some body =>
      obtain ⟨start, first, behind, isFirst, -⟩ := methodBody?_eq_some_iff.mp found
      exact ⟨body, start, first, behind, rfl, isFirst⟩

theorem findsOwnBody_iff :
    FindsOwnBody source method ↔
      ∀ before declaration rest,
        (declarations method.toList).StandsIn source.toList before declaration rest →
        ¬declaration.Owns →
        ∃ earlier own behind, earlier.length < before.length ∧ own.Owns ∧
          (declarations method.toList).StandsIn source.toList earlier own behind := by
  constructor
  · intro owns before declaration rest stands notOwned
    obtain ⟨body, start, first, behind, found, isFirst⟩ := exists_standsFirstIn stands
    have noLater := isFirst.leftmost stands
    refine ⟨start, first, behind, Nat.lt_of_le_of_ne noLater ?_,
      owns body found start first behind isFirst, isFirst.toStandsIn⟩
    -- A declaration that starts where the first one does is a first one as well.
    intro samePlace
    exact notOwned (owns body found before declaration rest
      ⟨stands, fun other => samePlace ▸ isFirst.leftmost other⟩)
  · intro earlier body found before declaration rest isFirst
    by_contra notOwned
    obtain ⟨start, own, behind, shorter, -, stands⟩ :=
      earlier before declaration rest isFirst.toStandsIn notOwned
    exact absurd (isFirst.leftmost stands) (Nat.not_le_of_lt shorter)

/-- Where every body that is found is the method's own, a method without a body of its own has
none. -/
theorem FindsOwnBody.methodBody?_eq_none_iff (owns : FindsOwnBody source method) :
    methodBody? source method = none ↔
      ∀ before declaration rest,
        (declarations method.toList).StandsIn source.toList before declaration rest →
          ¬declaration.Owns := by
  constructor
  · intro nothing before declaration rest stands
    exact absurd stands (Source.methodBody?_eq_none_iff.mp nothing before declaration rest)
  · intro noneOwns
    cases found : methodBody? source method with
    | none => rfl
    | some body =>
        obtain ⟨before, declaration, rest, isFirst, -⟩ := methodBody?_eq_some_iff.mp found
        exact absurd (owns body found before declaration rest isFirst)
          (noneOwns before declaration rest isFirst.toStandsIn)

end

/-! ### Declarations without a body -/

def runningOn (signature : Signature) (result : ResultType) (skipped : List Char)
    (noBrace : '{' ∉ skipped) : Declaration where
  signature := signature
  result := some
    { lead := result.lead
      type := result.type ++ ';' :: skipped
      nonempty := List.append_ne_nil_of_left_ne_nil result.nonempty _
      noBrace := by simp [result.noBrace, noBrace] }
  last := ⟨[], by simp⟩

theorem written_runningOn (name : List Char) (signature : Signature) (result : ResultType)
    {skipped : List Char} (noBrace : '{' ∉ skipped) :
    (runningOn signature result skipped noBrace).written name =
      signature.written name ++ (result.written ++ ';' :: (skipped ++ ['{'])) := by
  simp [runningOn, Declaration.written, Declaration.between, ResultType.written]

theorem not_owns_runningOn (signature : Signature) (result : ResultType) {skipped : List Char}
    (noBrace : '{' ∉ skipped) : ¬(runningOn signature result skipped noBrace).Owns := by
  intro owns
  apply owns.noEnd
  simp [runningOn, Declaration.between, ResultType.written]

/-- No declaration starts with a signature that is ended at once. -/
theorem not_standsIn_of_ended {name source before behind rest : List Char} {signature : Signature}
    {gap : Blanks} {declaration : Declaration}
    (ended : source = before ++ (signature.written name ++ (gap.1 ++ ';' :: behind))) :
    ¬(declarations name).StandsIn source before declaration rest := by
  rintro ⟨parts, -⟩
  have same : signature.written name ++ (gap.1 ++ ';' :: behind) = declaration.written name ++ rest :=
    List.append_cancel_left (ended.symm.trans parts)
  have read := afterDeclaration?_eq_some_iff.mpr ⟨declaration, same⟩
  have skipped : skipBlanks (gap.1 ++ ';' :: behind) = ';' :: behind :=
    skipBlanks_eq_cons_iff.mpr ⟨by decide, gap, rfl⟩
  rw [afterDeclaration?_signature, afterOpeningBrace?_eq_none skipped (by decide) (by decide)] at read
  cases read

/-- The body that is found is the method's own exactly when in front of every declaration that does
not own its body there is one that does; then a method without a body of its own has none. A
declaration without a result type and without a body is passed over. One with a result type is not:
if it comes first, the method gets the body that the next brace opens, whatever this brace belongs
to. -/
theorem body_is_own_iff (source method : String) :
    (FindsOwnBody source method ↔
      ∀ before declaration rest,
        (declarations method.toList).StandsIn source.toList before declaration rest →
        ¬declaration.Owns →
        ∃ earlier own behind, earlier.length < before.length ∧ own.Owns ∧
          (declarations method.toList).StandsIn source.toList earlier own behind) ∧
    (FindsOwnBody source method → (methodBody? source method = none ↔
      ∀ before declaration rest,
        (declarations method.toList).StandsIn source.toList before declaration rest →
          ¬declaration.Owns)) ∧
    (∀ before (signature : Signature) (gap : Blanks) behind,
      source.toList = before ++ (signature.written method.toList ++ (gap.1 ++ ';' :: behind)) →
      ∀ declaration rest,
        ¬(declarations method.toList).StandsIn source.toList before declaration rest) ∧
    ∀ before (signature : Signature) (result : ResultType) skipped rest,
      source.toList = before ++ (signature.written method.toList ++
        (result.written ++ ';' :: (skipped ++ '{' :: rest))) →
      '{' ∉ skipped →
      (∀ other declaration behind,
        (declarations method.toList).StandsIn source.toList other declaration behind →
          before.length ≤ other.length) →
      ¬FindsOwnBody source method ∧
        ∃ body, methodBody? source method = some body ∧ EndsBody 0 rest body.toList := by
  refine ⟨findsOwnBody_iff, FindsOwnBody.methodBody?_eq_none_iff,
    fun before signature gap behind ended declaration rest => not_standsIn_of_ended ended, ?_⟩
  intro before signature result skipped rest parts noBrace noneEarlier
  have isFirst : (declarations method.toList).StandsFirstIn source.toList before
      (runningOn signature result skipped noBrace) rest := by
    refine ⟨⟨?_, trivial⟩, noneEarlier _ _ _⟩
    have written : (declarations method.toList).written (runningOn signature result skipped noBrace) =
        signature.written method.toList ++ (result.written ++ ';' :: (skipped ++ ['{'])) :=
      written_runningOn method.toList signature result noBrace
    rw [parts, written]
    simp
  have ends : EndsBody 0 rest (String.ofList (upToClosingBrace 0 rest)).toList := by
    rw [String.toList_ofList]
    exact endsBody_upToClosingBrace 0 rest
  have found := methodBody?_eq_some_iff.mpr ⟨before, _, rest, isFirst, ends⟩
  exact ⟨fun owns => not_owns_runningOn signature result noBrace
    (owns _ found before _ rest isFirst), _, found, ends⟩

def showOfInterface : String :=
  r"function show(): Page; function other() { return inertia('Other'); }"

theorem show_gets_body_of_other :
    ¬FindsOwnBody showOfInterface "show" ∧
      methodBody? showOfInterface "show" = some " return inertia('Other'); " := by
  obtain ⟨-, -, -, bodiless⟩ := body_is_own_iff showOfInterface "show"
  have taken := bodiless [] ⟨⟨[' '], by decide⟩, ⟨[], by decide⟩, [], by decide, by decide⟩
    ⟨⟨[], by decide⟩, " Page".toList, by decide, by decide⟩ " function other() ".toList
    r" return inertia('Other'); }".toList (by decide +kernel) (by decide)
    fun _ _ _ _ => Nat.zero_le _
  exact ⟨taken.1, by decide +kernel⟩

end PageRoutes.Source
