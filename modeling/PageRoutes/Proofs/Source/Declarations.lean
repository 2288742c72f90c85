import PageRoutes.Proofs.Text.Constructs
import PageRoutes.Source.MethodBody
/-!
Declarations of methods by their grammar: the keyword, the name, a parameter list, perhaps a result
type, and the brace that opens the body. The reading of a declaration tries several ends for the
blanks in front of the name, but at one place only one text can be left behind the brace, so what is
read is exactly what the grammar says, whatever the name is.
-/

set_option autoImplicit false

namespace PageRoutes.Source

open Text

structure Signature where
  space : Blanks
  gap : Blanks
  parameters : List Char
  separated : space.1 ≠ []
  closed : ')' ∉ parameters

/-- A result type. It may be any text without an opening brace. -/
structure ResultType where
  lead : Blanks
  type : List Char
  nonempty : type ≠ []
  noBrace : '{' ∉ type

structure Declaration where
  signature : Signature
  result : Option ResultType
  last : Blanks

def Signature.written (name : List Char) (signature : Signature) : List Char :=
  functionKeyword ++ (signature.space.1 ++
    (name ++ (signature.gap.1 ++ '(' :: (signature.parameters ++ [')']))))

def ResultType.written (result : ResultType) : List Char :=
  result.lead.1 ++ ':' :: result.type

def Declaration.between (declaration : Declaration) : List Char :=
  declaration.result.elim [] ResultType.written ++ declaration.last.1

def Declaration.written (name : List Char) (declaration : Declaration) : List Char :=
  declaration.signature.written name ++ (declaration.between ++ ['{'])

/-! ### What is read of a declaration -/

theorem afterOpeningBrace?_blanks (last : Blanks) (rest : List Char) :
    afterOpeningBrace? (last.1 ++ '{' :: rest) = some rest := by
  have skipped : skipBlanks (last.1 ++ '{' :: rest) = '{' :: rest :=
    skipBlanks_eq_cons_iff.mpr ⟨by decide, last, rfl⟩
  simp only [afterOpeningBrace?, skipped]

theorem afterOpeningBrace?_result (result : ResultType) (last : Blanks) (rest : List Char) :
    afterOpeningBrace? (result.written ++ (last.1 ++ '{' :: rest)) = some rest := by
  have skipped : skipBlanks (result.written ++ (last.1 ++ '{' :: rest)) =
      ':' :: (result.type ++ last.1 ++ '{' :: rest) :=
    skipBlanks_eq_cons_iff.mpr ⟨by decide, result.lead, by simp [ResultType.written]⟩
  -- The blanks in front of the brace count as the end of the type.
  have noBrace : ∀ c ∈ result.type ++ last.1, decide (c ≠ '{') = true := by
    intro c member
    rw [decide_eq_true_eq]
    rintro rfl
    rcases List.mem_append.mp member with inType | inBlanks
    · exact result.noBrace inType
    · exact absurd (last.2 _ inBlanks) (by decide)
  have cut : cutRun (· ≠ '{') (result.type ++ last.1 ++ '{' :: rest) =
      (result.type ++ last.1, '{' :: rest) :=
    cutRun_append_cons noBrace (by decide) rest
  obtain ⟨c, type, isType⟩ := List.exists_cons_of_ne_nil
    (List.append_ne_nil_of_left_ne_nil result.nonempty last.1)
  rw [isType] at cut skipped
  simp only [afterOpeningBrace?, skipped, cut]

theorem afterOpeningBrace?_eq_some_iff {text rest : List Char} :
    afterOpeningBrace? text = some rest ↔
      ∃ (result : Option ResultType) (last : Blanks),
        text = result.elim [] ResultType.written ++ (last.1 ++ '{' :: rest) := by
  constructor
  · intro read
    unfold afterOpeningBrace? at read
    split at read
    · next body skipped =>
        cases read
        obtain ⟨-, last, rfl⟩ := skipBlanks_eq_cons_iff.mp skipped
        exact ⟨none, last, rfl⟩
    · next behind skipped =>
        split at read
        · next c type body cut =>
            cases read
            obtain ⟨-, lead, rfl⟩ := skipBlanks_eq_cons_iff.mp skipped
            obtain ⟨rfl, keeps, -⟩ := cutRun_eq_iff.mp cut
            have noBrace : '{' ∉ c :: type := fun member => by simpa using keeps '{' member
            exact ⟨some ⟨lead, c :: type, List.cons_ne_nil c type, noBrace⟩, ⟨[], by simp⟩,
              by simp [ResultType.written]⟩
        · cases read
    · cases read
  · rintro ⟨result, last, rfl⟩
    cases result with
    | none => exact afterOpeningBrace?_blanks last rest
    | some result => exact afterOpeningBrace?_result result last rest

theorem afterParameters?_list (gap : Blanks) {parameters : List Char} (closed : ')' ∉ parameters)
    (behind : List Char) :
    afterParameters? (gap.1 ++ '(' :: (parameters ++ ')' :: behind)) = afterOpeningBrace? behind := by
  have skipped : skipBlanks (gap.1 ++ '(' :: (parameters ++ ')' :: behind)) =
      '(' :: (parameters ++ ')' :: behind) :=
    skipBlanks_eq_cons_iff.mpr ⟨by decide, gap, rfl⟩
  have closes : (parameters ++ ')' :: behind).dropWhile (· ≠ ')') = ')' :: behind := by
    refine congrArg Prod.snd (cutRun_append_cons ?_ (by decide) behind)
    intro c member
    rw [decide_eq_true_eq]
    rintro rfl
    exact closed member
  simp only [afterParameters?, skipped, closes]

theorem exists_of_afterParameters? {text rest : List Char}
    (read : afterParameters? text = some rest) :
    ∃ (gap : Blanks) (parameters behind : List Char), ')' ∉ parameters ∧
      text = gap.1 ++ '(' :: (parameters ++ ')' :: behind) ∧
      afterOpeningBrace? behind = some rest := by
  unfold afterParameters? at read
  split at read
  · next inside skipped =>
      split at read
      · next behind closed =>
          obtain ⟨-, gap, rfl⟩ := skipBlanks_eq_cons_iff.mp skipped
          obtain ⟨parts, keeps, -⟩ := cutRun_eq_iff.mp
            (show cutRun (· ≠ ')') inside = (_, ')' :: behind) from congrArg (Prod.mk _) closed)
          refine ⟨gap, _, behind, ?_, congrArg (gap.1 ++ '(' :: ·) parts, read⟩
          intro member
          simpa using keeps ')' member
      · cases read
  · cases read

/-- The blanks in front of a parameter list do not count. -/
theorem afterParameters?_eq_of_skipBlanks_eq {first second : List Char}
    (same : skipBlanks first = skipBlanks second) :
    afterParameters? first = afterParameters? second := by
  rw [afterParameters?, afterParameters?, same]

/-- A name that consists of blanks cannot be told from the blanks around it, and any other name shows
where it ends; the parameter list is the same in both cases. -/
theorem afterParameters?_eq_of_named {name first second : List Char}
    (same : skipBlanks (name ++ first) = skipBlanks (name ++ second)) :
    afterParameters? first = afterParameters? second := by
  apply afterParameters?_eq_of_skipBlanks_eq
  induction name with
  | nil => exact same
  | cons c name ih =>
      cases blank : isBlank c with
      | true =>
          rw [List.cons_append, List.cons_append, skipBlanks_cons_of_isBlank _ blank,
            skipBlanks_cons_of_isBlank _ blank] at same
          exact ih same
      | false =>
          rw [List.cons_append, List.cons_append, skipBlanks_cons_of_not_isBlank _ blank,
            skipBlanks_cons_of_not_isBlank _ blank] at same
          rw [List.append_cancel_left (List.cons.inj same).2]

theorem exists_of_afterName? {name text rest : List Char}
    (read : afterName? name text = some rest) :
    ∃ (space : Blanks) (behind : List Char), space.1 ≠ [] ∧
      text = space.1 ++ (name ++ behind) ∧ afterParameters? behind = some rest := by
  induction text with
  | nil => cases read
  | cons c text ih =>
      rw [afterName?] at read
      split at read
      · next blank =>
          split at read
          · next deeper =>
              cases read
              obtain ⟨space, behind, -, rfl, listed⟩ := ih deeper
              have allBlank : ∀ d ∈ c :: space.1, isBlank d = true :=
                List.forall_mem_cons.mpr ⟨blank, space.2⟩
              exact ⟨⟨_, allBlank⟩, behind, List.cons_ne_nil c _, rfl, listed⟩
          · obtain ⟨behind, named, listed⟩ := Option.bind_eq_some_iff.mp read
            obtain rfl := after?_eq_some_iff.mp named
            exact ⟨⟨[c], by simpa using blank⟩, behind, List.cons_ne_nil c [], rfl, listed⟩
      · cases read

/-- A name behind blanks is read from some end of the blanks. -/
theorem isSome_afterName? (name : List Char) {behind rest space : List Char}
    (blank : ∀ c ∈ space, isBlank c = true) (separated : space ≠ [])
    (listed : afterParameters? behind = some rest) :
    (afterName? name (space ++ (name ++ behind))).isSome = true := by
  induction space with
  | nil => exact absurd rfl separated
  | cons c space ih =>
      obtain ⟨first, others⟩ := List.forall_mem_cons.mp blank
      rw [List.cons_append, afterName?, if_pos first]
      split
      · rfl
      · next deeper =>
          cases space with
          | nil => simp [listed]
          | cons d space =>
              have found := ih others (List.cons_ne_nil d space)
              rw [deeper] at found
              cases found

/-- Where a name was read behind blanks, the parameter list behind it is that of every other end of
the blanks at which the name could have been read. -/
theorem afterName?_named (space : Blanks) (separated : space.1 ≠ []) (name behind : List Char) :
    afterName? name (space.1 ++ (name ++ behind)) = afterParameters? behind := by
  have agrees {rest : List Char}
      (found : afterName? name (space.1 ++ (name ++ behind)) = some rest) :
      afterParameters? behind = some rest := by
    obtain ⟨other, behind', -, parts, listed⟩ := exists_of_afterName? found
    have same : skipBlanks (name ++ behind) = skipBlanks (name ++ behind') := by
      rw [← skipBlanks_append space, parts, skipBlanks_append]
    rw [afterParameters?_eq_of_named same, listed]
  cases listed : afterParameters? behind with
  | none =>
      cases found : afterName? name (space.1 ++ (name ++ behind)) with
      | none => rfl
      | some rest =>
          rw [agrees found] at listed
          cases listed
  | some rest =>
      obtain ⟨other, found⟩ :=
        Option.isSome_iff_exists.mp (isSome_afterName? name space.2 separated listed)
      rw [found, ← listed, agrees found]

/-- Behind a signature, only the text up to the next brace decides about a declaration. -/
theorem afterDeclaration?_signature (name : List Char) (signature : Signature) (text : List Char) :
    afterDeclaration? name (signature.written name ++ text) = afterOpeningBrace? text := by
  have parts : signature.written name ++ text =
      functionKeyword ++ (signature.space.1 ++
        (name ++ (signature.gap.1 ++ '(' :: (signature.parameters ++ ')' :: text)))) := by
    simp [Signature.written]
  rw [parts, afterDeclaration?, after?_append, Option.bind_some,
    afterName?_named signature.space signature.separated, afterParameters?_list _ signature.closed]

theorem afterDeclaration?_eq_some_iff {name text rest : List Char} :
    afterDeclaration? name text = some rest ↔
      ∃ declaration : Declaration, text = declaration.written name ++ rest := by
  constructor
  · intro read
    obtain ⟨_, keyword, spaced⟩ := Option.bind_eq_some_iff.mp read
    obtain rfl := after?_eq_some_iff.mp keyword
    obtain ⟨space, _, separated, rfl, listed⟩ := exists_of_afterName? spaced
    obtain ⟨gap, parameters, _, closed, rfl, opened⟩ := exists_of_afterParameters? listed
    obtain ⟨result, last, rfl⟩ := afterOpeningBrace?_eq_some_iff.mp opened
    refine ⟨⟨⟨space, gap, parameters, separated, closed⟩, result, last⟩, ?_⟩
    simp [Declaration.written, Signature.written, Declaration.between]
  · rintro ⟨declaration, rfl⟩
    have parts : declaration.written name ++ rest = declaration.signature.written name ++
        (declaration.result.elim [] ResultType.written ++ (declaration.last.1 ++ '{' :: rest)) := by
      simp [Declaration.written, Declaration.between]
    rw [parts, afterDeclaration?_signature]
    exact afterOpeningBrace?_eq_some_iff.mpr ⟨declaration.result, declaration.last, rfl⟩

def declarations (name : List Char) : Construct Declaration where
  written := Declaration.written name

theorem declarations_isReadBy (name : List Char) :
    (declarations name).IsReadBy (fun _ => afterDeclaration? name) fun _ behind => behind := by
  intro before text rest
  rw [afterDeclaration?_eq_some_iff]
  constructor
  · rintro ⟨declaration, rfl⟩
    exact ⟨trivial, declaration, rest, rfl, rfl⟩
  · rintro ⟨-, declaration, behind, rfl, rfl⟩
    exact ⟨declaration, rfl⟩

end PageRoutes.Source
