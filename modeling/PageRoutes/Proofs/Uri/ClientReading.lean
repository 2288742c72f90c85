import Mathlib.Data.List.Chain
import PageRoutes.Proofs.Uri.Pieces
/-!
What the client reads back from a pattern. A name behind a colon reaches as far as there are word
characters, because nothing marks its end; so the parameters of a URI are read back exactly when no
name of a parameter that must be given runs on into the text behind its placeholder.
-/

set_option autoImplicit false

namespace PageRoutes.Uri

open Text

/-! ### Parameters in a pattern -/

def readClientParameter? : List Char → Option ((List Char × Bool) × List Char)
  | ':' :: text =>
      match readName? text with
      | some (name, '?' :: rest) => some ((name, false), rest)
      | some (name, rest) => some ((name, true), rest)
      | none => none
  | _ => none

theorem length_of_readClientParameter? {text rest : List Char} {found : List Char × Bool}
    (read : readClientParameter? text = some (found, rest)) : rest.length < text.length := by
  unfold readClientParameter? at read
  split at read
  · split at read
    · next named =>
        cases read
        have := length_of_readName? named
        simp only [List.length_cons] at this ⊢
        omega
    · next named =>
        cases read
        have := length_of_readName? named
        rw [List.length_cons]
        omega
    · cases read
  · cases read

def clientParameter : Recogniser (List Char × Bool) where
  read := readClientParameter?
  shorter := length_of_readClientParameter?

def clientParameters (pattern : String) : List Parameter :=
  (clientParameter.all pattern.toList).map fun (name, required) => ⟨String.ofList name, required⟩

theorem startsWith_clientParameter : clientParameter.StartsWith [':'] := by
  intro text other
  cases text with
  | nil => rfl
  | cons c text =>
      have differs : ':' ≠ c := by
        rintro rfl
        simp [after?] at other
      change readClientParameter? (c :: text) = none
      unfold readClientParameter?
      split
      · next same => exact absurd (List.cons.inj same).1.symm differs
      · rfl

theorem clientParameter_read_optional {name : List Char} (isName : IsName name)
    (rest : List Char) :
    clientParameter.read ((Piece.placeholder name false).inPattern ++ rest) =
      some ((name, false), rest) := by
  have named := isName.readName?_append (not_isWordCharacter_marks '?' (by simp)) rest
  simp [Piece.inPattern, clientParameter, readClientParameter?, named]

theorem clientParameter_read_required {name rest : List Char} (isName : IsName name)
    (ends : ∀ c ∈ rest.head?, isWordCharacter c = false ∧ c ≠ '?') :
    clientParameter.read ((Piece.placeholder name true).inPattern ++ rest) =
      some ((name, true), rest) := by
  have named : readName? (name ++ rest) = some (name, rest) :=
    readName?_eq_some_iff.mpr ⟨rfl, isName, fun c isHead => (ends c isHead).1⟩
  simp only [Piece.inPattern, List.cons_append, clientParameter, readClientParameter?, named]
  split
  · next other behind same =>
      cases same
      exact absurd rfl (ends '?' rfl).2
  · next other behind _ same =>
      cases same
      rfl
  · next same => cases same

theorem exists_of_readName? {text name rest : List Char}
    (named : readName? text = some (name, rest)) :
    ∃ required behind, readClientParameter? (':' :: text) = some ((name, required), behind) := by
  rw [readClientParameter?, named]
  split
  · next same =>
      cases same
      exact ⟨_, _, rfl⟩
  · next same =>
      cases same
      exact ⟨_, _, rfl⟩
  · next same => cases same

/-- A name that runs on is read together with what it runs on into. -/
theorem exists_of_running {name : List Char} {c : Char} (isName : IsName name)
    (runsOn : isWordCharacter c = true) (rest : List Char) :
    ∃ other required behind, other ≠ name ∧
      clientParameter.read ((Piece.placeholder name true).inPattern ++ c :: rest) =
        some ((other, required), behind) := by
  let run := (name ++ c :: rest).takeWhile isWordCharacter
  obtain ⟨parts, word, stops⟩ :=
    cutRun_eq_iff.mp (show cutRun isWordCharacter (name ++ c :: rest) = (run, _) from rfl)
  have isRun : run = name ++ (c :: rest).takeWhile isWordCharacter :=
    List.takeWhile_append_of_pos isName.word
  have nonempty : run ≠ [] := by
    rw [isRun]
    exact List.append_ne_nil_of_left_ne_nil isName.nonempty _
  have different : run ≠ name := by
    rw [isRun, List.takeWhile_cons_of_pos runsOn]
    simp
  obtain ⟨required, behind, read⟩ :=
    exists_of_readName? (readName?_eq_some_iff.mpr ⟨parts, ⟨nonempty, word⟩, stops⟩)
  exact ⟨run, required, behind, different, read⟩

/-! ### URIs that the client can read -/

def Piece.endsBefore : Piece → Piece → Bool
  | .placeholder _ true, .literal c => !isWordCharacter c
  | _, _ => true

/-- A URI without colons, in which question marks only stand in placeholders. -/
structure IsPlain (uri : String) : Prop where
  noColon : ':' ∉ uri.toList
  noLooseMark : .literal '?' ∉ pieces uri.toList

/-- No name of a parameter that must be given runs on into the text behind its placeholder. -/
def NamesEnd (uri : String) : Prop :=
  (pieces uri.toList).IsChain fun first second => first.endsBefore second = true

instance (uri : String) : Decidable (NamesEnd uri) :=
  inferInstanceAs (Decidable (List.IsChain _ _))

theorem literal_mem {text : List Char} {c : Char} (member : .literal c ∈ pieces text) :
    c ∈ text := by
  rw [← flatMap_inUri_pieces text]
  exact List.mem_flatMap.mpr ⟨.literal c, member, List.mem_singleton.mpr rfl⟩

structure ArePlain (pieces : List Piece) : Prop where
  names : ∀ name required, .placeholder name required ∈ pieces → IsName name
  noMark : ∀ c, .literal c ∈ pieces → c ≠ ':' ∧ c ≠ '?'

theorem IsPlain.arePlain {uri : String} (plain : IsPlain uri) : ArePlain (pieces uri.toList) where
  names _ _ := isName_of_mem_pieces
  noMark := by
    intro c member
    constructor
    · rintro rfl
      exact plain.noColon (literal_mem member)
    · rintro rfl
      exact plain.noLooseMark member

theorem ArePlain.tail {piece : Piece} {pieces : List Piece} (plain : ArePlain (piece :: pieces)) :
    ArePlain pieces where
  names name required member := plain.names name required (List.mem_cons_of_mem piece member)
  noMark c member := plain.noMark c (List.mem_cons_of_mem piece member)

/-- What follows a name in a pattern: nothing, a literal that is no question mark, or a colon. -/
theorem ArePlain.head_inPattern {pieces : List Piece} (plain : ArePlain pieces) {c : Char}
    (isHead : c ∈ (pieces.flatMap Piece.inPattern).head?) :
    c = ':' ∨ (pieces.head? = some (.literal c) ∧ c ≠ '?') := by
  cases pieces with
  | nil => cases isHead
  | cons piece pieces =>
      cases piece with
      | literal d =>
          obtain rfl : d = c := Option.some.inj isHead
          exact .inr ⟨rfl, (plain.noMark d List.mem_cons_self).2⟩
      | placeholder name required =>
          cases required <;> exact .inl (Option.some.inj isHead).symm

theorem ArePlain.ends {name : List Char} {pieces : List Piece} (plain : ArePlain pieces)
    (ends : ∀ next ∈ pieces.head?, (Piece.placeholder name true).endsBefore next = true) :
    ∀ c ∈ (pieces.flatMap Piece.inPattern).head?, isWordCharacter c = false ∧ c ≠ '?' := by
  intro c isHead
  rcases plain.head_inPattern isHead with rfl | ⟨isNext, noMark⟩
  · exact ⟨not_isWordCharacter_marks ':' (by simp), by decide⟩
  · have stops := ends (.literal c) isNext
    rw [Piece.endsBefore, Bool.not_eq_true'] at stops
    exact ⟨stops, noMark⟩

theorem exists_of_not_ends {name : List Char} {pieces : List Piece}
    (runs : ¬∀ next ∈ pieces.head?, (Piece.placeholder name true).endsBefore next = true) :
    ∃ c others, pieces = .literal c :: others ∧ isWordCharacter c = true := by
  cases pieces with
  | nil => simp at runs
  | cons next others =>
      cases next with
      | literal c =>
          refine ⟨c, others, rfl, ?_⟩
          simpa [Piece.endsBefore] using runs
      | placeholder other required => simp [Piece.endsBefore] at runs

/-- The client reads the parameters of some pieces back exactly when every name ends where the text
behind its placeholder starts. -/
theorem clientParameter_all_iff {pieces : List Piece} (plain : ArePlain pieces) :
    clientParameter.all (pieces.flatMap Piece.inPattern) = pieces.filterMap Piece.parameter? ↔
      pieces.IsChain fun first second => first.endsBefore second = true := by
  induction pieces with
  | nil => simp
  | cons piece pieces ih =>
      have ihTail := ih plain.tail
      rw [List.isChain_cons, List.flatMap_cons, List.filterMap_cons]
      cases piece with
      | literal c =>
          have noColon : ':' ∉ [c] := by
            simpa [eq_comm] using (plain.noMark c List.mem_cons_self).1
          have passes := startsWith_clientParameter.passes_of_not_mem noColon
            (pieces.flatMap Piece.inPattern)
          have same : clientParameter.all ((Piece.literal c).inPattern ++
              pieces.flatMap Piece.inPattern) =
                clientParameter.all (pieces.flatMap Piece.inPattern) := passes.all_append
          simp only [same, Piece.parameter?, ihTail]
          simp [Piece.endsBefore]
      | placeholder name required =>
          have isName := plain.names name required List.mem_cons_self
          simp only [Piece.parameter?]
          cases required with
          | false =>
              -- The question mark ends the name, so only the pieces behind it matter.
              have read := clientParameter_read_optional isName (pieces.flatMap Piece.inPattern)
              rw [Recogniser.all_of_read read, List.cons.injEq, ihTail]
              simp [Piece.endsBefore]
          | true =>
              by_cases ends :
                  ∀ next ∈ pieces.head?, (Piece.placeholder name true).endsBefore next = true
              · have read := clientParameter_read_required isName (plain.tail.ends ends)
                rw [Recogniser.all_of_read read, List.cons.injEq, ihTail]
                exact ⟨fun same => ⟨ends, same.2⟩, fun chain => ⟨rfl, chain.2⟩⟩
              · -- The name is read too long here, whatever the client makes of the rest.
                obtain ⟨c, others, rfl, runsOn⟩ := exists_of_not_ends ends
                obtain ⟨other, required, behind, different, read⟩ :=
                  exists_of_running isName runsOn (others.flatMap Piece.inPattern)
                refine iff_of_false ?_ fun chain => ends chain.1
                intro same
                have first := (Recogniser.all_of_read read).symm.trans same
                exact different (congrArg Prod.fst (List.cons.inj first).1)

/-! ### Patterns -/

theorem clientParameters_pattern (uri : String) :
    clientParameters (pattern uri) =
      (clientParameter.all ((pieces uri.toList).flatMap Piece.inPattern)).map
        fun (name, required) => ⟨String.ofList name, required⟩ := by
  -- The slash that may be put in front starts no parameter.
  have slash (text : List Char) :
      clientParameter.all ('/' :: text) = clientParameter.all text := by
    have noColon : ':' ∉ ['/'] := by decide
    exact (startsWith_clientParameter.passes_of_not_mem noColon text).all_append
  rw [clientParameters, pattern, ← patternText_eq]
  split
  · next text isText => rw [String.toList_ofList, isText]
  · rw [String.toList_ofList, slash]

theorem clientParameters_eq_iff {uri : String} (plain : IsPlain uri) :
    clientParameters (pattern uri) = parameters uri ↔ NamesEnd uri := by
  rw [clientParameters_pattern, parameters_eq, NamesEnd, ← clientParameter_all_iff plain.arePlain]
  apply List.map_inj_right
  rintro ⟨name, required⟩ ⟨other, kind⟩ same
  obtain ⟨sameName, rfl⟩ := Parameter.mk.inj same
  rw [String.ofList_injective sameName]

/-- Two URIs with the same pattern have the same parameters if in both of them no name of a parameter
that must be given runs on into the text behind its placeholder. For a URI of this kind, and for no
other one, the client reads the parameters back from the pattern. -/
theorem pattern_determines_parameters :
    (∀ uri, IsPlain uri → (clientParameters (pattern uri) = parameters uri ↔ NamesEnd uri)) ∧
      ∀ first second, IsPlain first → IsPlain second → NamesEnd first →
        pattern first = pattern second →
          (parameters first = parameters second ↔ NamesEnd second) := by
  refine ⟨fun uri => clientParameters_eq_iff, ?_⟩
  intro first second plain plainToo ends same
  have readFirst := (clientParameters_eq_iff plain).mpr ends
  rw [← clientParameters_eq_iff plainToo, ← readFirst, same]

instance (uri : String) : Decidable (IsPlain uri) :=
  decidable_of_iff (':' ∉ uri.toList ∧ .literal '?' ∉ pieces uri.toList)
    ⟨fun plain => ⟨plain.1, plain.2⟩, fun plain => ⟨plain.noColon, plain.noLooseMark⟩⟩

theorem team_parameters_are_read_back :
    pattern "teams/{team}-{member?}s" = pattern "/teams/{team}-{member?}s" ∧
      clientParameters (pattern "teams/{team}-{member?}s") =
        parameters "/teams/{team}-{member?}s" := by
  have plain : IsPlain "teams/{team}-{member?}s" := by decide +kernel
  have ends : NamesEnd "teams/{team}-{member?}s" := by decide +kernel
  have same : pattern "teams/{team}-{member?}s" =
      pattern "/teams/{team}-{member?}s" := by decide +kernel
  obtain ⟨readBack, determines⟩ := pattern_determines_parameters
  refine ⟨same, ?_⟩
  rw [(readBack _ plain).mpr ends]
  exact (determines _ _ plain (by decide +kernel) ends same).mpr (by decide +kernel)

/-- Nothing in a pattern shows where the name of a parameter ends, so a URI in which word characters
follow a placeholder has the pattern of another one with a longer name. -/
theorem pattern_hides_end_of_name :
    IsPlain "{id}x" ∧ IsPlain "{idx}" ∧
      pattern "{id}x" = pattern "{idx}" ∧
      parameters "{id}x" ≠ parameters "{idx}" := by
  decide +kernel

end PageRoutes.Uri
