import PageRoutes.Proofs.Text.Recogniser
import PageRoutes.Uri
/-!
URIs in pieces. One reading from left to right cuts a URI into placeholders and the characters
between them. The parameters of a URI are those of its placeholders; and the pattern, although it is
made in two passes, is what the client writes for these pieces, one after the other.
-/

set_option autoImplicit false

namespace PageRoutes.Uri

open Text

inductive Piece where
  | literal (c : Char)
  | placeholder (name : List Char) (required : Bool)
deriving DecidableEq, Repr

namespace Piece

def inUri : Piece → List Char
  | .literal c => [c]
  | .placeholder name true => '{' :: name ++ ['}']
  | .placeholder name false => '{' :: name ++ ['?', '}']

def inPattern : Piece → List Char
  | .literal c => [c]
  | .placeholder name true => ':' :: name
  | .placeholder name false => ':' :: name ++ ['?']

/-- A piece after the first of the two passes. -/
def halfway : Piece → List Char
  | .literal c => [c]
  | .placeholder name true => inUri (.placeholder name true)
  | .placeholder name false => inPattern (.placeholder name false)

def parameter? : Piece → Option (List Char × Bool)
  | .literal _ => none
  | .placeholder name required => some (name, required)

end Piece

def pieces : List Char → List Piece
  | [] => []
  | c :: text =>
      match found : readPlaceholder? (c :: text) with
      | some ((name, required), rest) =>
          have : rest.length < (c :: text).length := length_of_readPlaceholder? found
          .placeholder name required :: pieces rest
      | none => .literal c :: pieces text
termination_by text => text.length
decreasing_by
  · exact this
  · exact Nat.lt_succ_self text.length

/-! ### What a placeholder looks like -/

structure IsName (name : List Char) : Prop where
  nonempty : name ≠ []
  word : ∀ c ∈ name, isWordCharacter c = true

theorem not_isWordCharacter_marks :
    ∀ c ∈ ['{', '}', '?', ':'], isWordCharacter c = false := by
  decide +kernel

theorem readName?_eq_some_iff {text name rest : List Char} :
    readName? text = some (name, rest) ↔
      text = name ++ rest ∧ IsName name ∧ ∀ c ∈ rest.head?, isWordCharacter c = false := by
  unfold readName?
  constructor
  · intro read
    split at read
    · cases read
    · next cut =>
        cases read
        obtain ⟨parts, word, stops⟩ := cutRun_eq_iff.mp cut
        exact ⟨parts, ⟨List.cons_ne_nil _ _, word⟩, stops⟩
  · rintro ⟨parts, isName, stops⟩
    rw [cutRun_eq_iff.mpr ⟨parts, isName.word, stops⟩]
    cases name with
    | nil => exact absurd rfl isName.nonempty
    | cons c name => rfl

theorem IsName.readName?_append {name : List Char} (isName : IsName name) {stop : Char}
    (stops : isWordCharacter stop = false) (rest : List Char) :
    readName? (name ++ stop :: rest) = some (name, stop :: rest) :=
  readName?_eq_some_iff.mpr ⟨rfl, isName, fun _ isHead => Option.some.inj isHead ▸ stops⟩

theorem readPlaceholder?_eq_some_iff {text name rest : List Char} {required : Bool} :
    readPlaceholder? text = some ((name, required), rest) ↔
      text = (Piece.placeholder name required).inUri ++ rest ∧ IsName name := by
  constructor
  · intro read
    unfold readPlaceholder? at read
    split at read
    · split at read
      · next named =>
          cases read
          obtain ⟨rfl, isName, -⟩ := readName?_eq_some_iff.mp named
          exact ⟨by simp [Piece.inUri], isName⟩
      · next named =>
          cases read
          obtain ⟨rfl, isName, -⟩ := readName?_eq_some_iff.mp named
          exact ⟨by simp [Piece.inUri], isName⟩
      · cases read
    · cases read
  · rintro ⟨rfl, isName⟩
    cases required with
    | true =>
        have named := isName.readName?_append (not_isWordCharacter_marks '}' (by simp)) rest
        simp [Piece.inUri, readPlaceholder?, named]
    | false =>
        have named := isName.readName?_append (not_isWordCharacter_marks '?' (by simp))
          ('}' :: rest)
        simp [Piece.inUri, readPlaceholder?, named]

theorem startsWith_placeholder : placeholder.StartsWith ['{'] := by
  intro text other
  cases read : placeholder.read text with
  | none => rfl
  | some found =>
      obtain ⟨⟨name, required⟩, rest⟩ := found
      obtain ⟨rfl, -⟩ := readPlaceholder?_eq_some_iff.mp read
      cases required <;> simp [Piece.inUri, after?] at other

theorem placeholderOf_read_eq_some_iff {required : Bool} {text name rest : List Char} :
    (placeholderOf required).read text = some (name, rest) ↔
      readPlaceholder? text = some ((name, required), rest) := by
  rw [placeholderOf]
  dsimp only
  cases read : readPlaceholder? text with
  | none => simp
  | some found =>
      obtain ⟨⟨other, kind⟩, behind⟩ := found
      by_cases same : kind = required
      · simp [same]
      · simp [same]

theorem startsWith_placeholderOf (required : Bool) : (placeholderOf required).StartsWith ['{'] := by
  intro text other
  cases read : (placeholderOf required).read text with
  | none => rfl
  | some found =>
      have nothing : readPlaceholder? text = none := startsWith_placeholder text other
      rw [placeholderOf_read_eq_some_iff.mp read] at nothing
      cases nothing

/-! ### Cutting a URI into pieces -/

@[simp] theorem pieces_nil : pieces [] = [] := by
  rw [pieces]

theorem pieces_of_read {text name rest : List Char} {required : Bool}
    (found : readPlaceholder? text = some ((name, required), rest)) :
    pieces text = .placeholder name required :: pieces rest := by
  cases text with
  | nil => cases found
  | cons c text =>
      rw [pieces]
      split
      · next read =>
          rw [found] at read
          cases read
          rfl
      · next read =>
          rw [found] at read
          cases read

theorem pieces_of_read_eq_none {c : Char} {text : List Char}
    (nothing : readPlaceholder? (c :: text) = none) :
    pieces (c :: text) = .literal c :: pieces text := by
  rw [pieces]
  split
  · next read =>
      rw [nothing] at read
      cases read
  · rfl

/-- The pieces of a URI put together again are the URI. -/
theorem flatMap_inUri_pieces (text : List Char) : (pieces text).flatMap Piece.inUri = text := by
  fun_induction pieces text with
  | case1 => rfl
  | case2 c text name required rest found shorter ih =>
      rw [List.flatMap_cons, ih, (readPlaceholder?_eq_some_iff.mp found).1]
  | case3 c text nothing ih =>
      rw [List.flatMap_cons, ih]
      rfl

theorem isName_of_mem_pieces {text name : List Char} {required : Bool}
    (member : .placeholder name required ∈ pieces text) : IsName name := by
  fun_induction pieces text with
  | case1 => cases member
  | case2 c text first kind rest found shorter ih =>
      rcases List.mem_cons.mp member with same | inRest
      · cases same
        exact (readPlaceholder?_eq_some_iff.mp found).2
      · exact ih inRest
  | case3 c text nothing ih =>
      rcases List.mem_cons.mp member with same | inRest
      · cases same
      · exact ih inRest

theorem placeholder_all_eq (text : List Char) :
    placeholder.all text = (pieces text).filterMap Piece.parameter? := by
  fun_induction pieces text with
  | case1 => exact Recogniser.all_nil placeholder
  | case2 c text name required rest found shorter ih =>
      have here : placeholder.read (c :: text) = some ((name, required), rest) := found
      rw [Recogniser.all_of_read here, ih]
      rfl
  | case3 c text nothing ih =>
      have notHere : placeholder.read (c :: text) = none := nothing
      rw [Recogniser.all_of_read_eq_none notHere, ih]
      rfl

theorem parameters_eq (uri : String) :
    parameters uri = ((pieces uri.toList).filterMap Piece.parameter?).map
      fun (name, required) => ⟨String.ofList name, required⟩ := by
  rw [parameters, placeholder_all_eq]

/-! ### The two passes -/

theorem IsName.not_mem {name : List Char} (isName : IsName name) {mark : Char}
    (noWord : isWordCharacter mark = false) : mark ∉ name := by
  intro member
  rw [isName.word mark member] at noWord
  cases noWord

/-- The first pass writes the placeholders that may be left out and passes over the others. -/
theorem firstPass_eq (text : List Char) :
    (placeholderOf false).replaceAll (fun name => ':' :: name ++ ['?']) text =
      (pieces text).flatMap Piece.halfway := by
  fun_induction pieces text with
  | case1 => exact Recogniser.replaceAll_nil _ _
  | case2 c text name required rest found shorter ih =>
      cases required with
      | false =>
          rw [Recogniser.replaceAll_of_read (placeholderOf_read_eq_some_iff.mpr found), ih]
          rfl
      | true =>
          obtain ⟨isText, isName⟩ := readPlaceholder?_eq_some_iff.mp found
          have notHere : (placeholderOf false).read (c :: text) = none := by
            simp [placeholderOf, found]
          -- Behind its own brace there is none in it at which another placeholder could start.
          have noBrace : '{' ∉ name ++ ['}'] := by
            simpa using isName.not_mem (not_isWordCharacter_marks '{' (by simp))
          have passes : (placeholderOf false).Passes ('{' :: (name ++ ['}'])) rest := by
            refine ⟨?_, (startsWith_placeholderOf false).passes_of_not_mem noBrace rest⟩
            rw [isText] at notHere
            exact notHere
          rw [isText]
          exact (passes.replaceAll_append _).trans (congrArg _ ih)
  | case3 c text nothing ih =>
      have notHere : (placeholderOf false).read (c :: text) = none := by
        simp [placeholderOf, nothing]
      rw [Recogniser.replaceAll_of_read_eq_none notHere, ih]
      rfl

theorem exists_of_halfway_cons {text rest : List Char} {c : Char}
    (isHalfway : (pieces text).flatMap Piece.halfway = c :: rest) (noBrace : c ≠ '{')
    (noColon : c ≠ ':') : ∃ behind, text = c :: behind ∧
      (pieces behind).flatMap Piece.halfway = rest := by
  fun_cases pieces text with
  | case1 => simp at isHalfway
  | case2 first behind name required after found shorter =>
      rw [pieces_of_read found] at isHalfway
      cases required with
      | true => exact absurd (List.cons.inj isHalfway).1.symm noBrace
      | false => exact absurd (List.cons.inj isHalfway).1.symm noColon
  | case3 first behind nothing =>
      rw [pieces_of_read_eq_none nothing] at isHalfway
      obtain ⟨rfl, isRest⟩ := List.cons.inj isHalfway
      exact ⟨behind, rfl, isRest⟩

theorem exists_of_halfway_name {text name rest : List Char}
    (isHalfway : (pieces text).flatMap Piece.halfway = name ++ '}' :: rest)
    (word : ∀ c ∈ name, isWordCharacter c = true) : ∃ behind, text = name ++ '}' :: behind := by
  induction name generalizing text with
  | nil =>
      obtain ⟨behind, isText, -⟩ := exists_of_halfway_cons isHalfway (by decide) (by decide)
      exact ⟨behind, isText⟩
  | cons c name ih =>
      -- A word character is no part of what the first pass wrote around a name, so it stood here
      -- before.
      have isWord := word c List.mem_cons_self
      have other {mark : Char} (isMark : mark ∈ ['{', '}', '?', ':']) : c ≠ mark := by
        rintro rfl
        rw [not_isWordCharacter_marks c isMark] at isWord
        cases isWord
      obtain ⟨inner, rfl, isInner⟩ :=
        exists_of_halfway_cons isHalfway (other (by simp)) (other (by simp))
      obtain ⟨behind, rfl⟩ := ih isInner fun d member => word d (List.mem_cons_of_mem c member)
      exact ⟨behind, rfl⟩

/-- What the first pass wrote makes no placeholder out of a brace that was none before. -/
theorem placeholderOf_read_halfway {c : Char} {text : List Char}
    (nothing : readPlaceholder? (c :: text) = none) :
    (placeholderOf true).read (c :: (pieces text).flatMap Piece.halfway) = none := by
  cases read : (placeholderOf true).read (c :: (pieces text).flatMap Piece.halfway) with
  | none => rfl
  | some found =>
      obtain ⟨name, rest⟩ := found
      obtain ⟨isText, isName⟩ :=
        readPlaceholder?_eq_some_iff.mp (placeholderOf_read_eq_some_iff.mp read)
      simp only [Piece.inUri, List.cons_append, List.append_assoc, List.nil_append] at isText
      obtain ⟨rfl, isHalfway⟩ := List.cons.inj isText
      -- The name and its closing brace stood behind the opening one before the first pass too.
      obtain ⟨behind, rfl⟩ := exists_of_halfway_name isHalfway isName.word
      have readBefore : readPlaceholder? ('{' :: (name ++ '}' :: behind)) =
          some ((name, true), behind) :=
        readPlaceholder?_eq_some_iff.mpr ⟨by simp [Piece.inUri], isName⟩
      rw [readBefore] at nothing
      cases nothing

/-- The second pass writes the placeholders that must be given and nothing else. -/
theorem secondPass_eq (text : List Char) :
    (placeholderOf true).replaceAll (fun name => ':' :: name)
        ((pieces text).flatMap Piece.halfway) = (pieces text).flatMap Piece.inPattern := by
  fun_induction pieces text with
  | case1 => exact Recogniser.replaceAll_nil _ _
  | case2 c text name required rest found shorter ih =>
      obtain ⟨-, isName⟩ := readPlaceholder?_eq_some_iff.mp found
      rw [List.flatMap_cons, List.flatMap_cons]
      cases required with
      | true =>
          have here : (placeholderOf true).read
              ((Piece.placeholder name true).halfway ++ (pieces rest).flatMap Piece.halfway) =
                some (name, (pieces rest).flatMap Piece.halfway) :=
            placeholderOf_read_eq_some_iff.mpr (readPlaceholder?_eq_some_iff.mpr ⟨rfl, isName⟩)
          rw [Recogniser.replaceAll_of_read here, ih]
          rfl
      | false =>
          have noBrace : '{' ∉ (Piece.placeholder name false).halfway := by
            simpa [Piece.halfway, Piece.inPattern] using
              isName.not_mem (not_isWordCharacter_marks '{' (by simp))
          have passes := (startsWith_placeholderOf true).passes_of_not_mem noBrace
            ((pieces rest).flatMap Piece.halfway)
          rw [passes.replaceAll_append, ih]
          rfl
  | case3 c text nothing ih =>
      rw [List.flatMap_cons]
      exact (Recogniser.replaceAll_of_read_eq_none (placeholderOf_read_halfway nothing) _).trans
        (congrArg (c :: ·) ih)

/-- The two passes write the pieces of a URI as the client does. -/
theorem patternText_eq (text : List Char) :
    patternText text = (pieces text).flatMap Piece.inPattern := by
  rw [patternText, firstPass_eq, secondPass_eq]

end PageRoutes.Uri
