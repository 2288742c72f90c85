import PageRoutes.Proofs.Text.Constructs
import PageRoutes.Proofs.Uri.Pieces
/-!
The decomposition of a URI: literal texts with placeholders between them, where no literal text
holds a placeholder. Every URI has exactly one. The parameters of the URI and the pattern of the
client are both read from it, and a pattern holds no placeholder any more.
-/

set_option autoImplicit false

namespace PageRoutes.Uri

open Text

inductive Decomposition where
  | last (literal : List Char)
  | upTo (literal name : List Char) (required : Bool) (rest : Decomposition)
deriving DecidableEq, Repr

/-- A placeholder stands somewhere in a text. -/
def HoldsPlaceholder (text : List Char) : Prop :=
  ∃ name required, IsName name ∧ (Piece.placeholder name required).inUri <:+: text

namespace Decomposition

def inUri : Decomposition → List Char
  | .last literal => literal
  | .upTo literal name required rest =>
      literal ++ ((Piece.placeholder name required).inUri ++ rest.inUri)

def inPattern : Decomposition → List Char
  | .last literal => literal
  | .upTo literal name required rest =>
      literal ++ ((Piece.placeholder name required).inPattern ++ rest.inPattern)

def parameters : Decomposition → List Parameter
  | .last _ => []
  | .upTo _ name required rest => ⟨String.ofList name, required⟩ :: rest.parameters

/-- All that looks like a placeholder is one. -/
def IsProper : Decomposition → Prop
  | .last literal => ¬HoldsPlaceholder literal
  | .upTo literal name _ rest => ¬HoldsPlaceholder literal ∧ IsName name ∧ rest.IsProper

structure IsOf (cut : Decomposition) (uri : List Char) : Prop where
  proper : cut.IsProper
  written : cut.inUri = uri

def prepend (c : Char) : Decomposition → Decomposition
  | .last literal => .last (c :: literal)
  | .upTo literal name required rest => .upTo (c :: literal) name required rest

def ofPieces : List Piece → Decomposition
  | [] => .last []
  | .literal c :: pieces => (ofPieces pieces).prepend c
  | .placeholder name required :: pieces => .upTo [] name required (ofPieces pieces)

def pieces : Decomposition → List Piece
  | .last literal => literal.map .literal
  | .upTo literal name required rest =>
      literal.map .literal ++ .placeholder name required :: rest.pieces

@[simp] theorem inUri_prepend (c : Char) (cut : Decomposition) :
    (cut.prepend c).inUri = c :: cut.inUri := by
  cases cut <;> rfl

@[simp] theorem inPattern_prepend (c : Char) (cut : Decomposition) :
    (cut.prepend c).inPattern = c :: cut.inPattern := by
  cases cut <;> rfl

@[simp] theorem parameters_prepend (c : Char) (cut : Decomposition) :
    (cut.prepend c).parameters = cut.parameters := by
  cases cut <;> rfl

theorem inPattern_ofPieces (pieces : List Piece) :
    (ofPieces pieces).inPattern = pieces.flatMap Piece.inPattern := by
  induction pieces with
  | nil => rfl
  | cons piece pieces ih =>
      rw [List.flatMap_cons, ← ih]
      cases piece with
      | literal c => exact inPattern_prepend c _
      | placeholder name required => rfl

theorem parameters_ofPieces (pieces : List Piece) :
    (ofPieces pieces).parameters = (pieces.filterMap Piece.parameter?).map
      fun (name, required) => ⟨String.ofList name, required⟩ := by
  induction pieces with
  | nil => rfl
  | cons piece pieces ih =>
      rw [List.filterMap_cons]
      cases piece with
      | literal c => exact (parameters_prepend c _).trans ih
      | placeholder name required => exact congrArg (_ :: ·) ih

theorem ofPieces_literals (literal : List Char) (pieces : List Piece) :
    ofPieces (literal.map .literal ++ pieces) = literal.foldr prepend (ofPieces pieces) := by
  induction literal with
  | nil => rfl
  | cons c literal ih =>
      rw [List.map_cons, List.cons_append, List.foldr_cons, ← ih]
      rfl

theorem ofPieces_pieces (cut : Decomposition) : ofPieces cut.pieces = cut := by
  have lastOf (literal : List Char) : literal.foldr prepend (.last []) = .last literal := by
    induction literal with
    | nil => rfl
    | cons c literal ih => rw [List.foldr_cons, ih, prepend]
  have upToOf (literal name : List Char) (required : Bool) (rest : Decomposition) :
      literal.foldr prepend (.upTo [] name required rest) = .upTo literal name required rest := by
    induction literal with
    | nil => rfl
    | cons c literal ih => rw [List.foldr_cons, ih, prepend]
  induction cut with
  | last literal =>
      rw [pieces, ← List.append_nil (literal.map _), ofPieces_literals]
      exact lastOf literal
  | upTo literal name required rest ih =>
      rw [pieces, ofPieces_literals, ofPieces, ih]
      exact upToOf literal name required rest

end Decomposition

/-! ### Where placeholders stand -/

theorem opening_not_mem_tail {name : List Char} (isName : IsName name) (required : Bool) :
    '{' ∉ (Piece.placeholder name required).inUri.tail := by
  have notInName := isName.not_mem (not_isWordCharacter_marks '{' (by simp))
  cases required <;> simpa [Piece.inUri] using notInName

theorem colon_not_mem_placeholder {name : List Char} (isName : IsName name) (required : Bool) :
    ':' ∉ (Piece.placeholder name required).inUri := by
  have notInName := isName.not_mem (not_isWordCharacter_marks ':' (by simp))
  cases required <;> simpa [Piece.inUri] using notInName

theorem inUri_eq_cons_tail (name : List Char) (required : Bool) :
    (Piece.placeholder name required).inUri =
      '{' :: (Piece.placeholder name required).inUri.tail := by
  cases required <;> rfl

theorem not_holdsPlaceholder_of_not_mem {text : List Char} (noOpening : '{' ∉ text) :
    ¬HoldsPlaceholder text := by
  intro holds
  rcases holds with ⟨name, required, -, stands⟩
  rw [inUri_eq_cons_tail] at stands
  exact noOpening (stands.mem List.mem_cons_self)

theorem not_holdsPlaceholder_append {front text : List Char} (noOpening : '{' ∉ front)
    (free : ¬HoldsPlaceholder text) : ¬HoldsPlaceholder (front ++ text) := by
  intro holds
  rcases holds with ⟨name, required, isName, stands⟩
  rw [inUri_eq_cons_tail] at stands
  refine not_infix_append noOpening ?_ stands
  rw [← inUri_eq_cons_tail]
  exact fun behind => free ⟨name, required, isName, behind⟩

/-- A colon keeps apart what stands on its two sides. -/
theorem not_holdsPlaceholder_append_colon {first second : List Char}
    (freeFirst : ¬HoldsPlaceholder first) (freeSecond : ¬HoldsPlaceholder second) :
    ¬HoldsPlaceholder (first ++ ':' :: second) := by
  intro holds
  rcases holds with ⟨name, required, isName, stands⟩
  exact not_infix_append_cons (colon_not_mem_placeholder isName required)
    (fun inFirst => freeFirst ⟨name, required, isName, inFirst⟩)
    (fun inSecond => freeSecond ⟨name, required, isName, inSecond⟩) stands

/-- No placeholder is read in a literal text without one, if a placeholder or nothing follows. -/
theorem pieces_literal_append {literal rest : List Char} (free : ¬HoldsPlaceholder literal)
    (opens : ∀ c ∈ rest.head?, c = '{') :
    pieces (literal ++ rest) = literal.map .literal ++ pieces rest := by
  induction literal with
  | nil => rfl
  | cons c literal ih =>
      have freeBehind : ¬HoldsPlaceholder literal := by
        intro holds
        rcases holds with ⟨name, required, isName, stands⟩
        exact free ⟨name, required, isName, stands.trans (List.suffix_cons c literal).isInfix⟩
      have nothing : readPlaceholder? (c :: (literal ++ rest)) = none := by
        cases read : readPlaceholder? (c :: (literal ++ rest)) with
        | none => rfl
        | some found =>
            rcases found with ⟨⟨name, required⟩, behind⟩
            rcases readPlaceholder?_eq_some_iff.mp read with ⟨parts, isName⟩
            -- It would have to end where the rest starts, or run over its opening brace.
            have absent : ¬(Piece.placeholder name required).inUri <:+: c :: literal :=
              fun stands => free ⟨name, required, isName, stands⟩
            have ends : ∀ d ∈ rest.head?, d ∉ (Piece.placeholder name required).inUri.tail := by
              intro d isHead
              rw [opens d isHead]
              exact opening_not_mem_tail isName required
            have notHere := after?_eq_none_of_absent absent ends List.suffix_rfl
              (List.cons_ne_nil c literal)
            rw [List.cons_append, after?_eq_some_iff.mpr parts] at notHere
            cases notHere
      rw [List.cons_append, pieces_of_read_eq_none nothing, ih freeBehind]
      rfl

/-! ### The decomposition of a URI -/

namespace Decomposition

theorem pieces_inUri {cut : Decomposition} (proper : cut.IsProper) :
    Uri.pieces cut.inUri = cut.pieces := by
  induction cut with
  | last literal =>
      have whole : Uri.pieces (literal ++ []) = literal.map .literal ++ Uri.pieces [] :=
        pieces_literal_append proper (by simp)
      rw [List.append_nil, pieces_nil, List.append_nil] at whole
      exact whole
  | upTo literal name required rest ih =>
      rcases proper with ⟨free, isName, properRest⟩
      have opens : ∀ c ∈ ((Piece.placeholder name required).inUri ++ rest.inUri).head?,
          c = '{' := by
        rw [inUri_eq_cons_tail]
        intro c isHead
        exact (Option.some.inj isHead).symm
      have read := readPlaceholder?_eq_some_iff.mpr
        ⟨show (Piece.placeholder name required).inUri ++ rest.inUri = _ from rfl, isName⟩
      rw [inUri, pieces_literal_append free opens, pieces_of_read read, ih properRest]
      rfl

/-- A URI has no other decomposition than the one that its pieces make up. -/
theorem IsOf.eq_ofPieces {cut : Decomposition} {uri : List Char} (isOf : cut.IsOf uri) :
    cut = ofPieces (Uri.pieces uri) := by
  rw [← isOf.written, pieces_inUri isOf.proper, ofPieces_pieces]

theorem IsProper.prepend {cut : Decomposition} (proper : cut.IsProper) {c : Char}
    (nothing : readPlaceholder? (c :: cut.inUri) = none) : (cut.prepend c).IsProper := by
  have freeOf {literal behind : List Char} (free : ¬HoldsPlaceholder literal)
      (parts : cut.inUri = literal ++ behind) : ¬HoldsPlaceholder (c :: literal) := by
    intro holds
    rcases holds with ⟨name, required, isName, stands⟩
    rcases List.infix_cons_iff.mp stands with atStart | inside
    · rcases atStart with ⟨more, written⟩
      rw [parts, ← List.cons_append, ← written, List.append_assoc,
        readPlaceholder?_eq_some_iff.mpr ⟨rfl, isName⟩] at nothing
      cases nothing
    · exact free ⟨name, required, isName, inside⟩
  cases cut with
  | last literal => exact freeOf proper (List.append_nil literal).symm
  | upTo literal name required rest =>
      rcases proper with ⟨free, isName, properRest⟩
      exact ⟨freeOf free rfl, isName, properRest⟩

theorem isOf_ofPieces (uri : List Char) : (ofPieces (Uri.pieces uri)).IsOf uri := by
  fun_induction Uri.pieces uri with
  | case1 => exact ⟨not_holdsPlaceholder_of_not_mem List.not_mem_nil, rfl⟩
  | case2 c text name required rest found shorter ih =>
      rcases readPlaceholder?_eq_some_iff.mp found with ⟨parts, isName⟩
      refine ⟨⟨not_holdsPlaceholder_of_not_mem List.not_mem_nil, isName, ih.proper⟩, ?_⟩
      rw [parts, ofPieces, inUri, ih.written]
      rfl
  | case3 c text nothing ih =>
      refine ⟨ih.proper.prepend ?_, ?_⟩
      · rw [ih.written]
        exact nothing
      · rw [ofPieces, inUri_prepend, ih.written]

/-- What the client writes for the placeholders makes no new ones, neither by itself nor together
with the literal texts around it. -/
theorem not_holdsPlaceholder_inPattern {cut : Decomposition} (proper : cut.IsProper) :
    ¬HoldsPlaceholder cut.inPattern := by
  induction cut with
  | last literal => exact proper
  | upTo literal name required rest ih =>
      rcases proper with ⟨free, isName, properRest⟩
      have notInName := isName.not_mem (not_isWordCharacter_marks '{' (by simp))
      have freeBehind := ih properRest
      cases required with
      | true =>
          exact not_holdsPlaceholder_append_colon free
            (not_holdsPlaceholder_append notInName freeBehind)
      | false =>
          have noOpening : '{' ∉ name ++ ['?'] := by simpa using notInName
          exact not_holdsPlaceholder_append_colon free
            (not_holdsPlaceholder_append noOpening freeBehind)

end Decomposition

def withSlash (text : List Char) : List Char :=
  if text.head? = some '/' then text else '/' :: text

theorem toList_pattern (uri : String) :
    (pattern uri).toList = withSlash (patternText uri.toList) := by
  unfold pattern withSlash
  split
  · next text isText =>
      rw [isText, String.toList_ofList, List.head?_cons, if_pos rfl]
  · next noSlash =>
      rw [String.toList_ofList, if_neg]
      intro isSlash
      rcases List.head?_eq_some_iff.mp isSlash with ⟨text, isText⟩
      exact noSlash text isText

theorem withSlash_withSlash (text : List Char) : withSlash (withSlash text) = withSlash text := by
  by_cases starts : text.head? = some '/'
  · simp only [withSlash, if_pos starts]
  · simp only [withSlash, if_neg starts, List.head?_cons, if_true]

/-- Every URI has one decomposition. It decides the parameters and, although this is written in two
passes, the pattern; and a pattern holds no placeholder, so it is its own pattern. -/
theorem decomposition_decides_pattern_and_parameters (uri : String) :
    ∃ cut : Decomposition, cut.IsOf uri.toList ∧
      (∀ other : Decomposition, other.IsOf uri.toList → other = cut) ∧
      parameters uri = cut.parameters ∧
      (pattern uri).toList = withSlash cut.inPattern ∧
      ¬HoldsPlaceholder (pattern uri).toList ∧
      pattern (pattern uri) = pattern uri := by
  have isOf := Decomposition.isOf_ofPieces uri.toList
  have patternOf (other : String) : (pattern other).toList =
      withSlash (Decomposition.ofPieces (pieces other.toList)).inPattern := by
    rw [toList_pattern, patternText_eq, Decomposition.inPattern_ofPieces]
  have free : ¬HoldsPlaceholder (pattern uri).toList := by
    have freeBehind := Decomposition.not_holdsPlaceholder_inPattern isOf.proper
    rw [patternOf, withSlash]
    split
    · exact freeBehind
    · have noOpening : '{' ∉ ['/'] := by decide
      exact not_holdsPlaceholder_append noOpening freeBehind
  refine ⟨Decomposition.ofPieces (pieces uri.toList), isOf,
    fun other => Decomposition.IsOf.eq_ofPieces, ?_, patternOf uri, free, ?_⟩
  · rw [parameters_eq, Decomposition.parameters_ofPieces]
  · -- A text without placeholders is one literal text, in which nothing is written differently.
    have itself : (Decomposition.last (pattern uri).toList).IsOf (pattern uri).toList := ⟨free, rfl⟩
    apply String.toList_injective
    rw [patternOf (pattern uri), ← itself.eq_ofPieces, Decomposition.inPattern, patternOf uri,
      withSlash_withSlash]

end PageRoutes.Uri
