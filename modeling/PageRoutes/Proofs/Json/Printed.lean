import PageRoutes.Proofs.Json.Spelling
/-!
Values are read back from the texts in which they are printed, on one line or over several, as long
as their numbers are integers of 64 bits and they are not nested too deeply. The printed text spells
a tree, by induction on the value, and the tree stands for the value.
-/

set_option autoImplicit false

namespace PageRoutes.Json

open Decimal

/-! ### Numbers -/

theorem appendDigits_append {value longer : Nat} {digits more : List Char}
    (all : appendDigits value digits = (longer, [])) :
    appendDigits value (digits ++ more) = appendDigits longer more := by
  induction digits generalizing value with
  | nil =>
      cases all
      rfl
  | cons digit digits ih =>
      rw [appendDigits] at all
      rw [List.cons_append, appendDigits]
      split_ifs at all ⊢ with fits
      · exact ih all
      · cases all

theorem appendDigits_toDigits {value : Nat} (fits : value ≤ maxWord64) :
    appendDigits 0 (toDigits value) = (value, []) := by
  induction value using Nat.strong_induction_on with
  | _ value ih =>
      rw [toDigits, Nat.toDigits_eq_if (by omega)]
      split_ifs with single
      · have digit : digitValue value.digitChar = value :=
          Nat.toNat_digitChar_sub_48_of_lt_ten single
        rw [appendDigits, digit, Nat.zero_mul, Nat.zero_add, if_pos fits, appendDigits]
      · have digit : digitValue (value % 10).digitChar = value % 10 :=
          Nat.toNat_digitChar_sub_48_of_lt_ten (by omega)
        have whole : value / 10 * 10 + value % 10 = value := by omega
        rw [← toDigits, appendDigits_append (ih (value / 10) (by omega) (by omega)), appendDigits,
          digit, whole, if_pos fits, appendDigits]

/-- Integers of 64 bits, with or without sign. -/
def IsWord (value : Int) : Prop :=
  minInt64 ≤ value ∧ value ≤ (maxWord64 : Int)

theorem number?_ofInt {value : Int} (fits : IsWord value) :
    (Numeral.ofInt value).number? = some (.int value) := by
  cases value with
  | ofNat value =>
      have digits := appendDigits_toDigits (Int.ofNat_le.mp fits.2)
      simp [Numeral.ofInt, Numeral.number?, digits]
  | negSucc value =>
      have small : value + 1 ≤ Nat.pow 2 63 := by
        have least : -(Int.pow 2 63) ≤ Int.negSucc value := fits.1
        have power : Int.pow 2 63 = (Nat.pow 2 63 : Nat) := rfl
        omega
      have digits : appendDigits 0 (toDigits (value + 1)) = (value + 1, []) :=
        appendDigits_toDigits (small.trans (by decide))
      simp [Numeral.ofInt, Numeral.number?, digits, small, Int.negSucc_eq]

/-! ### Values that can be read -/

mutual

/-- The numbers of the value are integers of 64 bits, and it goes at most `depth` levels deep. -/
def Value.Readable (depth : Nat) : Value → Prop
  | .null | .bool _ | .str _ => True
  | .num (.int value) => IsWord value
  | .num (.real _) => False
  | .arr items =>
      match depth with
      | 0 => False
      | depth + 1 => ReadableItems depth items
  | .obj members =>
      match depth with
      | 0 => False
      | depth + 1 => ReadableMembers depth members

def ReadableItems (depth : Nat) : List Value → Prop
  | [] => True
  | item :: items => item.Readable depth ∧ ReadableItems depth items

def ReadableMembers (depth : Nat) : List (String × Value) → Prop
  | [] => True
  | (_, value) :: members => value.Readable depth ∧ ReadableMembers depth members

end

theorem readableItems_iff {depth : Nat} {items : List Value} :
    ReadableItems depth items ↔ ∀ item ∈ items, item.Readable depth := by
  induction items with
  | nil => simp [ReadableItems]
  | cons item items ih => simp [ReadableItems, ih]

theorem readableItems_map {α : Type} {depth : Nat} (value : α → Value)
    (readable : ∀ item, (value item).Readable depth) (items : List α) :
    ReadableItems depth (items.map value) := by
  rw [readableItems_iff]
  intro item member
  obtain ⟨source, -, rfl⟩ := List.mem_map.mp member
  exact readable source

/-! ### Printed values -/

mutual

/-- The text of a value at a level of nesting, with `line` in front of each item, of each member and
of a closing bracket, and with `gap` behind each colon. -/
def Value.laidOut (line : Nat → List Char) (gap : List Char) (level : Nat) : Value → List Char
  | .null => ['n', 'u', 'l', 'l']
  | .bool true => ['t', 'r', 'u', 'e']
  | .bool false => ['f', 'a', 'l', 's', 'e']
  | .num number => number.text
  | .str text => quoted text
  | .arr [] => ['[', ']']
  | .arr (item :: items) =>
      '[' :: line (level + 1) ++ item.laidOut line gap (level + 1) ++
        itemsLaidOut line gap level items
  | .obj [] => ['{', '}']
  | .obj ((key, value) :: members) =>
      '{' :: line (level + 1) ++ quoted key ++
        ':' :: (gap ++ value.laidOut line gap (level + 1)) ++ membersLaidOut line gap level members

def itemsLaidOut (line : Nat → List Char) (gap : List Char) (level : Nat) :
    List Value → List Char
  | [] => line level ++ [']']
  | item :: items =>
      ',' :: line (level + 1) ++ item.laidOut line gap (level + 1) ++
        itemsLaidOut line gap level items

def membersLaidOut (line : Nat → List Char) (gap : List Char) (level : Nat) :
    List (String × Value) → List Char
  | [] => line level ++ ['}']
  | (key, value) :: members =>
      ',' :: line (level + 1) ++ quoted key ++
        ':' :: (gap ++ value.laidOut line gap (level + 1)) ++ membersLaidOut line gap level members

end

mutual

theorem Value.prettyAt_eq_laidOut (level : Nat) : (value : Value) →
    value.prettyAt level = value.laidOut newLine [' '] level
  | .null | .bool true | .bool false | .num _ | .str _ | .arr [] | .obj [] => rfl
  | .arr (item :: items) => by
      rw [Value.prettyAt, Value.laidOut, item.prettyAt_eq_laidOut, prettyItems_eq_laidOut]
  | .obj ((key, value) :: members) => by
      rw [Value.prettyAt, Value.laidOut, value.prettyAt_eq_laidOut, prettyMembers_eq_laidOut]
      rfl

theorem prettyItems_eq_laidOut (level : Nat) : (items : List Value) →
    prettyItems level items = itemsLaidOut newLine [' '] level items
  | [] => rfl
  | item :: items => by
      rw [prettyItems, itemsLaidOut, item.prettyAt_eq_laidOut, prettyItems_eq_laidOut]

theorem prettyMembers_eq_laidOut (level : Nat) : (members : List (String × Value)) →
    prettyMembers level members = membersLaidOut newLine [' '] level members
  | [] => rfl
  | (key, value) :: members => by
      rw [prettyMembers, membersLaidOut, value.prettyAt_eq_laidOut, prettyMembers_eq_laidOut]
      rfl

end

mutual

theorem Value.compact_eq_laidOut (level : Nat) : (value : Value) →
    value.compact = value.laidOut (fun _ => []) [] level
  | .null | .bool true | .bool false | .num _ | .str _ | .arr [] | .obj [] => rfl
  | .arr (item :: items) => by
      rw [Value.compact, Value.laidOut, item.compact_eq_laidOut (level + 1),
        compactItems_eq_laidOut level]
      rfl
  | .obj ((key, value) :: members) => by
      rw [Value.compact, Value.laidOut, value.compact_eq_laidOut (level + 1),
        compactMembers_eq_laidOut level]
      rfl

theorem compactItems_eq_laidOut (level : Nat) : (items : List Value) →
    compactItems items = itemsLaidOut (fun _ => []) [] level items
  | [] => rfl
  | item :: items => by
      rw [compactItems, itemsLaidOut, item.compact_eq_laidOut (level + 1),
        compactItems_eq_laidOut level]
      rfl

theorem compactMembers_eq_laidOut (level : Nat) : (members : List (String × Value)) →
    compactMembers members = membersLaidOut (fun _ => []) [] level members
  | [] => rfl
  | (key, value) :: members => by
      rw [compactMembers, membersLaidOut, value.compact_eq_laidOut (level + 1),
        compactMembers_eq_laidOut level]
      rfl

end

theorem isSpacing_nil : IsSpacing [] := by
  intro c member
  cases member

theorem isSpacing_empty : IsSpacing "".toList :=
  isSpacing_nil

theorem isSpacing_newLine (level : Nat) : IsSpacing (newLine level) := by
  intro c member
  rcases List.mem_cons.mp member with rfl | member
  · rfl
  · rw [List.eq_of_mem_replicate member]
    rfl

theorem isSpacing_singleton {c : Char} (space : isSpace c = true) : IsSpacing [c] := by
  intro d member
  rwa [List.mem_singleton.mp member]

section

variable {line : Nat → List Char} {gap : List Char}

mutual

theorem Value.exists_spells (lines : ∀ level, IsSpacing (line level)) (spacing : IsSpacing gap)
    {depth : Nat} (level : Nat) : (value : Value) → value.Readable depth →
    ∃ tree, Spells (value.laidOut line gap level) tree ∧ tree.written depth = .ok value
  | .null, _ => ⟨.null, .null, rfl⟩
  | .bool true, _ => ⟨.bool true, .ofTrue, rfl⟩
  | .bool false, _ => ⟨.bool false, .ofFalse, rfl⟩
  | .num (.int value), readable => by
      refine ⟨.num (.ofInt value), .integer value, ?_⟩
      rw [Tree.written, readNumeral, number?_ofInt readable]
      rfl
  | .num (.real _), readable => readable.elim
  | .str text, _ => by
      refine ⟨.str (.ofText text), .quoted text, ?_⟩
      rw [Tree.written, Quoted.read_ofText]
      rfl
  | .arr [], readable => by
      cases depth with
      | zero => exact readable.elim
      | succ depth => exact ⟨.arr [] none, .noItems isSpacing_nil, rfl⟩
  | .arr (item :: items), readable => by
      cases depth with
      | zero => exact readable.elim
      | succ depth =>
          obtain ⟨first, spelled, firstWritten⟩ :=
            item.exists_spells lines spacing (level + 1) readable.1
          obtain ⟨others, written, spelledBehind⟩ :=
            exists_spellsItems lines spacing level items readable.2
          refine ⟨.arr (first :: others) none, ?_, ?_⟩
          · simpa only [Value.laidOut, List.append_assoc, List.cons_append] using
              Spells.items (spelledBehind spelled)
          · simp only [Tree.written, writtenItems, firstWritten, written, bind, Except.bind, pure,
              Except.pure, readBreak]
  | .obj [], readable => by
      cases depth with
      | zero => exact readable.elim
      | succ depth => exact ⟨.obj [] none, .noMembers isSpacing_nil, rfl⟩
  | .obj ((key, value) :: members), readable => by
      cases depth with
      | zero => exact readable.elim
      | succ depth =>
          obtain ⟨first, spelled, firstWritten⟩ :=
            value.exists_spells lines spacing (level + 1) readable.1
          obtain ⟨others, written, spelledBehind⟩ :=
            exists_spellsMembers lines spacing level members readable.2
          refine ⟨.obj ((.ofText key, first) :: others) none, ?_, ?_⟩
          · simpa only [Value.laidOut, List.append_assoc, List.cons_append] using
              Spells.members (spelledBehind key spelled)
          · simp only [Tree.written, writtenMembers, Quoted.read_ofText, firstWritten, written,
              bind, Except.bind, pure, Except.pure, readBreak]

theorem exists_spellsItems (lines : ∀ level, IsSpacing (line level)) (spacing : IsSpacing gap)
    {depth : Nat} (level : Nat) : (items : List Value) →
    ReadableItems depth items →
    ∃ trees, writtenItems depth trees = .ok items ∧
      ∀ {text : List Char} {first : Tree}, Spells text first →
        SpellsItems (line (level + 1) ++ (text ++ itemsLaidOut line gap level items))
          (first :: trees)
  | [], _ => by
      refine ⟨[], rfl, fun spelled => ?_⟩
      simpa only [itemsLaidOut, List.append_assoc] using
        SpellsItems.last (.spaced (lines (level + 1)) spelled (lines level))
  | item :: items, readable => by
      obtain ⟨second, spelledSecond, secondWritten⟩ :=
        item.exists_spells lines spacing (level + 1) readable.1
      obtain ⟨others, written, spelledBehind⟩ :=
        exists_spellsItems lines spacing level items readable.2
      refine ⟨second :: others, ?_, fun spelled => ?_⟩
      · simp only [writtenItems, secondWritten, written, bind, Except.bind, pure, Except.pure]
      · simpa only [itemsLaidOut, List.append_assoc, List.cons_append, List.nil_append] using
          SpellsItems.next (.spaced (lines (level + 1)) spelled isSpacing_nil)
            (spelledBehind spelledSecond)

theorem exists_spellsMembers (lines : ∀ level, IsSpacing (line level)) (spacing : IsSpacing gap)
    {depth : Nat} (level : Nat) : (members : List (String × Value)) →
    ReadableMembers depth members →
    ∃ trees, writtenMembers depth trees = .ok members ∧
      ∀ {text : List Char} {first : Tree} (key : String), Spells text first →
        SpellsMembers
          (line (level + 1) ++
            (quoted key ++ ':' :: (gap ++ (text ++ membersLaidOut line gap level members))))
          ((.ofText key, first) :: trees)
  | [], _ => by
      refine ⟨[], rfl, fun key spelled => ?_⟩
      simpa only [membersLaidOut, List.append_assoc, List.cons_append, List.nil_append] using
        SpellsMembers.last key (lines (level + 1)) isSpacing_nil
          (.spaced spacing spelled (lines level))
  | (name, value) :: members, readable => by
      obtain ⟨second, spelledSecond, secondWritten⟩ :=
        value.exists_spells lines spacing (level + 1) readable.1
      obtain ⟨others, written, spelledBehind⟩ :=
        exists_spellsMembers lines spacing level members readable.2
      refine ⟨(.ofText name, second) :: others, ?_, fun key spelled => ?_⟩
      · simp only [writtenMembers, Quoted.read_ofText, secondWritten, written, bind, Except.bind,
          pure, Except.pure]
      · simpa only [membersLaidOut, List.append_assoc, List.cons_append, List.nil_append] using
          SpellsMembers.next key (lines (level + 1)) isSpacing_nil
            (.spaced spacing spelled isSpacing_nil) (spelledBehind name spelledSecond)

end

/-- A printed value, with any space behind it, is the text of a document that holds the value. -/
theorem Value.exists_document_laidOut (lines : ∀ level, IsSpacing (line level))
    (spacing : IsSpacing gap) {value : Value} {space : String}
    (readable : value.Readable nestingLimit) (spacingBehind : IsSpacing space.toList) :
    ∃ tree, Document.ofText (String.ofList (value.laidOut line gap 0) ++ space) = ⟨tree, false⟩ ∧
      tree.written nestingLimit = .ok value := by
  obtain ⟨tree, spelled, written⟩ := value.exists_spells lines spacing 0 readable
  refine ⟨tree, Document.ofText_of_spellsSpaced ?_, written⟩
  rw [String.toList_append, String.toList_ofList]
  exact .spaced isSpacing_nil spelled spacingBehind

end

section

variable {value : Value} {space : String}

theorem Value.exists_document_prettyText (readable : value.Readable nestingLimit)
    (spacing : IsSpacing space.toList) :
    ∃ tree, Document.ofText (value.prettyText ++ space) = ⟨tree, false⟩ ∧
      tree.written nestingLimit = .ok value := by
  rw [Value.prettyText, Value.prettyAt_eq_laidOut]
  exact Value.exists_document_laidOut isSpacing_newLine (isSpacing_singleton rfl) readable spacing

theorem Value.exists_document_text (readable : value.Readable nestingLimit)
    (spacing : IsSpacing space.toList) :
    ∃ tree, Document.ofText (value.text ++ space) = ⟨tree, false⟩ ∧
      tree.written nestingLimit = .ok value := by
  rw [Value.text, Value.compact_eq_laidOut 0]
  exact Value.exists_document_laidOut (fun _ => isSpacing_nil) isSpacing_nil readable spacing

theorem Value.written_prettyText (readable : value.Readable nestingLimit)
    (spacing : IsSpacing space.toList) :
    (Document.ofText (value.prettyText ++ space)).read Tree.written = .ok value := by
  obtain ⟨tree, same, written⟩ := value.exists_document_prettyText readable spacing
  rw [same, Document.read, written]
  rfl

theorem Value.ofText_prettyText (readable : value.Readable nestingLimit)
    (spacing : IsSpacing space.toList) :
    Value.ofText (value.prettyText ++ space) = .ok value.sortKeys := by
  obtain ⟨tree, same, written⟩ := value.exists_document_prettyText readable spacing
  rw [Value.ofText, same, Document.read, Tree.value, written]
  rfl

end

end PageRoutes.Json
