import PageRoutes.Proofs.Json.Tokens
/-!
Trees are read from their spellings. A spelling may have any space between its parts, while texts
and integers are written in the one form in which they are printed. Each reader gets by with as much
fuel as the spelling has characters, and finds its part whatever stands behind it.
-/

set_option autoImplicit false

namespace PageRoutes.Json

open Decimal

mutual

/-- The text is a spelling of the tree, without space around it. -/
inductive Spells : List Char → Tree → Prop where
  | null : Spells ['n', 'u', 'l', 'l'] .null
  | ofTrue : Spells ['t', 'r', 'u', 'e'] (.bool true)
  | ofFalse : Spells ['f', 'a', 'l', 's', 'e'] (.bool false)
  | integer (value : Int) : Spells (ofInt value) (.num (.ofInt value))
  | quoted (text : String) : Spells (quoted text) (.str (.ofText text))
  | noItems {space : List Char} (spacing : IsSpacing space) :
      Spells ('[' :: (space ++ [']'])) (.arr [] none)
  | items {text : List Char} {items : List Tree} (spelled : SpellsItems text items) :
      Spells ('[' :: text) (.arr items none)
  | noMembers {space : List Char} (spacing : IsSpacing space) :
      Spells ('{' :: (space ++ ['}'])) (.obj [] none)
  | members {text : List Char} {members : List (Quoted × Tree)}
      (spelled : SpellsMembers text members) : Spells ('{' :: text) (.obj members none)

inductive SpellsSpaced : List Char → Tree → Prop where
  | spaced {before text behind : List Char} {tree : Tree} (spacingBefore : IsSpacing before)
      (spelled : Spells text tree) (spacingBehind : IsSpacing behind) :
      SpellsSpaced (before ++ (text ++ behind)) tree

inductive SpellsItems : List Char → List Tree → Prop where
  | last {text : List Char} {item : Tree} (spelled : SpellsSpaced text item) :
      SpellsItems (text ++ [']']) [item]
  | next {text more : List Char} {item : Tree} {items : List Tree}
      (spelled : SpellsSpaced text item) (others : SpellsItems more items) :
      SpellsItems (text ++ ',' :: more) (item :: items)

inductive SpellsMembers : List Char → List (Quoted × Tree) → Prop where
  | last {before colon text : List Char} {value : Tree} (key : String)
      (spacingBefore : IsSpacing before) (spacingColon : IsSpacing colon)
      (spelled : SpellsSpaced text value) :
      SpellsMembers (before ++ (quoted key ++ (colon ++ ':' :: (text ++ ['}']))))
        [(.ofText key, value)]
  | next {before colon text more : List Char} {value : Tree} {members : List (Quoted × Tree)}
      (key : String) (spacingBefore : IsSpacing before) (spacingColon : IsSpacing colon)
      (spelled : SpellsSpaced text value) (others : SpellsMembers more members) :
      SpellsMembers (before ++ (quoted key ++ (colon ++ ':' :: (text ++ ',' :: more))))
        ((.ofText key, value) :: members)

end

/-! ### How spellings start -/

theorem exists_ofInt_eq_cons (value : Int) :
    ∃ c text, ofInt value = c :: text ∧ (c = '-' ∨ c.isDigit = true) := by
  cases value with
  | ofNat value =>
      obtain ⟨c, digits, starts, digit⟩ := exists_toDigits_eq_cons value
      exact ⟨c, digits, starts, .inr digit⟩
  | negSucc value => exact ⟨'-', toDigits (value + 1), rfl, .inl rfl⟩

theorem Spells.exists_eq_cons {text : List Char} {tree : Tree} (spelled : Spells text tree) :
    ∃ c more, text = c :: more ∧ isSpace c = false ∧ c ≠ ']' := by
  cases spelled with
  | integer value =>
      obtain ⟨c, more, starts, numeral⟩ := exists_ofInt_eq_cons value
      refine ⟨c, more, starts, isSpace_of_startsNumeral numeral, ?_⟩
      rintro rfl
      exact absurd numeral (by decide)
  | null | ofTrue | ofFalse | quoted | noItems | items | noMembers | members =>
      exact ⟨_, _, rfl, rfl, by decide⟩

/-- A value is not taken for a closing bracket. -/
theorem SpellsSpaced.exists_skipSpace_eq_cons {text : List Char} {tree : Tree}
    (spelled : SpellsSpaced text tree) (rest : List Char) :
    ∃ c more, skipSpace (text ++ rest) = c :: more ∧ c ≠ ']' := by
  cases spelled with
  | spaced spacingBefore spelled =>
      obtain ⟨c, more, rfl, visible, notBracket⟩ := spelled.exists_eq_cons
      rw [List.append_assoc, skipSpace_append spacingBefore]
      exact ⟨c, _, skipSpace_cons visible _, notBracket⟩

theorem SpellsItems.exists_skipSpace_eq_cons {text : List Char} {items : List Tree}
    (spelled : SpellsItems text items) (rest : List Char) :
    ∃ c more, skipSpace (text ++ rest) = c :: more ∧ c ≠ ']' := by
  cases spelled with
  | last spelled | next spelled =>
      rw [List.append_assoc]
      exact spelled.exists_skipSpace_eq_cons _

theorem SpellsMembers.exists_skipSpace_eq_cons {text : List Char}
    {members : List (Quoted × Tree)} (spelled : SpellsMembers text members) (rest : List Char) :
    ∃ more, skipSpace (text ++ rest) = '"' :: more := by
  cases spelled with
  | last key spacingBefore | next key spacingBefore =>
      rw [List.append_assoc, List.append_assoc]
      exact ⟨_, skipSpace_append_quoted spacingBefore key _⟩

/-! ### Space in front of a value, an item or a key -/

theorem readTree_append {space : List Char} (spacing : IsSpacing space) (fuel : Nat)
    (text : List Char) : readTree fuel (space ++ text) = readTree fuel text := by
  cases fuel with
  | zero => simp only [readTree]
  | succ fuel => simp only [readTree, skipSpace_append spacing]

theorem readItems_append {space : List Char} (spacing : IsSpacing space) (fuel : Nat)
    (text : List Char) : readItems fuel (space ++ text) = readItems fuel text := by
  cases fuel with
  | zero => simp only [readItems]
  | succ fuel => simp only [readItems, readTree_append spacing]

theorem readMembers_append {space : List Char} (spacing : IsSpacing space) (fuel : Nat)
    (text : List Char) : readMembers fuel (space ++ text) = readMembers fuel text := by
  cases fuel with
  | zero => simp only [readMembers]
  | succ fuel => simp only [readMembers, skipSpace_append spacing]

/-- A text is some space and what is left when the space is skipped. -/
theorem exists_spacing_append_skipSpace (text : List Char) :
    ∃ space, IsSpacing space ∧ text = space ++ skipSpace text :=
  ⟨text.takeWhile isSpace, fun _ member => List.mem_takeWhile_imp member,
    List.takeWhile_append_dropWhile.symm⟩

theorem readItems_skipSpace (fuel : Nat) (text : List Char) :
    readItems fuel (skipSpace text) = readItems fuel text := by
  obtain ⟨space, spacing, split⟩ := exists_spacing_append_skipSpace text
  conv_rhs => rw [split, readItems_append spacing]

theorem readMembers_skipSpace (fuel : Nat) (text : List Char) :
    readMembers fuel (skipSpace text) = readMembers fuel text := by
  obtain ⟨space, spacing, split⟩ := exists_spacing_append_skipSpace text
  conv_rhs => rw [split, readMembers_append spacing]

/-! ### One reader from the next -/

/-- What a numeral starts with starts nothing else. -/
theorem readTree_of_startsNumeral {c : Char} {text rest : List Char} {numeral : Numeral}
    (starts : c = '-' ∨ c.isDigit = true)
    (read : (if c = '-' then readMagnitude true text else readMagnitude false (c :: text)) =
      .ok (numeral, rest)) (fuel : Nat) :
    readTree (fuel + 1) (c :: text) = (.num numeral, rest) := by
  rw [readTree, skipSpace_cons (isSpace_of_startsNumeral starts)]
  split
  case h_8 same =>
    cases same
    simp only [read]
  all_goals
    next same =>
      cases same
      try exact absurd starts (by decide)

/-- Integers are read from the form in which they are printed. -/
theorem readTree_ofInt_append (value : Int) (fuel : Nat) {rest : List Char}
    (ends : EndsNumeral rest) :
    readTree (fuel + 1) (ofInt value ++ rest) = (.num (.ofInt value), rest) := by
  cases value with
  | ofNat value =>
      obtain ⟨c, digits, starts, digit⟩ := exists_toDigits_eq_cons value
      have notMinus : c ≠ '-' := by
        rintro rfl
        cases digit
      have read := readMagnitude_toDigits_append false value ends
      rw [starts, List.cons_append, ← starts] at read
      rw [ofInt, starts, List.cons_append]
      exact readTree_of_startsNumeral (.inr digit) ((if_neg notMinus).trans read) fuel
  | negSucc value =>
      have read := readMagnitude_toDigits_append true (value + 1) ends
      rw [ofInt, List.cons_append]
      exact readTree_of_startsNumeral (.inl rfl) ((if_pos rfl).trans read) fuel

structure ReadsSpellings (fuel : Nat) : Prop where
  tree : ∀ {text : List Char} {tree : Tree}, Spells text tree → text.length ≤ fuel →
    ∀ {rest : List Char}, EndsNumeral rest → readTree fuel (text ++ rest) = (tree, rest)
  items : ∀ {text : List Char} {items : List Tree}, SpellsItems text items → text.length ≤ fuel →
    ∀ rest, readItems fuel (text ++ rest) = (items, none, rest)
  members : ∀ {text : List Char} {members : List (Quoted × Tree)}, SpellsMembers text members →
    text.length ≤ fuel → ∀ rest, readMembers fuel (text ++ rest) = (members, none, rest)

section

variable {fuel : Nat} {text : List Char}

theorem ReadsSpellings.exists_readTree_eq (reads : ReadsSpellings fuel) {tree : Tree}
    (spelled : SpellsSpaced text tree) (enough : text.length ≤ fuel) {rest : List Char}
    (ends : EndsNumeral rest) :
    ∃ behind, IsSpacing behind ∧ readTree fuel (text ++ rest) = (tree, behind ++ rest) := by
  cases spelled with
  | @spaced before text behind _ spacingBefore spelled spacingBehind =>
      refine ⟨behind, spacingBehind, ?_⟩
      simp only [List.length_append] at enough
      rw [List.append_assoc, List.append_assoc, readTree_append spacingBefore]
      exact reads.tree spelled (by omega) (endsNumeral_append spacingBehind ends)

theorem ReadsSpellings.tree_succ (reads : ReadsSpellings fuel) {tree : Tree}
    (spelled : Spells text tree) (enough : text.length ≤ fuel + 1) {rest : List Char}
    (ends : EndsNumeral rest) : readTree (fuel + 1) (text ++ rest) = (tree, rest) := by
  cases spelled with
  | null => rfl
  | ofTrue => rfl
  | ofFalse => rfl
  | integer value => exact readTree_ofInt_append value fuel ends
  | quoted text =>
      rw [quoted_append, readTree, skipSpace_cons rfl]
      simp only [readQuoted_of_quoted text rest enough]
  | @noItems space spacing =>
      have closing : skipSpace (space ++ ([']'] ++ rest)) = ']' :: rest :=
        skipSpace_append_cons spacing rfl rest
      rw [List.cons_append, List.append_assoc, readTree, skipSpace_cons rfl]
      simp only [closing]
  | @items text items spelled =>
      obtain ⟨c, more, starts, notBracket⟩ := spelled.exists_skipSpace_eq_cons rest
      have read := reads.items spelled (Nat.le_of_succ_le_succ enough) rest
      rw [← readItems_skipSpace, starts] at read
      rw [List.cons_append, readTree, skipSpace_cons rfl]
      simp only [starts]
      split
      · next same => exact absurd (List.cons.inj same).1 notBracket
      · next same => cases same
      · rw [read]
  | @noMembers space spacing =>
      have closing : skipSpace (space ++ (['}'] ++ rest)) = '}' :: rest :=
        skipSpace_append_cons spacing rfl rest
      rw [List.cons_append, List.append_assoc, readTree, skipSpace_cons rfl]
      simp only [closing]
  | @members text members spelled =>
      obtain ⟨more, starts⟩ := spelled.exists_skipSpace_eq_cons rest
      have read := reads.members spelled (Nat.le_of_succ_le_succ enough) rest
      rw [← readMembers_skipSpace, starts] at read
      rw [List.cons_append, readTree, skipSpace_cons rfl]
      simp only [starts]
      split
      · next same => exact absurd (List.cons.inj same).1 (by decide)
      · rw [read]

theorem ReadsSpellings.items_succ (reads : ReadsSpellings fuel) {items : List Tree}
    (spelled : SpellsItems text items) (enough : text.length ≤ fuel + 1) (rest : List Char) :
    readItems (fuel + 1) (text ++ rest) = (items, none, rest) := by
  cases spelled with
  | @last text item spelled =>
      rw [List.length_append, List.length_singleton] at enough
      obtain ⟨behind, spacing, read⟩ := reads.exists_readTree_eq spelled (by omega)
        (endsNumeral_cons (c := ']') (by decide) rest)
      rw [List.append_assoc, List.singleton_append, readItems]
      simp only [read, skipSpace_append_cons spacing (show isSpace ']' = false from rfl)]
  | @next text more item items spelled others =>
      rw [List.length_append, List.length_cons] at enough
      obtain ⟨behind, spacing, read⟩ := reads.exists_readTree_eq spelled (by omega)
        (endsNumeral_cons (c := ',') (by decide) (more ++ rest))
      have othersRead := reads.items others (by omega) rest
      rw [List.append_assoc, List.cons_append, readItems]
      simp only [read, skipSpace_append_cons spacing (show isSpace ',' = false from rfl),
        othersRead]

theorem ReadsSpellings.members_succ (reads : ReadsSpellings fuel)
    {members : List (Quoted × Tree)} (spelled : SpellsMembers text members)
    (enough : text.length ≤ fuel + 1) (rest : List Char) :
    readMembers (fuel + 1) (text ++ rest) = (members, none, rest) := by
  have visibleColon : isSpace ':' = false := rfl
  cases spelled with
  | @last before colon text value key spacingBefore spacingColon spelled =>
      simp only [List.length_append, List.length_cons, List.length_nil] at enough
      obtain ⟨behind, spacing, read⟩ := reads.exists_readTree_eq spelled (by omega)
        (endsNumeral_cons (c := '}') (by decide) rest)
      have enoughForKey : (quoted key).length ≤ fuel + 1 := by omega
      have visibleBrace : isSpace '}' = false := rfl
      simp only [List.append_assoc, List.cons_append, List.nil_append, readMembers,
        skipSpace_append_quoted spacingBefore, readQuoted_of_quoted key _ enoughForKey,
        skipSpace_append_cons spacingColon visibleColon, read,
        skipSpace_append_cons spacing visibleBrace]
  | @next before colon text more value members key spacingBefore spacingColon spelled others =>
      simp only [List.length_append, List.length_cons] at enough
      obtain ⟨behind, spacing, read⟩ := reads.exists_readTree_eq spelled (by omega)
        (endsNumeral_cons (c := ',') (by decide) (more ++ rest))
      have enoughForKey : (quoted key).length ≤ fuel + 1 := by omega
      have visibleComma : isSpace ',' = false := rfl
      have othersRead := reads.members others (by omega) rest
      simp only [List.append_assoc, List.cons_append, readMembers,
        skipSpace_append_quoted spacingBefore, readQuoted_of_quoted key _ enoughForKey,
        skipSpace_append_cons spacingColon visibleColon, read,
        skipSpace_append_cons spacing visibleComma, othersRead]

end

/-- One unit of fuel is enough for each character, as every reader takes one before it calls
another. -/
theorem readsSpellings (fuel : Nat) : ReadsSpellings fuel := by
  induction fuel with
  | zero =>
      constructor
      · rintro text tree spelled enough
        obtain ⟨c, more, rfl, -⟩ := spelled.exists_eq_cons
        cases enough
      · rintro text items (spelled | spelled) enough <;> simp at enough
      · rintro text members (spelled | spelled) enough <;> simp at enough
  | succ fuel ih =>
      constructor
      · intro text tree spelled enough rest ends
        exact ih.tree_succ spelled enough ends
      · intro text items spelled enough rest
        exact ih.items_succ spelled enough rest
      · intro text members spelled enough rest
        exact ih.members_succ spelled enough rest

/-- A text that spells a tree is read as the tree, and nothing is left of it. -/
theorem Document.ofText_of_spellsSpaced {text : String} {tree : Tree}
    (spelled : SpellsSpaced text.toList tree) : Document.ofText text = ⟨tree, false⟩ := by
  obtain ⟨behind, spacing, read⟩ := (readsSpellings (2 * text.length + 2)).exists_readTree_eq
    spelled (by rw [String.length_toList]; omega) endsNumeral_nil
  rw [List.append_nil, List.append_nil] at read
  simp only [Document.ofText, read, skipSpace_of_isSpacing spacing, List.isEmpty_nil, Bool.not_true]

end PageRoutes.Json
