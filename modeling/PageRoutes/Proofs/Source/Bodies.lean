import PageRoutes.Proofs.Source.ByteScan
import PageRoutes.Proofs.Source.Declarations
/-!
Bodies of methods. A body belongs to the declaration with the leftmost start and is the shortest front
of the text behind it that a closing brace follows and that has as many opening braces as closing
ones; without such a front it is the whole text. Cut out of the bytes of the source, between the
places where a count over bytes starts and stops, it is the same text.
-/

set_option autoImplicit false

namespace PageRoutes.Source

open Text

/-! ### Where a body ends -/

/-- A closing brace follows a front of the text, and the front closes `depth` braces more than it
opens. -/
structure ClosesAt (depth : Nat) (text body : List Char) : Prop where
  closed : body ++ ['}'] <+: text
  counted : body.count '}' = depth + body.count '{'

/-- A body that ends at the first place where it is closed, or else with the text. -/
def EndsBody (depth : Nat) (text body : List Char) : Prop :=
  (ClosesAt depth text body ∧ ∀ other, ClosesAt depth text other → body.length ≤ other.length) ∨
    (body = text ∧ ∀ other, ¬ClosesAt depth text other)

theorem EndsBody.unique {depth : Nat} {text first second : List Char}
    (one : EndsBody depth text first) (two : EndsBody depth text second) : first = second := by
  rcases one with ⟨closes, least⟩ | ⟨rfl, nowhere⟩
  · rcases two with ⟨closes', least'⟩ | ⟨-, nowhere⟩
    · have sameLength := Nat.le_antisymm (least second closes') (least' first closes)
      have inText := (List.prefix_append first _).trans closes.closed
      have inText' := (List.prefix_append second _).trans closes'.closed
      exact (List.prefix_of_prefix_length_le inText inText' (Nat.le_of_eq sameLength)).eq_of_length
        sameLength
    · exact absurd closes (nowhere first)
  · rcases two with ⟨closes, -⟩ | ⟨rfl, -⟩
    · exact absurd closes (nowhere second)
    · rfl

section

variable {depth next : Nat} {c : Char} {text : List Char}

/-- A character that ends nothing is part of every front, and the rest of the front is counted from
what it leaves open. -/
theorem closesAt_cons_iff (goesOn : ¬(c = '}' ∧ depth = 0))
    (steps : ∀ body : List Char, (c :: body).count '}' = depth + (c :: body).count '{' ↔
      body.count '}' = next + body.count '{') {front : List Char} :
    ClosesAt depth (c :: text) front ↔ ∃ body, front = c :: body ∧ ClosesAt next text body := by
  constructor
  · rintro ⟨closed, counted⟩
    cases front with
    | nil =>
        have isClosing : '}' = c := (List.cons_prefix_cons.mp closed).1
        have noneOpen : depth = 0 := by simpa using counted.symm
        exact absurd ⟨isClosing.symm, noneOpen⟩ goesOn
    | cons d body =>
        obtain ⟨rfl, inText⟩ := List.cons_prefix_cons.mp closed
        exact ⟨body, rfl, inText, (steps body).mp counted⟩
  · rintro ⟨body, rfl, closed, counted⟩
    exact ⟨List.cons_prefix_cons.mpr ⟨rfl, closed⟩, (steps body).mpr counted⟩

theorem EndsBody.cons (goesOn : ¬(c = '}' ∧ depth = 0))
    (steps : ∀ body : List Char, (c :: body).count '}' = depth + (c :: body).count '{' ↔
      body.count '}' = next + body.count '{') {body : List Char} (ends : EndsBody next text body) :
    EndsBody depth (c :: text) (c :: body) := by
  rcases ends with ⟨closes, least⟩ | ⟨rfl, nowhere⟩
  · refine .inl ⟨(closesAt_cons_iff goesOn steps).mpr ⟨body, rfl, closes⟩, ?_⟩
    intro front closesFront
    obtain ⟨other, rfl, closesOther⟩ := (closesAt_cons_iff goesOn steps).mp closesFront
    exact Nat.succ_le_succ (least other closesOther)
  · refine .inr ⟨rfl, ?_⟩
    intro front closesFront
    obtain ⟨other, rfl, closesOther⟩ := (closesAt_cons_iff goesOn steps).mp closesFront
    exact nowhere other closesOther

end

/-- The scan over a body ends it where it has to end. -/
theorem endsBody_upToClosingBrace (depth : Nat) (text : List Char) :
    EndsBody depth text (upToClosingBrace depth text) := by
  induction text generalizing depth with
  | nil => exact .inr ⟨rfl, fun other closes => by simpa using closes.closed⟩
  | cons c text ih =>
      by_cases opening : c = '{'
      · subst opening
        rw [upToClosingBrace_opening]
        refine (ih (depth + 1)).cons (by simp) fun body => ?_
        rw [List.count_cons_self, List.count_cons_of_ne (by decide)]
        omega
      · by_cases closing : c = '}'
        · subst closing
          cases depth with
          | zero =>
              have atOnce : upToClosingBrace 0 ('}' :: text) = [] := by simp [upToClosingBrace]
              rw [atOnce]
              exact .inl ⟨⟨by simp, rfl⟩, fun _ _ => Nat.zero_le _⟩
          | succ depth =>
              rw [upToClosingBrace_closing]
              refine (ih depth).cons (by simp) fun body => ?_
              rw [List.count_cons_self, List.count_cons_of_ne (by decide)]
              omega
        · rw [upToClosingBrace_other depth opening closing]
          refine (ih depth).cons (fun ends => closing ends.1) fun body => ?_
          rw [List.count_cons_of_ne closing, List.count_cons_of_ne opening]

/-! ### The body of a method -/

section

variable {source method : String}

theorem methodBody?_eq_none_iff :
    methodBody? source method = none ↔
      ∀ before declaration rest,
        ¬(declarations method.toList).StandsIn source.toList before declaration rest := by
  rw [methodBody?, bodyOf?, Option.map_eq_none_iff, Option.map_eq_none_iff]
  exact (declarations_isReadBy method.toList).leftmost?_eq_none_iff

theorem methodBody?_eq_some_iff {body : String} :
    methodBody? source method = some body ↔
      ∃ before declaration rest,
        (declarations method.toList).StandsFirstIn source.toList before declaration rest ∧
          EndsBody 0 rest body.toList := by
  have reads := declarations_isReadBy method.toList
  simp only [methodBody?, bodyOf?, Option.map_eq_some_iff, reads.leftmost?_eq_some_iff]
  constructor
  · rintro ⟨_, ⟨_, ⟨before, declaration, rest, first, rfl⟩, rfl⟩, rfl⟩
    refine ⟨before, declaration, rest, first, ?_⟩
    rw [String.toList_ofList]
    exact endsBody_upToClosingBrace 0 rest
  · rintro ⟨before, declaration, rest, first, ends⟩
    refine ⟨_, ⟨rest, ⟨before, declaration, rest, first, rfl⟩, rfl⟩, ?_⟩
    rw [(endsBody_upToClosingBrace 0 rest).unique ends, String.ofList_toList]

end

/-! ### The body in the bytes of the source -/

/-- Where the body of a method starts and stops among the bytes of the source, the end found by a
count over bytes. -/
def bodyCuts? (source method : String) : Option (String.Pos.Raw × String.Pos.Raw) :=
  (leftmost? (afterDeclaration? method.toList) source.toList).map fun rest =>
    let start := source.utf8ByteSize - (String.ofList rest).utf8ByteSize
    (⟨start⟩, ⟨start + scanBytes 1 (source.toByteArray.data.toList.drop start)⟩)

theorem upToClosingBrace_prefix (depth : Nat) (text : List Char) :
    upToClosingBrace depth text <+: text := by
  rcases endsBody_upToClosingBrace depth text with ⟨closes, -⟩ | ⟨whole, -⟩
  · exact (List.prefix_append _ _).trans closes.closed
  · rw [whole]

/-- The cuts enclose the bytes of the characters of the body. -/
theorem exists_of_bodyCuts? {source method : String} {start stop : String.Pos.Raw}
    (cuts : bodyCuts? source method = some (start, stop)) :
    ∃ before body behind, source.toList = before ++ body ++ behind ∧
      methodBody? source method = some (String.ofList body) ∧
      start = ⟨(bytesOf before).length⟩ ∧
      stop = ⟨(bytesOf before).length + (bytesOf body).length⟩ ∧
      scanBytes 1 ((bytesOf source.toList).drop start.byteIdx) = (bytesOf body).length := by
  obtain ⟨rest, declared, isCuts⟩ := Option.map_eq_some_iff.mp cuts
  obtain ⟨before, behind, parts, read⟩ := exists_of_leftmost? declared
  obtain ⟨declaration, rfl⟩ := afterDeclaration?_eq_some_iff.mp read
  obtain ⟨unread, isBody⟩ := upToClosingBrace_prefix 0 rest
  obtain ⟨front, whole⟩ : ∃ front, source.toList = front ++ rest :=
    ⟨before ++ declaration.written method.toList, by rw [parts, List.append_assoc]⟩
  have size : source.utf8ByteSize - (String.ofList rest).utf8ByteSize = (bytesOf front).length := by
    rw [utf8ByteSize_eq, utf8ByteSize_eq, String.toList_ofList, whole, bytesOf_append,
      List.length_append, Nat.add_sub_cancel]
  have dropped : (bytesOf source.toList).drop (bytesOf front).length = bytesOf rest := by
    rw [whole, bytesOf_append, List.drop_left]
  have scanned : scanBytes 1 (bytesOf rest) = (bytesOf (upToClosingBrace 0 rest)).length :=
    scanBytes_bytesOf 0 rest
  simp only [size, toList_toByteArray, dropped, scanned, Prod.mk.injEq] at isCuts
  obtain ⟨rfl, rfl⟩ := isCuts
  refine ⟨front, upToClosingBrace 0 rest, unread, ?_, ?_, rfl, rfl, ?_⟩
  · rw [whole, List.append_assoc, isBody]
  · rw [methodBody?, bodyOf?, declared]
    rfl
  · rw [dropped, scanned]

theorem methodBody?_eq_map_bodyCuts? (source method : String) :
    methodBody? source method = (bodyCuts? source method).map fun cuts =>
      String.Pos.Raw.extract source cuts.1 cuts.2 := by
  cases cuts : bodyCuts? source method with
  | none =>
      have undeclared := Option.map_eq_none_iff.mp cuts
      rw [methodBody?, bodyOf?, undeclared]
      rfl
  | some cut =>
      obtain ⟨before, body, behind, parts, isBody, start, stop, -⟩ := exists_of_bodyCuts? cuts
      rw [isBody, Option.map_some, start, stop, extract_of_append parts]

example : bodyCuts? "function é(){ü}" "é" = some (⟨14⟩, ⟨16⟩) := by
  decide +kernel

/-- A method has no body exactly when no declaration of it stands in the source; otherwise its body is
that of the leftmost declaration and ends where it has to end. The same body is cut out of the bytes
of the source by counting braces over bytes: the count never falls below zero, and both cuts lie
between characters. -/
theorem body_is_shortest_behind_first_declaration (source method : String) :
    (methodBody? source method = none ↔
      ∀ before declaration rest,
        ¬(declarations method.toList).StandsIn source.toList before declaration rest) ∧
    (∀ body, methodBody? source method = some body ↔
      ∃ before declaration rest,
        (declarations method.toList).StandsFirstIn source.toList before declaration rest ∧
          EndsBody 0 rest body.toList) ∧
    (methodBody? source method = (bodyCuts? source method).map fun cuts =>
      String.Pos.Raw.extract source cuts.1 cuts.2) ∧
    ∀ start stop, bodyCuts? source method = some (start, stop) →
      start.IsValid source ∧ stop.IsValid source ∧
        ∀ front, front <+: (source.toByteArray.data.toList.drop start.byteIdx).take
            (stop.byteIdx - start.byteIdx + 1) →
          0 ≤ countBraces 1 front := by
  refine ⟨methodBody?_eq_none_iff, fun body => methodBody?_eq_some_iff,
    methodBody?_eq_map_bodyCuts? source method, ?_⟩
  intro start stop cuts
  obtain ⟨before, body, behind, parts, -, rfl, rfl, scanned⟩ := exists_of_bodyCuts? cuts
  refine ⟨isValid_of_append (List.append_assoc before body behind ▸ parts), ?_, ?_⟩
  · rw [← List.length_append, ← bytesOf_append]
    exact isValid_of_append parts
  · intro front inScanned
    rw [toList_toByteArray, Nat.add_sub_cancel_left, ← scanned] at inScanned
    exact countBraces_nonneg Int.one_pos inScanned

end PageRoutes.Source
