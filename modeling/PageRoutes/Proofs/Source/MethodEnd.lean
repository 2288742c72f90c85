import Mathlib.Data.List.Infix
import PageRoutes.Component.Standard
import PageRoutes.Proofs.Text.EndsWithin
/-!
What of a source text decides about a method. A declaration is found by what stands in front of its
opening brace and its body ends at the closing one, so no text behind that brace counts, whatever
it holds.
-/

set_option autoImplicit false

namespace PageRoutes.Source

open Text

/-! ### Parts of a declaration -/

theorem skipBlanks_append_cons {run : List Char} {c : Char}
    (blank : ∀ d ∈ run, isBlank d = true) (notBlank : isBlank c = false) (text : List Char) :
    skipBlanks (run ++ c :: text) = c :: text :=
  congrArg Prod.snd (cutRun_append_cons blank notBlank text)

theorem afterOpeningBrace?_eq_none {text rest : List Char} {c : Char}
    (skipped : skipBlanks text = c :: rest) (notBrace : c ≠ '{') (notColon : c ≠ ':') :
    afterOpeningBrace? text = none := by
  unfold afterOpeningBrace?
  rw [skipped]
  split
  · next same => exact absurd (List.cons.inj same).1 notBrace
  · next same => exact absurd (List.cons.inj same).1 notColon
  · rfl

theorem endsWithin_afterOpeningBrace? : EndsWithin ['{'] afterOpeningBrace? where
  takes := by
    intro text rest read
    unfold afterOpeningBrace? at read
    split at read
    · next body skipped =>
        cases read
        obtain ⟨run, rfl⟩ := exists_of_dropWhile skipped
        exact ⟨run ++ ['{'], by simp, by simp⟩
    · next result skipped =>
        split at read
        · next c type body cut =>
            cases read
            obtain ⟨run, rfl⟩ := exists_of_dropWhile skipped
            have parts := cutRun_append (· ≠ '{') result
            rw [cut] at parts
            exact ⟨run ++ ':' :: c :: type ++ ['{'], by simp [← parts], by simp⟩
        · cases read
    · cases read
  decided := by
    intro front holds tail
    obtain ⟨run, c, rest, rfl, blank, notBlank, inRest⟩ :=
      exists_run_in_front isBlank (by decide) holds
    rw [List.append_assoc, List.cons_append]
    have skipped (text : List Char) := skipBlanks_append_cons blank notBlank text
    by_cases brace : c = '{'
    · subst brace
      simp only [afterOpeningBrace?, skipped]
      rfl
    · by_cases colon : c = ':'
      · subst colon
        simp only [afterOpeningBrace?, skipped]
        have inResult : ['{'].Sublist rest :=
          sublist_of_sublist_append [':'] (by decide) inRest
        obtain ⟨type, stop, body, rfl, keeps, stops, -⟩ :=
          exists_run_in_front (· ≠ '{') (by decide) inResult
        have isBrace : stop = '{' := by simpa using stops
        subst isBrace
        rw [List.append_assoc, List.cons_append]
        simp only [cutRun_append_cons keeps stops]
        cases type with
        | nil => rfl
        | cons d type => rfl
      · rw [afterOpeningBrace?_eq_none (skipped _) brace colon,
          afterOpeningBrace?_eq_none (skipped _) brace colon]
        rfl

theorem afterParameters?_eq_none {text rest : List Char} {c : Char}
    (skipped : skipBlanks text = c :: rest) (notOpening : c ≠ '(') :
    afterParameters? text = none := by
  unfold afterParameters?
  rw [skipped]
  split
  · next same => exact absurd (List.cons.inj same).1 notOpening
  · rfl

theorem endsWithin_afterParameters? : EndsWithin ['(', ')', '{'] afterParameters? where
  takes := by
    intro text rest read
    unfold afterParameters? at read
    split at read
    · next parameters skipped =>
        split at read
        · next behind closed =>
            obtain ⟨run, rfl⟩ := exists_of_dropWhile skipped
            obtain ⟨brace, rfl, inBrace⟩ := endsWithin_afterOpeningBrace?.takes read
            obtain ⟨inside, rfl⟩ := exists_of_dropWhile closed
            have closing : [')', '{'].Sublist (inside ++ ')' :: brace) :=
              (inBrace.cons_cons ')').trans (List.sublist_append_right _ _)
            refine ⟨run ++ '(' :: (inside ++ ')' :: brace), by simp, ?_⟩
            exact (closing.cons_cons '(').trans (List.sublist_append_right _ _)
        · cases read
    · cases read
  decided := by
    intro front holds tail
    obtain ⟨run, c, rest, rfl, blank, notBlank, inRest⟩ :=
      exists_run_in_front isBlank (by decide) holds
    rw [List.append_assoc, List.cons_append]
    have skipped (text : List Char) := skipBlanks_append_cons blank notBlank text
    by_cases opening : c = '('
    · subst opening
      have inParameters : [')', '{'].Sublist rest := by
        cases inRest with
        | cons _ behind => exact (List.sublist_cons_self _ _).trans behind
        | cons_cons _ behind => exact behind
      obtain ⟨parameters, stop, behind, rfl, keeps, stops, inBehind⟩ :=
        exists_run_in_front (· ≠ ')') (by decide) inParameters
      have isClosing : stop = ')' := by simpa using stops
      subst isClosing
      have braceBehind : ['{'].Sublist behind :=
        sublist_of_sublist_append [')'] (by decide)
          ((List.sublist_cons_self _ _).trans inBehind)
      have closed (text : List Char) : (parameters ++ ')' :: text).dropWhile (· ≠ ')') =
          ')' :: text :=
        congrArg Prod.snd (cutRun_append_cons keeps stops text)
      rw [List.append_assoc, List.cons_append]
      simp only [afterParameters?, skipped, closed]
      exact endsWithin_afterOpeningBrace?.decided braceBehind tail
    · rw [afterParameters?_eq_none (skipped _) opening, afterParameters?_eq_none (skipped _) opening]
      rfl

theorem endsWithin_afterName? {name : List Char} (plain : '(' ∉ name) :
    EndsWithin ['(', ')', '{'] (afterName? name) := by
  -- By the blanks in front of the name: the name may begin at each of them.
  have named := endsWithin_afterParameters?.behind_word plain
  constructor
  · intro text rest read
    induction text with
    | nil => cases read
    | cons c text ih =>
        rw [afterName?] at read
        split at read
        · split at read
          · next deeper =>
              cases read
              obtain ⟨front, rfl, holds⟩ := ih deeper
              exact ⟨c :: front, rfl, holds.cons c⟩
          · obtain ⟨front, rfl, holds⟩ := named.takes read
            exact ⟨c :: front, rfl, holds.cons c⟩
        · cases read
  · intro front holds tail
    induction front with
    | nil => cases holds
    | cons c front ih =>
        rw [List.cons_append, afterName?, afterName?]
        by_cases blank : isBlank c = true
        · have behind : ['(', ')', '{'].Sublist front := by
            cases holds with
            | cons _ behind => exact behind
            | cons_cons _ _ => exact absurd blank (by decide)
          rw [if_pos blank, if_pos blank, ih behind, named.decided behind tail]
          cases afterName? name front with
          | none => rfl
          | some body => rfl
        · rw [if_neg blank, if_neg blank]
          rfl

theorem endsWithin_afterDeclaration? {name : List Char} (plain : '(' ∉ name) :
    EndsWithin ['(', ')', '{'] (afterDeclaration? name) :=
  (endsWithin_afterName? plain).behind_word (by decide)

/-! ### The end of a body -/

structure Balanced (text : List Char) : Prop where
  fronts : ∀ front ∈ text.inits, front.count '}' ≤ front.count '{'
  whole : text.count '}' = text.count '{'

instance (text : List Char) : Decidable (Balanced text) :=
  decidable_of_iff ((∀ front ∈ text.inits, front.count '}' ≤ front.count '{') ∧
      text.count '}' = text.count '{')
    ⟨fun both => ⟨both.1, both.2⟩, fun balanced => ⟨balanced.fronts, balanced.whole⟩⟩

theorem upToClosingBrace_opening (depth : Nat) (text : List Char) :
    upToClosingBrace depth ('{' :: text) = '{' :: upToClosingBrace (depth + 1) text := by
  simp [upToClosingBrace]

theorem upToClosingBrace_closing (depth : Nat) (text : List Char) :
    upToClosingBrace (depth + 1) ('}' :: text) = '}' :: upToClosingBrace depth text := by
  simp [upToClosingBrace]

theorem upToClosingBrace_other (depth : Nat) {c : Char} (notOpening : c ≠ '{')
    (notClosing : c ≠ '}') (text : List Char) :
    upToClosingBrace depth (c :: text) = c :: upToClosingBrace depth text := by
  simp [upToClosingBrace, notOpening, notClosing]

/-- The scan keeps count of the braces that are open: it stops at the first closing brace too
many. -/
theorem upToClosingBrace_append (depth : Nat) {body : List Char}
    (fronts : ∀ front ∈ body.inits, front.count '}' ≤ depth + front.count '{')
    (whole : body.count '}' = depth + body.count '{') (behind : List Char) :
    upToClosingBrace depth (body ++ '}' :: behind) = body := by
  induction body generalizing depth with
  | nil =>
      have closed : depth = 0 := by simpa using whole.symm
      subst closed
      rfl
  | cons c body ih =>
      have longer (front : List Char) (member : front ∈ body.inits) :
          (c :: front).count '}' ≤ depth + (c :: front).count '{' := by
        apply fronts
        rw [List.mem_inits] at member ⊢
        exact List.cons_prefix_cons.mpr ⟨rfl, member⟩
      rw [List.cons_append]
      by_cases opening : c = '{'
      · subst opening
        rw [upToClosingBrace_opening, ih]
        · intro front member
          have counted := longer front member
          rw [List.count_cons_self, List.count_cons_of_ne (by decide)] at counted
          omega
        · rw [List.count_cons_self, List.count_cons_of_ne (by decide)] at whole
          omega
      · by_cases closing : c = '}'
        · subst closing
          have first := longer [] (by simp)
          cases depth with
          | zero => simp at first
          | succ depth =>
              rw [upToClosingBrace_closing, ih]
              · intro front member
                have counted := longer front member
                rw [List.count_cons_self, List.count_cons_of_ne (by decide)] at counted
                omega
              · rw [List.count_cons_self, List.count_cons_of_ne (by decide)] at whole
                omega
        · rw [upToClosingBrace_other depth opening closing, ih]
          · intro front member
            have counted := longer front member
            rwa [List.count_cons_of_ne closing, List.count_cons_of_ne opening] at counted
          · rwa [List.count_cons_of_ne closing, List.count_cons_of_ne opening] at whole

structure MethodIn (name source body behind : List Char) : Prop where
  declared : leftmost? (afterDeclaration? name) source = some (body ++ '}' :: behind)
  balanced : Balanced body

theorem MethodIn.bodyOf?_eq {name source body behind : List Char}
    (method : MethodIn name source body behind) : bodyOf? name source = some body := by
  have closed := upToClosingBrace_append 0
    (by simpa using method.balanced.fronts) (by simpa using method.balanced.whole) behind
  rw [bodyOf?, method.declared, Option.map_some, closed]

theorem MethodIn.with_other_end {name upTo body behind : List Char} (plain : '(' ∉ name)
    (method : MethodIn name (upTo ++ behind) body behind) (other : List Char) :
    MethodIn name (upTo ++ other) body other := by
  obtain ⟨front, split, -, anyRest⟩ :=
    (endsWithin_afterDeclaration? plain).exists_of_leftmost? method.declared
  have upToBrace : upTo = front ++ (body ++ ['}']) := by
    apply List.append_cancel_right
    rw [split]
    simp
  refine ⟨?_, method.balanced⟩
  have declared := anyRest (body ++ '}' :: other)
  rw [upToBrace]
  simpa using declared

/-- No text behind the brace that closes a method has any influence on the body of the method and on
its component, and the method still ends at this brace. -/
theorem text_behind_method_does_not_count (method upTo behind other : String) (body : List Char)
    (plain : '(' ∉ method.toList)
    (declared : MethodIn method.toList (upTo ++ behind).toList body behind.toList) :
    MethodIn method.toList (upTo ++ other).toList body other.toList ∧
      methodBody? (upTo ++ behind) method = some (String.ofList body) ∧
      methodBody? (upTo ++ other) method = some (String.ofList body) ∧
      ∀ (tree later : FileTree) (path : FilePath), tree.readText? path = some (upTo ++ behind) →
        later.readText? path = some (upTo ++ other) →
        later.componentOfMethod? path method = tree.componentOfMethod? path method := by
  rw [String.toList_append] at declared
  have still := declared.with_other_end plain other.toList
  have bodyBefore : methodBody? (upTo ++ behind) method = some (String.ofList body) := by
    rw [methodBody?, String.toList_append, declared.bodyOf?_eq, Option.map_some]
  have bodyAfter : methodBody? (upTo ++ other) method = some (String.ofList body) := by
    rw [methodBody?, String.toList_append, still.bodyOf?_eq, Option.map_some]
  refine ⟨String.toList_append ▸ still, bodyBefore, bodyAfter, ?_⟩
  intro tree later path readBefore readAfter
  rw [FileTree.componentOfMethod?, FileTree.componentOfMethod?, FileTree.methodBody?,
    FileTree.methodBody?, readBefore, readAfter, Option.bind_some, Option.bind_some, bodyBefore,
    bodyAfter]

def pageController (behind : String) : FileTree where
  entries := [("Pages.php", .file (.text
    (r"function show(); function show(): Page { if ($a) { return inertia('Show'); } }" ++
      behind)))]
  workingDirectory := []

theorem pageController_shows_its_page :
    (pageController r" { function show() { inertia('Other')").componentOfMethod?
      ⟨"/Pages.php"⟩ "show" = some "Show" := by
  have unchanged := text_behind_method_does_not_count "show"
    r"function show(); function show(): Page { if ($a) { return inertia('Show'); } }"
    "" r" { function show() { inertia('Other')" r" if ($a) { return inertia('Show'); } ".toList
    (by decide +kernel) ⟨by decide +kernel, by decide +kernel⟩
  have component : (pageController "").componentOfMethod? ⟨"/Pages.php"⟩ "show" = some "Show" := by
    decide +kernel
  rw [← component]
  exact unchanged.2.2.2 _ _ _ (by decide +kernel) (by decide +kernel)

end PageRoutes.Source
