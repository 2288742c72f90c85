import Mathlib.Data.List.Chain
import Mathlib.Data.List.Forall2
import PageRoutes.Glob
/-!
What the patterns for URIs stand for. A pattern stands for a text when the text can be cut into
pieces, one for each part of the pattern; the search for such a cut finds one if there is one. A
pattern without brackets is always valid, and a run of stars in it means one star.
-/

set_option autoImplicit false

namespace PageRoutes

def GlobPart.Takes : GlobPart → List Char → Prop
  | .literal c, piece => piece = [c]
  | .anyCharacter, piece => ∃ c, piece = [c]
  | .anyText, _ => True
  | .within ranges, piece =>
      ∃ c, piece = [c] ∧ ∃ range ∈ ranges, range.first ≤ c ∧ c ≤ range.last
  | .outside ranges, piece =>
      ∃ c, piece = [c] ∧ ∀ range ∈ ranges, ¬(range.first ≤ c ∧ c ≤ range.last)

namespace Glob

/-- There is a cut of the text into one piece for each part. -/
def StandsFor (parts : List GlobPart) (text : List Char) : Prop :=
  ∃ pieces, List.Forall₂ GlobPart.Takes parts pieces ∧ pieces.flatten = text

theorem standsFor_nil {text : List Char} : StandsFor [] text ↔ text = [] := by
  constructor
  · intro stands
    rcases stands with ⟨pieces, takes, rfl⟩
    cases takes
    rfl
  · intro isNil
    exact ⟨[], .nil, isNil.symm⟩

theorem standsFor_cons {part : GlobPart} {parts : List GlobPart} {text : List Char} :
    StandsFor (part :: parts) text ↔
      ∃ piece rest, text = piece ++ rest ∧ part.Takes piece ∧ StandsFor parts rest := by
  constructor
  · intro stands
    rcases stands with ⟨pieces, takes, rfl⟩
    cases takes with
    | cons first others => exact ⟨_, _, rfl, first, _, others, rfl⟩
  · intro cut
    rcases cut with ⟨piece, rest, rfl, first, pieces, others, rfl⟩
    exact ⟨piece :: pieces, .cons first others, rfl⟩

theorem takes_iff_accepts {part : GlobPart} (single : part ≠ .anyText) {piece : List Char} :
    part.Takes piece ↔ ∃ c, piece = [c] ∧ accepts part c = true := by
  cases part with
  | literal expected =>
      simp only [GlobPart.Takes, accepts, beq_iff_eq]
      exact ⟨fun same => ⟨expected, same, rfl⟩, fun ⟨c, same, equal⟩ => equal ▸ same⟩
  | anyCharacter => simp [GlobPart.Takes, accepts]
  | anyText => exact absurd rfl single
  | within ranges => simp [GlobPart.Takes, accepts, CharacterRange.has]
  | outside ranges => simp [GlobPart.Takes, accepts, CharacterRange.has]

theorem standsFor_anyText {parts : List GlobPart} {text : List Char} :
    StandsFor (.anyText :: parts) text ↔ ∃ tail, tail <:+ text ∧ StandsFor parts tail := by
  rw [standsFor_cons]
  constructor
  · intro cut
    rcases cut with ⟨piece, rest, rfl, -, stands⟩
    exact ⟨rest, List.suffix_append piece rest, stands⟩
  · intro cut
    rcases cut with ⟨rest, ⟨piece, rfl⟩, stands⟩
    exact ⟨piece, rest, rfl, trivial, stands⟩

theorem standsFor_single {part : GlobPart} (single : part ≠ .anyText) {parts : List GlobPart}
    {text : List Char} :
    StandsFor (part :: parts) text ↔
      ∃ c rest, text = c :: rest ∧ accepts part c = true ∧ StandsFor parts rest := by
  rw [standsFor_cons]
  constructor
  · intro cut
    rcases cut with ⟨piece, rest, rfl, takes, stands⟩
    rcases (takes_iff_accepts single).mp takes with ⟨c, rfl, accepted⟩
    exact ⟨c, rest, rfl, accepted, stands⟩
  · intro cut
    rcases cut with ⟨c, rest, rfl, accepted, stands⟩
    exact ⟨[c], rest, rfl, (takes_iff_accepts single).mpr ⟨c, rfl, accepted⟩, stands⟩

/-- The search fits the parts to the whole text exactly when some cut of the text does. -/
theorem fit_eq_whole_iff {parts : List GlobPart} {text : List Char} :
    fit parts text = .whole ↔ StandsFor parts text := by
  induction parts generalizing text with
  | nil =>
      rw [standsFor_nil]
      cases text <;> simp [fit]
  | cons part parts ih =>
      by_cases star : part = .anyText
      · subst star
        simp only [fit_anyText_iff, standsFor_anyText, ih]
      · rw [standsFor_single star]
        cases text with
        | nil => simp [fit_cons_nil parts star]
        | cons c text =>
            rw [fit_cons_cons parts c text star]
            by_cases accepted : accepts part c = true
            · rw [if_pos accepted, ih]
              constructor
              · intro stands
                exact ⟨c, text, rfl, accepted, stands⟩
              · intro cut
                rcases cut with ⟨d, rest, parts, -, stands⟩
                cases parts
                exact stands
            · rw [if_neg accepted]
              constructor
              · intro impossible
                cases impossible
              · intro cut
                rcases cut with ⟨d, rest, parts, isAccepted, -⟩
                cases parts
                exact absurd isAccepted accepted

theorem covers_iff {glob : Glob} {text : String} :
    glob.covers text = true ↔ StandsFor glob.parts text.toList := by
  rw [covers, decide_eq_true_iff, fit_eq_whole_iff]

/-! ### Runs of stars -/

/-- A text is split along a pattern without brackets: a whole run of stars takes any text, a
question mark takes one character, and every other character takes itself. -/
inductive SplitsAlong : List Char → List Char → Prop
  | done : SplitsAlong [] []
  | run {stars pattern rest : List Char} (taken : List Char) (nonempty : stars ≠ [])
      (allStars : ∀ c ∈ stars, c = '*') (whole : pattern.head? ≠ some '*')
      (others : SplitsAlong pattern rest) : SplitsAlong (stars ++ pattern) (taken ++ rest)
  | one {pattern rest : List Char} (c : Char) (others : SplitsAlong pattern rest) :
      SplitsAlong ('?' :: pattern) (c :: rest)
  | same {pattern rest : List Char} {c : Char} (noStar : c ≠ '*') (noMark : c ≠ '?')
      (others : SplitsAlong pattern rest) : SplitsAlong (c :: pattern) (c :: rest)

/-- One more star in front takes some more text. -/
theorem SplitsAlong.star {pattern rest : List Char} (splits : SplitsAlong pattern rest)
    (taken : List Char) : SplitsAlong ('*' :: pattern) (taken ++ rest) := by
  have alone : ∀ c ∈ ['*'], c = '*' := by simp
  cases splits with
  | done => exact .run taken (List.cons_ne_nil _ _) alone (by simp) .done
  | one c others =>
      exact .run taken (List.cons_ne_nil _ _) alone (by simp) (.one c others)
  | same noStar noMark others =>
      exact .run taken (List.cons_ne_nil _ _) alone (by simpa using noStar)
        (.same noStar noMark others)
  | @run stars pattern rest behind nonempty allStars whole others =>
      -- The star belongs to the run that the pattern starts with.
      have longer : ∀ c ∈ '*' :: stars, c = '*' := by simpa using allStars
      have joined := SplitsAlong.run (taken ++ behind) (List.cons_ne_nil _ _) longer whole others
      rw [List.append_assoc] at joined
      exact joined

theorem collapseStars_cons (c : Char) (pattern : List Char) :
    collapseStars (c :: pattern) =
      if c = '*' ∧ (collapseStars pattern).head? = some '*' then collapseStars pattern
      else c :: collapseStars pattern := by
  cases collapsed : collapseStars pattern with
  | nil => simp [collapseStars, collapsed]
  | cons d rest =>
      by_cases both : c = '*' ∧ d = '*'
      · rcases both with ⟨rfl, rfl⟩
        simp [collapseStars, collapsed]
      · have notBoth : ¬(c = '*' ∧ (d :: rest).head? = some '*') := by simpa using both
        rw [if_neg notBoth]
        unfold collapseStars
        rw [collapsed]
        split
        · next isStars =>
            exact absurd ⟨rfl, (List.cons.inj isStars).1⟩ both
        · rfl

theorem head?_collapseStars (pattern : List Char) :
    (collapseStars pattern).head? = pattern.head? := by
  cases pattern with
  | nil => rfl
  | cons c pattern =>
      rw [collapseStars_cons]
      split
      · next both => rw [both.1, both.2, List.head?_cons]
      · rfl

/-- A star is left out in front of another one and kept otherwise. -/
theorem collapseStars_star (pattern : List Char) :
    collapseStars ('*' :: pattern) =
      if pattern.head? = some '*' then collapseStars pattern
      else '*' :: collapseStars pattern := by
  rw [collapseStars_cons, head?_collapseStars]
  simp only [true_and]

theorem collapseStars_cons_of_ne {c : Char} (noStar : c ≠ '*') (pattern : List Char) :
    collapseStars (c :: pattern) = c :: collapseStars pattern := by
  rw [collapseStars_cons, if_neg fun both => noStar both.1]

theorem collapseStars_run {stars pattern : List Char} (nonempty : stars ≠ [])
    (allStars : ∀ c ∈ stars, c = '*') (whole : pattern.head? ≠ some '*') :
    collapseStars (stars ++ pattern) = '*' :: collapseStars pattern := by
  induction stars with
  | nil => exact absurd rfl nonempty
  | cons c stars ih =>
      have isStar : c = '*' := allStars c List.mem_cons_self
      rw [isStar, List.cons_append, collapseStars_star]
      cases stars with
      | nil => exact if_neg whole
      | cons d stars =>
          have another : d = '*' := allStars d (by simp)
          rw [if_pos (by simp [another])]
          exact ih (List.cons_ne_nil d stars) fun e member =>
            allStars e (List.mem_cons_of_mem c member)

/-- No two stars are left next to each other. -/
theorem isChain_collapseStars (pattern : List Char) :
    (collapseStars pattern).IsChain fun c d => ¬(c = '*' ∧ d = '*') := by
  induction pattern with
  | nil => exact .nil
  | cons c pattern ih =>
      rw [collapseStars_cons]
      split
      · exact ih
      · next notBoth =>
          rw [List.isChain_cons]
          refine ⟨?_, ih⟩
          intro d isHead both
          rw [both.2] at isHead
          exact notBoth ⟨both.1, isHead⟩

theorem mem_of_mem_collapseStars {c : Char} {pattern : List Char}
    (member : c ∈ collapseStars pattern) : c ∈ pattern := by
  induction pattern with
  | nil => exact member
  | cons d pattern ih =>
      rw [collapseStars_cons] at member
      split at member
      · exact List.mem_cons_of_mem d (ih member)
      · rcases List.mem_cons.mp member with rfl | inRest
        · exact List.mem_cons_self
        · exact List.mem_cons_of_mem d (ih inRest)

/-! ### Patterns without brackets -/

def partOf (c : Char) : GlobPart :=
  if c = '*' then .anyText else if c = '?' then .anyCharacter else .literal c

theorem readParts?_eq_map {pattern : List Char} (noBracket : '[' ∉ pattern)
    (apart : pattern.IsChain fun c d => ¬(c = '*' ∧ d = '*')) {fuel : Nat}
    (enough : pattern.length ≤ fuel) : readParts? fuel pattern = some (pattern.map partOf) := by
  induction pattern generalizing fuel with
  | nil =>
      unfold readParts?
      rfl
  | cons c pattern ih =>
      rw [List.mem_cons, not_or] at noBracket
      rw [List.isChain_cons] at apart
      cases fuel with
      | zero => exact absurd enough (by simp)
      | succ fuel =>
          have rest := ih noBracket.2 apart.2 (Nat.le_of_succ_le_succ enough)
          unfold readParts?
          split <;> simp_all [partOf]

theorem standsFor_of_splitsAlong {pattern text : List Char} (splits : SplitsAlong pattern text) :
    StandsFor ((collapseStars pattern).map partOf) text := by
  induction splits with
  | done => exact standsFor_nil.mpr rfl
  | run taken nonempty allStars whole others ih =>
      rw [collapseStars_run nonempty allStars whole]
      exact standsFor_anyText.mpr ⟨_, List.suffix_append taken _, ih⟩
  | one c others ih =>
      rw [collapseStars_cons_of_ne (by decide)]
      exact standsFor_cons.mpr ⟨[c], _, rfl, ⟨c, rfl⟩, ih⟩
  | @same pattern rest c noStar noMark others ih =>
      rw [collapseStars_cons_of_ne noStar, List.map_cons, partOf, if_neg noStar, if_neg noMark]
      exact standsFor_cons.mpr ⟨[c], _, rfl, rfl, ih⟩

theorem splitsAlong_of_standsFor {pattern text : List Char}
    (stands : StandsFor ((collapseStars pattern).map partOf) text) : SplitsAlong pattern text := by
  induction pattern generalizing text with
  | nil =>
      rw [standsFor_nil.mp stands]
      exact .done
  | cons c pattern ih =>
      by_cases star : c = '*'
      · subst star
        rw [collapseStars_star] at stands
        split at stands
        · -- The star was left out because another one follows, which takes the text for both.
          exact (ih stands).star []
        · rcases standsFor_anyText.mp stands with ⟨rest, ⟨taken, rfl⟩, others⟩
          exact (ih others).star taken
      · rw [collapseStars_cons_of_ne star, List.map_cons, partOf, if_neg star] at stands
        by_cases mark : c = '?'
        · rw [if_pos mark] at stands
          rcases standsFor_cons.mp stands with ⟨piece, rest, rfl, ⟨d, rfl⟩, others⟩
          subst mark
          exact .one d (ih others)
        · rw [if_neg mark] at stands
          rcases standsFor_cons.mp stands with ⟨piece, rest, rfl, isSame, others⟩
          rw [show piece = [c] from isSame]
          exact .same star mark (ih others)

/-- A pattern without brackets is valid, and its parts stand for the texts that split along it. -/
theorem ofText?_of_not_mem {text : String} (noBracket : '[' ∉ text.toList) :
    ∃ glob, ofText? text = some glob ∧
      ∀ uri, glob.covers uri = true ↔ SplitsAlong text.toList uri.toList := by
  have read := readParts?_eq_map (fun member => noBracket (mem_of_mem_collapseStars member))
    (isChain_collapseStars text.toList) (Nat.le_refl _)
  refine ⟨⟨(collapseStars text.toList).map partOf⟩, ?_, ?_⟩
  · rw [ofText?, read]
    rfl
  · intro uri
    rw [covers_iff]
    exact ⟨splitsAlong_of_standsFor, standsFor_of_splitsAlong⟩

end Glob

end PageRoutes
