import Mathlib.Data.List.Basic
import PageRoutes.Component.Standard
/-!
Runs of lines in a file. A run is the stretch of text from the start of its first line to the end of
its last one, or to the end of the file if that comes earlier; neighbouring runs join to the run over
both, and none of the numbers that come up on the way is larger than those of the lines.
-/

set_option autoImplicit false

namespace PageRoutes.Source

variable {text front rest source before span behind : List Char} {first mid last skipped taken : Nat}

def EndsLine (text : List Char) : Prop :=
  text = [] ∨ text.getLast? = some '\n'

instance (text : List Char) : Decidable (EndsLine text) :=
  inferInstanceAs (Decidable (text = [] ∨ text.getLast? = some '\n'))

/-- How many lines there are. Every line feed ends one, and what follows the last line feed is a line
too unless it is empty. -/
def lineCount (text : List Char) : Nat :=
  text.count '\n' + if EndsLine text then 0 else 1

/-- The source is cut in three: the lines in front of the line `first`, those through the line `last`
or through the last line of all, and what is left. -/
structure CutsLines (source : List Char) (first last : Nat) (before span behind : List Char) :
    Prop where
  whole : source = before ++ span ++ behind
  startsLine : EndsLine before
  linesBefore : lineCount before + 1 = first
  endsLine : EndsLine span ∨ behind = []
  linesThrough : lineCount (before ++ span) = min last (lineCount source)

/-! ### Counting lines -/

theorem endsLine_cons (nonempty : text ≠ []) (c : Char) : EndsLine (c :: text) ↔ EndsLine text := by
  cases text with
  | nil => exact absurd rfl nonempty
  | cons next text => simp [EndsLine, List.getLast?_cons_cons]

theorem endsLine_newline_cons (text : List Char) : EndsLine ('\n' :: text) ↔ EndsLine text := by
  by_cases empty : text = []
  · rw [empty]
    exact iff_of_true (.inr rfl) (.inl rfl)
  · exact endsLine_cons empty '\n'

theorem endsLine_append (ends : EndsLine front) (endsToo : EndsLine rest) :
    EndsLine (front ++ rest) := by
  rcases endsToo with empty | closed
  · rwa [empty, List.append_nil]
  · exact .inr (by rw [List.getLast?_append, closed, Option.some_or])

theorem lineCount_newline_cons (text : List Char) :
    lineCount ('\n' :: text) = lineCount text + 1 := by
  simp only [lineCount, List.count_cons_self, endsLine_newline_cons]
  omega

theorem lineCount_singleton {c : Char} (different : c ≠ '\n') : lineCount [c] = 1 := by
  simp [lineCount, EndsLine, different]

theorem lineCount_cons {c : Char} (different : c ≠ '\n') (nonempty : text ≠ []) :
    lineCount (c :: text) = lineCount text := by
  simp only [lineCount, List.count_cons_of_ne different, endsLine_cons nonempty]

theorem lines_newline_cons (text : List Char) : lines ('\n' :: text) = ['\n'] :: lines text :=
  rfl

theorem lines_cons {c : Char} {line : List Char} {others : List (List Char)} (different : c ≠ '\n')
    (found : lines text = line :: others) : lines (c :: text) = (c :: line) :: others := by
  rw [lines, if_neg different, found]

theorem exists_lines_eq_cons (nonempty : text ≠ []) :
    ∃ line others, lines text = line :: others := by
  cases found : lines text with
  | nil =>
      have whole := flatten_lines text
      rw [found] at whole
      exact absurd whole.symm nonempty
  | cons line others => exact ⟨line, others, rfl⟩

theorem length_lines (text : List Char) : (lines text).length = lineCount text := by
  induction text with
  | nil => rfl
  | cons c text ih =>
      by_cases newline : c = '\n'
      · rw [newline, lines_newline_cons, List.length_cons, ih, lineCount_newline_cons]
      · by_cases empty : text = []
        · rw [empty, lineCount_singleton newline, lines, if_neg newline]
          rfl
        · obtain ⟨line, others, found⟩ := exists_lines_eq_cons empty
          rw [lineCount_cons newline empty, ← ih, lines_cons newline found, found]
          rfl

theorem lines_append (ends : EndsLine front) (rest : List Char) :
    lines (front ++ rest) = lines front ++ lines rest := by
  induction front with
  | nil => rfl
  | cons c front ih =>
      by_cases newline : c = '\n'
      · subst newline
        rw [List.cons_append, lines_newline_cons, lines_newline_cons,
          ih ((endsLine_newline_cons front).mp ends), List.cons_append]
      · have nonempty : front ≠ [] := by
          intro empty
          rw [empty] at ends
          simp [EndsLine, newline] at ends
        obtain ⟨line, others, found⟩ := exists_lines_eq_cons nonempty
        have joined := ih ((endsLine_cons nonempty c).mp ends)
        rw [found, List.cons_append] at joined
        rw [List.cons_append, lines_cons newline joined, lines_cons newline found,
          List.cons_append]

theorem lineCount_append (ends : EndsLine front) (rest : List Char) :
    lineCount (front ++ rest) = lineCount front + lineCount rest := by
  rw [← length_lines, lines_append ends, List.length_append, length_lines, length_lines]

theorem lineCount_eq_zero_iff : lineCount text = 0 ↔ text = [] := by
  rw [← length_lines, List.length_eq_zero_iff]
  constructor
  · intro none
    rw [← flatten_lines text, none, List.flatten_nil]
  · intro empty
    rw [empty]
    rfl

/-- A text can be cut behind any of its lines. -/
theorem exists_cut {count : Nat} (fits : count ≤ lineCount text) :
    ∃ front rest, text = front ++ rest ∧ lineCount front = count ∧
      (EndsLine front ∨ rest = []) := by
  induction text generalizing count with
  | nil => exact ⟨[], [], rfl, (Nat.le_zero.mp fits).symm, .inr rfl⟩
  | cons c text ih =>
      cases count with
      | zero => exact ⟨[], c :: text, rfl, rfl, .inl (.inl rfl)⟩
      | succ count =>
          by_cases newline : c = '\n'
          · subst newline
            rw [lineCount_newline_cons] at fits
            obtain ⟨front, rest, rfl, counted, cut⟩ := ih (Nat.le_of_succ_le_succ fits)
            refine ⟨'\n' :: front, rest, rfl, ?_,
              cut.imp_left (endsLine_newline_cons front).mpr⟩
            rw [lineCount_newline_cons, counted]
          · by_cases empty : text = []
            · subst empty
              rw [lineCount_singleton newline] at fits
              refine ⟨[c], [], rfl, ?_, .inr rfl⟩
              rw [lineCount_singleton newline]
              omega
            · rw [lineCount_cons newline empty] at fits
              obtain ⟨front, rest, rfl, counted, cut⟩ := ih fits
              have nonempty : front ≠ [] := by
                intro none
                rw [none] at counted
                cases counted
              refine ⟨c :: front, rest, rfl, ?_, cut.imp_left (endsLine_cons nonempty c).mpr⟩
              rw [lineCount_cons newline nonempty, counted]

/-! ### Spans -/

def linesBehind (skipped taken : Nat) (text : List Char) : List Char :=
  (((lines text).drop skipped).take taken).flatten

theorem linesBehind_eq_nil (missing : lineCount text ≤ skipped) (taken : Nat) :
    linesBehind skipped taken text = [] := by
  rw [← length_lines] at missing
  rw [linesBehind, List.drop_eq_nil_of_le missing, List.take_nil, List.flatten_nil]

theorem linesBehind_zero (reached : lineCount text ≤ taken) : linesBehind 0 taken text = text := by
  rw [← length_lines] at reached
  rw [linesBehind, List.drop_zero, List.take_of_length_le reached, flatten_lines]

theorem linesBehind_add (skipped taken more : Nat) (text : List Char) :
    linesBehind skipped (taken + more) text =
      linesBehind skipped taken text ++ linesBehind (skipped + taken) more text := by
  rw [linesBehind, List.take_add, List.flatten_append, List.drop_drop]
  rfl

theorem linesBehind_lineCount (starts : EndsLine before) (taken : Nat) (rest : List Char) :
    linesBehind (lineCount before) taken (before ++ rest) = linesBehind 0 taken rest := by
  rw [linesBehind, lines_append starts, ← length_lines, List.drop_left]
  rfl

theorem linesBehind_append (starts : EndsLine before) (ends : EndsLine span) (behind : List Char) :
    linesBehind (lineCount before) (lineCount span) (before ++ span ++ behind) = span := by
  rw [List.append_assoc, linesBehind_lineCount starts, linesBehind, List.drop_zero,
    lines_append ends, ← length_lines, List.take_left, flatten_lines]

namespace CutsLines

theorem lineCount_span (cuts : CutsLines source first last before span behind) :
    lineCount span + first = min last (lineCount source) + 1 := by
  rw [← cuts.linesThrough, lineCount_append cuts.startsLine, ← cuts.linesBefore]
  omega

theorem lineCount_source (cuts : CutsLines source first last before span behind) :
    lineCount source = min last (lineCount source) + lineCount behind := by
  rw [← cuts.linesThrough]
  rcases cuts.endsLine with ends | nothing
  · conv_lhs => rw [cuts.whole, lineCount_append (endsLine_append cuts.startsLine ends)]
  · conv_lhs => rw [cuts.whole, nothing, List.append_nil]
    rw [nothing]
    rfl

theorem span_ne_nil (cuts : CutsLines source first last before span behind)
    (ordered : first ≤ last) (there : first ≤ lineCount source) : span ≠ [] := by
  intro empty
  have counted := cuts.lineCount_span
  rw [lineCount_eq_zero_iff.mpr empty] at counted
  omega

theorem linesBehind_eq (cuts : CutsLines source first last before span behind)
    (ordered : first ≤ last) : linesBehind (first - 1) (last - first + 1) source = span := by
  have counted := cuts.lineCount_span
  have total := cuts.lineCount_source
  have skips : first - 1 = lineCount before := by
    have before := cuts.linesBefore
    omega
  by_cases nothing : behind = []
  · -- The span may have fewer lines than are asked for, but then nothing is left behind it.
    rw [cuts.whole, nothing, List.append_nil, skips, linesBehind_lineCount cuts.startsLine]
    exact linesBehind_zero (by omega)
  · have more : lineCount behind ≠ 0 := fun zero => nothing (lineCount_eq_zero_iff.mp zero)
    have takes : last - first + 1 = lineCount span := by omega
    rw [cuts.whole, skips, takes]
    exact linesBehind_append cuts.startsLine (cuts.endsLine.resolve_right nothing) behind

end CutsLines

theorem exists_cutsLines (counted : 1 ≤ first) (ordered : first ≤ last)
    (there : first ≤ lineCount source) :
    ∃ before span behind, CutsLines source first last before span behind := by
  obtain ⟨before, rest, whole, linesBefore, cut⟩ :=
    exists_cut (show first - 1 ≤ lineCount source by omega)
  have starts : EndsLine before := by
    refine cut.resolve_right ?_
    intro nothing
    rw [nothing, List.append_nil] at whole
    rw [whole] at there
    omega
  have total : lineCount source = lineCount before + lineCount rest := by
    rw [whole, lineCount_append starts]
  obtain ⟨span, behind, parts, linesOfSpan, ends⟩ :=
    exists_cut (show min last (lineCount source) - (first - 1) ≤ lineCount rest by omega)
  refine ⟨before, span, behind, ?_, starts, by omega, ends, ?_⟩
  · rw [whole, parts, List.append_assoc]
  · rw [lineCount_append starts]
    omega

theorem linesFrom?_eq (counted : 1 ≤ first) (ordered : first ≤ last) (text : List Char) :
    linesFrom? first last text =
      if linesBehind (first - 1) (last - first + 1) text = [] then none
      else some (linesBehind (first - 1) (last - first + 1) text) := by
  have inRange : ¬(first = 0 ∨ last < first) := by omega
  unfold linesFrom? linesBehind
  rw [if_neg inRange]
  split
  · next empty => rw [if_pos empty]
  · next nonempty => rw [if_neg nonempty]

theorem getD_linesFrom? (counted : 1 ≤ first) (ordered : first ≤ last) (text : List Char) :
    (linesFrom? first last text).getD [] = linesBehind (first - 1) (last - first + 1) text := by
  rw [linesFrom?_eq counted ordered]
  split
  · next empty => rw [empty, Option.getD_none]
  · rw [Option.getD_some]

theorem CutsLines.linesFrom?_eq (cuts : CutsLines source first last before span behind)
    (ordered : first ≤ last) (there : first ≤ lineCount source) :
    linesFrom? first last source = some span := by
  have counted : 1 ≤ first := by
    have before := cuts.linesBefore
    omega
  rw [Source.linesFrom?_eq counted ordered, cuts.linesBehind_eq ordered,
    if_neg (cuts.span_ne_nil ordered there)]

theorem linesFrom?_eq_none_iff :
    linesFrom? first last source = none ↔
      first = 0 ∨ last < first ∨ lineCount source < first := by
  by_cases outside : first = 0 ∨ last < first
  · rw [linesFrom?, if_pos outside]
    exact iff_of_true rfl (by omega)
  · have counted : 1 ≤ first := by omega
    have ordered : first ≤ last := by omega
    by_cases missing : lineCount source < first
    · rw [linesFrom?_eq counted ordered, if_pos (linesBehind_eq_nil (by omega) _)]
      exact iff_of_true rfl (.inr (.inr missing))
    · obtain ⟨before, span, behind, cuts⟩ :=
        exists_cutsLines counted ordered (Nat.le_of_not_lt missing)
      rw [cuts.linesFrom?_eq ordered (Nat.le_of_not_lt missing)]
      exact iff_of_false (Option.some_ne_none _) (by omega)

theorem linesFrom?_eq_some_iff :
    linesFrom? first last source = some span ↔
      first ≤ last ∧ first ≤ lineCount source ∧
        ∃ before behind, CutsLines source first last before span behind := by
  constructor
  · intro found
    have inRange : ¬(first = 0 ∨ last < first ∨ lineCount source < first) := by
      rw [← linesFrom?_eq_none_iff, found]
      exact Option.some_ne_none span
    have ordered : first ≤ last := by omega
    have there : first ≤ lineCount source := by omega
    obtain ⟨before, other, behind, cuts⟩ := exists_cutsLines (by omega) ordered there
    cases found.symm.trans (cuts.linesFrom?_eq ordered there)
    exact ⟨ordered, there, before, behind, cuts⟩
  · intro given
    obtain ⟨ordered, there, before, behind, cuts⟩ := given
    exact cuts.linesFrom?_eq ordered there

theorem getD_linesFrom?_append (counted : 1 ≤ first) (ordered : first ≤ mid) (further : mid < last)
    (text : List Char) :
    (linesFrom? first last text).getD [] =
      (linesFrom? first mid text).getD [] ++ (linesFrom? (mid + 1) last text).getD [] := by
  rw [getD_linesFrom? counted (by omega), getD_linesFrom? counted ordered,
    getD_linesFrom? (Nat.le_add_left 1 mid) further]
  have taken : last - first + 1 = (mid - first + 1) + (last - (mid + 1) + 1) := by omega
  have skipped : mid + 1 - 1 = first - 1 + (mid - first + 1) := by omega
  rw [taken, skipped, linesBehind_add]

theorem getD_linesFrom?_whole (reached : lineCount text ≤ last) :
    (linesFrom? 1 last text).getD [] = text := by
  by_cases ordered : 1 ≤ last
  · rw [getD_linesFrom? (Nat.le_refl 1) ordered]
    exact linesBehind_zero (by omega)
  · have empty : text = [] := lineCount_eq_zero_iff.mp (by omega)
    rw [linesFrom?_eq_none_iff.mpr (by omega), empty, Option.getD_none]

/-! ### Numbers of lines in machine words -/

section Words

variable {width : Nat} {x y z : BitVec width}

def wordSub? (x y : BitVec width) : Option (BitVec width) :=
  if x.usubOverflow y then none else some (x - y)

def wordAdd? (x y : BitVec width) : Option (BitVec width) :=
  if x.uaddOverflow y then none else some (x + y)

/-- The lines from `first` to `last` where all numbers are words; none if one of the numbers that come
up is no word. -/
def linesInWords? (first last : BitVec width) (text : List Char) : Option (Option (List Char)) :=
  if first = 0 ∨ last < first then some none
  else do
    let skipped ← wordSub? first 1
    let distance ← wordSub? last first
    let taken ← wordAdd? distance 1
    let span := linesBehind skipped.toNat taken.toNat text
    return if span = [] then none else some span

theorem exists_wordSub? (fits : y.toNat ≤ x.toNat) :
    ∃ difference, wordSub? x y = some difference ∧ difference.toNat = x.toNat - y.toNat := by
  have inside : ¬x.usubOverflow y = true := by
    rw [BitVec.usubOverflow, decide_eq_true_eq]
    exact Nat.not_lt_of_le fits
  exact ⟨x - y, if_neg inside, BitVec.toNat_sub_of_not_usubOverflow inside⟩

theorem exists_wordAdd? (fits : x.toNat + y.toNat ≤ z.toNat) :
    ∃ sum, wordAdd? x y = some sum ∧ sum.toNat = x.toNat + y.toNat := by
  have inside : ¬x.uaddOverflow y = true := by
    rw [BitVec.uaddOverflow, decide_eq_true_eq]
    exact Nat.not_le_of_lt (Nat.lt_of_le_of_lt fits z.isLt)
  exact ⟨x + y, if_neg inside, BitVec.toNat_add_of_not_uaddOverflow inside⟩

/-- No number leaves the words, whatever lines are asked for. -/
theorem linesInWords?_eq (first last : BitVec width) (text : List Char) :
    linesInWords? first last text = some (linesFrom? first.toNat last.toNat text) := by
  have sameGuard : (first = 0 ∨ last < first) ↔
      first.toNat = 0 ∨ last.toNat < first.toNat := by
    rw [BitVec.lt_def, ← BitVec.toNat_inj]
    simp
  by_cases outside : first = 0 ∨ last < first
  · rw [linesInWords?, if_pos outside, linesFrom?, if_pos (sameGuard.mp outside)]
  · have inRange := sameGuard.not.mp outside
    have bounded := last.isLt
    have one : (1 : BitVec width).toNat = 1 := by
      change 1 % 2 ^ width = 1
      exact Nat.mod_eq_of_lt (by omega)
    -- No span has more lines than its last line counts, so the sum is a word too.
    obtain ⟨skipped, isSkipped, skips⟩ :=
      exists_wordSub? (show (1 : BitVec width).toNat ≤ first.toNat by omega)
    obtain ⟨distance, isDistance, spans⟩ :=
      exists_wordSub? (show first.toNat ≤ last.toNat by omega)
    obtain ⟨taken, isTaken, takes⟩ :=
      exists_wordAdd? (show distance.toNat + (1 : BitVec width).toNat ≤ last.toNat by omega)
    rw [linesFrom?_eq (by omega) (by omega), linesInWords?, if_neg outside, isSkipped]
    simp only [Option.bind_eq_bind, Option.bind_some, isDistance, isTaken]
    rw [skips, takes, spans, one]
    rfl

end Words

/-! ### Spans of a file -/

/-- The file is cut into its lines: a run of lines that are there is found whatever words count them,
and it is the text from the start of the first to the end of the last of them; other runs are not
found. Two neighbouring runs join to the run over both, and a run over all lines is the file. -/
theorem line_spans_partition_file {tree : FileTree} {path : FilePath} {source : String}
    (readable : tree.readText? path = some source) :
    (∀ (width : Nat) (first last : BitVec width),
        linesInWords? first last source.toList =
          some ((tree.lineSpan? path first.toNat last.toNat).map String.toList)) ∧
      (∀ first last : Nat, tree.lineSpan? path first last = none ↔
        first = 0 ∨ last < first ∨ lineCount source.toList < first) ∧
      (∀ (first last : Nat) (span : String), tree.lineSpan? path first last = some span ↔
        first ≤ last ∧ first ≤ lineCount source.toList ∧
          ∃ before behind, CutsLines source.toList first last before span.toList behind) ∧
      (∀ first mid last : Nat, 1 ≤ first → first ≤ mid → mid < last →
        (tree.lineSpan? path first last).getD "" =
          (tree.lineSpan? path first mid).getD "" ++
            (tree.lineSpan? path (mid + 1) last).getD "") ∧
      ∀ last : Nat, lineCount source.toList ≤ last →
        (tree.lineSpan? path 1 last).getD "" = source := by
  have spanOf (first last : Nat) : tree.lineSpan? path first last =
      (linesFrom? first last source.toList).map String.ofList := by
    rw [FileTree.lineSpan?, readable]
    rfl
  have textOf (first last : Nat) : (tree.lineSpan? path first last).getD "" =
      String.ofList ((linesFrom? first last source.toList).getD []) := by
    rw [spanOf]
    cases linesFrom? first last source.toList <;> rfl
  refine ⟨?_, ?_, ?_, ?_, ?_⟩
  · intro width first last
    rw [linesInWords?_eq, spanOf, Option.map_map]
    simp [Function.comp_def]
  · intro first last
    rw [spanOf, Option.map_eq_none_iff, linesFrom?_eq_none_iff]
  · intro first last span
    rw [← linesFrom?_eq_some_iff, spanOf, Option.map_eq_some_iff]
    constructor
    · intro found
      obtain ⟨text, found, rfl⟩ := found
      rwa [String.toList_ofList]
    · intro found
      exact ⟨span.toList, found, String.ofList_toList⟩
  · intro first mid last counted ordered further
    rw [textOf, textOf, textOf, getD_linesFrom?_append counted ordered further,
      String.ofList_append]
  · intro last reached
    rw [textOf, getD_linesFrom?_whole reached, String.ofList_toList]

def shortPage : FileTree where
  entries := [("page.php", .file (.text "<?php\r\n\nreturn;"))]
  workingDirectory := []

/-- The greatest word may count the last line, and no line is found behind it. -/
theorem short_page_is_cut_into_its_lines :
    linesInWords? (2 : BitVec 64) (BitVec.allOnes 64) "<?php\r\n\nreturn;".toList =
        some (some "\nreturn;".toList) ∧
      shortPage.lineSpan? ⟨"/page.php"⟩ 4 4 = none ∧
      (shortPage.lineSpan? ⟨"/page.php"⟩ 1 3).getD "" =
        (shortPage.lineSpan? ⟨"/page.php"⟩ 1 2).getD "" ++
          (shortPage.lineSpan? ⟨"/page.php"⟩ 3 3).getD "" ∧
      (shortPage.lineSpan? ⟨"/page.php"⟩ 1 3).getD "" = "<?php\r\n\nreturn;" := by
  have readable : shortPage.readText? ⟨"/page.php"⟩ = some "<?php\r\n\nreturn;" := by
    decide +kernel
  obtain ⟨words, absent, found, join, whole⟩ := line_spans_partition_file readable
  have cuts : CutsLines "<?php\r\n\nreturn;".toList 2 (BitVec.allOnes 64).toNat
      "<?php\r\n".toList "\nreturn;".toList [] :=
    ⟨by decide, by decide, by decide, .inr rfl, by decide⟩
  refine ⟨?_, (absent 4 4).mpr (by decide), ?_, whole 3 (by decide)⟩
  · rw [words]
    have rest : shortPage.lineSpan? ⟨"/page.php"⟩ 2 (BitVec.allOnes 64).toNat =
        some "\nreturn;" :=
      (found _ _ _).mpr ⟨by decide, by decide, _, _, cuts⟩
    exact congrArg (fun span => some (Option.map String.toList span)) rest
  · exact join 1 2 3 (by decide) (by decide) (by decide)

/-- Lines are counted from one, so there is no run from zero to be joined. -/
theorem run_from_zero_is_not_joined :
    shortPage.readText? ⟨"/page.php"⟩ = some "<?php\r\n\nreturn;" ∧
      (shortPage.lineSpan? ⟨"/page.php"⟩ 0 1).getD "" ≠
        (shortPage.lineSpan? ⟨"/page.php"⟩ 0 0).getD "" ++
          (shortPage.lineSpan? ⟨"/page.php"⟩ 1 1).getD "" := by
  decide +kernel

end PageRoutes.Source
