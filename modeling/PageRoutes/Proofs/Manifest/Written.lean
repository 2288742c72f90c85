import PageRoutes.Manifest.Module
/-!
How a module is written. A text between quotes holds a word without quotes, backslashes and line ends
only where the text itself holds it; lists, parameters and lines are written piece by piece.
-/

set_option autoImplicit false

namespace PageRoutes.Manifest

open Text

/-! ### Characters that stand for themselves -/

def IsPlain (c : Char) : Prop :=
  c ≠ '\\' ∧ c ≠ '\'' ∧ c ≠ '\n' ∧ c ≠ '\r'

instance (c : Char) : Decidable (IsPlain c) :=
  inferInstanceAs (Decidable (_ ∧ _))

theorem escape_of_isPlain {c : Char} (plain : IsPlain c) : escape c = [c] := by
  obtain ⟨noBackslash, noQuote, noFeed, noReturn⟩ := plain
  simp only [escape, if_neg noBackslash, if_neg noQuote, if_neg noFeed, if_neg noReturn]

/-- An escaped character is a backslash with the character itself or with the letter of a line end. -/
theorem escape_of_not_isPlain {c : Char} (special : ¬IsPlain c) :
    ∃ mark, escape c = ['\\', mark] ∧ (mark = c ∨ mark ∈ ['n', 'r']) := by
  by_cases isBackslash : c = '\\'
  · exact ⟨c, by simp [escape, isBackslash], Or.inl rfl⟩
  by_cases isQuote : c = '\''
  · exact ⟨c, by simp [escape, isQuote], Or.inl rfl⟩
  by_cases isFeed : c = '\n'
  · exact ⟨'n', by simp [escape, isFeed], Or.inr (by decide)⟩
  by_cases isReturn : c = '\r'
  · exact ⟨'r', by simp [escape, isReturn], Or.inr (by decide)⟩
  · exact absurd ⟨isBackslash, isQuote, isFeed, isReturn⟩ special

theorem flatMap_escape_of_isPlain {text : List Char} (plain : ∀ c ∈ text, IsPlain c) :
    text.flatMap escape = text := by
  induction text with
  | nil => rfl
  | cons c text ih =>
      rw [List.flatMap_cons, escape_of_isPlain (plain c List.mem_cons_self),
        ih fun d member => plain d (List.mem_cons_of_mem c member)]
      rfl

theorem flatMap_escape_ne_nil {text : List Char} (nonempty : text ≠ []) :
    text.flatMap escape ≠ [] := by
  obtain ⟨c, others, rfl⟩ := List.exists_cons_of_ne_nil nonempty
  have firstNonempty : escape c ≠ [] := by
    by_cases plain : IsPlain c
    · rw [escape_of_isPlain plain]
      exact List.cons_ne_nil _ _
    · obtain ⟨mark, escaped, -⟩ := escape_of_not_isPlain plain
      rw [escaped]
      exact List.cons_ne_nil _ _
  rw [List.flatMap_cons]
  exact List.append_ne_nil_of_left_ne_nil firstNonempty _

/-- Escaping adds nothing but backslashes and the letters of line ends. -/
theorem mem_of_mem_flatMap_escape {d : Char} {text : List Char} (notBackslash : d ≠ '\\')
    (notLetter : d ∉ ['n', 'r']) (member : d ∈ text.flatMap escape) : d ∈ text := by
  obtain ⟨c, present, inEscaped⟩ := List.mem_flatMap.mp member
  by_cases plain : IsPlain c
  · rw [escape_of_isPlain plain, List.mem_singleton] at inEscaped
    rw [inEscaped]
    exact present
  · obtain ⟨mark, escaped, isMark⟩ := escape_of_not_isPlain plain
    rw [escaped, List.mem_cons, List.mem_singleton] at inEscaped
    have sameAsMark : d = mark := inEscaped.resolve_left notBackslash
    rcases isMark with rfl | isLetter
    · rw [sameAsMark]
      exact present
    · rw [sameAsMark] at notLetter
      exact absurd isLetter notLetter

def escaped (text : String) : String :=
  String.ofList (text.toList.flatMap escape)

theorem escaped_of_isPlain {text : String} (plain : ∀ c ∈ text.toList, IsPlain c) :
    escaped text = text := by
  rw [escaped, flatMap_escape_of_isPlain plain, String.ofList_toList]

/-! ### Words between quotes -/

/-- A word that escaping neither breaks nor makes: its characters stand for themselves, and it does
not begin with a letter that ends an escape. -/
structure IsLabel (word : List Char) : Prop where
  nonempty : word ≠ []
  plain : ∀ c ∈ word, IsPlain c
  notMark : ∀ c ∈ word.head?, c ∉ ['n', 'r']

/-- A word at the start of an escaped text is one at the start of the text itself; it does not reach
over the closing quote. -/
theorem exists_of_after?_flatMap_escape {word text rest behind : List Char}
    (plain : ∀ c ∈ word, IsPlain c)
    (found : after? word (text.flatMap escape ++ '\'' :: rest) = some behind) :
    ∃ remainder, text = word ++ remainder ∧
      behind = remainder.flatMap escape ++ '\'' :: rest := by
  induction word generalizing text with
  | nil => exact ⟨text, rfl, (Option.some.inj found).symm⟩
  | cons w word ih =>
      have firstPlain : IsPlain w := plain w List.mem_cons_self
      have othersPlain : ∀ c ∈ word, IsPlain c :=
        fun c member => plain c (List.mem_cons_of_mem w member)
      cases text with
      | nil =>
          rw [List.flatMap_nil, List.nil_append, after?, if_neg firstPlain.2.1] at found
          cases found
      | cons c text =>
          by_cases special : IsPlain c
          · rw [List.flatMap_cons, escape_of_isPlain special, List.append_assoc,
              List.singleton_append, after?] at found
            split at found
            · next same =>
                obtain ⟨remainder, rfl, behindEq⟩ := ih othersPlain found
                exact ⟨remainder, by rw [same]; rfl, behindEq⟩
            · cases found
          · obtain ⟨mark, escaped, -⟩ := escape_of_not_isPlain special
            rw [List.flatMap_cons, escaped, List.append_assoc, List.cons_append, after?,
              if_neg firstPlain.1] at found
            cases found

theorem quote_append (text : String) (rest : List Char) :
    quote text ++ rest = '\'' :: (text.toList.flatMap escape ++ '\'' :: rest) := by
  simp only [quote, List.cons_append, List.append_assoc, List.nil_append]

/-! ### Lists, parameters and lines -/

theorem commaSeparated_cons (first second : List Char) (others : List (List Char)) :
    commaSeparated (first :: second :: others) =
      first ++ ", ".toList ++ commaSeparated (second :: others) :=
  rfl

theorem parameterText_append (parameter : Parameter) (rest : List Char) :
    parameterText parameter ++ rest =
      r"{ name: ".toList ++ (quote parameter.name ++ (", required: ".toList ++
        ((if parameter.required then "true" else "false").toList ++
          (r" }".toList ++ rest)))) := by
  delta parameterText
  simp only [List.append_assoc]

theorem entryText_append (entry : Entry) (rest : List Char) :
    entryText entry ++ rest =
      r"    { pattern: ".toList ++ (quote entry.pattern ++
        (", component: ".toList ++ (quote entry.component ++
          (", middleware: [".toList ++ (commaSeparated (entry.middleware.map quote) ++
            ("], parameters: [".toList ++
              (commaSeparated (entry.parameters.map parameterText) ++
                (r"] },".toList ++ ("\n".toList ++ rest))))))))) := by
  delta entryText
  simp only [List.append_assoc]

end PageRoutes.Manifest
