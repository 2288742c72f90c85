/-!
Runs of lines in a text. Lines are counted from one, and each keeps the line feed that ends it.
-/

set_option autoImplicit false

namespace PageRoutes.Source

/-- The lines of a text, each with its line feed; the last one may have none. -/
def lines : List Char → List (List Char)
  | [] => []
  | c :: text =>
      if c = '\n' then [c] :: lines text
      else
        match lines text with
        | [] => [[c]]
        | line :: rest => (c :: line) :: rest

/-- The characters of the lines from `first` to `last`; none if there is no such line. -/
def linesFrom? (first last : Nat) (text : List Char) : Option (List Char) :=
  if first = 0 ∨ last < first then none
  else
    match (((lines text).drop (first - 1)).take (last - first + 1)).flatten with
    | [] => none
    | span => some span

def lineSpan? (source : String) (first last : Nat) : Option String :=
  (linesFrom? first last source.toList).map String.ofList

/-- No line is lost, added or changed. -/
theorem flatten_lines (text : List Char) : (lines text).flatten = text := by
  induction text with
  | nil => rfl
  | cons c text ih =>
      simp only [lines]
      split
      · simp [ih]
      · split
        · next found =>
            rw [found] at ih
            simpa using ih
        · next line rest found =>
            rw [found] at ih
            simpa using ih

end PageRoutes.Source
