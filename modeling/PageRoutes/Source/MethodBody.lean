import PageRoutes.Text.Blank
import PageRoutes.Text.Recogniser
/-!
The body of a method in source text. A method is found by the form of its declaration and its body
ends where braces are balanced again. Braces in quoted text and in comments count like any others; a
body that is never closed reaches to the end of the text.
-/

set_option autoImplicit false

namespace PageRoutes.Source

open Text

/-- The text behind the brace that opens a body, read from behind the parameter list on. A colon and
a result type of at least one character may stand in front of the brace; the type may run over
anything but a brace. -/
def afterOpeningBrace? (text : List Char) : Option (List Char) :=
  match skipBlanks text with
  | '{' :: body => some body
  | ':' :: result =>
      match cutRun (· ≠ '{') result with
      | (_ :: _, '{' :: body) => some body
      | _ => none
  | _ => none

def afterParameters? (text : List Char) : Option (List Char) :=
  match skipBlanks text with
  | '(' :: parameters =>
      match parameters.dropWhile (· ≠ ')') with
      | ')' :: rest => afterOpeningBrace? rest
      | _ => none
  | _ => none

/-- The text behind the opening brace, read from behind the keyword on. At least one blank stands in
front of the name. As the name may itself begin with blanks, every end of the run of blanks is
tried, the last one first. -/
def afterName? (name : List Char) : List Char → Option (List Char)
  | [] => none
  | c :: text =>
      if isBlank c then
        match afterName? name text with
        | some body => some body
        | none => (after? name text).bind afterParameters?
      else none

def functionKeyword : List Char := "function".toList

def afterDeclaration? (name text : List Char) : Option (List Char) :=
  (after? functionKeyword text).bind (afterName? name)

/-- The text up to the brace that closes a body in which `depth` further braces are open. -/
def upToClosingBrace (depth : Nat) : List Char → List Char
  | [] => []
  | c :: text =>
      if c = '{' then c :: upToClosingBrace (depth + 1) text
      else if c = '}' then
        match depth with
        | 0 => []
        | depth + 1 => c :: upToClosingBrace depth text
      else c :: upToClosingBrace depth text

def bodyOf? (name source : List Char) : Option (List Char) :=
  (leftmost? (afterDeclaration? name) source).map (upToClosingBrace 0)

def methodBody? (source method : String) : Option String :=
  (bodyOf? method.toList source.toList).map String.ofList

end PageRoutes.Source
