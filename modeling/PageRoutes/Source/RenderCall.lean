import PageRoutes.Text.Blank
import PageRoutes.Text.Recogniser
import PageRoutes.Text.WordCharacter
/-!
Calls that render a page. A call counts when its first argument is a quoted name and the argument
ends right behind the name; computed names do not count. `componentIn?` looks for a call of the
facade first and for a call of the helper only if the text holds none.
-/

set_option autoImplicit false

namespace PageRoutes.Source

open Text

def isQuoteMark (c : Char) : Bool :=
  c == '\'' || c == '"'

/-- A name between quotation marks, after any blanks, and the text behind it. The name is not empty
and holds no quotation mark of either kind; the two marks need not be the same. -/
def quotedName? (text : List Char) : Option (List Char × List Char) :=
  match skipBlanks text with
  | [] => none
  | mark :: text =>
      if isQuoteMark mark then
        match cutRun (!isQuoteMark ·) text with
        | (c :: name, _ :: rest) => some (c :: name, rest)
        | _ => none
      else none

def endsArgument (text : List Char) : Bool :=
  match skipBlanks text with
  | ',' :: _ | ')' :: _ => true
  | _ => false

def callOf? (opening text : List Char) : Option (List Char) :=
  match after? opening text with
  | none => none
  | some arguments =>
      match quotedName? arguments with
      | none => none
      | some (name, rest) => if endsArgument rest then some name else none

def facadeOpening : List Char := "Inertia::render(".toList

def helperOpening : List Char := "inertia(".toList

/-- As `callOf?`, unless a word character stands in front. -/
def wholeWordCallOf? (opening : List Char) (previous : Option Char) (text : List Char) :
    Option (List Char) :=
  if previous.any isWordCharacter then none else callOf? opening text

def facadeCall? (source : List Char) : Option (List Char) :=
  leftmost? (callOf? facadeOpening) source

def helperCall? (source : List Char) : Option (List Char) :=
  leftmostBehind? (wholeWordCallOf? helperOpening) none source

def componentIn? (source : String) : Option String :=
  ((facadeCall? source.toList).or (helperCall? source.toList)).map String.ofList

end PageRoutes.Source
