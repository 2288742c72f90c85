import PageRoutes.Manifest.Basic
import PageRoutes.Text.Blank
import PageRoutes.Text.Recogniser
/-!
Reading a manifest back from a module. A module is a comment line and one exported object, whose only
field is the list of routes; blanks may stand between any two tokens. Inside single quotes a
backslash escapes the character behind it, and the first quote that is not escaped ends the text.
-/

set_option autoImplicit false

namespace PageRoutes.Manifest

open Text

def unescape? (c : Char) : Option Char :=
  if c = '\\' ∨ c = '\'' then some c
  else if c = 'n' then some '\n'
  else if c = 'r' then some '\r'
  else none

/-- A text from behind its opening quote on, and what stands behind its closing quote. A line end
cannot stand in it as it is. -/
def readInsideQuotes? : List Char → Option (List Char × List Char)
  | [] => none
  | '\'' :: rest => some ([], rest)
  | '\\' :: [] => none
  | '\\' :: c :: text =>
      match unescape? c, readInsideQuotes? text with
      | some plain, some (inside, rest) => some (plain :: inside, rest)
      | _, _ => none
  | c :: text =>
      if c = '\n' ∨ c = '\r' then none
      else (readInsideQuotes? text).map fun (inside, rest) => (c :: inside, rest)

def token? (token : String) (text : List Char) : Option (List Char) :=
  after? token.toList (skipBlanks text)

def readLiteral? (text : List Char) : Option (String × List Char) := do
  let (inside, rest) ← readInsideQuotes? (← token? "'" text)
  return (String.ofList inside, rest)

def readTruth? (text : List Char) : Option (Bool × List Char) :=
  match token? "true" text with
  | some rest => some (true, rest)
  | none => (token? "false" text).map fun rest => (false, rest)

/-- The items of a list from behind its opening bracket on, up to its closing bracket, which is read
too. A comma stands between two items and may stand behind the last one. Every item takes at least
one character, so `fuel` may be greater than the length of the text by one. -/
def readItems? {α : Type} (item : List Char → Option (α × List Char)) :
    Nat → List Char → Option (List α × List Char)
  | 0, _ => none
  | fuel + 1, text =>
      match token? "]" text with
      | some rest => some ([], rest)
      | none => do
          let (first, text) ← item text
          match token? "," text with
          | some text =>
              let (others, rest) ← readItems? item fuel text
              return (first :: others, rest)
          | none => return ([first], ← token? "]" text)

def readArray? {α : Type} (item : List Char → Option (α × List Char)) (text : List Char) :
    Option (List α × List Char) := do
  let text ← token? "[" text
  readItems? item (text.length + 1) text

def readValueOf? {α : Type} (name : String) (value : List Char → Option (α × List Char))
    (text : List Char) : Option (α × List Char) := do
  value (← token? ":" (← token? name text))

def readParameter? (text : List Char) : Option (Parameter × List Char) := do
  let (name, text) ← readValueOf? "name" readLiteral? (← token? r"{" text)
  let (required, text) ← readValueOf? "required" readTruth? (← token? "," text)
  return (⟨name, required⟩, ← token? r"}" text)

def readEntry? (text : List Char) : Option (Entry × List Char) := do
  let (pattern, text) ← readValueOf? "pattern" readLiteral? (← token? r"{" text)
  let (component, text) ← readValueOf? "component" readLiteral? (← token? "," text)
  let (middleware, text) ← readValueOf? "middleware" (readArray? readLiteral?) (← token? "," text)
  let (parameters, text) ←
    readValueOf? "parameters" (readArray? readParameter?) (← token? "," text)
  return (⟨pattern, component, middleware, parameters, none⟩, ← token? r"}" text)

def skipComment? (text : List Char) : Option (List Char) :=
  (token? "//" text).map fun comment => comment.dropWhile (· ≠ '\n')

def ofModule? (text : String) : Option (List Entry) := do
  let text ← token? r"{" (← token? "default" (← token? "export" (← skipComment? text.toList)))
  let (entries, text) ← readValueOf? "routes" (readArray? readEntry?) text
  let rest ← token? ";" (← token? r"}" (← token? "," text))
  if (skipBlanks rest).isEmpty then some entries else none

end PageRoutes.Manifest
