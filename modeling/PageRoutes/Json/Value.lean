import PageRoutes.Json.Number
/-!
JSON values, their compact text and their text over several lines. An object keeps its members in
the order in which they were put in; `Value.sortKeys` gives the form in which every object has its
keys in increasing order and each key once.
-/

set_option autoImplicit false

namespace PageRoutes.Json

inductive Value where
  | null
  | bool (value : Bool)
  | num (value : Number)
  | str (value : String)
  | arr (items : List Value)
  | obj (members : List (String × Value))
deriving Repr, Inhabited

def Value.strings (texts : List String) : Value :=
  .arr (texts.map .str)

/-- Puts a member into members with increasing keys; a member of the same key is replaced. -/
def insertMember {α : Type} (key : String) (value : α) : List (String × α) → List (String × α)
  | [] => [(key, value)]
  | (other, old) :: members =>
      if key < other then (key, value) :: (other, old) :: members
      else if key = other then (key, value) :: members
      else (other, old) :: insertMember key value members

/-- Members with increasing keys; of several members with one key the last counts. -/
def sortMembers {α : Type} (members : List (String × α)) : List (String × α) :=
  members.foldl (fun sorted (key, value) => insertMember key value sorted) []

mutual

def Value.sortKeys : Value → Value
  | .arr items => .arr (sortItems items)
  | .obj members => .obj (sortMembers (sortInMembers members))
  | value => value

def sortItems : List Value → List Value
  | [] => []
  | item :: items => item.sortKeys :: sortItems items

def sortInMembers : List (String × Value) → List (String × Value)
  | [] => []
  | (key, value) :: members => (key, value.sortKeys) :: sortInMembers members

end

/-- The value of a key that is given exactly once. -/
def onlyMember? (key : String) (members : List (String × Value)) : Option Value :=
  match members.filter (·.1 == key) with
  | [(_, value)] => some value
  | _ => none

def Value.string? : Value → Option String
  | .str text => some text
  | _ => none

def Value.word? : Value → Option Nat
  | .num (.int value) =>
      if 0 ≤ value ∧ value ≤ (maxWord64 : Int) then some value.toNat else none
  | _ => none

def hexDigit (value : Nat) : Char :=
  Nat.digitChar value

/-- A character inside a quoted text. Only the quotation mark, the backslash and control characters
below U+0020 are escaped. -/
def escape (c : Char) : List Char :=
  if c = '"' then ['\\', '"']
  else if c = '\\' then ['\\', '\\']
  else if c.toNat = 0x8 then ['\\', 'b']
  else if c.toNat = 0x9 then ['\\', 't']
  else if c.toNat = 0xA then ['\\', 'n']
  else if c.toNat = 0xC then ['\\', 'f']
  else if c.toNat = 0xD then ['\\', 'r']
  else if c.toNat < 0x20 then
    ['\\', 'u', '0', '0', hexDigit (c.toNat / 16), hexDigit (c.toNat % 16)]
  else [c]

def quoted (text : String) : List Char :=
  '"' :: text.toList.flatMap escape ++ ['"']

mutual

def Value.compact : Value → List Char
  | .null => ['n', 'u', 'l', 'l']
  | .bool true => ['t', 'r', 'u', 'e']
  | .bool false => ['f', 'a', 'l', 's', 'e']
  | .num number => number.text
  | .str text => quoted text
  | .arr [] => ['[', ']']
  | .arr (item :: items) => '[' :: item.compact ++ compactItems items
  | .obj [] => ['{', '}']
  | .obj ((key, value) :: members) =>
      '{' :: quoted key ++ ':' :: value.compact ++ compactMembers members

def compactItems : List Value → List Char
  | [] => [']']
  | item :: items => ',' :: item.compact ++ compactItems items

def compactMembers : List (String × Value) → List Char
  | [] => ['}']
  | (key, value) :: members => ',' :: quoted key ++ ':' :: value.compact ++ compactMembers members

end

def newLine (level : Nat) : List Char :=
  '\n' :: List.replicate (2 * level) ' '

mutual

/-- The text of a value that stands at a level of nesting, with each item and each member on a line
of its own. An empty array and an empty object stay on one line. -/
def Value.prettyAt (level : Nat) : Value → List Char
  | .null => ['n', 'u', 'l', 'l']
  | .bool true => ['t', 'r', 'u', 'e']
  | .bool false => ['f', 'a', 'l', 's', 'e']
  | .num number => number.text
  | .str text => quoted text
  | .arr [] => ['[', ']']
  | .arr (item :: items) =>
      '[' :: newLine (level + 1) ++ item.prettyAt (level + 1) ++ prettyItems level items
  | .obj [] => ['{', '}']
  | .obj ((key, value) :: members) =>
      '{' :: newLine (level + 1) ++ quoted key ++ ':' :: ' ' :: value.prettyAt (level + 1) ++
        prettyMembers level members

def prettyItems (level : Nat) : List Value → List Char
  | [] => newLine level ++ [']']
  | item :: items =>
      ',' :: newLine (level + 1) ++ item.prettyAt (level + 1) ++ prettyItems level items

def prettyMembers (level : Nat) : List (String × Value) → List Char
  | [] => newLine level ++ ['}']
  | (key, value) :: members =>
      ',' :: newLine (level + 1) ++ quoted key ++ ':' :: ' ' :: value.prettyAt (level + 1) ++
        prettyMembers level members

end

def Value.text (value : Value) : String :=
  String.ofList value.compact

def Value.prettyText (value : Value) : String :=
  String.ofList (value.prettyAt 0)

end PageRoutes.Json
