import PageRoutes.Json.Tree
import PageRoutes.Text.Recogniser
/-!
From JSON text to trees. Each step returns the text behind what it read; behind a break there is no
text any more.
-/

set_option autoImplicit false

namespace PageRoutes.Json

open Decimal Text

def isSpace (c : Char) : Bool :=
  c == ' ' || c == '\n' || c == '\t' || c == '\r'

def skipSpace (text : List Char) : List Char :=
  text.dropWhile isSpace

def byteLength (text : List Char) : Nat :=
  text.foldl (fun total c => total + c.utf8Size) 0

/-- Four hexadecimal digits. Less than four bytes of text are a text that ended. -/
def readHex (text : List Char) : Except Break (Nat × List Char) :=
  if byteLength (text.take 4) < 4 then .error .ended
  else
    match text with
    | a :: b :: c :: d :: rest =>
        match hexValue? a, hexValue? b, hexValue? c, hexValue? d with
        | some a, some b, some c, some d => .ok (((a * 16 + b) * 16 + c) * 16 + d, rest)
        | _, _, _, _ => .error .malformed
    | _ => .error .malformed

def isHighSurrogate (unit : Nat) : Bool :=
  0xD800 ≤ unit && unit ≤ 0xDBFF

def isLowSurrogate (unit : Nat) : Bool :=
  0xDC00 ≤ unit && unit ≤ 0xDFFF

/-- What an escape by number stands for, from its first digit on. A high half must be followed by
the escape of a low half; if it is not, it stands alone and the text behind it is left as it is. -/
def readUnit (text : List Char) : Except Break (QuotedUnit × List Char) := do
  let (first, rest) ← readHex text
  if isLowSurrogate first then return (.loneSurrogate, rest)
  if ¬ isHighSurrogate first then return (.char (Char.ofNat first), rest)
  match rest with
  | [] | ['\\'] => .error .ended
  | '\\' :: 'u' :: more =>
      let (second, behind) ← readHex more
      if isLowSurrogate second then
        return (.char (Char.ofNat (0x10000 + (first - 0xD800) * 0x400 + (second - 0xDC00))), behind)
      else return (.loneSurrogate, rest)
  | _ => return (.loneSurrogate, rest)

def readEscape : List Char → Except Break (QuotedUnit × List Char)
  | [] => .error .ended
  | '"' :: rest => .ok (.char '"', rest)
  | '\\' :: rest => .ok (.char '\\', rest)
  | '/' :: rest => .ok (.char '/', rest)
  | 'b' :: rest => .ok (.char '\x08', rest)
  | 'f' :: rest => .ok (.char '\x0c', rest)
  | 'n' :: rest => .ok (.char '\n', rest)
  | 'r' :: rest => .ok (.char '\r', rest)
  | 't' :: rest => .ok (.char '\t', rest)
  | 'u' :: rest => readUnit rest
  | _ :: _ => .error .malformed

/-- A quoted text from behind its opening mark on. Every step takes at least one character, so
`fuel` may be the length of the text. -/
def readQuoted : Nat → List Char → Quoted × List Char
  | 0, _ => (⟨[], some .ended⟩, [])
  | _ + 1, [] => (⟨[], some .ended⟩, [])
  | _ + 1, '"' :: rest => (⟨[], none⟩, rest)
  | fuel + 1, '\\' :: text =>
      match readEscape text with
      | .error broken => (⟨[], some broken⟩, [])
      | .ok (unit, rest) =>
          let (quoted, behind) := readQuoted fuel rest
          (⟨unit :: quoted.units, quoted.broken⟩, behind)
  | fuel + 1, c :: text =>
      if c.toNat < 0x20 then (⟨[], some .malformed⟩, [])
      else
        let (quoted, behind) := readQuoted fuel text
        (⟨.char c :: quoted.units, quoted.broken⟩, behind)

def readDigits (text : List Char) : Except Break (List Char × List Char) :=
  match cutRun Char.isDigit text with
  | ([], []) => .error .endedInNumeral
  | ([], _) => .error .malformed
  | (digits, rest) => .ok (digits, rest)

def readWhole (text : List Char) : Except Break (List Char × List Char) := do
  let (digits, rest) ← readDigits text
  match digits with
  | '0' :: _ :: _ => .error .malformed
  | _ => return (digits, rest)

def readFraction : List Char → Except Break (Option (List Char) × List Char)
  | '.' :: text => do
      let (digits, rest) ← readDigits text
      return (some digits, rest)
  | text => .ok (none, text)

def readExponent : List Char → Except Break (Option (Bool × List Char) × List Char)
  | [] => .ok (none, [])
  | e :: text =>
      if e = 'e' ∨ e = 'E' then do
        let (negative, text) :=
          match text with
          | '-' :: text => (true, text)
          | '+' :: text => (false, text)
          | text => (false, text)
        let (digits, rest) ← readDigits text
        return (some (negative, digits), rest)
      else .ok (none, e :: text)

def readMagnitude (negative : Bool) (text : List Char) : Except Break (Numeral × List Char) := do
  let (whole, text) ← readWhole text
  let (fraction, text) ← readFraction text
  let (exponent, rest) ← readExponent text
  return (⟨negative, whole, fraction, exponent⟩, rest)

def readWord (word : List Char) (tree : Tree) (text : List Char) : Tree × List Char :=
  match after? word text with
  | some rest => (tree, rest)
  | none => (.cut (if text.isPrefixOf word then .ended else .malformed), [])

mutual

/-- A value, after any space. Each call of one of these functions by another takes a character or
leads to one that does, so that `fuel` may be twice the length of the text and two more. -/
def readTree : Nat → List Char → Tree × List Char
  | 0, _ => (.cut .ended, [])
  | fuel + 1, text =>
      match skipSpace text with
      | [] => (.cut .ended, [])
      | 'n' :: text => readWord ['u', 'l', 'l'] .null text
      | 't' :: text => readWord ['r', 'u', 'e'] (.bool true) text
      | 'f' :: text => readWord ['a', 'l', 's', 'e'] (.bool false) text
      | '"' :: text =>
          let (quoted, rest) := readQuoted fuel text
          (.str quoted, rest)
      | '[' :: text =>
          match skipSpace text with
          | ']' :: rest => (.arr [] none, rest)
          | [] => (.arr [] (some .ended), [])
          | text =>
              let (items, broken, rest) := readItems fuel text
              (.arr items broken, rest)
      | '{' :: text =>
          match skipSpace text with
          | '}' :: rest => (.obj [] none, rest)
          | text =>
              let (members, broken, rest) := readMembers fuel text
              (.obj members broken, rest)
      | c :: text =>
          let numeral :=
            if c = '-' then readMagnitude true text else readMagnitude false (c :: text)
          match numeral with
          | .ok (numeral, rest) => (.num numeral, rest)
          | .error broken => (.cut broken, [])

def readItems : Nat → List Char → List Tree × Option Break × List Char
  | 0, _ => ([], some .ended, [])
  | fuel + 1, text =>
      let (item, rest) := readTree fuel text
      match skipSpace rest with
      | ']' :: rest => ([item], none, rest)
      | ',' :: text =>
          let (items, broken, rest) := readItems fuel text
          (item :: items, broken, rest)
      | [] => ([item], some .ended, [])
      | _ => ([item], some .malformed, [])

def readMembers : Nat → List Char → List (Quoted × Tree) × Option Break × List Char
  | 0, _ => ([], some .ended, [])
  | fuel + 1, text =>
      match skipSpace text with
      | [] => ([], some .ended, [])
      | '"' :: text =>
          let (key, rest) := readQuoted fuel text
          match skipSpace rest with
          | [] => ([(key, .cut .ended)], some .ended, [])
          | ':' :: text =>
              let (value, rest) := readTree fuel text
              match skipSpace rest with
              | '}' :: rest => ([(key, value)], none, rest)
              | ',' :: text =>
                  let (members, broken, rest) := readMembers fuel text
                  ((key, value) :: members, broken, rest)
              | [] => ([(key, value)], some .ended, [])
              | _ => ([(key, value)], some .malformed, [])
          | _ => ([(key, .cut .malformed)], some .malformed, [])
      | _ => ([], some .malformed, [])

end

/-- A JSON text: one value, and perhaps more text behind it than space. -/
structure Document where
  root : Tree
  hasMore : Bool
deriving Repr

def Document.ofText (text : String) : Document :=
  let (root, rest) := readTree (2 * text.length + 2) text.toList
  ⟨root, !(skipSpace rest).isEmpty⟩

/-- What a document holds, read by `read`. Text behind the value is an error of its own, which is
met last. -/
def Document.read {α : Type} (document : Document) (read : Nat → Tree → Except Fault α) :
    Except Fault α := do
  let found ← read nestingLimit document.root
  if document.hasMore then throw .malformed
  return found

def Value.ofText (text : String) : Except Fault Value :=
  (Document.ofText text).read Tree.value

end PageRoutes.Json
