import PageRoutes.Json.Value
/-!
A JSON text as far as it is well formed. Where a text stops being JSON the tree holds a break, and
nothing behind the break is read. Whoever reads the tree from left to right therefore meets either
the first thing of an unexpected shape or the break, whichever comes first in the text.
-/

set_option autoImplicit false

namespace PageRoutes.Json

/-- Why a JSON text could not be read: something stands in it that JSON does not allow there, it
ends too early, or a value is not of the shape that was asked for. -/
inductive Fault where
  | malformed
  | ended
  | mismatch
deriving DecidableEq, Repr

inductive Break where
  | malformed
  | ended
  | endedInNumeral
deriving DecidableEq, Repr

def Break.whenRead : Break → Fault
  | .malformed => .malformed
  | .ended | .endedInNumeral => .ended

/-- What a break means to someone who skips the broken part: a numeral that is cut off is then not
told apart from one that goes on with something else. -/
def Break.whenSkipped : Break → Fault
  | .malformed | .endedInNumeral => .malformed
  | .ended => .ended

inductive QuotedUnit where
  | char (c : Char)
  | loneSurrogate
deriving DecidableEq, Repr

structure Quoted where
  units : List QuotedUnit
  broken : Option Break
deriving DecidableEq, Repr

def readUnits : List QuotedUnit → Except Fault (List Char)
  | [] => .ok []
  | .loneSurrogate :: _ => .error .malformed
  | .char c :: units => (readUnits units).map (c :: ·)

def readBreak : Option Break → Except Fault Unit
  | none => .ok ()
  | some broken => .error broken.whenRead

def skipBreak : Option Break → Except Fault Unit
  | none => .ok ()
  | some broken => .error broken.whenSkipped

def Quoted.read (quoted : Quoted) : Except Fault String := do
  let text ← readUnits quoted.units
  readBreak quoted.broken
  return String.ofList text

/-- A quoted text that is skipped may hold halves of surrogate pairs. -/
def Quoted.skip (quoted : Quoted) : Except Fault Unit :=
  skipBreak quoted.broken

inductive Tree where
  | null
  | bool (value : Bool)
  | num (numeral : Numeral)
  | str (quoted : Quoted)
  | arr (items : List Tree) (broken : Option Break)
  | obj (members : List (Quoted × Tree)) (broken : Option Break)
  | cut (broken : Break)
deriving Repr, Inhabited

mutual

/-- Goes past a value whose content does not matter: numbers of any size, halves of surrogate pairs
and any depth of nesting are allowed in it. -/
def Tree.skip : Tree → Except Fault Unit
  | .null | .bool _ | .num _ => .ok ()
  | .str quoted => quoted.skip
  | .arr items broken => do skipItems items; skipBreak broken
  | .obj members broken => do skipMembers members; skipBreak broken
  | .cut broken => .error broken.whenSkipped

def skipItems : List Tree → Except Fault Unit
  | [] => .ok ()
  | item :: items => do item.skip; skipItems items

def skipMembers : List (Quoted × Tree) → Except Fault Unit
  | [] => .ok ()
  | (key, value) :: members => do key.skip; value.skip; skipMembers members

end

def readNumeral (numeral : Numeral) : Except Fault Number :=
  match numeral.number? with
  | some number => .ok number
  | none => .error .malformed

/-- What someone meets who asked for another shape. A text or a number is read to its end before its
shape is refused; an array or an object is refused at its bracket. -/
def Tree.refusal : Tree → Fault
  | .null | .bool _ | .arr _ _ | .obj _ _ => .mismatch
  | .num numeral => if numeral.number?.isSome then .mismatch else .malformed
  | .str quoted =>
      match quoted.read with
      | .ok _ => .mismatch
      | .error fault => fault
  | .cut broken => broken.whenRead

def nestingLimit : Nat := 127

mutual

/-- The value with its members as they are written, which may still go `depth` levels deep. -/
def Tree.written (depth : Nat) : Tree → Except Fault Value
  | .null => .ok .null
  | .bool value => .ok (.bool value)
  | .num numeral => (readNumeral numeral).map .num
  | .str quoted => quoted.read.map .str
  | .arr items broken =>
      match depth with
      | 0 => .error .malformed
      | depth + 1 => do
          let values ← writtenItems depth items
          readBreak broken
          return .arr values
  | .obj members broken =>
      match depth with
      | 0 => .error .malformed
      | depth + 1 => do
          let values ← writtenMembers depth members
          readBreak broken
          return .obj values
  | .cut broken => .error broken.whenRead

def writtenItems (depth : Nat) : List Tree → Except Fault (List Value)
  | [] => .ok []
  | item :: items => do
      let value ← item.written depth
      let values ← writtenItems depth items
      return value :: values

def writtenMembers (depth : Nat) : List (Quoted × Tree) → Except Fault (List (String × Value))
  | [] => .ok []
  | (key, item) :: members => do
      let name ← key.read
      let value ← item.written depth
      let values ← writtenMembers depth members
      return (name, value) :: values

end

/-- The value, with the keys of each object in increasing order and each key once. -/
def Tree.value (depth : Nat) (tree : Tree) : Except Fault Value :=
  (tree.written depth).map Value.sortKeys

end PageRoutes.Json
