import PageRoutes.Json.Reader
/-!
Reading values of a known shape out of a tree. The first argument of a reading is the number of
levels of nesting that are still allowed. A record may be written as an object or as the array of
its fields in their order; keys that are no field are skipped.
-/

set_option autoImplicit false

namespace PageRoutes.Json

/-- Reads a value of one shape, going at most the given number of levels deep. -/
abbrev Reading (α : Type) := Nat → Tree → Except Fault α

def readString : Reading String
  | _, .str quoted => quoted.read
  | _, tree => .error tree.refusal

def readBool : Reading Bool
  | _, .bool value => .ok value
  | _, tree => .error tree.refusal

def readInteger (least greatest : Int) : Reading Int
  | _, .num numeral =>
      match numeral.number? with
      | some (.int value) =>
          if least ≤ value ∧ value ≤ greatest then .ok value else .error .mismatch
      | some (.real _) => .error .mismatch
      | none => .error .malformed
  | _, tree => .error tree.refusal

def readOptional {α : Type} (read : Reading α) : Reading (Option α)
  | _, .null => .ok none
  | depth, tree => (read depth tree).map some

def readEach {α : Type} (read : Tree → Except Fault α) : List Tree → Except Fault (List α)
  | [] => .ok []
  | item :: items => do
      let value ← read item
      let values ← readEach read items
      return value :: values

def readList {α : Type} (read : Reading α) : Reading (List α)
  | 0, .arr _ _ => .error .malformed
  | depth + 1, .arr items broken => do
      let values ← readEach (read depth) items
      readBreak broken
      return values
  | _, tree => .error tree.refusal

def readEachMember {α : Type} (read : Tree → Except Fault α) :
    List (Quoted × Tree) → Except Fault (List (String × α))
  | [] => .ok []
  | (key, item) :: members => do
      let name ← key.read
      let value ← read item
      let values ← readEachMember read members
      return (name, value) :: values

/-- An object with any keys; of several members with one key the last counts. -/
def readMap {α : Type} (read : Reading α) : Reading (List (String × α))
  | 0, .obj _ _ => .error .malformed
  | depth + 1, .obj members broken => do
      let values ← readEachMember (read depth) members
      readBreak broken
      return sortMembers values
  | _, tree => .error tree.refusal

/-- A field of a record: its key, whether it must be there, and how its value is put into a record
whose other fields may not have been read yet. -/
structure RecordField (ρ : Type) where
  key : String
  required : Bool
  store : Nat → Tree → ρ → Except Fault ρ

def RecordField.of {ρ α : Type} (key : String) (required : Bool) (read : Reading α)
    (set : ρ → α → ρ) : RecordField ρ :=
  ⟨key, required, fun depth tree record => (read depth tree).map (set record)⟩

/-- The record with the values of the members. A field may be given once only; `seen` holds the keys
of the fields that were given. -/
def storeMembers {ρ : Type} (fields : List (RecordField ρ)) (depth : Nat) :
    List (Quoted × Tree) → List String → ρ → Except Fault (List String × ρ)
  | [], seen, record => .ok (seen, record)
  | (key, value) :: members, seen, record => do
      let name ← key.read
      match fields.find? (·.key == name) with
      | none =>
          value.skip
          storeMembers fields depth members seen record
      | some field =>
          if name ∈ seen then .error .mismatch
          else
            let record ← field.store depth value record
            storeMembers fields depth members (name :: seen) record

/-- The record with the values of the items, in the order of the fields. Items at the end may be
left out unless their fields are required. -/
def storeItems {ρ : Type} (depth : Nat) (broken : Option Break) :
    List (RecordField ρ) → List Tree → ρ → Except Fault ρ
  | [], _ :: _, _ => .error .malformed
  | fields, [], record => do
      readBreak broken
      if fields.any (·.required) then throw .mismatch
      return record
  | field :: fields, item :: items, record => do
      let record ← field.store depth item record
      storeItems depth broken fields items record

/-- A record, read into one that already holds the values of the fields that may be left out. -/
def readRecord {ρ : Type} (fields : List (RecordField ρ)) (start : ρ) : Reading ρ
  | 0, .obj _ _ | 0, .arr _ _ => .error .malformed
  | depth + 1, .obj members broken => do
      let (seen, record) ← storeMembers fields depth members [] start
      readBreak broken
      if fields.any fun field => field.required && field.key ∉ seen then throw .mismatch
      return record
  | depth + 1, .arr items broken => storeItems depth broken fields items start
  | _, tree => .error tree.refusal

end PageRoutes.Json
