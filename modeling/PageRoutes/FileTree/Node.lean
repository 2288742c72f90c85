/-!
Files and directories. A directory holds nodes under names; a place is told by the names that lead
to it, the outermost one first.
-/

set_option autoImplicit false

namespace PageRoutes

/-- What a file holds: text in UTF-8, or bytes that are none. -/
inductive Content where
  | text (text : String)
  | binary (bytes : ByteArray)

instance : DecidableEq Content
  | .text left, .text right =>
      @decidable_of_decidable_of_iff (left = right) _ _ ⟨congrArg Content.text, Content.text.inj⟩
  | .binary left, .binary right =>
      @decidable_of_decidable_of_iff (left = right) _ (ByteArray.decEq left right)
        ⟨congrArg Content.binary, Content.binary.inj⟩
  | .text _, .binary _ => isFalse Content.noConfusion
  | .binary _, .text _ => isFalse Content.noConfusion

def Content.ofBytes (bytes : ByteArray) : Content :=
  match String.fromUTF8? bytes with
  | some decoded => .text decoded
  | none => .binary bytes

abbrev Location := List String

inductive Node where
  | file (content : Content)
  | directory (entries : List (String × Node))

namespace Node

def child? : Node → String → Option Node
  | .directory entries, name => entries.lookup name
  | .file _, _ => none

def at? : Node → Location → Option Node
  | node, [] => some node
  | node, name :: names => (node.child? name).bind (·.at? names)

def setEntry (name : String) (node : Node) : List (String × Node) → List (String × Node)
  | [] => [(name, node)]
  | (other, old) :: entries =>
      if other = name then (name, node) :: entries else (other, old) :: setEntry name node entries

theorem lookup_setEntry_self (name : String) (node : Node) (entries : List (String × Node)) :
    (setEntry name node entries).lookup name = some node := by
  induction entries with
  | nil => simp [setEntry]
  | cons entry entries ih =>
      obtain ⟨other, old⟩ := entry
      by_cases same : other = name
      · simp [setEntry, same]
      · have different : (name == other) = false := beq_eq_false_iff_ne.mpr (Ne.symm same)
        rw [setEntry, if_neg same, List.lookup_cons, different]
        exact ih

theorem lookup_setEntry_of_ne {name other : String} (node : Node) (entries : List (String × Node))
    (h : other ≠ name) : (setEntry name node entries).lookup other = entries.lookup other := by
  have different : (other == name) = false := beq_eq_false_iff_ne.mpr h
  induction entries with
  | nil => simp [setEntry, List.lookup_cons, different]
  | cons entry entries ih =>
      obtain ⟨key, old⟩ := entry
      by_cases same : key = name
      · rw [setEntry, if_pos same, List.lookup_cons, List.lookup_cons, same, different]
      · rw [setEntry, if_neg same, List.lookup_cons, List.lookup_cons, ih]

/-- The node with another one at the end of some names, and with directories on the way there.
Nothing is put below a file. -/
def put : Node → Location → Node → Node
  | _, [], new => new
  | .file content, _ :: _, _ => .file content
  | .directory entries, name :: names, new =>
      let inner := (entries.lookup name).getD (.directory [])
      .directory (setEntry name (inner.put names new) entries)

def erase : Node → Location → Node
  | node, [] => node
  | .file content, _ :: _ => .file content
  | .directory entries, [name] => .directory (entries.filter (·.1 ≠ name))
  | .directory entries, name :: names =>
      match entries.lookup name with
      | some inner => .directory (setEntry name (inner.erase names) entries)
      | none => .directory entries

mutual

/-- A node and all that lies below it, with their places; directories stand in front of what they
hold. -/
def places (place : Location) : Node → List (Location × Node)
  | .file content => [(place, .file content)]
  | .directory entries => (place, .directory entries) :: placesIn place entries

def placesIn (place : Location) : List (String × Node) → List (Location × Node)
  | [] => []
  | (name, node) :: entries => node.places (place ++ [name]) ++ placesIn place entries

end

def alike : Node → Node → Bool
  | .file left, .file right => left = right
  | .directory _, .directory _ => true
  | _, _ => false

end Node

end PageRoutes
