import PageRoutes.Json.Shape
import PageRoutes.Route.Basic
/-!
Route lists as the host application dumps them: a JSON array with one record for each route. The
action of a route is `null`, an identifier, an object that names its kind under `type`, or an array
of the kind and what belongs to it.
-/

set_option autoImplicit false

namespace PageRoutes

open Json

inductive ActionKind where
  | closure
  | controller
  | invokable
  | none
deriving DecidableEq, Repr

/-- A kind is named by its word or by its number. -/
def ActionKind.ofValue? : Value → Option ActionKind
  | .str name =>
      if name = "closure" then some .closure
      else if name = "controller" then some .controller
      else if name = "invokable" then some .invokable
      else if name = "none" then some .none
      else Option.none
  | .num (.int 0) => some .closure
  | .num (.int 1) => some .controller
  | .num (.int 2) => some .invokable
  | .num (.int 3) => some .none
  | _ => Option.none

/-- The place of a closure; none unless file, first line and last line are each given once and
well. -/
def spanOfMembers? (members : List (String × Value)) : Option SourceLines := do
  let file ← (onlyMember? "file" members).bind Value.string?
  let startLine ← (onlyMember? "start_line" members).bind Value.word?
  let endLine ← (onlyMember? "end_line" members).bind Value.word?
  return ⟨⟨file⟩, startLine, endLine⟩

def actionOfMembers? (members : List (String × Value)) : Option Action := do
  let kind ← (onlyMember? "type" members).bind ActionKind.ofValue?
  match kind with
  | .closure => return .closure (spanOfMembers? members)
  | .controller =>
      let className ← (onlyMember? "class" members).bind Value.string?
      let method ← (onlyMember? "method" members).bind Value.string?
      return .controller className method
  | .invokable =>
      let className ← (onlyMember? "class" members).bind Value.string?
      return .invokable className
  | .none => return .none

/-- The action that an array describes; a closure has no such form. -/
def actionOfItems? : List Value → Option Action
  | [] => none
  | kind :: items =>
      match ActionKind.ofValue? kind, items with
      | some .controller, [.str className, .str method] => some (.controller className method)
      | some .invokable, [.str className] => some (.invokable className)
      | some .none, [] => some .none
      | _, _ => none

def Action.ofValue? : Value → Option Action
  | .str identifier => some (ofIdentifier identifier)
  | .obj members => actionOfMembers? members
  | .arr items => actionOfItems? items
  | _ => Option.none

/-- An action is read whole before its shape is looked at. -/
def readAction : Reading Action
  | _, .null => .ok .none
  | depth, tree => do
      let value ← tree.written depth
      match Action.ofValue? value with
      | some action => return action
      | none => throw .mismatch

namespace Route

/-- The fields of a record, in the order in which an array gives them. -/
def fields : List (RecordField Route) :=
  [ .of "uri" true readString fun route uri => { route with uri },
    .of "methods" true (readList readString) fun route methods => { route with methods },
    .of "action" false readAction fun route action => { route with action },
    .of "middleware_groups" false (readList readString) fun route middlewareGroups =>
      { route with middlewareGroups },
    .of "middleware" false (readList readString) fun route middleware => { route with middleware },
    .of "defaults" false (readMap Tree.value) fun route defaults => { route with defaults },
    .of "name" false (readOptional readString) fun route name => { route with name } ]

def blank : Route :=
  { new "" .none with methods := [] }

def read : Reading Route :=
  readRecord fields blank

def listOfText (text : String) : Except Fault (List Route) :=
  (Document.ofText text).read (readList read)

end Route

end PageRoutes
