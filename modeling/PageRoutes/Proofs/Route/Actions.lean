import PageRoutes.Proofs.Route.Records
import PageRoutes.Proofs.Text.Trimming
/-!
The spellings of an action. A record may name its action by an identifier, by an object with the
kind under `type` or by an array, and may leave out what there is not. The same action is read from
each of them.
-/

set_option autoImplicit false

namespace PageRoutes

open Json Text

/-! ### Identifiers -/

namespace Action

variable {action : Action} {className method : String}

theorem ofIdentifier_method (free : '@' ∉ className.toList)
    (trimmed : IsTrimmed (className ++ "@" ++ method).toList) :
    ofIdentifier (className ++ "@" ++ method) = .controller className method := by
  have spelled :
      (className ++ "@" ++ method).toList = className.toList ++ '@' :: method.toList := by simp
  have marked : '@' ∈ className.toList ++ '@' :: method.toList :=
    List.mem_append_right _ List.mem_cons_self
  have notEmpty : (className.toList ++ '@' :: method.toList).isEmpty = false := by simp
  have notClosure : className.toList ++ '@' :: method.toList ≠ "Closure".toList := by
    intro same
    rw [same] at marked
    exact absurd marked (by decide)
  have cut : cutAtFirst? '@' (className.toList ++ '@' :: method.toList) =
      some (className.toList, method.toList) := cutAtFirst?_eq_some_iff.mpr ⟨rfl, free⟩
  simp only [ofIdentifier, trimBlanks_of_isTrimmed trimmed]
  rw [spelled, notEmpty, if_neg notClosure, cut]
  simp

theorem ofIdentifier_class (free : '@' ∉ className.toList) (trimmed : IsTrimmed className.toList)
    (nonempty : className ≠ "") (different : className ≠ "Closure") :
    ofIdentifier className = .invokable className := by
  have notEmpty : className.toList.isEmpty = false := by simpa using nonempty
  have notClosure : className.toList ≠ "Closure".toList := mt String.toList_inj.mp different
  simp only [ofIdentifier, trimBlanks_of_isTrimmed trimmed, notEmpty, Bool.false_eq_true, if_false,
    if_neg notClosure, cutAtFirst?_eq_none_iff.mpr free, String.ofList_toList]

theorem ofIdentifier_blank {text : String} (blank : ∀ c ∈ text.toList, isBlank c = true) :
    ofIdentifier text = .none := by
  simp only [ofIdentifier, trimBlanks_of_blank blank, List.isEmpty_nil, if_true]

/-! ### Values that describe an action -/

def form? : Action → Option (String × List (String × String))
  | .controller className method =>
      some ("controller", [("class", className), ("method", method)])
  | .invokable className => some ("invokable", [("class", className)])
  | .none => some ("none", [])
  | .closure _ => Option.none

/-- The value describes the action. In an object the members may have any order, and there may be
more of them. -/
inductive IsWritten : Action → Value → Prop where
  | ofMethod {className method : String} (free : '@' ∉ className.toList)
      (trimmed : IsTrimmed (className ++ "@" ++ method).toList) :
      IsWritten (.controller className method) (.str (className ++ "@" ++ method))
  | ofClass {className : String} (free : '@' ∉ className.toList)
      (trimmed : IsTrimmed className.toList) (nonempty : className ≠ "")
      (different : className ≠ "Closure") : IsWritten (.invokable className) (.str className)
  | blank {text : String} (blank : ∀ c ∈ text.toList, isBlank c = true) :
      IsWritten .none (.str text)
  | null : IsWritten .none .null
  | object {action : Action} {word : String} {fields : List (String × String)}
      {extra members : List (String × Value)} (form : action.form? = some (word, fields))
      (unknown : ∀ member ∈ extra, member.1 ≠ "type" ∧ ∀ field ∈ fields, member.1 ≠ field.1)
      (arranged : members.Perm
        ((("type", .str word) :: fields.map fun (key, text) => (key, .str text)) ++ extra)) :
      IsWritten action (.obj members)
  | array {action : Action} {word : String} {fields : List (String × String)}
      (form : action.form? = some (word, fields)) :
      IsWritten action (.arr (.str word :: fields.map fun (_, text) => .str text))

theorem spanOfMembers?_perm {members others : List (String × Value)}
    (arranged : members.Perm others) : spanOfMembers? members = spanOfMembers? others := by
  simp only [spanOfMembers?, onlyMember?_perm arranged]

theorem actionOfMembers?_perm {members others : List (String × Value)}
    (arranged : members.Perm others) : actionOfMembers? members = actionOfMembers? others := by
  simp only [actionOfMembers?, onlyMember?_perm arranged, spanOfMembers?_perm arranged]

theorem actionOfMembers?_of_form {word : String} {fields : List (String × String)}
    {extra : List (String × Value)} (form : action.form? = some (word, fields))
    (unknown : ∀ member ∈ extra, member.1 ≠ "type" ∧ ∀ field ∈ fields, member.1 ≠ field.1) :
    actionOfMembers?
        ((("type", .str word) :: fields.map fun (key, text) => (key, .str text)) ++ extra) =
      some action := by
  have noType : ∀ member ∈ extra, member.1 ≠ "type" := fun member present =>
    (unknown member present).1
  have noField : ∀ field ∈ fields, ∀ member ∈ extra, member.1 ≠ field.1 :=
    fun field isField member present => (unknown member present).2 field isField
  cases action with
  | closure => cases form
  | controller className method =>
      cases form
      have noClass := noField ("class", className) List.mem_cons_self
      have noMethod := noField ("method", method) (List.mem_cons_of_mem _ List.mem_cons_self)
      simp only [actionOfMembers?, onlyMember?_append noType, onlyMember?_append noClass,
        onlyMember?_append noMethod]
      rfl
  | invokable className =>
      cases form
      have noClass := noField ("class", className) List.mem_cons_self
      simp only [actionOfMembers?, onlyMember?_append noType, onlyMember?_append noClass]
      rfl
  | none =>
      cases form
      simp only [actionOfMembers?, onlyMember?_append noType]
      rfl

theorem IsWritten.ofValue?_eq {value : Value} (written : action.IsWritten value)
    (present : value ≠ .null) : ofValue? value = some action := by
  cases written with
  | ofMethod free trimmed => exact congrArg some (ofIdentifier_method free trimmed)
  | ofClass free trimmed nonempty different =>
      exact congrArg some (ofIdentifier_class free trimmed nonempty different)
  | blank blank => exact congrArg some (ofIdentifier_blank blank)
  | null => exact absurd rfl present
  | object form unknown arranged =>
      exact (actionOfMembers?_perm arranged).trans (actionOfMembers?_of_form form unknown)
  | array form =>
      cases action with
      | closure => cases form
      | controller | invokable | none =>
          cases form
          rfl

end Action

theorem readAction_of_isWritten {depth : Nat} {tree : Tree} {value : Value} {action : Action}
    (written : tree.written depth = .ok value) (describes : action.IsWritten value) :
    readAction depth tree = .ok action := by
  by_cases null : value = .null
  · subst null
    cases written_eq_ok_iff.mp written
    cases describes
    rfl
  · have found := describes.ofValue?_eq null
    cases tree with
    | null =>
        cases written
        exact absurd rfl null
    | bool | num | str | arr | obj | cut =>
        simp only [readAction, written, found, bind, Except.bind, pure, Except.pure]

/-! ### Lists -/

/-- The record spells the action, in one of the ways there are. An action that is nothing may be
left out. -/
inductive Frame.Spells (frame : Frame) (depth : Nat) : Action → Tree → Prop where
  | written {action : Action} {tree record : Tree} {value : Value}
      (holds : frame.Holds (some tree) record) (written : tree.written depth = .ok value)
      (describes : action.IsWritten value) : frame.Spells depth action record
  | leftOut {record : Tree} (holds : frame.Holds none record) : frame.Spells depth .none record

theorem Frame.Spells.tells {frame : Frame} {depth : Nat} {action : Action} {record : Tree}
    (spells : frame.Spells depth action record) : frame.Tells depth action record := by
  cases spells with
  | written holds written describes =>
      exact .present holds (readAction_of_isWritten written describes)
  | leftOut holds => exact .absent holds

namespace Route

def actionDepth : Nat := nestingLimit - 2

theorem read_items (items : List Tree) :
    Document.read ⟨.arr items none, false⟩ (readList read) =
      readEach (read (actionDepth + 1)) items := by
  have levels : nestingLimit = actionDepth + 1 + 1 := rfl
  simp only [Document.read, levels, readList, readBreak, bind, Except.bind, pure, Except.pure]
  cases readEach (read (actionDepth + 1)) items <;> rfl

theorem listOfText_of_items {text : String} {items : List Tree}
    (held : Document.ofText text = ⟨.arr items none, false⟩) :
    listOfText text = readEach (read (actionDepth + 1)) items := by
  rw [listOfText, held, read_items]

end Route

end PageRoutes
