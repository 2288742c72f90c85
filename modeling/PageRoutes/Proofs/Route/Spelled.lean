import PageRoutes.Proofs.Json.Parts
import PageRoutes.Proofs.Route.Actions
/-!
Records that spell a route are read as that route. An object gives the fields in any order and among
other members, an array gives the first of them in their order; what is left out is nothing. The
action counts in no other way than by what it is, however it is spelled.
-/

set_option autoImplicit false

namespace PageRoutes.Route

open Json

/-! ### Fields of a record -/

inductive SpellsField (route : Route) (depth : Nat) : String → Tree → Prop where
  | uri {tree : Tree} (written : tree.written depth = .ok (.str route.uri)) :
      SpellsField route depth "uri" tree
  | methods {tree : Tree} (written : tree.written depth = .ok (.strings route.methods)) :
      SpellsField route depth "methods" tree
  | action {tree : Tree} {value : Value} (written : tree.written depth = .ok value)
      (describes : route.action.IsWritten value) : SpellsField route depth "action" tree
  | middlewareGroups {tree : Tree}
      (written : tree.written depth = .ok (.strings route.middlewareGroups)) :
      SpellsField route depth "middleware_groups" tree
  | middleware {tree : Tree} (written : tree.written depth = .ok (.strings route.middleware)) :
      SpellsField route depth "middleware" tree
  | defaults {tree : Tree} (held : tree.value depth = .ok (.obj route.defaults)) :
      SpellsField route depth "defaults" tree
  | name {tree : Tree} {text : String} (named : route.name = some text)
      (written : tree.written depth = .ok (.str text)) : SpellsField route depth "name" tree
  | noName (unnamed : route.name = none) : SpellsField route depth "name" .null

def keeping (given : String → Bool) (route : Route) : Route where
  uri := if given "uri" then route.uri else blank.uri
  methods := if given "methods" then route.methods else blank.methods
  action := if given "action" then route.action else blank.action
  middlewareGroups :=
    if given "middleware_groups" then route.middlewareGroups else blank.middlewareGroups
  middleware := if given "middleware" then route.middleware else blank.middleware
  defaults := if given "defaults" then route.defaults else blank.defaults
  name := if given "name" then route.name else blank.name

theorem storesParts (route : Route) (depth : Nat) :
    StoresParts fields depth (route.SpellsField depth) (keeping · route) where
  congr same := by
    simp only [fields, RecordField.of, List.forall_mem_cons] at same
    simp only [keeping, same]
  store spelled := by
    cases spelled with
    | uri written =>
        exact exists_store_eq rfl (readString_of_written written) fun given => by simp [keeping]
    | methods written | middlewareGroups written | middleware written =>
        exact exists_store_eq rfl (readStrings_of_written written) fun given => by simp [keeping]
    | action written describes =>
        exact exists_store_eq rfl (readAction_of_isWritten written describes) fun given => by
          simp [keeping]
    | defaults held =>
        exact exists_store_eq rfl (readMap_value_eq_ok_iff.mpr held) fun given => by simp [keeping]
    | name named written =>
        cases written_eq_ok_iff.mp written with
        | @str _ quoted _ isText =>
            have read : readOptional readString depth (.str quoted) = .ok route.name := by
              change quoted.read.map some = .ok route.name
              rw [isText, named]
              rfl
            exact exists_store_eq rfl read fun given => by simp [keeping]
    | noName unnamed =>
        have read : readOptional readString depth .null = .ok route.name := by
          rw [unnamed]
          rfl
        exact exists_store_eq rfl read fun given => by simp [keeping]

/-! ### Records -/

/-- A record that gives these fields leaves out nothing but what is nothing. -/
structure Covers (given : String → Prop) (route : Route) : Prop where
  uri : given "uri"
  methods : given "methods"
  action : given "action" ∨ route.action = .none
  middlewareGroups : given "middleware_groups" ∨ route.middlewareGroups = []
  middleware : given "middleware" ∨ route.middleware = []
  defaults : given "defaults" ∨ route.defaults = []
  name : given "name" ∨ route.name = none

theorem Covers.keeping_eq {given : String → Bool} {route : Route}
    (covers : route.Covers (given · = true)) : route.keeping given = route := by
  have kept {α : Type} {key : String} {value empty : α}
      (covered : given key = true ∨ value = empty) :
      (if given key then value else empty) = value := by
    rcases covered with isGiven | rfl
    · rw [if_pos isGiven]
    · rw [ite_self]
  simp only [keeping, blank, new, if_pos covers.uri, if_pos covers.methods, kept covers.action,
    kept covers.middlewareGroups, kept covers.middleware, kept covers.defaults, kept covers.name]

theorem Covers.required {given : String → Prop} {route : Route} (covers : route.Covers given) :
    ∀ field ∈ fields, field.required = true → given field.key := by
  simp [fields, RecordField.of, covers.uri, covers.methods]

inductive IsSpelled (route : Route) (depth : Nat) : Tree → Prop where
  | object {members : List (Quoted × Tree)}
      (spelled : ∀ member ∈ members, SpellsMember fields (route.SpellsField depth) member)
      (once : GiveOnce fields members)
      (covers : route.Covers fun key => ∃ member ∈ members, Gives member key) :
      IsSpelled route depth (.obj members none)
  | array {front behind : List (RecordField Route)} {items : List Tree}
      (split : fields = front ++ behind)
      (spelled : List.Forall₂ (fun field item => route.SpellsField depth field.key item) front
        items)
      (covers : route.Covers fun key => key ∈ front.map (·.key)) :
      IsSpelled route depth (.arr items none)

theorem IsSpelled.read_eq {route : Route} {depth : Nat} {record : Tree}
    (spelled : route.IsSpelled depth record) : read (depth + 1) record = .ok route := by
  classical
  cases spelled with
  | @object members spelled once covers =>
      let given (key : String) : Bool := decide (∃ member ∈ members, Gives member key)
      have covered : route.Covers (given · = true) := by
        simpa only [given, decide_eq_true_iff] using covers
      have found := (route.storesParts depth).readRecord_obj given spelled once
        (fun _ _ => decide_eq_true_iff) covered.required
      rw [covered.keeping_eq] at found
      exact found
  | @array front behind items split spelled covers =>
      let given (key : String) : Bool := decide (key ∈ front.map (·.key))
      have covered : route.Covers (given · = true) := by
        simpa only [given, decide_eq_true_iff] using covers
      have distinct : (fields.map (·.key)).Nodup := by decide
      have found := (route.storesParts depth).readRecord_arr distinct given split spelled
        (fun _ _ => decide_eq_true_iff) covered.required
      rw [covered.keeping_eq] at found
      exact found

/-! ### Lists -/

section

variable {left right : String} {before behind : List Tree} {frame : Frame} {action : Action}
  {leftRecord rightRecord : Tree}

/-- However the action of a record is spelled, the list is read as it is with `null` in its place,
and then the action is put into the route of that record. A record that spells a route beside `null`
is read as that route with the action, and the list is read if the other records are. -/
theorem listOfText_ignores_spelling_of_action
    (leftHeld : Document.ofText left = ⟨.arr (before ++ leftRecord :: behind) none, false⟩)
    (rightHeld : Document.ofText right = ⟨.arr (before ++ rightRecord :: behind) none, false⟩)
    (leftSpells : frame.Spells actionDepth action leftRecord)
    (rightSpells : frame.Spells actionDepth action rightRecord) :
    listOfText left = listOfText right ∧
      listOfText left =
        (Document.read ⟨.arr (before ++ frame.plain :: behind) none, false⟩ (readList read)).map
          (·.modify before.length (withAction action)) ∧
      (∀ routes, listOfText left = .ok routes →
        ∃ route, routes[before.length]? = some route ∧ route.action = action) ∧
      (∀ route, route.IsSpelled actionDepth frame.plain →
        read (actionDepth + 1) frame.plain = .ok route ∧
          read (actionDepth + 1) leftRecord = .ok (withAction action route) ∧
          read (actionDepth + 1) rightRecord = .ok (withAction action route)) ∧
      ∀ routesBefore route routesBehind,
        readEach (read (actionDepth + 1)) before = .ok routesBefore →
        read (actionDepth + 1) frame.plain = .ok route →
        readEach (read (actionDepth + 1)) behind = .ok routesBehind →
        listOfText left = .ok (routesBefore ++ withAction action route :: routesBehind) ∧
          listOfText right = .ok (routesBefore ++ withAction action route :: routesBehind) := by
  have leftRead := leftSpells.tells.read_eq
  have rightRead := rightSpells.tells.read_eq
  rw [listOfText_of_items leftHeld, listOfText_of_items rightHeld, read_items]
  refine ⟨readEach_append_cons (leftRead.trans rightRead.symm) before behind,
    readEach_append_cons_of_map leftRead before behind, fun routes found => ?_,
    fun route spelled => ?_,
    fun routesBefore route routesBehind readBefore plainRead readBehind => ?_⟩
  · obtain ⟨route, place, recordRead⟩ := exists_of_readEach_append_cons found
    obtain ⟨bare, -, rfl⟩ := map_eq_ok_iff.mp (leftRead.symm.trans recordRead)
    exact ⟨withAction action bare, place, rfl⟩
  · rw [leftRead, rightRead, spelled.read_eq]
    exact ⟨rfl, rfl, rfl⟩
  · rw [plainRead] at leftRead rightRead
    exact ⟨readEach_append_cons_of_ok readBefore leftRead readBehind,
      readEach_append_cons_of_ok readBefore rightRead readBehind⟩

theorem listOfText_ignores_spelling_of_home_action :
    listOfText r#"[{"methods": ["GET"], "uri": "login"}, ["/", [], "Home@index"]]"# =
        .ok [{ blank with uri := "login", methods := ["GET"] },
          { blank with uri := "/", action := .controller "Home" "index" }] ∧
      listOfText (r#"[{"methods": ["GET"], "uri": "login"}, ["/", [], {"method": "index", "# ++
          r#""also": null, "type": "controller", "class": "Home"}]]"#) =
        .ok [{ blank with uri := "login", methods := ["GET"] },
          { blank with uri := "/", action := .controller "Home" "index" }] := by
  let login : Tree := .obj [(.ofText "methods", .arr [.str (.ofText "GET")] none),
    (.ofText "uri", .str (.ofText "login"))] none
  let home (action : Tree) : Tree := .arr [.str (.ofText "/"), .arr [] none, action] none
  let object : Tree := .obj [(.ofText "method", .str (.ofText "index")), (.ofText "also", .null),
    (.ofText "type", .str (.ofText "controller")), (.ofText "class", .str (.ofText "Home"))] none
  have identifierHeld :
      Document.ofText r#"[{"methods": ["GET"], "uri": "login"}, ["/", [], "Home@index"]]"# =
        ⟨.arr ([login] ++ home (.str (.ofText "Home@index")) :: []) none, false⟩ := by cbv
  have objectHeld :
      Document.ofText (r#"[{"methods": ["GET"], "uri": "login"}, ["/", [], {"method": "index", "# ++
          r#""also": null, "type": "controller", "class": "Home"}]]"#) =
        ⟨.arr ([login] ++ home object :: []) none, false⟩ := by cbv
  have byIdentifier : Action.IsWritten (.controller "Home" "index") (.str "Home@index") :=
    .ofMethod (by decide) (by decide)
  have unknown : ∀ member ∈ [("also", Value.null)], member.1 ≠ "type" ∧
      ∀ field ∈ [("class", "Home"), ("method", "index")], member.1 ≠ field.1 := by simp
  have byObject : Action.IsWritten (.controller "Home" "index") (.obj ([("method", .str "index"),
      ("also", .null)] ++ [("type", .str "controller"), ("class", .str "Home")])) :=
    .object rfl unknown List.perm_append_comm
  have holds (action : Tree) : (Frame.array (.str (.ofText "/")) (.arr [] none) []).Holds
      (some action) (home action) := .item _ _ action []
  obtain ⟨-, -, -, records, lists⟩ :=
    listOfText_ignores_spelling_of_action identifierHeld objectHeld
      (.written (holds _) rfl byIdentifier) (.written (holds object) rfl byObject)
  have covers : Covers (· ∈ ["uri", "methods", "action"]) { blank with uri := "/" } := by
    constructor <;> simp [blank, new]
  have spelled : IsSpelled { blank with uri := "/" } actionDepth (home .null) :=
    .array (List.take_append_drop 3 fields).symm
      (.cons (.uri rfl) (.cons (.methods rfl) (.cons (.action rfl .null) .nil))) covers
  exact lists [_] _ [] rfl (records _ spelled).1 rfl

end

end PageRoutes.Route
