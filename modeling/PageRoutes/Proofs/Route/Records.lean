import PageRoutes.Proofs.Json.Records
import PageRoutes.Proofs.Json.Tokens
import PageRoutes.Route.Listing
/-!
Records of a route list with the place of their action left open. Whatever action is put there, the
rest of the record is read as if there were none.
-/

set_option autoImplicit false

namespace PageRoutes

open Json

theorem readAction_null (depth : Nat) : readAction depth .null = .ok .none :=
  rfl

namespace Route

def actionKey : String := "action"

def withAction (action : Action) (route : Route) : Route :=
  { route with action }

theorem commutes_withAction {field : RecordField Route} (listed : field ∈ fields)
    (different : field.key ≠ actionKey) (action : Action) : field.Commutes (withAction action) := by
  simp only [fields, List.mem_cons, List.not_mem_nil, or_false] at listed
  rcases listed with rfl | rfl | rfl | rfl | rfl | rfl | rfl
  case inr.inr.inl => exact absurd rfl different
  all_goals exact RecordField.commutes_of fun _ _ => rfl

def finish : List String × Route → Except Fault Route
  | (seen, route) =>
      if fields.any fun field => field.required && field.key ∉ seen then .error .mismatch
      else .ok route

theorem read_obj (depth : Nat) (members : List (Quoted × Tree)) :
    read (depth + 1) (.obj members none) =
      storeMembers fields depth members [] blank >>= finish := by
  simp only [read, readRecord, readBreak, bind, Except.bind, finish]
  cases storeMembers fields depth members [] blank with
  | error fault => rfl
  | ok stored => dsimp only; split_ifs <;> rfl

theorem finish_withAction (action : Action) (seen : List String) (route : Route) :
    finish (seen, withAction action route) = (finish (seen, route)).map (withAction action) := by
  simp only [finish]
  split_ifs <;> rfl

/-- The members behind an action are read as if there were none. -/
theorem storeMembers_bind_finish (action : Action) (depth : Nat) (members : List (Quoted × Tree))
    {seen : List String} (early : actionKey ∈ seen) (route : Route) :
    (storeMembers fields depth members seen (withAction action route) >>= finish) =
      (storeMembers fields depth members seen route >>= finish).map (withAction action) := by
  rw [storeMembers_change fun field listed unseen _ =>
    commutes_withAction listed (fun same => unseen (same ▸ early)) action]
  cases storeMembers fields depth members seen route with
  | error fault => rfl
  | ok stored => exact finish_withAction action stored.1 stored.2

end Route

/-- A record without its action: the members of an object, or the items of an array, around it. -/
inductive Frame where
  | object (before behind : List (Quoted × Tree))
  | array (uri methods : Tree) (behind : List Tree)

namespace Frame

inductive Holds : Frame → Option Tree → Tree → Prop where
  | member {before behind : List (Quoted × Tree)} {key : Quoted}
      (named : key.read = .ok Route.actionKey) (action : Tree) :
      Holds (.object before behind) (some action) (.obj (before ++ (key, action) :: behind) none)
  | noMember {before behind : List (Quoted × Tree)}
      (free : ∀ member ∈ before ++ behind, ¬Gives member Route.actionKey) :
      Holds (.object before behind) none (.obj (before ++ behind) none)
  | item (uri methods action : Tree) (behind : List Tree) :
      Holds (.array uri methods behind) (some action)
        (.arr (uri :: methods :: action :: behind) none)
  | noItem (uri methods : Tree) :
      Holds (.array uri methods []) none (.arr [uri, methods] none)

def plain : Frame → Tree
  | .object before behind => .obj (before ++ (.ofText Route.actionKey, .null) :: behind) none
  | .array uri methods behind => .arr (uri :: methods :: .null :: behind) none

inductive Tells (frame : Frame) (depth : Nat) : Action → Tree → Prop where
  | present {action : Action} {tree record : Tree} (holds : frame.Holds (some tree) record)
      (read : readAction depth tree = .ok action) : frame.Tells depth action record
  | absent {record : Tree} (holds : frame.Holds none record) : frame.Tells depth .none record

section

variable {frame : Frame} {depth : Nat} {action : Action} {tree record : Tree}

/-- Where in an object the action stands decides only whether it is the second one. -/
theorem read_member {key : Quoted} (named : key.read = .ok Route.actionKey)
    (read : readAction depth tree = .ok action) (before behind : List (Quoted × Tree)) :
    Route.read (depth + 1) (.obj (before ++ (key, tree) :: behind) none) =
      storeMembers Route.fields depth before [] Route.blank >>= fun (seen, route) =>
        if Route.actionKey ∈ seen then .error .mismatch
        else
          (storeMembers Route.fields depth behind (Route.actionKey :: seen) route >>=
            Route.finish).map (Route.withAction action) := by
  have known : Route.fields.find? (·.key == Route.actionKey) =
      some (.of Route.actionKey false readAction fun route action => route.withAction action) := rfl
  rw [Route.read_obj, storeMembers_append]
  cases storeMembers Route.fields depth before [] Route.blank with
  | error fault => rfl
  | ok stored =>
      obtain ⟨seen, route⟩ := stored
      simp only [bind, Except.bind, storeMembers_cons_of_known named known]
      split_ifs
      · rfl
      · simp only [RecordField.of, read, Except.map]
        exact Route.storeMembers_bind_finish action depth behind List.mem_cons_self route

theorem map_withAction_map (first second : Action) (read : Except Fault Route) :
    (read.map (Route.withAction first)).map (Route.withAction second) =
      read.map (Route.withAction second) := by
  cases read <;> rfl

theorem read_member_eq {key : Quoted} (named : key.read = .ok Route.actionKey)
    (read : readAction depth tree = .ok action) (before behind : List (Quoted × Tree)) :
    Route.read (depth + 1) (.obj (before ++ (key, tree) :: behind) none) =
      (Route.read (depth + 1) (plain (.object before behind))).map (Route.withAction action) := by
  rw [read_member named read, plain, read_member (Quoted.read_ofText _) (readAction_null depth)]
  cases storeMembers Route.fields depth before [] Route.blank with
  | error fault => rfl
  | ok stored =>
      simp only [bind, Except.bind]
      split_ifs
      · rfl
      · rw [map_withAction_map]

theorem read_noMember {before behind : List (Quoted × Tree)}
    (free : ∀ member ∈ before ++ behind, ¬Json.Gives member Route.actionKey) :
    Route.read (depth + 1) (.obj (before ++ behind) none) =
      Route.read (depth + 1) (plain (.object before behind)) := by
  have unchanged : storeMembers Route.fields depth before [] (Route.withAction .none Route.blank) =
      (storeMembers Route.fields depth before [] Route.blank).map fun (seen, route) =>
        (seen, Route.withAction .none route) :=
    storeMembers_change (fun field listed _ ⟨member, present, gives⟩ =>
      Route.commutes_withAction listed
        (fun same => free member (List.mem_append_left _ present) (same ▸ gives)) .none) _
  rw [plain, read_member (Quoted.read_ofText _) (readAction_null depth), Route.read_obj,
    storeMembers_append]
  cases found : storeMembers Route.fields depth before [] Route.blank with
  | error fault => rfl
  | ok stored =>
      obtain ⟨seen, route⟩ := stored
      have early : Route.actionKey ∉ seen := by
        intro present
        rcases exists_gives_of_mem_seen found present with start | ⟨member, inBefore, gives⟩
        · cases start
        · exact free member (List.mem_append_left _ inBefore) gives
      -- The members in front set no action, so the one that the empty route has is still there.
      have noAction : Route.withAction .none route = route := by
        have same := found.symm.trans (unchanged.trans (congrArg _ found))
        exact (Prod.mk.inj (Except.ok.inj same)).2.symm
      have sameEnd {first second : List String} {route : Route}
          (same : ∀ key ≠ Route.actionKey, key ∈ first ↔ key ∈ second) :
          Route.finish (first, route) = Route.finish (second, route) := by
        simp only [Route.finish, Route.fields, RecordField.of, List.any_cons, List.any_nil,
          same "uri" (by decide), same "methods" (by decide), Bool.false_and]
      change (storeMembers Route.fields depth behind seen route >>= Route.finish) =
        if Route.actionKey ∈ seen then _ else _
      rw [if_neg early, ← Route.storeMembers_bind_finish .none depth behind List.mem_cons_self,
        noAction]
      refine storeMembers_bind_congr
        (fun member present => free member (List.mem_append_right _ present)) sameEnd ?_ route
      intro key different
      rw [List.mem_cons, or_iff_right different]

theorem read_arr (uri methods tree : Tree) (behind : List Tree) :
    Route.read (depth + 1) (.arr (uri :: methods :: tree :: behind) none) =
      readString depth uri >>= fun uri =>
        readList readString depth methods >>= fun methods =>
          readAction depth tree >>= fun action =>
            storeItems depth none (Route.fields.drop 3) behind
              ({ Route.blank with uri, methods }.withAction action) := by
  simp only [Route.read, readRecord, Route.fields, storeItems, RecordField.of]
  cases readString depth uri with
  | error fault => rfl
  | ok uri =>
      cases readList readString depth methods with
      | error fault => rfl
      | ok methods => cases readAction depth tree <;> rfl

theorem read_item (uri methods : Tree) (behind : List Tree)
    (read : readAction depth tree = .ok action) :
    Route.read (depth + 1) (.arr (uri :: methods :: tree :: behind) none) =
      (Route.read (depth + 1) (plain (.array uri methods behind))).map
        (Route.withAction action) := by
  have different : ∀ field ∈ Route.fields.drop 3, field.key ≠ Route.actionKey := by
    simp [Route.fields, RecordField.of, Route.actionKey]
  have commutes : ∀ field ∈ Route.fields.drop 3, field.Commutes (Route.withAction action) :=
    fun field listed => Route.commutes_withAction (List.mem_of_mem_drop listed)
      (different field listed) action
  rw [plain, read_arr, read_arr, read, readAction_null]
  cases readString depth uri with
  | error fault => rfl
  | ok uri =>
      cases readList readString depth methods with
      | error fault => rfl
      | ok methods => exact storeItems_change commutes behind _

theorem read_noItem (uri methods : Tree) :
    Route.read (depth + 1) (.arr [uri, methods] none) =
      Route.read (depth + 1) (plain (.array uri methods [])) := by
  rw [plain, read_arr]
  simp only [Route.read, readRecord, Route.fields, storeItems, RecordField.of]
  cases readString depth uri with
  | error fault => rfl
  | ok uri => cases readList readString depth methods <;> rfl

/-- Whatever action a record tells, its other fields are read as they are beside `null`. -/
theorem Tells.read_eq (tells : frame.Tells depth action record) :
    Route.read (depth + 1) record =
      (Route.read (depth + 1) frame.plain).map (Route.withAction action) := by
  cases tells with
  | present holds read =>
      cases holds with
      | member named => exact read_member_eq named read _ _
      | item uri methods _ behind => exact read_item uri methods behind read
  | absent holds =>
      cases holds with
      | @noMember before behind free =>
          rw [read_noMember free]
          exact read_member_eq (Quoted.read_ofText _) (readAction_null depth) before behind
      | noItem uri methods =>
          rw [read_noItem]
          exact read_item uri methods [] (readAction_null depth)

end

end Frame

end PageRoutes
