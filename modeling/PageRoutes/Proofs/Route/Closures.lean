import PageRoutes.Component.Standard
import PageRoutes.Proofs.Route.Actions
/-!
Closures whose place is given badly. The place of a closure is there if its file, its first line and
its last line are each given once and well. If it is not, the closure has no place, and nothing else
of the route or of the list changes.
-/

set_option autoImplicit false

namespace PageRoutes

open Json

/-! ### The place of a closure -/

structure HoldsPlace (members : List (String × Value)) (place : SourceLines) : Prop where
  file : members.filter (·.1 == "file") = [("file", .str place.file.text)]
  startLine : members.filter (·.1 == "start_line") = [("start_line", .num (.int place.startLine))]
  endLine : members.filter (·.1 == "end_line") = [("end_line", .num (.int place.endLine))]
  startFits : place.startLine ≤ maxWord64
  endFits : place.endLine ≤ maxWord64

section

variable {members : List (String × Value)} {key : String}

theorem onlyString?_eq_some_iff {text : String} :
    (onlyMember? key members).bind Value.string? = some text ↔
      members.filter (·.1 == key) = [(key, .str text)] := by
  rw [Option.bind_eq_some_iff, ← onlyMember?_eq_some_iff]
  constructor
  · rintro ⟨value, only, isText⟩
    cases value with
    | str =>
        cases isText
        exact only
    | null | bool | num | arr | obj => cases isText
  · exact fun only => ⟨_, only, rfl⟩

theorem word?_eq_some_iff {value : Value} {word : Nat} :
    value.word? = some word ↔ value = .num (.int word) ∧ word ≤ maxWord64 := by
  constructor
  · intro isWord
    unfold Value.word? at isWord
    split at isWord
    · next integer =>
        split_ifs at isWord with fits
        obtain rfl := Option.some.inj isWord
        have same : ((integer.toNat : Nat) : Int) = integer := Int.toNat_of_nonneg fits.1
        exact ⟨by rw [same], by omega⟩
    · cases isWord
  · rintro ⟨rfl, fits⟩
    have inRange : (0 : Int) ≤ (word : Int) ∧ (word : Int) ≤ (maxWord64 : Int) := by omega
    simp only [Value.word?, if_pos inRange, Int.toNat_natCast]

theorem onlyWord?_eq_some_iff {word : Nat} :
    (onlyMember? key members).bind Value.word? = some word ↔
      members.filter (·.1 == key) = [(key, .num (.int word))] ∧ word ≤ maxWord64 := by
  rw [Option.bind_eq_some_iff, ← onlyMember?_eq_some_iff]
  simp only [word?_eq_some_iff]
  constructor
  · rintro ⟨value, only, rfl, fits⟩
    exact ⟨only, fits⟩
  · exact fun ⟨only, fits⟩ => ⟨_, only, rfl, fits⟩

theorem spanOfMembers?_eq_some_iff {place : SourceLines} :
    spanOfMembers? members = some place ↔ HoldsPlace members place := by
  simp only [spanOfMembers?, bind, Option.bind_eq_some_iff, pure, Option.some.injEq]
  constructor
  · rintro ⟨file, isFile, startLine, isStart, endLine, isEnd, rfl⟩
    obtain ⟨start, startFits⟩ := onlyWord?_eq_some_iff.mp (Option.bind_eq_some_iff.mpr isStart)
    obtain ⟨stop, endFits⟩ := onlyWord?_eq_some_iff.mp (Option.bind_eq_some_iff.mpr isEnd)
    exact ⟨onlyString?_eq_some_iff.mp (Option.bind_eq_some_iff.mpr isFile), start, stop, startFits,
      endFits⟩
  · rintro ⟨file, start, stop, startFits, endFits⟩
    exact ⟨_, Option.bind_eq_some_iff.mp (onlyString?_eq_some_iff.mpr file),
      _, Option.bind_eq_some_iff.mp (onlyWord?_eq_some_iff.mpr ⟨start, startFits⟩),
      _, Option.bind_eq_some_iff.mp (onlyWord?_eq_some_iff.mpr ⟨stop, endFits⟩), rfl⟩

end

/-! ### Objects that describe a closure -/

def DescribesClosure (members : List (String × Value)) : Prop :=
  ∃ kind, members.filter (·.1 == "type") = [("type", kind)] ∧
    ActionKind.ofValue? kind = some .closure

def placeKeys : List String := ["file", "start_line", "end_line"]

/-- Apart from the place of a closure the members are the same, in any order. -/
def SameBesidesPlace (left right : List (String × Value)) : Prop :=
  (left.filter fun member => member.1 ∉ placeKeys).Perm
    (right.filter fun member => member.1 ∉ placeKeys)

theorem filter_type_besides_place (members : List (String × Value)) :
    (members.filter fun member => member.1 ∉ placeKeys).filter (·.1 == "type") =
      members.filter (·.1 == "type") := by
  rw [List.filter_filter]
  refine List.filter_congr fun member _ => ?_
  by_cases isType : member.1 = "type"
  · rw [isType]
    rfl
  · rw [beq_false_of_ne isType, Bool.false_and]

theorem DescribesClosure.of_sameBesidesPlace {left right : List (String × Value)}
    (closure : DescribesClosure left) (same : SameBesidesPlace left right) :
    DescribesClosure right := by
  obtain ⟨kind, only, isClosure⟩ := closure
  have kinds := same.filter (·.1 == "type")
  rw [filter_type_besides_place, filter_type_besides_place, only] at kinds
  exact ⟨kind, List.perm_singleton.mp kinds.symm, isClosure⟩

theorem DescribesClosure.readAction_eq {depth : Nat} {tree : Tree}
    {members : List (String × Value)} (closure : DescribesClosure members)
    (written : tree.written depth = .ok (.obj members)) :
    readAction depth tree = .ok (.closure (spanOfMembers? members)) := by
  obtain ⟨kind, only, isClosure⟩ := closure
  have described : actionOfMembers? members = some (.closure (spanOfMembers? members)) := by
    simp only [actionOfMembers?, onlyMember?_eq_some_iff.mpr only, Option.bind_some, isClosure,
      bind, pure]
  obtain ⟨inner, given, rfl, rfl, -⟩ := written_eq_obj_iff.mp written
  simp only [readAction, written, Action.ofValue?, described, bind, Except.bind, pure, Except.pure]

/-! ### Lists -/

namespace Route

/-- Whatever is done to the place of a closure, the list is still read, and nothing but the place in
the route of that closure changes. -/
theorem listOfText_survives_place_of_closure {left right : String} {before behind : List Tree}
    {frame : Frame} {leftRecord rightRecord leftAction rightAction : Tree}
    {leftMembers rightMembers : List (String × Value)} {routes : List Route}
    (leftHeld : Document.ofText left = ⟨.arr (before ++ leftRecord :: behind) none, false⟩)
    (rightHeld : Document.ofText right = ⟨.arr (before ++ rightRecord :: behind) none, false⟩)
    (leftHolds : frame.Holds (some leftAction) leftRecord)
    (rightHolds : frame.Holds (some rightAction) rightRecord)
    (leftWritten : leftAction.written actionDepth = .ok (.obj leftMembers))
    (rightWritten : rightAction.written actionDepth = .ok (.obj rightMembers))
    (closure : DescribesClosure leftMembers) (same : SameBesidesPlace leftMembers rightMembers)
    (found : listOfText left = .ok routes) :
    ∃ route location, routes[before.length]? = some route ∧ route.action.isClosure = true ∧
      listOfText right =
        .ok (routes.set before.length (withAction (.closure location) route)) ∧
      (∀ place, location = some place ↔ HoldsPlace rightMembers place) ∧
      (location = none → ∀ tree layout, (Strategy.closureSource tree layout).find?
        (withAction (.closure location) route) = none) := by
  have leftRead := (Frame.Tells.present leftHolds (closure.readAction_eq leftWritten)).read_eq
  have rightRead := (Frame.Tells.present rightHolds
    ((closure.of_sameBesidesPlace same).readAction_eq rightWritten)).read_eq
  rw [listOfText_of_items leftHeld] at found
  obtain ⟨route, atPlace, recordRead⟩ := exists_of_readEach_append_cons found
  obtain ⟨bare, -, rfl⟩ := map_eq_ok_iff.mp (leftRead.symm.trans recordRead)
  refine ⟨_, spanOfMembers? rightMembers, atPlace, rfl, ?_,
    fun place => spanOfMembers?_eq_some_iff, fun noPlace tree layout => ?_⟩
  · -- Both lists come from the one with `null` in place of the action.
    rw [readEach_append_cons_of_map leftRead] at found
    obtain ⟨plain, plainRead, rfl⟩ := map_eq_ok_iff.mp found
    have put := List.modify_eq_set_getElem? (withAction (.closure (spanOfMembers? rightMembers)))
      before.length
      (plain.modify before.length (withAction (.closure (spanOfMembers? leftMembers))))
    rw [atPlace, List.modify_modify_eq] at put
    rw [listOfText_of_items rightHeld, readEach_append_cons_of_map rightRead, plainRead]
    exact congrArg Except.ok put
  · rw [noPlace]
    rfl

theorem listOfText_survives_repeated_file :
    listOfText (r#"[["a", ["GET"]], ["/", [], {"type": "closure", "file": "x", "file": "y"}], "# ++
        r#"["b", [], "Home"]]"#) =
      .ok [{ blank with uri := "a", methods := ["GET"] },
        { blank with uri := "/", action := .closure none },
        { blank with uri := "b", action := .invokable "Home" }] := by
  let before : Tree := .arr [.str (.ofText "a"), .arr [.str (.ofText "GET")] none] none
  let behind : Tree := .arr [.str (.ofText "b"), .arr [] none, .str (.ofText "Home")] none
  let action (files : List String) : Tree := .obj ((.ofText "type", .str (.ofText "closure")) ::
    files.map fun file => (.ofText "file", .str (.ofText file))) none
  let record (files : List String) : Tree :=
    .arr [.str (.ofText "/"), .arr [] none, action files] none
  let members (files : List String) : List (String × Value) :=
    ("type", .str "closure") :: files.map fun file => ("file", .str file)
  have onceHeld : Document.ofText
      (r#"[["a", ["GET"]], ["/", [], {"type": "closure", "file": "x"}], "# ++
        r#"["b", [], "Home"]]"#) =
        ⟨.arr ([before] ++ record ["x"] :: [behind]) none, false⟩ := by cbv
  have twiceHeld : Document.ofText
      (r#"[["a", ["GET"]], ["/", [], {"type": "closure", "file": "x", "file": "y"}], "# ++
        r#"["b", [], "Home"]]"#) =
        ⟨.arr ([before] ++ record ["x", "y"] :: [behind]) none, false⟩ := by cbv
  have once : listOfText _ = .ok [{ blank with uri := "a", methods := ["GET"] },
      { blank with uri := "/", action := .closure none },
      { blank with uri := "b", action := .invokable "Home" }] := listOfText_of_items onceHeld
  have onceWritten : (action ["x"]).written actionDepth = .ok (.obj (members ["x"])) := rfl
  have twiceWritten :
      (action ["x", "y"]).written actionDepth = .ok (.obj (members ["x", "y"])) := rfl
  obtain ⟨route, location, isSecond, -, read, isPlace, -⟩ :=
    listOfText_survives_place_of_closure onceHeld twiceHeld (.item _ _ _ []) (.item _ _ _ [])
      onceWritten twiceWritten ⟨_, rfl, rfl⟩ (.refl _) once
  cases isSecond
  cases location with
  | none => exact read
  | some place =>
      have single : 2 = 1 := congrArg List.length ((isPlace place).mp rfl).file
      exact absurd single (by decide)

end Route

end PageRoutes
