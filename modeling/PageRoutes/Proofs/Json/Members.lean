import Mathlib.Data.String.Basic
import PageRoutes.Json.Shape
/-!
Members by key. Sorted members have each key once, so that the value of a key is the one it stands
beside. A map of any values is read out of exactly the texts that hold an object, and a value of a
known shape is read by its reader.
-/

set_option autoImplicit false

namespace PageRoutes.Json

/-! ### Sorted members -/

section

variable {α β : Type}

def Increasing (members : List (String × α)) : Prop :=
  members.Pairwise fun first second => first.1 < second.1

theorem mem_of_mem_insertMember {key : String} {value : α} {members : List (String × α)}
    {member : String × α} (present : member ∈ insertMember key value members) :
    member = (key, value) ∨ member ∈ members := by
  induction members with
  | nil => exact .inl (List.mem_singleton.mp present)
  | cons first others ih =>
      obtain ⟨other, old⟩ := first
      rw [insertMember] at present
      split_ifs at present with before same
      · exact List.mem_cons.mp present
      · rcases List.mem_cons.mp present with here | behind
        · exact .inl here
        · exact .inr (List.mem_cons_of_mem _ behind)
      · rcases List.mem_cons.mp present with rfl | behind
        · exact .inr List.mem_cons_self
        · exact (ih behind).imp_right (List.mem_cons_of_mem _)

theorem Increasing.insertMember {members : List (String × α)} (increasing : Increasing members)
    (key : String) (value : α) : Increasing (insertMember key value members) := by
  induction members with
  | nil => exact List.pairwise_singleton _ _
  | cons first others ih =>
      obtain ⟨other, old⟩ := first
      obtain ⟨behindFirst, othersIncreasing⟩ := List.pairwise_cons.mp increasing
      rw [Json.insertMember]
      split_ifs with before same
      · refine List.pairwise_cons.mpr ⟨fun member present => ?_, increasing⟩
        rcases List.mem_cons.mp present with rfl | behind
        · exact before
        · exact before.trans (behindFirst member behind)
      · subst same
        exact List.pairwise_cons.mpr ⟨behindFirst, othersIncreasing⟩
      · refine List.pairwise_cons.mpr ⟨fun member present => ?_, ih othersIncreasing⟩
        rcases mem_of_mem_insertMember present with rfl | behind
        · exact lt_of_le_of_ne (not_lt.mp before) (Ne.symm same)
        · exact behindFirst member behind

theorem increasing_sortMembers (members : List (String × α)) :
    Increasing (sortMembers members) := by
  have step (sorted : List (String × α)) (increasing : Increasing sorted) :
      Increasing (members.foldl (fun sorted member => insertMember member.1 member.2 sorted)
        sorted) := by
    induction members generalizing sorted with
    | nil => exact increasing
    | cons member members ih => exact ih _ (increasing.insertMember member.1 member.2)
  exact step [] List.Pairwise.nil

/-- The value of a key is the one it stands beside. -/
theorem Increasing.lookup_eq_some_iff {members : List (String × α)}
    (increasing : Increasing members) {key : String} {value : α} :
    members.lookup key = some value ↔ (key, value) ∈ members := by
  rw [List.lookup_eq_some_iff]
  constructor
  · rintro ⟨before, behind, rfl, -⟩
    exact List.mem_append_right before List.mem_cons_self
  · intro present
    obtain ⟨before, behind, rfl⟩ := List.append_of_mem present
    refine ⟨before, behind, rfl, fun earlier member => ?_⟩
    have smaller := (List.pairwise_append.mp increasing).2.2 earlier member (key, value)
      List.mem_cons_self
    exact bne_iff_ne.mpr smaller.ne'

def accepted (read : α → Option β) (members : List (String × α)) : List (String × β) :=
  members.filterMap fun (key, value) => (read value).map fun found => (key, found)

theorem mem_accepted_iff {read : α → Option β} {members : List (String × α)} {key : String}
    {found : β} :
    (key, found) ∈ accepted read members ↔
      ∃ value, (key, value) ∈ members ∧ read value = some found := by
  simp only [accepted, List.mem_filterMap, Option.map_eq_some_iff, Prod.exists, Prod.mk.injEq]
  constructor
  · rintro ⟨_, value, present, _, read, rfl, rfl⟩
    exact ⟨value, present, read⟩
  · rintro ⟨value, present, read⟩
    exact ⟨key, value, present, found, read, rfl, rfl⟩

theorem Increasing.accepted {members : List (String × α)} (increasing : Increasing members)
    (read : α → Option β) : Increasing (accepted read members) := by
  refine List.pairwise_filterMap.mpr (increasing.imp ?_)
  intro first second smaller left leftRead right rightRead
  obtain ⟨_, -, rfl⟩ := Option.map_eq_some_iff.mp leftRead
  obtain ⟨_, -, rfl⟩ := Option.map_eq_some_iff.mp rightRead
  exact smaller

end

/-! ### Keys that are given once -/

section

variable {key : String} {members others : List (String × Value)}

theorem onlyMember?_eq_some_iff {value : Value} :
    onlyMember? key members = some value ↔ members.filter (·.1 == key) = [(key, value)] := by
  have sameKey : ∀ member ∈ members.filter (·.1 == key), member.1 = key :=
    fun member kept => beq_iff_eq.mp (List.mem_filter.mp kept).2
  rw [onlyMember?]
  cases found : members.filter (·.1 == key) with
  | nil => simp
  | cons member more =>
      obtain ⟨name, only⟩ := member
      have isKey : name = key := sameKey (name, only) (found ▸ List.mem_cons_self)
      cases more with
      | nil => simp [isKey]
      | cons => simp

theorem onlyMember?_perm (arranged : members.Perm others) :
    onlyMember? key members = onlyMember? key others := by
  have kept := arranged.filter (·.1 == key)
  ext value
  rw [onlyMember?_eq_some_iff, onlyMember?_eq_some_iff]
  constructor
  · intro single
    rw [single] at kept
    exact List.perm_singleton.mp kept.symm
  · intro single
    rw [single] at kept
    exact List.perm_singleton.mp kept

theorem onlyMember?_append (free : ∀ member ∈ others, member.1 ≠ key) :
    onlyMember? key (members ++ others) = onlyMember? key members := by
  have noneKept : others.filter (·.1 == key) = [] :=
    List.filter_eq_nil_iff.mpr fun member present same => free member present (beq_iff_eq.mp same)
  rw [onlyMember?, List.filter_append, noneKept, List.append_nil, onlyMember?]

end

/-! ### Objects -/

section

variable {α β : Type} {reading : Except Fault α}

theorem bind_eq_ok_iff {next : α → Except Fault β} {result : β} :
    (reading >>= next) = .ok result ↔ ∃ value, reading = .ok value ∧ next value = .ok result := by
  cases reading with
  | error fault => simp [bind, Except.bind]
  | ok value => simp [bind, Except.bind]

theorem map_eq_ok_iff {f : α → β} {result : β} :
    reading.map f = .ok result ↔ ∃ value, reading = .ok value ∧ f value = result := by
  cases reading with
  | error fault => simp [Except.map]
  | ok value => simp [Except.map]

end

theorem eq_none_of_readBreak {broken : Option Break} {result : Unit}
    (unbroken : readBreak broken = .ok result) : broken = none := by
  cases broken with
  | none => rfl
  | some broken => cases unbroken

theorem readEachMember_value (depth : Nat) (members : List (Quoted × Tree)) :
    readEachMember (Tree.value depth) members =
      (writtenMembers depth members).map sortInMembers := by
  induction members with
  | nil => rfl
  | cons member members ih =>
      obtain ⟨key, item⟩ := member
      simp only [readEachMember, writtenMembers, Tree.value, ih, bind, Except.bind]
      cases key.read with
      | error fault => rfl
      | ok name =>
          cases item.written depth with
          | error fault => rfl
          | ok value =>
              cases writtenMembers depth members with
              | error fault => rfl
              | ok values => rfl

theorem sortKeys_eq_obj_iff {value : Value} {sorted : List (String × Value)} :
    value.sortKeys = .obj sorted ↔
      ∃ members, value = .obj members ∧ sortMembers (sortInMembers members) = sorted := by
  cases value <;> simp [Value.sortKeys]

inductive Tree.StandsFor : Nat → Tree → Value → Prop where
  | null {depth : Nat} : StandsFor depth .null .null
  | bool {depth : Nat} (value : Bool) : StandsFor depth (.bool value) (.bool value)
  | num {depth : Nat} {numeral : Numeral} {number : Number}
      (isNumber : numeral.number? = some number) : StandsFor depth (.num numeral) (.num number)
  | str {depth : Nat} {quoted : Quoted} {text : String} (isText : quoted.read = .ok text) :
      StandsFor depth (.str quoted) (.str text)
  | arr {depth : Nat} {items : List Tree} {values : List Value}
      (written : writtenItems depth items = .ok values) :
      StandsFor (depth + 1) (.arr items none) (.arr values)
  | obj {depth : Nat} {given : List (Quoted × Tree)} {members : List (String × Value)}
      (written : writtenMembers depth given = .ok members) :
      StandsFor (depth + 1) (.obj given none) (.obj members)

theorem written_eq_ok_iff {depth : Nat} {tree : Tree} {value : Value} :
    tree.written depth = .ok value ↔ tree.StandsFor depth value := by
  constructor
  · intro written
    cases tree with
    | null =>
        cases written
        exact .null
    | bool given =>
        cases written
        exact .bool given
    | num numeral =>
        obtain ⟨number, read, rfl⟩ := map_eq_ok_iff.mp written
        cases found : numeral.number? with
        | none =>
            rw [readNumeral, found] at read
            cases read
        | some same =>
            rw [readNumeral, found] at read
            cases read
            exact .num found
    | str quoted =>
        obtain ⟨text, read, rfl⟩ := map_eq_ok_iff.mp written
        exact .str read
    | arr items broken =>
        cases depth with
        | zero => cases written
        | succ inner =>
            obtain ⟨values, read, written⟩ := bind_eq_ok_iff.mp written
            obtain ⟨_, unbroken, written⟩ := bind_eq_ok_iff.mp written
            obtain rfl := eq_none_of_readBreak unbroken
            cases written
            exact .arr read
    | obj given broken =>
        cases depth with
        | zero => cases written
        | succ inner =>
            obtain ⟨members, read, written⟩ := bind_eq_ok_iff.mp written
            obtain ⟨_, unbroken, written⟩ := bind_eq_ok_iff.mp written
            obtain rfl := eq_none_of_readBreak unbroken
            cases written
            exact .obj read
    | cut => cases written
  · intro standsFor
    cases standsFor with
    | null | bool => rfl
    | num isNumber =>
        rw [Tree.written, readNumeral, isNumber]
        rfl
    | str isText =>
        rw [Tree.written, isText]
        rfl
    | arr written | obj written =>
        simp only [Tree.written, written, readBreak, bind, Except.bind, pure, Except.pure]

theorem written_eq_obj_iff {depth : Nat} {tree : Tree} {members : List (String × Value)} :
    tree.written depth = .ok (.obj members) ↔
      ∃ inner given, depth = inner + 1 ∧ tree = .obj given none ∧
        writtenMembers inner given = .ok members := by
  rw [written_eq_ok_iff]
  constructor
  · rintro ⟨⟩
    exact ⟨_, _, rfl, rfl, by assumption⟩
  · rintro ⟨inner, given, rfl, rfl, read⟩
    exact .obj read

theorem readMap_value_eq_ok_iff {depth : Nat} {tree : Tree} {sorted : List (String × Value)} :
    readMap Tree.value depth tree = .ok sorted ↔ tree.value depth = .ok (.obj sorted) := by
  have byWritten : tree.value depth = .ok (.obj sorted) ↔
      ∃ inner given members, depth = inner + 1 ∧ tree = .obj given none ∧
        writtenMembers inner given = .ok members ∧
        sortMembers (sortInMembers members) = sorted := by
    simp only [Tree.value, map_eq_ok_iff, sortKeys_eq_obj_iff]
    constructor
    · rintro ⟨_, written, members, rfl, rfl⟩
      obtain ⟨inner, given, rfl, rfl, read⟩ := written_eq_obj_iff.mp written
      exact ⟨inner, given, members, rfl, rfl, read, rfl⟩
    · rintro ⟨inner, given, members, rfl, rfl, read, rfl⟩
      exact ⟨_, written_eq_obj_iff.mpr ⟨inner, given, rfl, rfl, read⟩, members, rfl, rfl⟩
  rw [byWritten]
  constructor
  · intro mapped
    cases tree with
    | obj given broken =>
        cases depth with
        | zero => cases mapped
        | succ inner =>
            obtain ⟨values, read, mapped⟩ := bind_eq_ok_iff.mp mapped
            obtain ⟨_, unbroken, mapped⟩ := bind_eq_ok_iff.mp mapped
            obtain rfl := eq_none_of_readBreak unbroken
            rw [readEachMember_value] at read
            obtain ⟨members, written, rfl⟩ := map_eq_ok_iff.mp read
            cases mapped
            exact ⟨inner, given, members, rfl, rfl, written, rfl⟩
    | null | bool | num | str | arr | cut => cases depth <;> cases mapped
  · rintro ⟨inner, given, members, rfl, rfl, read, rfl⟩
    simp only [readMap, readEachMember_value, read, Except.map, readBreak, bind, Except.bind, pure,
      Except.pure]

theorem Document.read_eq_ok_iff {α : Type} {document : Document}
    {read : Nat → Tree → Except Fault α} {found : α} :
    document.read read = .ok found ↔
      read nestingLimit document.root = .ok found ∧ document.hasMore = false := by
  rw [Document.read, bind_eq_ok_iff]
  cases document.hasMore with
  | true => simp [throw, throwThe, MonadExceptOf.throw, bind, Except.bind]
  | false => simp [pure, Except.pure]

/-- A map of any values is read out of exactly the texts that hold an object. -/
theorem read_readMap_value_eq_ok_iff {text : String} {sorted : List (String × Value)} :
    (Document.ofText text).read (readMap Tree.value) = .ok sorted ↔
      Value.ofText text = .ok (.obj sorted) := by
  rw [Value.ofText, Document.read_eq_ok_iff, Document.read_eq_ok_iff, readMap_value_eq_ok_iff]

theorem increasing_of_ofText_eq_obj {text : String} {sorted : List (String × Value)}
    (held : Value.ofText text = .ok (.obj sorted)) : Increasing sorted := by
  obtain ⟨_, -, isSorted⟩ := map_eq_ok_iff.mp (Document.read_eq_ok_iff.mp held).1
  obtain ⟨members, -, rfl⟩ := sortKeys_eq_obj_iff.mp isSorted
  exact increasing_sortMembers _

/-! ### What is read of a value -/

section

variable {depth : Nat} {tree : Tree}

theorem readString_of_written {text : String} (written : tree.written depth = .ok (.str text)) :
    readString depth tree = .ok text := by
  cases written_eq_ok_iff.mp written with
  | str isText => exact isText

theorem readBool_of_written {value : Bool} (written : tree.written depth = .ok (.bool value)) :
    readBool depth tree = .ok value := by
  cases written_eq_ok_iff.mp written with
  | bool => rfl

theorem readInteger_of_written {least greatest value : Int}
    (fits : least ≤ value ∧ value ≤ greatest)
    (written : tree.written depth = .ok (.num (.int value))) :
    readInteger least greatest depth tree = .ok value := by
  cases written_eq_ok_iff.mp written with
  | num isNumber => simp only [readInteger, isNumber, if_pos fits]

theorem readEach_of_written {α : Type} {read : Reading α} {form : α → Value}
    (reads : ∀ {item : Tree} {value : α}, item.written depth = .ok (form value) →
      read depth item = .ok value) {items : List Tree} {values : List α}
    (written : writtenItems depth items = .ok (values.map form)) :
    readEach (read depth) items = .ok values := by
  induction items generalizing values with
  | nil =>
      cases values with
      | nil => rfl
      | cons => cases written
  | cons item items ih =>
      obtain ⟨first, firstWritten, written⟩ := bind_eq_ok_iff.mp written
      obtain ⟨others, othersWritten, written⟩ := bind_eq_ok_iff.mp written
      cases values with
      | nil => cases written
      | cons value values =>
          cases written
          simp only [readEach, reads firstWritten, ih othersWritten, bind, Except.bind, pure,
            Except.pure]

theorem readList_of_written {α : Type} {read : Reading α} {form : α → Value}
    (reads : ∀ {depth : Nat} {item : Tree} {value : α}, item.written depth = .ok (form value) →
      read depth item = .ok value) {values : List α}
    (written : tree.written depth = .ok (.arr (values.map form))) :
    readList read depth tree = .ok values := by
  cases written_eq_ok_iff.mp written with
  | arr itemsWritten =>
      simp only [readList, readEach_of_written reads itemsWritten, readBreak, bind, Except.bind,
        pure, Except.pure]

theorem readStrings_of_written {texts : List String}
    (written : tree.written depth = .ok (.strings texts)) :
    readList readString depth tree = .ok texts :=
  readList_of_written readString_of_written written

end

end PageRoutes.Json
