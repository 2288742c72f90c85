import PageRoutes.Proofs.Json.Parts
/-!
Edits of a JSON value that is read into records. An edit leaves members of an object out, gives the
others in any order and adds members with other keys. A record that can do without any of its fields
is then read as the part of it that is left.
-/

set_option autoImplicit false

namespace PageRoutes.Json

/-! ### Edits -/

def IsOther (full : List (String × Value)) (member : Quoted × Tree) : Prop :=
  ∃ key, Gives member key ∧ key ∉ full.map Prod.fst ∧ member.2.skip = .ok ()

mutual

/-- The tree is an edit of the value. Of an object, a member is kept if `kept` holds of the path of
keys that leads to it. The members that are kept are themselves edited; they may be given in any
order, and with them others whose keys the object does not have. -/
inductive Edits : (List String → Bool) → Nat → Value → Tree → Prop where
  | plain {kept : List String → Bool} {depth : Nat} {value : Value} {tree : Tree}
      (noObject : ∀ members, value ≠ .obj members) (written : tree.written depth = .ok value) :
      Edits kept depth value tree
  | object {kept : List String → Bool} {depth : Nat} {full : List (String × Value)}
      {given known others : List (Quoted × Tree)} (edited : EditsMembers kept depth full known)
      (unknown : ∀ member ∈ others, IsOther full member)
      (arranged : given.Perm (known ++ others)) :
      Edits kept (depth + 1) (.obj full) (.obj given none)

inductive EditsMembers :
    (List String → Bool) → Nat → List (String × Value) → List (Quoted × Tree) → Prop where
  | done {kept : List String → Bool} {depth : Nat} : EditsMembers kept depth [] []
  | leave {kept : List String → Bool} {depth : Nat} {key : String} {value : Value}
      {full : List (String × Value)} {known : List (Quoted × Tree)} (left : kept [key] = false)
      (edited : EditsMembers kept depth full known) :
      EditsMembers kept depth ((key, value) :: full) known
  | keep {kept : List String → Bool} {depth : Nat} {key : String} {quoted : Quoted} {value : Value}
      {tree : Tree} {full : List (String × Value)} {known : List (Quoted × Tree)}
      (isKept : kept [key] = true) (named : quoted.read = .ok key)
      (valueEdited : Edits (fun path => kept (key :: path)) depth value tree)
      (edited : EditsMembers kept depth full known) :
      EditsMembers kept depth ((key, value) :: full) ((quoted, tree) :: known)

end

/-- Only an object is edited. -/
theorem Edits.written {kept : List String → Bool} {depth : Nat} {value : Value} {tree : Tree}
    (edited : Edits kept depth value tree) (noObject : ∀ members, value ≠ .obj members) :
    tree.written depth = .ok value := by
  cases edited with
  | plain _ written => exact written
  | object => exact absurd rfl (noObject _)

/-- It is an edit to leave members out and to do nothing else. -/
theorem EditsMembers.edits {kept : List String → Bool} {depth : Nat}
    {full : List (String × Value)} {known : List (Quoted × Tree)}
    (edited : EditsMembers kept depth full known) :
    Edits kept (depth + 1) (.obj full) (.obj known none) :=
  .object edited (List.forall_mem_nil _) (by rw [List.append_nil])

mutual

/-- It is an edit to keep everything. -/
theorem edits_of_written {depth : Nat} {tree : Tree} : (value : Value) →
    tree.written depth = .ok value → Edits (fun _ => true) depth value tree
  | .obj full, written => by
      obtain ⟨inner, given, rfl, rfl, membersWritten⟩ := written_eq_obj_iff.mp written
      exact (editsMembers_of_written full membersWritten).edits
  | .null, written | .bool _, written | .num _, written | .str _, written | .arr _, written =>
      .plain (fun _ impossible => by cases impossible) written

theorem editsMembers_of_written {depth : Nat} {given : List (Quoted × Tree)} :
    (full : List (String × Value)) → writtenMembers depth given = .ok full →
    EditsMembers (fun _ => true) depth full given
  | [], written => by
      cases given with
      | nil => exact .done
      | cons member given =>
          obtain ⟨_, -, written⟩ := bind_eq_ok_iff.mp written
          obtain ⟨_, -, written⟩ := bind_eq_ok_iff.mp written
          obtain ⟨_, -, written⟩ := bind_eq_ok_iff.mp written
          cases written
  | (key, value) :: full, written => by
      cases given with
      | nil => cases written
      | cons member given =>
          obtain ⟨_, named, written⟩ := bind_eq_ok_iff.mp written
          obtain ⟨_, valueWritten, written⟩ := bind_eq_ok_iff.mp written
          obtain ⟨_, othersWritten, written⟩ := bind_eq_ok_iff.mp written
          cases written
          exact .keep rfl named (edits_of_written value valueWritten)
            (editsMembers_of_written full othersWritten)

end

section

variable {kept : List String → Bool} {depth : Nat} {full : List (String × Value)}
  {known : List (Quoted × Tree)}

theorem EditsMembers.exists_of_mem (edited : EditsMembers kept depth full known)
    {member : Quoted × Tree} (present : member ∈ known) :
    ∃ key value, (key, value) ∈ full ∧ kept [key] = true ∧ Gives member key ∧
      Edits (fun path => kept (key :: path)) depth value member.2 := by
  induction full generalizing known with
  | nil =>
      cases edited
      cases present
  | cons first full ih =>
      cases edited with
      | leave left edited =>
          obtain ⟨key, value, listed, found⟩ := ih edited present
          exact ⟨key, value, List.mem_cons_of_mem _ listed, found⟩
      | keep isKept named valueEdited edited =>
          rcases List.mem_cons.mp present with rfl | behind
          · exact ⟨_, _, List.mem_cons_self, isKept, named, valueEdited⟩
          · obtain ⟨key, value, listed, found⟩ := ih edited behind
            exact ⟨key, value, List.mem_cons_of_mem _ listed, found⟩

theorem EditsMembers.exists_gives (edited : EditsMembers kept depth full known) {key : String}
    (listed : key ∈ full.map Prod.fst) (isKept : kept [key] = true) :
    ∃ member ∈ known, Gives member key := by
  induction full generalizing known with
  | nil => cases listed
  | cons first full ih =>
      cases edited with
      | leave left edited =>
          rcases List.mem_cons.mp listed with rfl | behind
          · rw [left] at isKept
            cases isKept
          · exact ih edited behind
      | keep _ named _ edited =>
          rcases List.mem_cons.mp listed with rfl | behind
          · exact ⟨_, List.mem_cons_self, named⟩
          · obtain ⟨member, present, gives⟩ := ih edited behind
            exact ⟨member, List.mem_cons_of_mem _ present, gives⟩

theorem EditsMembers.pairwise (edited : EditsMembers kept depth full known)
    (distinct : (full.map Prod.fst).Nodup) :
    known.Pairwise fun first second => ∀ key, Gives first key → ¬Gives second key := by
  induction full generalizing known with
  | nil =>
      cases edited
      exact .nil
  | cons first full ih =>
      obtain ⟨isNew, distinctBehind⟩ := List.nodup_cons.mp distinct
      cases edited with
      | leave left edited => exact ih edited distinctBehind
      | keep _ named _ edited =>
          refine .cons (fun member present key firstGives gives => ?_) (ih edited distinctBehind)
          obtain ⟨other, value, listed, -, otherGives, -⟩ := edited.exists_of_mem present
          have same := (gives.unique otherGives).symm.trans (firstGives.unique named)
          have isOld : other ∈ full.map Prod.fst := List.mem_map_of_mem listed
          exact isNew (same ▸ isOld)

end

/-! ### Members of an edited object -/

def Value.members : Value → List (String × Value)
  | .obj members => members
  | _ => []

inductive EditsMember (kept : List String → Bool) (depth : Nat) (full : List (String × Value))
    (member : Quoted × Tree) : Prop where
  | known {key : String} {value : Value} (listed : (key, value) ∈ full)
      (isKept : kept [key] = true) (gives : Gives member key)
      (edited : Edits (fun path => kept (key :: path)) depth value member.2)
  | other (isOther : IsOther full member)

section

variable {kept : List String → Bool} {depth : Nat} {full : List (String × Value)}
  {given known others : List (Quoted × Tree)}

theorem EditsMembers.editsMember (edited : EditsMembers kept depth full known)
    (unknown : ∀ member ∈ others, IsOther full member)
    (arranged : given.Perm (known ++ others)) {member : Quoted × Tree} (present : member ∈ given) :
    EditsMember kept depth full member := by
  rcases List.mem_append.mp (arranged.mem_iff.mp present) with inKnown | inOthers
  · obtain ⟨key, value, listed, isKept, gives, valueEdited⟩ := edited.exists_of_mem inKnown
    exact .known listed isKept gives valueEdited
  · exact .other (unknown member inOthers)

/-- No two members give the same key of the object. -/
theorem EditsMembers.pairwise_given (edited : EditsMembers kept depth full known)
    (distinct : (full.map Prod.fst).Nodup)
    (unknown : ∀ member ∈ others, IsOther full member)
    (arranged : given.Perm (known ++ others)) :
    given.Pairwise fun first second =>
      ∀ key ∈ full.map Prod.fst, Gives first key → ¬Gives second key := by
  have notOther {member : Quoted × Tree} (present : member ∈ others) {key : String}
      (listed : key ∈ full.map Prod.fst) : ¬Gives member key := by
    intro gives
    obtain ⟨other, otherGives, isOther, -⟩ := unknown member present
    exact isOther (gives.unique otherGives ▸ listed)
  refine (arranged.pairwise_iff fun apart key listed second first =>
    apart key listed first second).mpr (List.pairwise_append.mpr ⟨?_, ?_, ?_⟩)
  · exact (edited.pairwise distinct).imp fun apart key _ => apart key
  · exact List.pairwise_of_forall_mem_list fun first _ second present key listed _ =>
      notOther present listed
  · exact fun first _ second present key listed _ => notOther present listed

/-- The keys that are given are those that are kept. -/
theorem EditsMembers.kept_iff (edited : EditsMembers kept depth full known)
    (unknown : ∀ member ∈ others, IsOther full member)
    (arranged : given.Perm (known ++ others)) {key : String} (listed : key ∈ full.map Prod.fst) :
    kept [key] = true ↔ ∃ member ∈ given, Gives member key := by
  constructor
  · intro isKept
    obtain ⟨member, present, gives⟩ := edited.exists_gives listed isKept
    exact ⟨member, arranged.mem_iff.mpr (List.mem_append_left _ present), gives⟩
  · rintro ⟨member, present, gives⟩
    cases edited.editsMember unknown arranged present with
    | known _ isKept otherGives => exact gives.unique otherGives ▸ isKept
    | other isOther =>
        obtain ⟨_, otherGives, isNew, -⟩ := isOther
        exact absurd (gives.unique otherGives ▸ listed) isNew

end

/-! ### Records of which a part is given -/

section

variable {ρ : Type} {fields : List (RecordField ρ)} {depth : Nat} {kept : List String → Bool}
  {full : List (String × Value)} {part : (String → Bool) → ρ}

/-- `part` gives of a record the fields with some of its keys. An edit of the value of a key is read
so that its field comes to those that are given. -/
structure ReadsParts (fields : List (RecordField ρ)) (depth : Nat) (kept : List String → Bool)
    (full : List (String × Value)) (part : (String → Bool) → ρ) : Prop where
  keys : full.map Prod.fst = fields.map (·.key)
  distinct : (full.map Prod.fst).Nodup
  optional : ∀ field ∈ fields, field.required = false
  congr : ∀ {left right : String → Bool}, (∀ key ∈ full.map Prod.fst, left key = right key) →
    part left = part right
  store : ∀ {key : String} {value : Value}, (key, value) ∈ full → ∀ {tree : Tree},
    Edits (fun path => kept (key :: path)) depth value tree →
    ∃ field, fields.find? (·.key == key) = some field ∧ ∀ given : String → Bool,
      field.store depth tree (part given) = .ok (part fun other => other == key || given other)

theorem ReadsParts.storesParts (parts : ReadsParts fields depth kept full part) :
    StoresParts fields depth
      (fun key tree => ∃ value, (key, value) ∈ full ∧
        Edits (fun path => kept (key :: path)) depth value tree) part where
  congr same := by
    refine parts.congr fun key listed => ?_
    rw [parts.keys] at listed
    obtain ⟨field, present, rfl⟩ := List.mem_map.mp listed
    exact same field present
  store := fun ⟨_, listed, edited⟩ => parts.store listed edited

/-- A record is read from an edit as the part of it that is kept. -/
theorem ReadsParts.readRecord_eq (parts : ReadsParts fields depth kept full part) {tree : Tree}
    (edited : Edits kept (depth + 1) (.obj full) tree) :
    readRecord fields (part fun _ => false) (depth + 1) tree =
      .ok (part fun key => kept [key]) := by
  cases edited with
  | plain noObject => exact absurd rfl (noObject full)
  | @object _ _ _ given known others membersEdited unknown arranged =>
      have isKey {field : RecordField ρ} (listed : field ∈ fields) :
          field.key ∈ full.map Prod.fst := parts.keys ▸ List.mem_map_of_mem listed
      refine parts.storesParts.readRecord_obj _ (fun member present => ?_) ?_
        (fun field listed => membersEdited.kept_iff unknown arranged (isKey listed))
        fun field listed required => ?_
      · cases membersEdited.editsMember unknown arranged present with
        | known listed _ gives edited => exact .field gives ⟨_, listed, edited⟩
        | other isOther =>
            obtain ⟨key, gives, isNew, skipped⟩ := isOther
            refine .other gives (List.find?_eq_none.mpr fun field listed same => isNew ?_) skipped
            exact beq_iff_eq.mp same ▸ isKey listed
      · exact (membersEdited.pairwise_given parts.distinct unknown arranged).imp
          fun apart (field : RecordField ρ) listed => apart field.key (isKey listed)
      · rw [parts.optional field listed] at required
        cases required

end

end PageRoutes.Json
