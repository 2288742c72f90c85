import PageRoutes.Proofs.Json.Records
/-!
Records of which a part is given, as an object or as an array. What spells the value of a field puts
this field into the part that is read so far and leaves the rest of it.
-/

set_option autoImplicit false

namespace PageRoutes.Json

section

variable {ρ : Type} {fields : List (RecordField ρ)} {depth : Nat} {spells : String → Tree → Prop}
  {part : (String → Bool) → ρ}

/-- `part` gives of a record the fields with some of its keys. What spells the field of a key is
stored so that this field comes to those that are given. -/
structure StoresParts (fields : List (RecordField ρ)) (depth : Nat)
    (spells : String → Tree → Prop) (part : (String → Bool) → ρ) : Prop where
  congr : ∀ {left right : String → Bool}, (∀ field ∈ fields, left field.key = right field.key) →
    part left = part right
  store : ∀ {key : String} {tree : Tree}, spells key tree →
    ∃ field, fields.find? (·.key == key) = some field ∧ ∀ given : String → Bool,
      field.store depth tree (part given) = .ok (part fun other => other == key || given other)

/-- To store what is read of a value is to put it into the part that is given. -/
theorem exists_store_eq {α : Type} {key : String} {required : Bool} {read : Reading α}
    {set : ρ → α → ρ} {tree : Tree} {value : α}
    (found : fields.find? (·.key == key) = some (.of key required read set))
    (isRead : read depth tree = .ok value)
    (sets : ∀ given, set (part given) value = part fun other => other == key || given other) :
    ∃ field, fields.find? (·.key == key) = some field ∧ ∀ given : String → Bool,
      field.store depth tree (part given) =
        .ok (part fun other => other == key || given other) := by
  refine ⟨_, found, fun given => ?_⟩
  simp only [RecordField.of, isRead, Except.map, sets]

/-- What is given in the end is what was given at the start and what still comes. -/
def Reaches (fields : List (RecordField ρ)) (start target : String → Bool)
    (comes : String → Prop) : Prop :=
  ∀ field ∈ fields, target field.key = true ↔ start field.key = true ∨ comes field.key

section

variable {start target : String → Bool} {comes behind : String → Prop} {key : String}

theorem Reaches.of_iff
    (reached : ∀ field ∈ fields, target field.key = true ↔ comes field.key) :
    Reaches fields (fun _ => false) target comes := by
  intro field listed
  rw [reached field listed, or_iff_right Bool.false_ne_true]

theorem Reaches.next (reaches : Reaches fields start target comes)
    (first : ∀ other, comes other ↔ other = key ∨ behind other) :
    Reaches fields (fun other => other == key || start other) target behind := by
  intro field listed
  rw [reaches field listed, first, Bool.or_eq_true, beq_iff_eq, or_left_comm, or_assoc]

theorem Reaches.skip (reaches : Reaches fields start target comes)
    (same : ∀ field ∈ fields, comes field.key ↔ behind field.key) :
    Reaches fields start target behind := by
  intro field listed
  rw [reaches field listed, same field listed]

theorem StoresParts.eq_of_reaches (parts : StoresParts fields depth spells part)
    (reaches : Reaches fields start target comes) (nothing : ∀ other, ¬comes other) :
    part start = part target := by
  refine parts.congr fun field listed => Bool.eq_iff_iff.mpr ?_
  rw [reaches field listed, or_iff_left (nothing field.key)]

end

/-! ### Objects -/

inductive SpellsMember (fields : List (RecordField ρ)) (spells : String → Tree → Prop)
    (member : Quoted × Tree) : Prop where
  | field {key : String} (gives : Gives member key) (spelled : spells key member.2)
  | other {key : String} (gives : Gives member key)
      (unknown : fields.find? (·.key == key) = none) (skipped : member.2.skip = .ok ())

def GiveOnce (fields : List (RecordField ρ)) (members : List (Quoted × Tree)) : Prop :=
  members.Pairwise fun first second =>
    ∀ field ∈ fields, Gives first field.key → ¬Gives second field.key

theorem key_ne_of_unknown {key : String} (unknown : fields.find? (·.key == key) = none)
    {field : RecordField ρ} (listed : field ∈ fields) : field.key ≠ key := by
  intro same
  exact List.find?_eq_none.mp unknown field listed (beq_iff_eq.mpr same)

theorem exists_gives_cons_iff {quoted : Quoted} {tree : Tree} {key : String}
    (gives : Gives (quoted, tree) key) (members : List (Quoted × Tree)) (other : String) :
    (∃ member ∈ (quoted, tree) :: members, Gives member other) ↔
      other = key ∨ ∃ member ∈ members, Gives member other := by
  have givesFirst : Gives (quoted, tree) other ↔ other = key :=
    ⟨fun otherGives => otherGives.unique gives, fun same => same ▸ gives⟩
  rw [List.exists_mem_cons_iff, givesFirst]

/-- The fields of the members come to those that were given before. -/
theorem StoresParts.storeMembers_eq (parts : StoresParts fields depth spells part)
    {members : List (Quoted × Tree)} {seen : List String} (start : String → Bool)
    {target : String → Bool}
    (spelled : ∀ member ∈ members, SpellsMember fields spells member)
    (once : GiveOnce fields members)
    (fresh : ∀ member ∈ members, ∀ field ∈ fields, Gives member field.key → field.key ∉ seen)
    (reaches : Reaches fields start target fun key => ∃ member ∈ members, Gives member key) :
    ∃ seenThen, storeMembers fields depth members seen (part start) =
      .ok (seenThen, part target) := by
  -- From left to right: what is given so far is `start`, and the next member adds its key to it.
  induction members generalizing seen start with
  | nil =>
      have same : part start = part target := parts.eq_of_reaches reaches fun other =>
        not_exists.mpr fun member present => List.not_mem_nil present.1
      exact ⟨seen, by rw [same]; rfl⟩
  | cons member members ih =>
      obtain ⟨firstOnce, onceBehind⟩ := List.pairwise_cons.mp once
      have spelledBehind := fun other present => spelled other (List.mem_cons_of_mem member present)
      obtain ⟨quoted, tree⟩ := member
      cases spelled (quoted, tree) List.mem_cons_self with
      | @field key gives treeSpelled =>
          obtain ⟨field, found, stores⟩ := parts.store treeSpelled
          have listed : field ∈ fields := List.mem_of_find?_eq_some found
          have isKey : field.key = key := key_eq_of_known found
          have firstGives : Gives (quoted, tree) field.key := isKey ▸ gives
          have isFresh : key ∉ seen := isKey ▸ fresh _ List.mem_cons_self field listed firstGives
          have freshBehind : ∀ member ∈ members, ∀ other ∈ fields,
              Gives member other.key → other.key ∉ key :: seen := by
            intro member present other otherListed otherGives early
            rcases List.mem_cons.mp early with same | early
            · exact firstOnce member present other otherListed (same ▸ gives) otherGives
            · exact fresh member (List.mem_cons_of_mem _ present) other otherListed otherGives early
          obtain ⟨seenThen, stored⟩ := ih _ spelledBehind onceBehind freshBehind
            (reaches.next (exists_gives_cons_iff gives members))
          refine ⟨seenThen, ?_⟩
          rw [storeMembers_cons_of_known gives found, if_neg isFresh, stores]
          exact stored
      | other gives unknown skipped =>
          have reachesBehind : Reaches fields start target
              fun key => ∃ member ∈ members, Gives member key := by
            refine reaches.skip fun other listed => ?_
            rw [exists_gives_cons_iff gives, or_iff_right (key_ne_of_unknown unknown listed)]
          obtain ⟨seenThen, stored⟩ := ih start spelledBehind onceBehind
            (fun member present => fresh member (List.mem_cons_of_mem _ present)) reachesBehind
          refine ⟨seenThen, ?_⟩
          rw [storeMembers_cons_of_unknown gives unknown, skipped]
          exact stored

theorem StoresParts.readRecord_obj (parts : StoresParts fields depth spells part)
    {members : List (Quoted × Tree)} (given : String → Bool)
    (spelled : ∀ member ∈ members, SpellsMember fields spells member)
    (once : GiveOnce fields members)
    (reached : ∀ field ∈ fields, given field.key = true ↔
      ∃ member ∈ members, Gives member field.key)
    (complete : ∀ field ∈ fields, field.required = true → given field.key = true) :
    readRecord fields (part fun _ => false) (depth + 1) (.obj members none) =
      .ok (part given) := by
  obtain ⟨seen, stored⟩ : ∃ seen, storeMembers fields depth members [] (part fun _ => false) =
      .ok (seen, part given) :=
    parts.storeMembers_eq _ spelled once (fun _ _ _ _ _ early => by cases early)
      (.of_iff reached)
  have noneMissing :
      (fields.any fun field => field.required && decide (field.key ∉ seen)) = false := by
    refine List.any_eq_false.mpr fun field listed missing => ?_
    obtain ⟨required, unseen⟩ := Bool.and_eq_true_iff.mp missing
    have isGiven := (reached field listed).mp (complete field listed required)
    exact of_decide_eq_true unseen (mem_seen_of_gives stored listed (.inr isGiven))
  simp only [readRecord, stored, readBreak, noneMissing, bind, Except.bind, pure, Except.pure]
  rfl

/-! ### Arrays -/

theorem find?_key_eq (distinct : (fields.map (·.key)).Nodup) {field : RecordField ρ}
    (listed : field ∈ fields) : fields.find? (·.key == field.key) = some field := by
  induction fields with
  | nil => cases listed
  | cons first fields ih =>
      obtain ⟨isNew, distinctBehind⟩ := List.nodup_cons.mp distinct
      rcases List.mem_cons.mp listed with rfl | behind
      · exact List.find?_cons_of_pos (beq_self_eq_true _)
      · have different : first.key ≠ field.key := by
          intro same
          exact isNew (List.mem_map.mpr ⟨field, behind, same.symm⟩)
        rw [List.find?_cons_of_neg (by simpa using different)]
        exact ih distinctBehind behind

/-- The fields of the items come to those that were given before. -/
theorem StoresParts.storeItems_eq (parts : StoresParts fields depth spells part)
    (distinct : (fields.map (·.key)).Nodup) {front behind : List (RecordField ρ)}
    {items : List Tree} (start : String → Bool) {target : String → Bool} (listed : front ⊆ fields)
    (spelled : List.Forall₂ (fun field item => spells field.key item) front items)
    (optional : ∀ field ∈ behind, field.required = false)
    (reaches : Reaches fields start target (· ∈ front.map (·.key))) :
    storeItems depth none (front ++ behind) items (part start) = .ok (part target) := by
  induction spelled generalizing start with
  | nil =>
      have same : part start = part target :=
        parts.eq_of_reaches reaches fun other => List.not_mem_nil
      have noneMissing : behind.any (·.required) = false := by
        refine List.any_eq_false.mpr fun field present required => ?_
        rw [optional field present] at required
        cases required
      rw [List.nil_append, same]
      cases behind <;>
        simp only [storeItems, readBreak, noneMissing, bind, Except.bind, pure, Except.pure] <;> rfl
  | @cons field item front items itemSpelled spelledBehind ih =>
      obtain ⟨fieldListed, listedBehind⟩ := List.cons_subset.mp listed
      obtain ⟨same, found, stores⟩ := parts.store itemSpelled
      obtain rfl := Option.some.inj ((find?_key_eq distinct fieldListed).symm.trans found)
      have nextKey (other : String) : other ∈ (field :: front).map (·.key) ↔
          other = field.key ∨ other ∈ front.map (·.key) := by
        rw [List.map_cons, List.mem_cons]
      simp only [List.cons_append, storeItems, stores, bind, Except.bind]
      exact ih _ listedBehind (reaches.next nextKey)

theorem StoresParts.readRecord_arr (parts : StoresParts fields depth spells part)
    (distinct : (fields.map (·.key)).Nodup) {front behind : List (RecordField ρ)}
    {items : List Tree} (given : String → Bool) (split : fields = front ++ behind)
    (spelled : List.Forall₂ (fun field item => spells field.key item) front items)
    (reached : ∀ field ∈ fields, given field.key = true ↔ field.key ∈ front.map (·.key))
    (complete : ∀ field ∈ fields, field.required = true → given field.key = true) :
    readRecord fields (part fun _ => false) (depth + 1) (.arr items none) = .ok (part given) := by
  have listed : front ⊆ fields := split ▸ List.subset_append_left front behind
  have apart : (front.map (·.key) ++ behind.map (·.key)).Nodup := by
    rw [← List.map_append, ← split]
    exact distinct
  have optional : ∀ field ∈ behind, field.required = false := by
    intro field present
    have inFields : field ∈ fields := split ▸ List.mem_append_right front present
    refine Bool.eq_false_iff.mpr fun required => ?_
    have inFront := (reached field inFields).mp (complete field inFields required)
    exact (List.nodup_append.mp apart).2.2 _ inFront _ (List.mem_map_of_mem present) rfl
  have stored : storeItems depth none (front ++ behind) items (part fun _ => false) =
      .ok (part given) :=
    parts.storeItems_eq distinct _ listed spelled optional (.of_iff reached)
  rw [readRecord, ← stored, split]

end

end PageRoutes.Json
