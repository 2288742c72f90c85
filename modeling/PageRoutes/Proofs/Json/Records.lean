import PageRoutes.Proofs.Json.Members
/-!
What the reading of a record depends on. Members are stored one after the other, so that a change of
the record that has nothing to do with the fields still to be stored may as well be made at the end,
and a key that is not given any more may as well have been seen or not.
-/

set_option autoImplicit false

namespace PageRoutes.Json

/-! ### Items of a list -/

/-- Only what is read out of an item matters to the reading of a list. -/
theorem readEach_append_cons {α : Type} {read : Tree → Except Fault α} {item other : Tree}
    (same : read item = read other) (before behind : List Tree) :
    readEach read (before ++ item :: behind) = readEach read (before ++ other :: behind) := by
  induction before with
  | nil => simp only [List.nil_append, readEach, same]
  | cons first before ih => simp only [List.cons_append, readEach, ih]

theorem readEach_append_cons_of_map {α : Type} {read : Tree → Except Fault α} {change : α → α}
    {item other : Tree} (changed : read item = (read other).map change)
    (before behind : List Tree) :
    readEach read (before ++ item :: behind) =
      (readEach read (before ++ other :: behind)).map (·.modify before.length change) := by
  induction before with
  | nil =>
      simp only [List.nil_append, readEach, changed, bind, Except.bind]
      cases read other with
      | error fault => rfl
      | ok value => cases readEach read behind <;> rfl
  | cons first before ih =>
      simp only [List.cons_append, readEach, ih, bind, Except.bind]
      cases read first with
      | error fault => rfl
      | ok value => cases readEach read (before ++ other :: behind) <;> rfl

theorem readEach_append_cons_of_ok {α : Type} {read : Tree → Except Fault α} {item : Tree}
    {before behind : List Tree} {values valuesBehind : List α} {value : α}
    (readBefore : readEach read before = .ok values) (here : read item = .ok value)
    (readBehind : readEach read behind = .ok valuesBehind) :
    readEach read (before ++ item :: behind) = .ok (values ++ value :: valuesBehind) := by
  induction before generalizing values with
  | nil =>
      cases readBefore
      simp only [List.nil_append, readEach, here, readBehind, bind, Except.bind, pure, Except.pure]
  | cons first before ih =>
      obtain ⟨firstValue, firstRead, readBefore⟩ := bind_eq_ok_iff.mp readBefore
      obtain ⟨others, othersRead, readBefore⟩ := bind_eq_ok_iff.mp readBefore
      cases readBefore
      simp only [List.cons_append, readEach, firstRead, ih othersRead, bind, Except.bind, pure,
        Except.pure]

theorem exists_of_readEach_append_cons {α : Type} {read : Tree → Except Fault α} {item : Tree}
    {before behind : List Tree} {values : List α}
    (found : readEach read (before ++ item :: behind) = .ok values) :
    ∃ value, values[before.length]? = some value ∧ read item = .ok value := by
  induction before generalizing values with
  | nil =>
      obtain ⟨value, read, found⟩ := bind_eq_ok_iff.mp found
      obtain ⟨valuesBehind, -, found⟩ := bind_eq_ok_iff.mp found
      cases found
      exact ⟨value, rfl, read⟩
  | cons first before ih =>
      obtain ⟨firstValue, -, found⟩ := bind_eq_ok_iff.mp found
      obtain ⟨others, readOthers, found⟩ := bind_eq_ok_iff.mp found
      cases found
      exact ih readOthers

/-! ### One member -/

section

variable {ρ : Type} {fields : List (RecordField ρ)} {depth : Nat}

def Gives (member : Quoted × Tree) (key : String) : Prop :=
  member.1.read = .ok key

theorem Gives.unique {member : Quoted × Tree} {first second : String} (left : Gives member first)
    (right : Gives member second) : first = second :=
  Except.ok.inj (left.symm.trans right)

section

variable {key : Quoted} {value : Tree} {name : String} {field : RecordField ρ}

theorem storeMembers_cons_of_error {fault : Fault} (unnamed : key.read = .error fault)
    (members : List (Quoted × Tree)) (seen : List String) (record : ρ) :
    storeMembers fields depth ((key, value) :: members) seen record = .error fault := by
  rw [storeMembers, unnamed]
  rfl

theorem storeMembers_cons_of_unknown (named : key.read = .ok name)
    (unknown : fields.find? (·.key == name) = none) (members : List (Quoted × Tree))
    (seen : List String) (record : ρ) :
    storeMembers fields depth ((key, value) :: members) seen record =
      value.skip >>= fun _ => storeMembers fields depth members seen record := by
  simp only [storeMembers, named, unknown, bind, Except.bind]

theorem storeMembers_cons_of_known (named : key.read = .ok name)
    (known : fields.find? (·.key == name) = some field) (members : List (Quoted × Tree))
    (seen : List String) (record : ρ) :
    storeMembers fields depth ((key, value) :: members) seen record =
      if name ∈ seen then .error .mismatch
      else field.store depth value record >>= storeMembers fields depth members (name :: seen) := by
  simp only [storeMembers, named, known, bind, Except.bind]

theorem key_eq_of_known (known : fields.find? (·.key == name) = some field) :
    field.key = name := by
  have matched := List.find?_some known
  exact beq_iff_eq.mp matched

end

theorem storeMembers_append (members more : List (Quoted × Tree)) (seen : List String)
    (record : ρ) :
    storeMembers fields depth (members ++ more) seen record =
      storeMembers fields depth members seen record >>= fun (seen, record) =>
        storeMembers fields depth more seen record := by
  induction members generalizing seen record with
  | nil => rfl
  | cons member members ih =>
      obtain ⟨key, value⟩ := member
      rw [List.cons_append]
      cases named : key.read with
      | error fault => simp only [storeMembers_cons_of_error named, bind, Except.bind]
      | ok name =>
          cases known : fields.find? (·.key == name) with
          | none =>
              simp only [storeMembers_cons_of_unknown named known, ih]
              cases value.skip <;> rfl
          | some field =>
              simp only [storeMembers_cons_of_known named known]
              split_ifs
              · rfl
              · simp only [ih, bind, Except.bind]
                cases field.store depth value record <;> rfl

/-! ### Changes that go past the reading of a field -/

/-- It is the same to change a record before the field is stored or behind it. -/
def RecordField.Commutes (field : RecordField ρ) (change : ρ → ρ) : Prop :=
  ∀ depth tree record, field.store depth tree (change record) =
    (field.store depth tree record).map change

theorem RecordField.commutes_of {α : Type} {key : String} {required : Bool} {read : Reading α}
    {set : ρ → α → ρ} {change : ρ → ρ}
    (same : ∀ record value, set (change record) value = change (set record value)) :
    (RecordField.of key required read set).Commutes change := by
  intro depth tree record
  simp only [RecordField.of]
  cases read depth tree with
  | error fault => rfl
  | ok value => exact congrArg Except.ok (same record value)

theorem storeMembers_change {change : ρ → ρ} {members : List (Quoted × Tree)}
    {seen : List String}
    (commutes : ∀ field ∈ fields, field.key ∉ seen → (∃ member ∈ members, Gives member field.key) →
      field.Commutes change) (record : ρ) :
    storeMembers fields depth members seen (change record) =
      (storeMembers fields depth members seen record).map fun (seen, record) =>
        (seen, change record) := by
  -- A key that was seen stays seen, so the fields that are stored later still commute.
  induction members generalizing seen record with
  | nil => rfl
  | cons member members ih =>
      obtain ⟨key, value⟩ := member
      have behind {others : List String} (more : seen ⊆ others) (record : ρ) :
          storeMembers fields depth members others (change record) =
            (storeMembers fields depth members others record).map fun (seen, record) =>
              (seen, change record) :=
        ih (fun field listed unseen ⟨member, present, gives⟩ =>
          commutes field listed (fun early => unseen (more early))
            ⟨member, List.mem_cons_of_mem _ present, gives⟩) record
      cases named : key.read with
      | error fault =>
          rw [storeMembers_cons_of_error named, storeMembers_cons_of_error named]
          rfl
      | ok name =>
          cases known : fields.find? (·.key == name) with
          | none =>
              rw [storeMembers_cons_of_unknown named known,
                storeMembers_cons_of_unknown named known, behind fun _ early => early]
              cases value.skip <;> rfl
          | some field =>
              rw [storeMembers_cons_of_known named known, storeMembers_cons_of_known named known]
              split_ifs with early
              · rfl
              · have isKey := key_eq_of_known known
                rw [commutes field (List.mem_of_find?_eq_some known) (isKey ▸ early)
                  ⟨(key, value), List.mem_cons_self, isKey ▸ named⟩ depth value record]
                cases field.store depth value record with
                | error fault => rfl
                | ok stored => exact behind (List.subset_cons_self name seen) stored

theorem storeItems_change {change : ρ → ρ} {broken : Option Break}
    (commutes : ∀ field ∈ fields, field.Commutes change) (items : List Tree) (record : ρ) :
    storeItems depth broken fields items (change record) =
      (storeItems depth broken fields items record).map change := by
  induction fields generalizing items record with
  | nil =>
      cases items with
      | nil =>
          simp only [storeItems, bind, Except.bind]
          cases readBreak broken <;> rfl
      | cons => rfl
  | cons field fields ih =>
      cases items with
      | nil =>
          simp only [storeItems, bind, Except.bind]
          cases readBreak broken with
          | error fault => rfl
          | ok => split_ifs <;> rfl
      | cons item items =>
          simp only [storeItems, bind, Except.bind,
            commutes field List.mem_cons_self depth item record]
          cases field.store depth item record with
          | error fault => rfl
          | ok stored =>
              exact ih (fun other member => commutes other (List.mem_cons_of_mem _ member)) items
                stored

/-! ### Keys that were seen -/

theorem exists_gives_of_mem_seen {members : List (Quoted × Tree)} {seen seenThen : List String}
    {record stored : ρ}
    (found : storeMembers fields depth members seen record = .ok (seenThen, stored)) {key : String}
    (present : key ∈ seenThen) : key ∈ seen ∨ ∃ member ∈ members, Gives member key := by
  induction members generalizing seen record with
  | nil =>
      cases found
      exact .inl present
  | cons member members ih =>
      obtain ⟨quoted, value⟩ := member
      cases named : quoted.read with
      | error fault =>
          rw [storeMembers_cons_of_error named] at found
          cases found
      | ok name =>
          cases known : fields.find? (·.key == name) with
          | none =>
              rw [storeMembers_cons_of_unknown named known] at found
              obtain ⟨_, -, found⟩ := bind_eq_ok_iff.mp found
              refine (ih found).imp_right fun ⟨member, inMembers, gives⟩ => ?_
              exact ⟨member, List.mem_cons_of_mem _ inMembers, gives⟩
          | some field =>
              rw [storeMembers_cons_of_known named known] at found
              split_ifs at found
              obtain ⟨_, -, found⟩ := bind_eq_ok_iff.mp found
              rcases ih found with here | ⟨member, inMembers, gives⟩
              · rcases List.mem_cons.mp here with rfl | early
                · exact .inr ⟨_, List.mem_cons_self, named⟩
                · exact .inl early
              · exact .inr ⟨member, List.mem_cons_of_mem _ inMembers, gives⟩

theorem mem_seen_of_gives {members : List (Quoted × Tree)} {seen seenThen : List String}
    {record stored : ρ}
    (found : storeMembers fields depth members seen record = .ok (seenThen, stored))
    {field : RecordField ρ} (listed : field ∈ fields)
    (given : field.key ∈ seen ∨ ∃ member ∈ members, Gives member field.key) :
    field.key ∈ seenThen := by
  induction members generalizing seen record with
  | nil =>
      cases found
      rcases given with early | ⟨member, present, -⟩
      · exact early
      · cases present
  | cons member members ih =>
      obtain ⟨quoted, value⟩ := member
      rw [List.exists_mem_cons_iff] at given
      cases named : quoted.read with
      | error fault =>
          rw [storeMembers_cons_of_error named] at found
          cases found
      | ok name =>
          have isName {key : String} (gives : Gives (quoted, value) key) : key = name :=
            gives.unique named
          cases known : fields.find? (·.key == name) with
          | none =>
              rw [storeMembers_cons_of_unknown named known] at found
              obtain ⟨_, -, found⟩ := bind_eq_ok_iff.mp found
              refine ih found (given.imp_right fun behind => behind.resolve_left fun gives => ?_)
              exact List.find?_eq_none.mp known field listed (beq_iff_eq.mpr (isName gives))
          | some other =>
              rw [storeMembers_cons_of_known named known] at found
              split_ifs at found
              obtain ⟨_, -, found⟩ := bind_eq_ok_iff.mp found
              refine ih found ?_
              rcases given with early | here | behind
              · exact .inl (List.mem_cons_of_mem _ early)
              · exact .inl (List.mem_cons.mpr (.inl (isName here)))
              · exact .inr behind

/-- Whether a key was seen does not matter where it is not given any more. -/
theorem storeMembers_bind_congr {α : Type} {finish : List String × ρ → Except Fault α}
    {extra : String} {members : List (Quoted × Tree)}
    (free : ∀ member ∈ members, ¬Gives member extra)
    (sameEnd : ∀ {first second : List String} {record : ρ},
      (∀ key ≠ extra, key ∈ first ↔ key ∈ second) →
        finish (first, record) = finish (second, record))
    {first second : List String} (same : ∀ key ≠ extra, key ∈ first ↔ key ∈ second) (record : ρ) :
    (storeMembers fields depth members first record >>= finish) =
      (storeMembers fields depth members second record >>= finish) := by
  induction members generalizing first second record with
  | nil => exact sameEnd same
  | cons member members ih =>
      obtain ⟨quoted, value⟩ := member
      have freeBehind : ∀ member ∈ members, ¬Gives member extra :=
        fun member present => free member (List.mem_cons_of_mem _ present)
      cases named : quoted.read with
      | error fault => rw [storeMembers_cons_of_error named, storeMembers_cons_of_error named]
      | ok name =>
          have different : name ≠ extra := by
            rintro rfl
            exact free _ List.mem_cons_self named
          cases known : fields.find? (·.key == name) with
          | none =>
              rw [storeMembers_cons_of_unknown named known,
                storeMembers_cons_of_unknown named known]
              cases value.skip with
              | error fault => rfl
              | ok => exact ih freeBehind same record
          | some field =>
              rw [storeMembers_cons_of_known named known, storeMembers_cons_of_known named known]
              by_cases early : name ∈ first
              · rw [if_pos early, if_pos ((same name different).mp early)]
              · rw [if_neg early, if_neg fun late => early ((same name different).mpr late)]
                cases field.store depth value record with
                | error fault => rfl
                | ok stored =>
                    refine ih freeBehind (fun key other => ?_) stored
                    rw [List.mem_cons, List.mem_cons, same key other]

end

end PageRoutes.Json
