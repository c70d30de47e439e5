import LogSieve.Delivery
import LogSieve.Proofs.Sifting
/-!
# Where every field goes

The rule of a sift, stated on the names of a record without the order of its writes: under
each name stands the pruned value of the last field that counts there and comes to that
name (`LastOf`). Kept fields count at the top, the others that survive among the gathered
fields, and an earlier gathered field where no new one comes to its name
(`siftedRecord_placement`).
-/
namespace LogSieve.Policy
variable {policy : Policy}

/-- The field is not reserved and stays at the top whatever its value. -/
def Kept (policy : Policy) (field : String × Value) : Prop :=
  ¬ policy.Reserves field.1 ∧ field.1 ∈ policy.keep

/-- The field is not reserved, not kept and not dropped. -/
def Survives (policy : Policy) (field : String × Value) : Prop :=
  ¬ policy.Reserves field.1 ∧ field.1 ∉ policy.keep ∧ ¬ policy.Drops field.1 (policy.pruneValue field.2)

/-- The earlier gathered field is not dropped. -/
def Stays (policy : Policy) (field : String × Value) : Prop :=
  ¬ policy.Drops field.1 (policy.pruneValue field.2)

/-- What stands under a name if the last of the fields that count and come to it does: nothing if there is
    none, and otherwise its pruned value. -/
def LastOf (policy : Policy) (counts : String × Value → Prop) (fields : Record) (name : String) :
    Option Value → Prop
  | none => ∀ field ∈ fields, counts field → policy.rename field.1 ≠ name
  | some value =>
    ∃ field ∈ fields, counts field ∧ policy.rename field.1 = name ∧ policy.pruneValue field.2 = value ∧
      ∀ other ∈ fields, counts other → policy.rename other.1 = name → other.1 ≤ field.1

/-- The rule is that of fields written in order, each as it is stored. -/
theorem lastOf_iff {counts : String × Value → Prop} {fields : Record} {name : String} {found : Option Value} :
    policy.LastOf counts fields name found ↔ Fields.LastWrite policy.stored counts fields name found := by
  cases found with
  | none => exact Iff.rfl
  | some value => exact Iff.rfl

/-- Storing the fields that count leaves the last of them under each name. -/
theorem lastOf_stored {fields : Record} (sorted : Fields.Sorted fields) {counts : String × Value → Prop}
    {chosen : String × Value → Bool} (same : ∀ field, chosen field = true ↔ counts field) (name : String) :
    policy.LastOf counts fields name
      ((Fields.ofList ((fields.filter chosen).map policy.stored)).get? name) :=
  lastOf_iff.2 (Fields.lastWrite_ofList sorted same name)

/-- Something stands under a name if some field counts and comes to it. -/
theorem LastOf.isSome_iff {counts : String × Value → Prop} {fields : Record} {name : String}
    {found : Option Value} (last : policy.LastOf counts fields name found) :
    found.isSome = true ↔ ∃ field ∈ fields, counts field ∧ policy.rename field.1 = name :=
  (lastOf_iff.1 last).isSome_iff

/-- No field but the last one can be the one whose value was found. -/
theorem LastOf.eq_some {counts : String × Value → Prop} {fields : Record} {name : String}
    {found : Option Value} (last : policy.LastOf counts fields name found) (sorted : Fields.Sorted fields)
    {field : String × Value} (member : field ∈ fields) (counted : counts field)
    (named : policy.rename field.1 = name)
    (greatest : ∀ other ∈ fields, counts other → policy.rename other.1 = name → other.1 ≤ field.1) :
    found = some (policy.pruneValue field.2) :=
  (lastOf_iff.1 last).eq_some sorted member counted named greatest

/-- What stands under a name is determined. -/
theorem LastOf.unique {counts : String × Value → Prop} {fields : Record} {name : String}
    {found other : Option Value} (last : policy.LastOf counts fields name found)
    (otherLast : policy.LastOf counts fields name other) (sorted : Fields.Sorted fields) : found = other :=
  (lastOf_iff.1 last).unique (lastOf_iff.1 otherLast) sorted

/-! ## The parts of a sifted record -/

theorem fieldsAt_eq (place : Place) (record : Record) :
    policy.fieldsAt place record =
      Fields.ofList ((record.filter (fun field =>
        decide (policy.place field.1 (policy.pruneValue field.2) = place) &&
          decide (¬ policy.Reserves field.1))).map policy.stored) := by
  rw [fieldsAt, placed, List.filter_filter]

theorem lastOf_top (gathers : policy.gathers = true) {record : Record} (sorted : Fields.Sorted record)
    (name : String) : policy.LastOf policy.Kept record name ((policy.fieldsAt .top record).get? name) := by
  rw [fieldsAt_eq]
  refine lastOf_stored sorted ?_ name
  intro field
  simp [place_eq_top_iff, gathers, Kept, and_comm]

theorem lastOf_gathered (gathers : policy.gathers = true) {record : Record} (sorted : Fields.Sorted record)
    (name : String) :
    policy.LastOf policy.Survives record name ((policy.fieldsAt .gathered record).get? name) := by
  rw [fieldsAt_eq]
  refine lastOf_stored sorted ?_ name
  intro field
  simp [place_eq_gathered_iff, gathers, Survives, and_comm]

theorem lastOf_top_of_not_gathers (gathers : policy.gathers = false) {record : Record}
    (sorted : Fields.Sorted record) (name : String) :
    policy.LastOf (fun field => policy.Kept field ∨ policy.Survives field) record name
      ((policy.fieldsAt .top record).get? name) := by
  rw [fieldsAt_eq]
  refine lastOf_stored sorted ?_ name
  intro field
  have free : ¬ policy.Reserves field.1 := by simp [Reserves, gathers]
  simp only [place_eq_top_iff, gathers, Kept, Survives, free, Bool.and_eq_true, decide_eq_true_eq,
    not_false_eq_true, true_and, and_true]
  by_cases kept : field.1 ∈ policy.keep
  · simp [kept]
  · simp [kept]

theorem lastOf_staying {fields : Record} (sorted : Fields.Sorted fields) (name : String) :
    policy.LastOf policy.Stays fields name ((policy.staying fields).get? name) := by
  refine lastOf_stored sorted ?_ name
  intro field
  rw [decide_eq_true_eq, Stays]

/-! ## Together -/

/-- The fields of the record under the reserved name. -/
def earlierFields (policy : Policy) (record : Record) : Record := (policy.gatheredRecord record).getD []

/-- Earlier fields that stay and new ones make one record, of which nothing is stored if it has no field. -/
theorem gather_records (earlier : Record) {fresh : Record} (sorted : Fields.Sorted fresh) :
    policy.gather (if earlier = [] then none else some (.record earlier)) fresh =
      if Fields.insertAll earlier fresh = [] then none else some (.record (Fields.insertAll earlier fresh)) := by
  by_cases old : earlier = []
  · subst old
    rw [if_pos rfl, gather, ← Fields.ofList, Fields.ofList_of_sorted sorted]
  · have some : Fields.insertAll earlier fresh ≠ [] := fun empty => old (Fields.insertAll_eq_nil_iff.1 empty).1
    rw [if_neg old, if_neg some]
    by_cases new : fresh = []
    · subst new
      rfl
    · rw [gather, if_neg new]

theorem gatheredFrom_eq {record : Record} (reserves : policy.ReservesRecord record) :
    policy.gatheredFrom record =
      let bucket := Fields.insertAll (policy.staying (policy.earlierFields record)) (policy.fieldsAt .gathered record)
      if bucket = [] then none else some (.record bucket) := by
  rw [gatheredFrom, ← gather_records _ (policy.sorted_fieldsAt .gathered record)]
  cases found : policy.gatheredValue record with
  | none =>
    have none : policy.earlierFields record = [] := by rw [earlierFields, gatheredRecord, found]; rfl
    rw [none]
    rfl
  | some value =>
    obtain ⟨fields, rfl⟩ := Value.exists_record (reserves value found)
    have old : policy.earlierFields record = fields := by rw [earlierFields, gatheredRecord, found]; rfl
    rw [old]
    rfl

theorem sorted_earlierFields {record : Record} (inOrder : (Value.record record).InOrder) :
    Fields.Sorted (policy.earlierFields record) := by
  rw [earlierFields, gatheredRecord]
  split
  · rename_i fields found
    exact (Value.fieldsInOrder_iff.1 inOrder.2 _ (Fields.mem_of_get? (get?_of_gatheredValue found))).1
  · exact Fields.sorted_nil

/-- What becomes of a record whose reserved value is a record or nothing. Where fields are gathered, the kept
    ones stand at the top and the others that survive under the reserved name, over those gathered earlier.
    Elsewhere all that are kept or survive stand at the top. -/
theorem siftedRecord_placement {settings : Settings} {policy : Policy} (accepted : settings.toPolicy = .ok policy)
    {record : Record} (inOrder : (Value.record record).InOrder) (reserves : policy.ReservesRecord record) :
    Fields.Sorted (policy.sift record).record ∧
      (policy.gathers = false → ∀ name,
        policy.LastOf (fun field => policy.Kept field ∨ policy.Survives field) record name
          ((policy.sift record).record.get? name)) ∧
      (policy.gathers = true →
        (∀ name, name ≠ policy.gatheredName →
          policy.LastOf policy.Kept record name ((policy.sift record).record.get? name)) ∧
        ∃ bucket : Record, Fields.Sorted bucket ∧
          (∀ name, ∃ fresh earlier, policy.LastOf policy.Survives record name fresh ∧
            policy.LastOf policy.Stays (policy.earlierFields record) name earlier ∧
            bucket.get? name = fresh.or earlier) ∧
          (policy.sift record).record.get? policy.gatheredName =
            if bucket = [] then none else some (.record bucket)) := by
  have coherent := Settings.coherent_of_toPolicy accepted
  refine ⟨sorted_siftedRecord record, ?_, ?_⟩
  · intro gathers name
    rw [sift, siftedRecord_of_not_gathers gathers]
    exact lastOf_top_of_not_gathers gathers inOrder.1 name
  · intro gathers
    constructor
    · intro name other
      rw [sift, get?_siftedRecord other]
      exact lastOf_top gathers inOrder.1 name
    · have fresh := policy.sorted_fieldsAt .gathered record
      refine ⟨Fields.insertAll (policy.staying (policy.earlierFields record)) (policy.fieldsAt .gathered record),
        Fields.sorted_insertAll (Fields.sorted_ofList _) _, ?_, ?_⟩
      · intro name
        exact ⟨_, _, lastOf_gathered gathers inOrder.1 name, lastOf_staying (sorted_earlierFields inOrder) name,
          Fields.get?_insertAll_of_sorted _ fresh name⟩
      · have stands := gatheredValue_siftedRecord coherent record
        rw [gatheredValue, if_pos gathers, gatheredFrom_eq reserves] at stands
        exact stands

/-- Two names that come to one, one of them kept. -/
def collidingSettings : Settings :=
  { Settings.initial with gathers := true, keep := "a.b", dotReplacement := "_" }

/-- The policy of these settings. -/
def collidingPolicy : Policy :=
  { initial with gathers := true, keep := ["a.b", "a_b"], dotReplacement := some "_" }

/-- Kept fields come to one name, and so do the gathered ones, of which one was gathered earlier. -/
theorem siftedRecord_placement_colliding :
    collidingSettings.toPolicy = .ok collidingPolicy ∧
      let record := [("a.b", .string ""), ("a_b", .null), ("c.d", .null), ("c_d", .string ""),
        ("undefined", .record [("c_d", .bool true), ("e", .null)])]
      (Value.record record).InOrder ∧ collidingPolicy.ReservesRecord record ∧
        (∀ name, name ≠ "undefined" →
          collidingPolicy.LastOf collidingPolicy.Kept record name ((collidingPolicy.sift record).record.get? name)) ∧
        ∃ bucket : Record, Fields.Sorted bucket ∧
          (∀ name, ∃ fresh earlier, collidingPolicy.LastOf collidingPolicy.Survives record name fresh ∧
            collidingPolicy.LastOf collidingPolicy.Stays (collidingPolicy.earlierFields record) name earlier ∧
            bucket.get? name = fresh.or earlier) ∧
          (collidingPolicy.sift record).record.get? "undefined" =
            if bucket = [] then none else some (.record bucket) := by
  have accepted : collidingSettings.toPolicy = .ok collidingPolicy := rfl
  refine ⟨accepted, ?_⟩
  intro record
  have inOrder : (Value.record record).InOrder :=
    ⟨by unfold Fields.Sorted; decide, trivial, trivial, trivial, trivial,
      ⟨by unfold Fields.Sorted; decide, trivial, trivial, trivial⟩, trivial⟩
  have reserves : collidingPolicy.ReservesRecord record := by
    intro value found
    cases found
    rfl
  obtain ⟨_, _, gathered⟩ := siftedRecord_placement accepted inOrder reserves
  exact ⟨inOrder, reserves, gathered rfl⟩

end LogSieve.Policy
