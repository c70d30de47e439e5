import LogSieve.Proofs.Placement
import LogSieve.Proofs.Redelivery
/-!
# Sifting what arrives later

Fields that arrive after a record has been sifted can be put into it and the whole be
sifted again: that comes to sifting them all at once, if no new field comes to a name of an
old one (`sift_insertAll`). Each place of the joined record holds the fields of the two parts
at that place (`fieldsAt_insertAll`), and of the fields under the reserved name the earlier
ones stay as they are (`staying_bucket`).
-/
namespace LogSieve.Fields
variable {α : Type}

theorem insertAll_assoc {fields middle later : Fields α} (sorted : Sorted fields) (sortedMiddle : Sorted middle)
    (sortedLater : Sorted later) :
    insertAll (insertAll fields middle) later = insertAll fields (insertAll middle later) := by
  have joined := sorted_insertAll sortedMiddle later
  apply ext_get? (sorted_insertAll (sorted_insertAll sorted middle) later) (sorted_insertAll sorted _)
  intro name
  rw [get?_insertAll_of_sorted _ sortedLater, get?_insertAll_of_sorted _ sortedMiddle,
    get?_insertAll_of_sorted _ joined, get?_insertAll_of_sorted _ sortedLater, Option.or_assoc]

/-- A field of two joined records is a later one, or an earlier one that no later field replaces. -/
theorem mem_insertAll_iff {fields later : Fields α} (sorted : Sorted fields) (sortedLater : Sorted later)
    {field : String × α} :
    field ∈ insertAll fields later ↔ field ∈ later ∨ field ∈ fields ∧ ∀ other ∈ later, other.1 ≠ field.1 := by
  obtain ⟨name, value⟩ := field
  rw [← get?_eq_some_iff (sorted_insertAll sorted later), ← get?_eq_some_iff sorted,
    ← get?_eq_some_iff sortedLater, ← get?_eq_none_iff, get?_insertAll_of_sorted _ sortedLater]
  cases get? later name with
  | none => simp
  | some other => simp

end LogSieve.Fields

namespace LogSieve.Policy
variable {policy : Policy}

/-! ## The places of a joined record -/

/-- The last of the fields that count in a joined record is the last in the later part or else in the earlier
    one, if no name is shared. -/
theorem lastOf_insertAll {first second : Record} (sorted : Fields.Sorted first) (sortedSecond : Fields.Sorted second)
    {counts : String × Value → Prop}
    (apart : ∀ field ∈ first, counts field → ∀ other ∈ second, policy.rename field.1 ≠ policy.rename other.1)
    {name : String} {later earlier : Option Value} (laterLast : policy.LastOf counts second name later)
    (earlierLast : policy.LastOf counts first name earlier) :
    policy.LastOf counts (Fields.insertAll first second) name (later.or earlier) := by
  have members := @Fields.mem_insertAll_iff _ _ _ sorted sortedSecond
  cases later with
  | some value =>
    obtain ⟨field, member, counted, named, pruned, greatest⟩ := laterLast
    refine ⟨field, members.2 (.inl member), counted, named, pruned, ?_⟩
    intro other otherMember otherCounts otherNamed
    rcases members.1 otherMember with inSecond | ⟨inFirst, _⟩
    · exact greatest other inSecond otherCounts otherNamed
    · exact absurd (otherNamed.trans named.symm) (apart other inFirst otherCounts field member)
  | none =>
    cases earlier with
    | none =>
      intro other otherMember otherCounts
      rcases members.1 otherMember with inSecond | ⟨inFirst, _⟩
      · exact laterLast other inSecond otherCounts
      · exact earlierLast other inFirst otherCounts
    | some value =>
      obtain ⟨field, member, counted, named, pruned, greatest⟩ := earlierLast
      have kept : ∀ other ∈ second, other.1 ≠ field.1 := fun other inside same =>
        apart field member counted other inside (congrArg policy.rename same.symm)
      refine ⟨field, members.2 (.inr ⟨member, kept⟩), counted, named, pruned, ?_⟩
      intro other otherMember otherCounts otherNamed
      rcases members.1 otherMember with inSecond | ⟨inFirst, _⟩
      · exact absurd otherNamed (laterLast other inSecond otherCounts)
      · exact greatest other inFirst otherCounts otherNamed

theorem lastOf_fieldsAt {record : Record} (sorted : Fields.Sorted record) (place : Place) (name : String) :
    policy.LastOf
      (fun field => policy.place field.1 (policy.pruneValue field.2) = place ∧ ¬ policy.Reserves field.1)
      record name ((policy.fieldsAt place record).get? name) := by
  rw [fieldsAt_eq]
  refine lastOf_stored sorted ?_ name
  intro field
  simp

theorem fieldsAt_insertAll {first second : Record} (sorted : Fields.Sorted first)
    (sortedSecond : Fields.Sorted second)
    (apart : ∀ field ∈ first, ¬ policy.Reserves field.1 → ∀ other ∈ second,
      policy.rename field.1 ≠ policy.rename other.1) (place : Place) :
    policy.fieldsAt place (Fields.insertAll first second) =
      Fields.insertAll (policy.fieldsAt place first) (policy.fieldsAt place second) := by
  have joined := Fields.sorted_insertAll sorted second
  apply Fields.ext_get? (policy.sorted_fieldsAt place _) (Fields.sorted_insertAll (policy.sorted_fieldsAt place first) _)
  intro name
  rw [Fields.get?_insertAll_of_sorted _ (policy.sorted_fieldsAt place second)]
  refine (lastOf_fieldsAt joined place name).unique ?_ joined
  refine lastOf_insertAll sorted sortedSecond ?_ (lastOf_fieldsAt sortedSecond place name)
    (lastOf_fieldsAt sorted place name)
  intro field member counted
  exact apart field member counted.2

theorem gatheredValue_insertAll {second : Record} (sortedSecond : Fields.Sorted second)
    (free : ∀ field ∈ second, ¬ policy.Reserves field.1) (first : Record) :
    policy.gatheredValue (Fields.insertAll first second) = policy.gatheredValue first := by
  by_cases gathers : policy.gathers = true
  · have absent : Fields.get? second policy.gatheredName = none :=
      Fields.get?_eq_none_iff.2 fun field member reserved => free field member ⟨gathers, reserved⟩
    rw [gatheredValue, gatheredValue, if_pos gathers, if_pos gathers,
      Fields.get?_insertAll_of_sorted _ sortedSecond, absent, Option.none_or]
  · rw [gatheredValue, gatheredValue, if_neg gathers, if_neg gathers]

/-! ## What was gathered, sifted again -/

/-- The fields under the reserved name of a sifted record, with those of the record before it that stay. -/
def bucket (policy : Policy) (record : Record) : Record :=
  Fields.insertAll (policy.staying (policy.earlierFields record)) (policy.fieldsAt .gathered record)

theorem gatheredFrom_eq_bucket {record : Record} (reserves : policy.ReservesRecord record) :
    policy.gatheredFrom record = if policy.bucket record = [] then none else some (.record (policy.bucket record)) :=
  gatheredFrom_eq reserves

theorem earlierFields_siftedRecord (coherent : policy.Coherent) {record : Record}
    (reserves : policy.ReservesRecord record) : policy.earlierFields (policy.siftedRecord record) = policy.bucket record := by
  rw [earlierFields, gatheredRecord, gatheredValue_siftedRecord coherent, gatheredFrom_eq_bucket reserves]
  by_cases empty : policy.bucket record = []
  · rw [if_pos empty, empty]
    rfl
  · rw [if_neg empty]
    rfl

theorem staying_bucket (coherent : policy.Coherent) {record : Record} (reserves : policy.ReservesRecord record) :
    policy.staying (policy.bucket record) = policy.bucket record := by
  by_cases empty : policy.bucket record = []
  · rw [empty]
    rfl
  · have settled := settled_siftedRecord coherent (not_nestsDotted reserves)
    have stands := gatheredValue_siftedRecord coherent record
    rw [gatheredFrom_eq_bucket reserves, if_neg empty] at stands
    cases settled.gathered _ stands with
    | single _ single _ => cases single
    | record _ sorted _ rest stay => exact staying_of_rests sorted rest stay

theorem reservesRecord_siftedRecord (coherent : policy.Coherent) {record : Record}
    (reserves : policy.ReservesRecord record) : policy.ReservesRecord (policy.siftedRecord record) := by
  intro value found
  rw [gatheredValue_siftedRecord coherent, gatheredFrom_eq_bucket reserves] at found
  split at found
  · cases found
  · cases found
    rfl

/-! ## Together -/

/-- The fields of a sifted record that are not reserved keep apart from whatever the record did. -/
theorem apart_siftedRecord (coherent : policy.Coherent) {first second : Record}
    (apart : ∀ field ∈ first, ∀ other ∈ second, policy.rename field.1 ≠ policy.rename other.1) :
    ∀ field ∈ policy.siftedRecord first, ¬ policy.Reserves field.1 → ∀ other ∈ second,
      policy.rename field.1 ≠ policy.rename other.1 := by
  intro field member free other otherMember
  have top : field ∈ policy.fieldsAt .top first := by
    rw [← placed_siftedRecord coherent]
    exact mem_placed.2 ⟨member, free⟩
  obtain ⟨source, inside, _, _, rfl⟩ := source_of_mem_fieldsAt top
  rw [stored, coherent.rename_rename]
  exact apart source inside other otherMember

/-- The fields at the top of a sifted record stay there, and the others have left. -/
theorem fieldsAt_siftedRecord (coherent : policy.Coherent) {record : Record} (reserves : policy.ReservesRecord record) :
    policy.fieldsAt .top (policy.siftedRecord record) = policy.fieldsAt .top record ∧
      policy.fieldsAt .gathered (policy.siftedRecord record) = [] := by
  have settled := settled_siftedRecord coherent (not_nestsDotted reserves)
  refine ⟨?_, settled.top.gathered_eq_nil⟩
  rw [settled.top.top_eq_placed settled.sorted, placed_siftedRecord coherent]

theorem bucket_insertAll_siftedRecord (coherent : policy.Coherent) {first second : Record}
    (sorted : Fields.Sorted first) (sortedSecond : Fields.Sorted second)
    (apart : ∀ field ∈ first, ∀ other ∈ second, policy.rename field.1 ≠ policy.rename other.1)
    (free : ∀ other ∈ second, ¬ policy.Reserves other.1) (reserves : policy.ReservesRecord first) :
    policy.bucket (Fields.insertAll (policy.siftedRecord first) second) =
      policy.bucket (Fields.insertAll first second) := by
  have fresh := policy.sorted_fieldsAt .gathered
  have earlier : ∀ record, policy.earlierFields (Fields.insertAll record second) = policy.earlierFields record := by
    intro record
    rw [earlierFields, earlierFields, gatheredRecord, gatheredRecord, gatheredValue_insertAll sortedSecond free]
  have inSteps : policy.fieldsAt .gathered (Fields.insertAll (policy.siftedRecord first) second) =
      policy.fieldsAt .gathered second := by
    rw [fieldsAt_insertAll (sorted_siftedRecord first) sortedSecond (apart_siftedRecord coherent apart),
      (fieldsAt_siftedRecord coherent reserves).2]
    exact Fields.ofList_of_sorted (fresh second)
  have atOnce : policy.fieldsAt .gathered (Fields.insertAll first second) =
      Fields.insertAll (policy.fieldsAt .gathered first) (policy.fieldsAt .gathered second) :=
    fieldsAt_insertAll sorted sortedSecond (fun field member _ => apart field member) .gathered
  calc policy.bucket (Fields.insertAll (policy.siftedRecord first) second)
      = Fields.insertAll (policy.bucket first) (policy.fieldsAt .gathered second) := by
        rw [bucket, earlier, earlierFields_siftedRecord coherent reserves, staying_bucket coherent reserves, inSteps]
    _ = Fields.insertAll (policy.staying (policy.earlierFields first))
          (Fields.insertAll (policy.fieldsAt .gathered first) (policy.fieldsAt .gathered second)) :=
        Fields.insertAll_assoc (Fields.sorted_ofList _) (fresh first) (fresh second)
    _ = policy.bucket (Fields.insertAll first second) := by
        rw [bucket, earlier, atOnce]

/-- Fields that are put into a sifted record, to be sifted with it, end where they would have ended had they
    been there from the start. -/
theorem sift_insertAll {settings : Settings} {policy : Policy} (accepted : settings.toPolicy = .ok policy)
    {first second : Record} (sorted : Fields.Sorted first) (sortedSecond : Fields.Sorted second)
    (apart : ∀ field ∈ first, ∀ other ∈ second, policy.rename field.1 ≠ policy.rename other.1)
    (free : ∀ other ∈ second, ¬ policy.Reserves other.1) (reserves : policy.ReservesRecord first) :
    let inSteps := policy.sift (Fields.insertAll (policy.sift first).record second)
    let atOnce := policy.sift (Fields.insertAll first second)
    inSteps.record = atOnce.record ∧ inSteps.gatheredFields = atOnce.gatheredFields ∧
      inSteps.hasGathered = atOnce.hasGathered := by
  have coherent := Settings.coherent_of_toPolicy accepted
  have top : policy.fieldsAt .top (Fields.insertAll (policy.siftedRecord first) second) =
      policy.fieldsAt .top (Fields.insertAll first second) := by
    rw [fieldsAt_insertAll (sorted_siftedRecord first) sortedSecond (apart_siftedRecord coherent apart),
      (fieldsAt_siftedRecord coherent reserves).1,
      fieldsAt_insertAll sorted sortedSecond (fun field member _ => apart field member)]
  have reservesJoined : ∀ record, policy.ReservesRecord record →
      policy.ReservesRecord (Fields.insertAll record second) := by
    intro record holds value found
    rw [gatheredValue_insertAll sortedSecond free] at found
    exact holds value found
  have gathered : policy.gatheredFrom (Fields.insertAll (policy.siftedRecord first) second) =
      policy.gatheredFrom (Fields.insertAll first second) := by
    rw [gatheredFrom_eq_bucket (reservesJoined _ (reservesRecord_siftedRecord coherent reserves)),
      gatheredFrom_eq_bucket (reservesJoined _ reserves),
      bucket_insertAll_siftedRecord coherent sorted sortedSecond apart free reserves]
  have same : policy.siftedRecord (Fields.insertAll (policy.siftedRecord first) second) =
      policy.siftedRecord (Fields.insertAll first second) := by
    rw [siftedRecord_eq (Fields.insertAll (policy.siftedRecord first) second),
      siftedRecord_eq (Fields.insertAll first second), gathered, top]
  have count := congrArg policy.gatheredCount same
  exact ⟨same, count, congrArg (fun n => decide (0 < n)) count⟩

/-- A field that arrives later joins one that was gathered before the first sift, one that was gathered by it
    and one that is kept with a dot in its name. -/
theorem sift_insertAll_dotted :
    collidingSettings.toPolicy = .ok collidingPolicy ∧
      let first := [("a.b", .string ""), ("c.d", .null), ("undefined", .record [("c_d", .bool true), ("e", .null)])]
      let second := [("e", .record [("f", .string ""), ("g", .null)]), ("h.i", .bool false)]
      Fields.Sorted first ∧ Fields.Sorted second ∧
        (∀ field ∈ first, ∀ other ∈ second, collidingPolicy.rename field.1 ≠ collidingPolicy.rename other.1) ∧
        (∀ other ∈ second, ¬ collidingPolicy.Reserves other.1) ∧ collidingPolicy.ReservesRecord first ∧
        (collidingPolicy.sift (Fields.insertAll (collidingPolicy.sift first).record second)).record =
          (collidingPolicy.sift (Fields.insertAll first second)).record ∧
        (collidingPolicy.sift (Fields.insertAll (collidingPolicy.sift first).record second)).gatheredFields = 3 := by
  have accepted : collidingSettings.toPolicy = .ok collidingPolicy := rfl
  refine ⟨accepted, ?_⟩
  intro first second
  have sorted : Fields.Sorted first := by unfold Fields.Sorted; decide
  have sortedSecond : Fields.Sorted second := by unfold Fields.Sorted; decide
  have apart : ∀ field ∈ first, ∀ other ∈ second,
      collidingPolicy.rename field.1 ≠ collidingPolicy.rename other.1 := by decide
  have free : ∀ other ∈ second, ¬ collidingPolicy.Reserves other.1 := by decide
  have reserves : collidingPolicy.ReservesRecord first := by
    intro value found
    cases found
    rfl
  obtain ⟨same, count, _⟩ := sift_insertAll accepted sorted sortedSecond apart free reserves
  exact ⟨sorted, sortedSecond, apart, free, reserves, same, count.trans (by decide)⟩

end LogSieve.Policy
