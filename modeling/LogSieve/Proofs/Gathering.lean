import LogSieve.Proofs.Increments
/-!
# What is gathered

Under the reserved name of a sifted record stands an earlier value that is no record, a record
with such a value among its fields, or a record of the earlier fields that stay and the new
ones (`gatheredFrom_cases`). An earlier value that is no record stands beside the new fields
like a field under the reserved name, which has been written in its turn unless the last
new field that comes to that name stands behind it: that one is lost
(`lastCount_sift_iff`).
-/
namespace LogSieve.Policy
variable {policy : Policy} {record : Record}

/-- The value stands under the reserved name, is no record and is not empty. -/
structure HoldsSingle (policy : Policy) (record : Record) (value : Value) : Prop where
  held : policy.gatheredValue record = some value
  single : value.isRecord = false
  filled : value.isEmpty = false

theorem HoldsSingle.gatheredFrom_eq {value : Value} (holds : policy.HoldsSingle record value) :
    policy.gatheredFrom record = policy.gather (some value) (policy.fieldsAt .gathered record) := by
  rw [gatheredFrom, holds.held, Option.bind_some, resift_of_single holds.single, holds.filled,
    if_neg Bool.false_ne_true]

/-- Without such a value the earlier fields that stay and the new ones make up one record. -/
theorem gatheredFrom_eq_of_not_holdsSingle (without : ∀ value, ¬ policy.HoldsSingle record value) :
    policy.gatheredFrom record = if policy.bucket record = [] then none else some (.record (policy.bucket record)) := by
  by_cases reserves : policy.ReservesRecord record
  · exact gatheredFrom_eq_bucket reserves
  · -- What is left under the reserved name is the empty text, of which nothing stays.
    simp only [ReservesRecord, not_forall, Bool.not_eq_true] at reserves
    obtain ⟨value, held, single⟩ := reserves
    have empty : value.isEmpty = true := by
      by_contra filled
      exact without value ⟨held, single, by simpa using filled⟩
    have earlier : policy.earlierFields record = [] := by
      obtain rfl := (Value.isEmpty_iff_of_single single).1 empty
      rw [earlierFields, gatheredRecord, held]
      rfl
    have staying : policy.staying [] = [] := rfl
    rw [gatheredFrom, held, Option.bind_some, resift_of_single single, if_pos empty, gather, bucket, earlier, staying,
      ← Fields.ofList, Fields.ofList_of_sorted (policy.sorted_fieldsAt .gathered record)]

theorem gatheredFrom_cases {value : Value} (gathered : policy.gatheredFrom record = some value) :
    -- An earlier value that is no record, alone.
    (policy.HoldsSingle record value ∧ policy.fieldsAt .gathered record = []) ∨
    -- Such a value beside new fields.
    (∃ earlier, policy.HoldsSingle record earlier ∧ policy.fieldsAt .gathered record ≠ [] ∧
      value = .record (Fields.insert (policy.fieldsAt .gathered record) policy.gatheredName earlier)) ∨
    -- Earlier fields that stay, with new ones.
    (policy.bucket record ≠ [] ∧ value = .record (policy.bucket record)) := by
  by_cases single : ∃ earlier, policy.HoldsSingle record earlier
  · obtain ⟨earlier, holds⟩ := single
    rw [holds.gatheredFrom_eq] at gathered
    by_cases new : policy.fieldsAt .gathered record = []
    · rw [new, gather_nil] at gathered
      cases gathered
      exact .inl ⟨holds, new⟩
    · rw [gather_of_single holds.single new] at gathered
      cases gathered
      exact .inr (.inl ⟨earlier, holds, new, rfl⟩)
  · rw [gatheredFrom_eq_of_not_holdsSingle fun value holds => single ⟨value, holds⟩] at gathered
    split at gathered
    · cases gathered
    · rename_i nonempty
      cases gathered
      exact .inr (.inr ⟨nonempty, rfl⟩)

/-- A value that is gathered and is no record is the earlier one, which is not empty. -/
theorem holdsSingle_of_gatheredFrom {value : Value} (gathered : policy.gatheredFrom record = some value)
    (single : value.isRecord = false) : policy.HoldsSingle record value := by
  rcases gatheredFrom_cases gathered with ⟨holds, _⟩ | ⟨_, _, _, rfl⟩ | ⟨_, rfl⟩
  · exact holds
  · cases single
  · cases single

/-- A record that is gathered has a field. -/
theorem ne_nil_of_gatheredFrom {fields : Record} (gathered : policy.gatheredFrom record = some (.record fields)) :
    fields ≠ [] := by
  rcases gatheredFrom_cases gathered with ⟨holds, _⟩ | ⟨_, _, _, same⟩ | ⟨nonempty, same⟩
  · have single := holds.single
    cases single
  · cases same
    exact Fields.insert_ne_nil _ _ _
  · cases same
    exact nonempty

/-! ## A single value beside new fields -/

/-- A field as it is written among the gathered ones: the value under the reserved name as it is, every
    other field as it is stored. -/
def gatheredAs (policy : Policy) (field : String × Value) : String × Value :=
  if policy.Reserves field.1 then field else policy.stored field

/-- The field is reserved, or it is one of those that are gathered. -/
def TakesPart (policy : Policy) (field : String × Value) : Prop :=
  policy.Reserves field.1 ∨ policy.Survives field

/-- The gathered record has under each name what the last field that takes part and comes to it is written
    as. So every such field is there but those to whose names a later one comes. -/
structure LastCount (policy : Policy) (record gathered : Record) : Prop where
  entry : ∀ name, Fields.LastWrite policy.gatheredAs policy.TakesPart record name (gathered.get? name)
  survives : ∀ field ∈ record, policy.TakesPart field →
    (∀ other ∈ record, policy.TakesPart other → (policy.gatheredAs other).1 = (policy.gatheredAs field).1 →
      other.1 ≤ field.1) →
    gathered.get? (policy.gatheredAs field).1 = some (policy.gatheredAs field).2

/-- The last new field that comes to the reserved name stands behind it in the record, with another value. -/
def Overtakes (policy : Policy) (record : Record) (value : Value) : Prop :=
  ∃ field ∈ record, policy.Survives field ∧ policy.rename field.1 = policy.gatheredName ∧
    policy.gatheredName < field.1 ∧ policy.pruneValue field.2 ≠ value ∧
    ∀ other ∈ record, policy.Survives other → policy.rename other.1 = policy.gatheredName → other.1 ≤ field.1

theorem Survives.gatheredAs_eq {field : String × Value} (survives : policy.Survives field) :
    policy.gatheredAs field = policy.stored field :=
  if_neg survives.1

theorem gatheredAs_reserved (gathers : policy.gathers = true) (value : Value) :
    policy.gatheredAs (policy.gatheredName, value) = (policy.gatheredName, value) :=
  if_pos ⟨gathers, rfl⟩

/-- Under another name than the reserved one the reserved field does not count. -/
theorem lastWrite_of_survives {name : String} (other : name ≠ policy.gatheredName) {found : Option Value}
    (last : policy.LastOf policy.Survives record name found) :
    Fields.LastWrite policy.gatheredAs policy.TakesPart record name found := by
  have survives : ∀ field, policy.TakesPart field → (policy.gatheredAs field).1 = name →
      policy.Survives field ∧ policy.rename field.1 = name := by
    rintro field (reserved | survives) named
    · rw [gatheredAs, if_pos reserved, reserved.2] at named
      exact absurd named.symm other
    · rw [survives.gatheredAs_eq] at named
      exact ⟨survives, named⟩
  cases found with
  | none =>
    intro field member part named
    obtain ⟨counted, renamed⟩ := survives field part named
    exact last field member counted renamed
  | some value =>
    obtain ⟨field, member, counted, named, pruned, greatest⟩ := last
    refine ⟨field, member, .inr counted, ?_, ?_, ?_⟩
    · rw [counted.gatheredAs_eq]
      exact named
    · rw [counted.gatheredAs_eq]
      exact pruned
    · intro later laterMember part laterNamed
      obtain ⟨laterCounted, renamed⟩ := survives later part laterNamed
      exact greatest later laterMember laterCounted renamed

/-- The value under the reserved name is the last write there if no field behind it comes to that name. -/
theorem lastWrite_of_ahead (gathers : policy.gathers = true) {value : Value}
    (held : record.get? policy.gatheredName = some value)
    (ahead : ∀ other ∈ record, policy.Survives other → policy.rename other.1 = policy.gatheredName →
      other.1 ≤ policy.gatheredName) :
    Fields.LastWrite policy.gatheredAs policy.TakesPart record policy.gatheredName (some value) := by
  have written := gatheredAs_reserved gathers value
  refine ⟨_, Fields.mem_of_get? held, .inl ⟨gathers, rfl⟩, congrArg Prod.fst written, congrArg Prod.snd written, ?_⟩
  rintro other member (reserved | survives) named
  · exact reserved.2.le
  · rw [survives.gatheredAs_eq] at named
    exact ahead other member survives named

/-- The last of the fields that come to the reserved name is the last write there if it stands behind it. -/
theorem lastWrite_of_behind {field : String × Value} (member : field ∈ record) (survives : policy.Survives field)
    (named : policy.rename field.1 = policy.gatheredName) (behind : policy.gatheredName < field.1)
    (greatest : ∀ other ∈ record, policy.Survives other → policy.rename other.1 = policy.gatheredName →
      other.1 ≤ field.1) :
    Fields.LastWrite policy.gatheredAs policy.TakesPart record policy.gatheredName
      (some (policy.pruneValue field.2)) := by
  have written := survives.gatheredAs_eq
  refine ⟨field, member, .inr survives, ?_, ?_, ?_⟩
  · rw [written]
    exact named
  · rw [written]
    rfl
  · rintro other otherMember (reserved | otherSurvives) otherNamed
    · rw [reserved.2]
      exact behind.le
    · rw [otherSurvives.gatheredAs_eq] at otherNamed
      exact greatest other otherMember otherSurvives otherNamed

/-- Under the reserved name the value that stands there is the last write unless it is overtaken. -/
theorem lastWrite_gatheredName_iff (gathers : policy.gathers = true) (sorted : Fields.Sorted record) {value : Value}
    (held : record.get? policy.gatheredName = some value) :
    Fields.LastWrite policy.gatheredAs policy.TakesPart record policy.gatheredName (some value) ↔
      ¬ policy.Overtakes record value := by
  constructor
  · rintro last ⟨field, member, survives, named, behind, another, greatest⟩
    have later := lastWrite_of_behind member survives named behind greatest
    exact another (Option.some.inj (later.unique last sorted))
  · intro free
    have last := lastOf_gathered gathers sorted policy.gatheredName
    cases found : (policy.fieldsAt .gathered record).get? policy.gatheredName with
    | none =>
      rw [found] at last
      apply lastWrite_of_ahead gathers held
      intro other member survives named
      exact absurd named (last other member survives)
    | some pruned =>
      rw [found] at last
      obtain ⟨field, member, survives, named, rfl, greatest⟩ := last
      by_cases behind : policy.gatheredName < field.1
      · have same : policy.pruneValue field.2 = value := by
          by_contra another
          exact free ⟨field, member, survives, named, behind, another, greatest⟩
        rw [← same]
        exact lastWrite_of_behind member survives named behind greatest
      · apply lastWrite_of_ahead gathers held
        intro other otherMember otherSurvives otherNamed
        exact (greatest other otherMember otherSurvives otherNamed).trans (not_lt.1 behind)

theorem lastCount_of_entry (sorted : Fields.Sorted record) {gathered : Record}
    (entry : ∀ name, Fields.LastWrite policy.gatheredAs policy.TakesPart record name (gathered.get? name)) :
    policy.LastCount record gathered where
  entry := entry
  survives := by
    intro field member part greatest
    exact (entry _).eq_some sorted member part rfl greatest

/-- A value that is no record stands among the new fields under the reserved name, and under every other name
    stands the last of the fields that come to it. The same holds of the reserved name unless the last new
    field that comes to it stands behind it in the record, with another value. -/
theorem lastCount_sift_iff {settings : Settings} {policy : Policy} (accepted : settings.toPolicy = .ok policy)
    (gathers : policy.gathers = true) {record : Record} (sorted : Fields.Sorted record) {value : Value}
    (held : record.get? policy.gatheredName = some value) (single : value.isRecord = false)
    (filled : value ≠ .string "") (new : ∃ field ∈ record, policy.Survives field) :
    ∃ gathered : Record, Fields.Sorted gathered ∧
      (policy.sift record).record.get? policy.gatheredName = some (.record gathered) ∧
      gathered.get? policy.gatheredName = some value ∧
      (∀ name, name ≠ policy.gatheredName →
        Fields.LastWrite policy.gatheredAs policy.TakesPart record name (gathered.get? name)) ∧
      (policy.LastCount record gathered ↔ ¬ policy.Overtakes record value) := by
  have coherent := Settings.coherent_of_toPolicy accepted
  have holds : policy.HoldsSingle record value := by
    refine ⟨by rw [gatheredValue, if_pos gathers, held], single, ?_⟩
    by_contra empty
    exact filled ((Value.isEmpty_iff_of_single single).1 (by simpa using empty))
  have nonempty : policy.fieldsAt .gathered record ≠ [] := by
    obtain ⟨field, member, free, unlisted, stays⟩ := new
    intro none
    exact fieldsAt_eq_nil_iff.1 none field member free (place_eq_gathered_iff.2 ⟨gathers, unlisted, stays⟩)
  have stands := gatheredValue_siftedRecord coherent record
  rw [gatheredValue, if_pos gathers, holds.gatheredFrom_eq, gather_of_single single nonempty] at stands
  have found := Fields.get?_insert (policy.fieldsAt .gathered record) policy.gatheredName
  have others : ∀ name, name ≠ policy.gatheredName →
      Fields.LastWrite policy.gatheredAs policy.TakesPart record name
        ((Fields.insert (policy.fieldsAt .gathered record) policy.gatheredName value).get? name) := by
    intro name other
    rw [found, if_neg other]
    exact lastWrite_of_survives other (lastOf_gathered gathers sorted name)
  have own : (Fields.insert (policy.fieldsAt .gathered record) policy.gatheredName value).get? policy.gatheredName =
      some value := by
    rw [found, if_pos rfl]
  refine ⟨_, Fields.sorted_insert (policy.sorted_fieldsAt .gathered record) _ _, stands, own, others, ?_⟩
  rw [← lastWrite_gatheredName_iff gathers sorted held]
  constructor
  · intro last
    have entry := last.entry policy.gatheredName
    rwa [own] at entry
  · intro last
    apply lastCount_of_entry sorted
    intro name
    by_cases reserved : name = policy.gatheredName
    · rw [reserved, own]
      exact last
    · exact others name reserved

/-- Fields are gathered under a name to which a name with a dot comes. -/
def joinedSettings (name replacement : String) : Settings :=
  { Settings.initial with gathers := true, gatheredName := name, dotReplacement := replacement }

/-- The policy of these settings. -/
def joinedPolicy (name replacement : String) : Policy :=
  { initial with gathers := true, gatheredName := name, dotReplacement := some replacement }

/-- A text under the reserved name is behind the field that comes to that name, so it replaces that field. -/
theorem lastCount_sift_underscore :
    let policy := joinedPolicy "a_b" "_"
    (joinedSettings "a_b" "_").toPolicy = .ok policy ∧
      let record : Record := [("a.b", .null), ("a_b", .string "x"), ("c", .bool true)]
      Fields.Sorted record ∧ record.get? policy.gatheredName = some (.string "x") ∧
        (∃ field ∈ record, policy.Survives field) ∧ ¬ policy.Overtakes record (.string "x") ∧
        ∃ gathered : Record, (policy.sift record).record.get? policy.gatheredName = some (.record gathered) ∧
          gathered.get? policy.gatheredName = some (.string "x") ∧ policy.LastCount record gathered := by
  intro policy
  have accepted : (joinedSettings "a_b" "_").toPolicy = .ok policy := rfl
  refine ⟨accepted, ?_⟩
  intro record
  have sorted : Fields.Sorted record := by unfold Fields.Sorted; decide
  have new : ∃ field ∈ record, policy.Survives field := ⟨("c", .bool true), by decide, by unfold Survives; decide⟩
  have ahead : ¬ policy.Overtakes record (.string "x") := by
    rintro ⟨field, member, _, named, behind, _⟩
    have order : ∀ field ∈ record, policy.rename field.1 = policy.gatheredName → ¬ policy.gatheredName < field.1 := by
      decide
    exact order field member named behind
  obtain ⟨gathered, _, stands, own, _, last⟩ := lastCount_sift_iff accepted rfl sorted rfl rfl (by decide) new
  exact ⟨sorted, rfl, new, ahead, gathered, stands, own, last.2 ahead⟩

/-- A text under the reserved name replaces a field that comes to that name from behind it. -/
theorem not_lastCount_sift_dash :
    let policy := joinedPolicy "a-b" "-"
    (joinedSettings "a-b" "-").toPolicy = .ok policy ∧
      let record : Record := [("a-b", .string "x"), ("a.b", .null)]
      Fields.Sorted record ∧ record.get? policy.gatheredName = some (.string "x") ∧
        (∃ field ∈ record, policy.Survives field) ∧
        ∃ gathered : Record, (policy.sift record).record.get? policy.gatheredName = some (.record gathered) ∧
          gathered.get? policy.gatheredName = some (.string "x") ∧ ¬ policy.LastCount record gathered := by
  intro policy
  refine ⟨rfl, ?_⟩
  intro record
  have survives : policy.Survives ("a.b", .null) := by unfold Survives; decide
  have member : ("a.b", Value.null) ∈ record := by decide
  refine ⟨by unfold Fields.Sorted; decide, rfl, ⟨_, member, survives⟩, [("a-b", .string "x")], by decide, rfl, ?_⟩
  intro last
  have order : ∀ other ∈ record, other.1 ≤ "a.b" := by decide
  have entry := last.survives _ member (.inr survives) fun other inside _ _ => order other inside
  rw [survives.gatheredAs_eq] at entry
  revert entry
  decide

end LogSieve.Policy
