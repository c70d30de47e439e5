import LogSieve.Proofs.Pruning
import LogSieve.Sifting
/-!
# What a sifted record holds

A sifted record has two parts: the fields placed at the top (`placed_siftedRecord`), and
under the reserved name what was gathered (`gatheredValue_siftedRecord`). For a coherent
policy the two never meet, as no field at the top takes the reserved name.
-/
namespace LogSieve.Policy
variable {policy : Policy}

/-! ## Places -/

theorem place_eq_top_iff {name : String} {pruned : Value} :
    policy.place name pruned = .top ↔
      name ∈ policy.keep ∨ policy.gathers = false ∧ ¬ policy.Drops name pruned := by
  rw [place]
  by_cases kept : name ∈ policy.keep
  · simp [kept]
  · by_cases drops : policy.Drops name pruned
    · simp [kept, drops]
    · by_cases gathers : policy.gathers = true
      · simp [kept, drops, gathers]
      · simp [kept, drops, gathers]

theorem place_eq_gathered_iff {name : String} {pruned : Value} :
    policy.place name pruned = .gathered ↔
      policy.gathers = true ∧ name ∉ policy.keep ∧ ¬ policy.Drops name pruned := by
  rw [place]
  by_cases kept : name ∈ policy.keep
  · simp [kept]
  · by_cases drops : policy.Drops name pruned
    · simp [kept, drops]
    · by_cases gathers : policy.gathers = true
      · simp [kept, drops, gathers]
      · simp [kept, drops, gathers]

theorem not_drops_of_filled (name : String) {pruned : Value} (filled : pruned.isEmpty = false) :
    ¬ policy.Drops name pruned := by
  rintro ⟨empty, _⟩
  rw [filled] at empty
  cases empty

theorem mem_keepEmpty_of_not_drops {name : String} {pruned : Value} (stays : ¬ policy.Drops name pruned)
    (empty : pruned.isEmpty = true) : name ∈ policy.keepEmpty := by
  by_contra unlisted
  exact stays ⟨empty, unlisted⟩

theorem mem_placed {record : Record} {field : String × Value} :
    field ∈ policy.placed record ↔ field ∈ record ∧ ¬ policy.Reserves field.1 := by
  rw [placed, List.mem_filter, decide_eq_true_eq]

theorem placed_eq_erase (gathers : policy.gathers = true) (record : Record) :
    policy.placed record = record.erase policy.gatheredName := by
  rw [placed, Fields.erase]
  simp only [Reserves, gathers, true_and, ne_eq]

theorem placed_of_not_gathers (gathers : policy.gathers = false) (record : Record) :
    policy.placed record = record := by
  rw [placed, List.filter_eq_self]
  intro field _
  simp [Reserves, gathers]

/-! ## The fields at a place -/

theorem sorted_fieldsAt (policy : Policy) (place : Place) (record : Record) :
    Fields.Sorted (policy.fieldsAt place record) :=
  Fields.sorted_ofList _

theorem source_of_mem_fieldsAt {place : Place} {record : Record} {field : String × Value}
    (member : field ∈ policy.fieldsAt place record) :
    ∃ source ∈ record, ¬ policy.Reserves source.1 ∧
      policy.place source.1 (policy.pruneValue source.2) = place ∧ policy.stored source = field := by
  obtain ⟨source, inside, stored⟩ := List.mem_map.1 (Fields.mem_of_mem_ofList member)
  rw [List.mem_filter, mem_placed, decide_eq_true_eq] at inside
  exact ⟨source, inside.1.1, inside.1.2, inside.2, stored⟩

theorem fieldsAt_eq_nil_iff {place : Place} {record : Record} :
    policy.fieldsAt place record = [] ↔
      ∀ field ∈ record, ¬ policy.Reserves field.1 →
        policy.place field.1 (policy.pruneValue field.2) ≠ place := by
  rw [fieldsAt, Fields.ofList_eq_nil_iff, List.map_eq_nil_iff, List.filter_eq_nil_iff]
  simp only [mem_placed, decide_eq_true_eq, and_imp]

/-- Where fields are gathered, the fields at the top are the kept ones, and none of them takes the
    reserved name. -/
theorem get?_top_gatheredName (coherent : policy.Coherent) (gathers : policy.gathers = true) (record : Record) :
    (policy.fieldsAt .top record).get? policy.gatheredName = none := by
  rw [Fields.get?_eq_none_iff]
  intro field member
  obtain ⟨source, _, _, top, rfl⟩ := source_of_mem_fieldsAt member
  rcases place_eq_top_iff.1 top with kept | ⟨notGathers, _⟩
  · exact coherent.rename_ne_gatheredName gathers kept
  · rw [gathers] at notGathers
    cases notGathers

theorem gathers_of_gatheredValue {record : Record} {value : Value} (found : policy.gatheredValue record = some value) :
    policy.gathers = true := by
  by_contra off
  rw [gatheredValue, if_neg off] at found
  cases found

theorem get?_of_gatheredValue {record : Record} {value : Value} (found : policy.gatheredValue record = some value) :
    record.get? policy.gatheredName = some value := by
  rwa [gatheredValue, if_pos (gathers_of_gatheredValue found)] at found

theorem gatheredValue_eq_some_iff {record : Record} {value : Value} :
    policy.gatheredValue record = some value ↔
      policy.gathers = true ∧ record.get? policy.gatheredName = some value := by
  constructor
  · intro found
    exact ⟨gathers_of_gatheredValue found, get?_of_gatheredValue found⟩
  · rintro ⟨gathers, found⟩
    rw [gatheredValue, if_pos gathers, found]

theorem gatheredValue_eq_none_iff {record : Record} :
    policy.gatheredValue record = none ↔ policy.gathers = false ∨ record.get? policy.gatheredName = none := by
  rw [gatheredValue]
  cases policy.gathers with
  | false => simp
  | true => simp

/-- What the record holds under the reserved name, if anything, is a record. -/
def ReservesRecord (policy : Policy) (record : Record) : Prop :=
  ∀ value, policy.gatheredValue record = some value → value.isRecord = true

/-! ## The two parts of a sifted record -/

/-- What is gathered from a record, the earlier gathered value included. -/
def gatheredFrom (policy : Policy) (record : Record) : Option Value :=
  policy.gather ((policy.gatheredValue record).bind policy.resift) (policy.fieldsAt .gathered record)

theorem siftedRecord_eq (record : Record) :
    policy.siftedRecord record =
      match policy.gatheredFrom record with
      | none => policy.fieldsAt .top record
      | some value => Fields.insert (policy.fieldsAt .top record) policy.gatheredName value := rfl

theorem gatheredFrom_of_absent {record : Record} (absent : policy.gatheredValue record = none) :
    policy.gatheredFrom record =
      if policy.fieldsAt .gathered record = [] then none else some (.record (policy.fieldsAt .gathered record)) := by
  rw [gatheredFrom, absent, Option.bind_none, gather]

theorem gatheredFrom_of_not_gathers (gathers : policy.gathers = false) (record : Record) :
    policy.gatheredFrom record = none := by
  have absent : policy.gatheredValue record = none := gatheredValue_eq_none_iff.2 (.inl gathers)
  have fresh : policy.fieldsAt .gathered record = [] := by
    rw [fieldsAt_eq_nil_iff]
    intro field _ _ gathered
    rw [(place_eq_gathered_iff.1 gathered).1] at gathers
    cases gathers
  rw [gatheredFrom_of_absent absent, if_pos fresh]

theorem siftedRecord_of_not_gathers (gathers : policy.gathers = false) (record : Record) :
    policy.siftedRecord record = policy.fieldsAt .top record := by
  rw [siftedRecord_eq, gatheredFrom_of_not_gathers gathers]

theorem sorted_siftedRecord (record : Record) : Fields.Sorted (policy.siftedRecord record) := by
  rw [siftedRecord_eq]
  cases policy.gatheredFrom record with
  | none => exact policy.sorted_fieldsAt .top record
  | some value => exact Fields.sorted_insert (policy.sorted_fieldsAt .top record) _ value

theorem get?_siftedRecord {name : String} (other : name ≠ policy.gatheredName) (record : Record) :
    (policy.siftedRecord record).get? name = (policy.fieldsAt .top record).get? name := by
  rw [siftedRecord_eq]
  cases policy.gatheredFrom record with
  | none => rfl
  | some value => exact (Fields.get?_insert _ _ _ value).trans (if_neg other)

/-- Under the reserved name stands what was gathered, and nothing else. -/
theorem gatheredValue_siftedRecord (coherent : policy.Coherent) (record : Record) :
    policy.gatheredValue (policy.siftedRecord record) = policy.gatheredFrom record := by
  by_cases gathers : policy.gathers = true
  · rw [gatheredValue, if_pos gathers, siftedRecord_eq]
    cases policy.gatheredFrom record with
    | none => exact get?_top_gatheredName coherent gathers record
    | some value => exact (Fields.get?_insert _ _ _ value).trans (if_pos rfl)
  · rw [gatheredFrom_of_not_gathers (by simpa using gathers), gatheredValue, if_neg gathers]

/-- The other fields of a sifted record are those placed at the top. -/
theorem placed_siftedRecord (coherent : policy.Coherent) (record : Record) :
    policy.placed (policy.siftedRecord record) = policy.fieldsAt .top record := by
  by_cases gathers : policy.gathers = true
  · have free := get?_top_gatheredName coherent gathers record
    rw [placed_eq_erase gathers, siftedRecord_eq]
    cases policy.gatheredFrom record with
    | none => exact Fields.erase_of_get?_eq_none free
    | some value => exact Fields.erase_insert (policy.sorted_fieldsAt .top record) free value
  · have off : policy.gathers = false := by simpa using gathers
    rw [placed_of_not_gathers off, siftedRecord_of_not_gathers off]

/-- A record in order is its two parts put together. -/
theorem insert_placed {record : Record} (sorted : Fields.Sorted record) {value : Value}
    (found : policy.gatheredValue record = some value) :
    Fields.insert (policy.placed record) policy.gatheredName value = record := by
  rw [placed_eq_erase (gathers_of_gatheredValue found)]
  exact Fields.insert_erase sorted (get?_of_gatheredValue found)

theorem placed_of_gatheredValue_eq_none {record : Record} (absent : policy.gatheredValue record = none) :
    policy.placed record = record := by
  by_cases gathers : policy.gathers = true
  · rw [gatheredValue, if_pos gathers] at absent
    rw [placed_eq_erase gathers]
    exact Fields.erase_of_get?_eq_none absent
  · exact placed_of_not_gathers (by simpa using gathers) record

end LogSieve.Policy
