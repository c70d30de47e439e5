import LogSieve.Delivery
import LogSieve.Proofs.Resifting
/-!
# Delivering again

A delivered record is settled and its gathered record, if it is still one, has no more
fields than the policy allows: a text counts as a value at rest, so neither sifting nor
stowing has anything to do (`deliver_of_delivered`). Delivering a record whose reserved
value is a record or nothing leaves such a one (`delivered_deliver`).
-/
namespace LogSieve.Policy
variable {policy : Policy}

theorem text_ne_empty (fields : Record) : Record.text fields ≠ "" := by
  intro empty
  have letters := congrArg String.toList empty
  rw [Record.text, Value.text, String.toList_ofList] at letters
  cases fields with
  | nil => cases letters
  | cons field rest =>
    obtain ⟨name, value⟩ := field
    rw [Json.write] at letters
    cases letters

/-! ## What a delivery can do -/

theorem gatheredRecord_eq_some_iff {record fields : Record} :
    policy.gatheredRecord record = some fields ↔ policy.gatheredValue record = some (.record fields) := by
  rw [gatheredRecord]
  split
  · rename_i found
    simp [found]
  · rename_i other
    constructor
    · intro impossible
      cases impossible
    · intro found
      exact absurd found (other fields)

/-- A delivery stores the gathered record as text, or the record as it was sifted. -/
theorem deliver_cases (policy : Policy) (record : Record) :
    (∃ fields, policy.gatheredValue (policy.siftedRecord record) = some (.record fields) ∧ fields ≠ [] ∧
      policy.TooMany fields.length ∧
      policy.deliver record =
        ⟨Fields.insert (policy.siftedRecord record) policy.gatheredName (.string (Record.text fields)), true,
          policy.gatheredCount (policy.siftedRecord record), true⟩) ∨
    ((∀ fields, policy.gatheredValue (policy.siftedRecord record) = some (.record fields) → fields ≠ [] →
        ¬ policy.TooMany fields.length) ∧
      policy.deliver record =
        ⟨policy.siftedRecord record, policy.siftAlters record,
          policy.gatheredCount (policy.siftedRecord record), false⟩) := by
  have stows := deliver.eq_1 policy record
  simp only [sift] at stows
  cases found : policy.gatheredRecord (policy.siftedRecord record) with
  | none =>
    right
    refine ⟨?_, by rw [stows, found]; rfl⟩
    intro fields held
    rw [gatheredRecord_eq_some_iff.2 held] at found
    cases found
  | some fields =>
    have held := gatheredRecord_eq_some_iff.1 found
    have gathers := gathers_of_gatheredValue held
    by_cases many : fields ≠ [] ∧ policy.TooMany fields.length
    · left
      have stowed : policy.stow fields = .asText (Record.text fields) := if_pos ⟨gathers, many⟩
      exact ⟨fields, held, many.1, many.2, by rw [stows, found, Option.map_some, stowed]; rfl⟩
    · right
      have stowed : policy.stow fields = .asRecord fields := if_neg fun both => many both.2
      refine ⟨?_, by rw [stows, found, Option.map_some, stowed]; rfl⟩
      intro others othersHeld nonempty
      rw [held] at othersHeld
      cases othersHeld
      exact fun tooMany => many ⟨nonempty, tooMany⟩

/-! ## Delivered records -/

/-- Delivering finds nothing to do in the record. -/
structure Delivered (policy : Policy) (record : Record) : Prop where
  settled : policy.Settled record
  fits : ∀ fields, policy.gatheredValue record = some (.record fields) → ¬ policy.TooMany fields.length

/-- A settled record is delivered unless its gathered record is one that is stored as text. -/
theorem Settled.delivered {record : Record} (settled : policy.Settled record)
    (fits : ∀ fields, policy.gatheredValue record = some (.record fields) → fields ≠ [] →
      ¬ policy.TooMany fields.length) : policy.Delivered record := by
  refine ⟨settled, fun fields held => fits fields held ?_⟩
  cases settled.gathered _ held with
  | single _ single _ => cases single
  | record _ _ nonempty _ _ => exact nonempty

theorem deliver_of_delivered {record : Record} (delivered : policy.Delivered record) :
    policy.deliver record = ⟨record, false, policy.gatheredCount record, false⟩ := by
  have same := siftedRecord_of_settled delivered.settled
  rcases deliver_cases policy record with ⟨fields, held, _, tooMany, _⟩ | ⟨_, deliver⟩
  · rw [same] at held
    exact absurd tooMany (delivered.fits fields held)
  · rw [deliver, same, siftAlters_of_settled delivered.settled]

theorem gatheredValue_insert (gathers : policy.gathers = true) (record : Record) (value : Value) :
    policy.gatheredValue (Fields.insert record policy.gatheredName value) = some value := by
  rw [gatheredValue, if_pos gathers, Fields.get?_insert, if_pos rfl]

/-- A settled record stays settled with a text in place of what it gathered. -/
theorem settled_insert_text {record : Record} (settled : policy.Settled record) (gathers : policy.gathers = true)
    {text : String} (nonempty : text ≠ "") :
    policy.Settled (Fields.insert record policy.gatheredName (.string text)) where
  sorted := Fields.sorted_insert settled.sorted _ _
  top := by
    intro field member free
    rcases Fields.mem_of_mem_insert member with rfl | old
    · exact absurd ⟨gathers, rfl⟩ free
    · exact settled.top field old free
  gathered := by
    intro value found
    rw [gatheredValue_insert gathers] at found
    cases found
    exact .single _ rfl (by simpa [Value.isEmpty] using nonempty)

theorem not_nestsDotted {record : Record} (reserves : policy.ReservesRecord record) :
    ¬ policy.NestsDotted record := by
  rintro ⟨_, ⟨value, found, single, _⟩, _⟩
  rw [reserves value found] at single
  cases single

theorem delivered_deliver (coherent : policy.Coherent) {record : Record} (reserves : policy.ReservesRecord record) :
    policy.Delivered (policy.deliver record).record := by
  have settled := settled_siftedRecord coherent (not_nestsDotted reserves)
  rcases deliver_cases policy record with ⟨fields, held, _, _, deliver⟩ | ⟨fits, deliver⟩
  · have gathers := gathers_of_gatheredValue held
    rw [deliver]
    refine ⟨settled_insert_text settled gathers (text_ne_empty fields), ?_⟩
    intro others found
    rw [gatheredValue_insert gathers] at found
    cases found
  · rw [deliver]
    exact settled.delivered fits

/-- A second delivery changes nothing and tells the same, but that a gathered record which became text
    counts as one field then. -/
theorem deliver_deliver {settings : Settings} {policy : Policy} (accepted : settings.toPolicy = .ok policy)
    {record : Record} (reserves : policy.ReservesRecord record) :
    let first := policy.deliver record
    let second := policy.deliver first.record
    second.record = first.record ∧ second.changed = false ∧ second.becameText = false ∧
      second.hasGathered = first.hasGathered ∧
      second.gatheredFields = if first.becameText = true then 1 else first.gatheredFields := by
  have coherent := Settings.coherent_of_toPolicy accepted
  have again := deliver_of_delivered (delivered_deliver coherent reserves)
  simp only [again, Delivery.hasGathered, true_and]
  rcases deliver_cases policy record with ⟨fields, held, nonempty, _, deliver⟩ | ⟨_, deliver⟩
  · have one : policy.gatheredCount (policy.deliver record).record = 1 := by
      rw [deliver, gatheredCount, gatheredValue_insert (gathers_of_gatheredValue held)]
    have count : policy.gatheredCount (policy.siftedRecord record) = fields.length := by
      rw [gatheredCount, held]
    have positive : 0 < fields.length := List.length_pos_iff.2 nonempty
    rw [one, deliver]
    simp [count, positive]
  · rw [deliver]
    simp

/-- At most one gathered field is stored otherwise than as text. -/
def narrowSettings : Settings := { Settings.initial with gathers := true, keep := "time", maxFields := 1 }

/-- The policy of these settings. -/
def narrowPolicy : Policy := { initial with gathers := true, keep := ["time"], maxFields := some 1 }

/-- A record gathered earlier becomes text with the field that joins it, and stays that text. -/
theorem deliver_deliver_narrow :
    narrowSettings.toPolicy = .ok narrowPolicy ∧
      let record := [("host", .string "a"), ("time", .null), ("undefined", .record [("level", .string "b")])]
      narrowPolicy.ReservesRecord record ∧
        (narrowPolicy.deliver record).becameText = true ∧
        (narrowPolicy.deliver (narrowPolicy.deliver record).record).record = (narrowPolicy.deliver record).record ∧
        (narrowPolicy.deliver (narrowPolicy.deliver record).record).gatheredFields = 1 := by
  have accepted : narrowSettings.toPolicy = .ok narrowPolicy := rfl
  refine ⟨accepted, ?_⟩
  intro record
  have reserves : narrowPolicy.ReservesRecord record := by
    intro value found
    cases found
    rfl
  obtain ⟨same, _, _, _, count⟩ := deliver_deliver accepted reserves
  exact ⟨reserves, rfl, same, count⟩

end LogSieve.Policy
