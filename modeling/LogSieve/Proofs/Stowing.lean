import LogSieve.Proofs.DeliveredLines
import LogSieve.Proofs.Gathering
/-!
# What a delivery does and tells

A record that a sift gathers is never empty, so a delivery stores it as text exactly if it has
more fields than the policy allows (`becameText_iff`), and tells of no gathered field exactly
if nothing stands under the reserved name (`gatheredCount_pos_iff`). Everything else stays as
the sift left it (`accounts_deliver`).
-/
namespace LogSieve.Policy
variable {policy : Policy} {record : Record}

/-- What a delivery makes of a sifted record, and what it tells. -/
structure Accounts (policy : Policy) (sifted : Sifted) (delivery : Delivery) : Prop where
  /-- A gathered record becomes text if it is too large, or in any case if the policy says so. -/
  becameText : delivery.becameText = true ↔ policy.gathers = true ∧
    ∃ fields, sifted.record.get? policy.gatheredName = some (.record fields) ∧
      (policy.alwaysAsText = true ∨ ∃ most, policy.maxFields = some most ∧ most < fields.length)
  /-- The text stands in place of the record that it is the text of. -/
  asText : delivery.becameText = true → ∃ fields,
    sifted.record.get? policy.gatheredName = some (.record fields) ∧
      delivery.record = Fields.insert sifted.record policy.gatheredName (.string (Record.text fields))
  asSifted : delivery.becameText = false → delivery.record = sifted.record
  changed : delivery.changed = (sifted.changed || delivery.becameText)
  /-- The fields are counted before they become text. -/
  countNothing : policy.gathers = false ∨ sifted.record.get? policy.gatheredName = none → delivery.gatheredFields = 0
  countRecord : policy.gathers = true → ∀ fields,
    sifted.record.get? policy.gatheredName = some (.record fields) → delivery.gatheredFields = fields.length
  countSingle : policy.gathers = true → ∀ value, sifted.record.get? policy.gatheredName = some value →
    value.isRecord = false → delivery.gatheredFields = 1
  hasGathered : delivery.hasGathered = true ↔ 0 < delivery.gatheredFields
  present : policy.gathers = true →
    (delivery.hasGathered = true ↔ (delivery.record.get? policy.gatheredName).isSome = true)
  /-- A gathered record that is left has a field and no more than the policy allows. -/
  bounded : policy.gathers = true → ∀ most, policy.maxFields = some most →
    ∀ fields, delivery.record.get? policy.gatheredName = some (.record fields) →
      1 ≤ fields.length ∧ fields.length ≤ most
  noRecord : policy.gathers = true → policy.alwaysAsText = true →
    ∀ fields, delivery.record.get? policy.gatheredName ≠ some (.record fields)

/-! ## The gathered record and its size -/

/-- A record under the reserved name of a sifted record has a field. -/
theorem ne_nil_of_siftedRecord (coherent : policy.Coherent) {fields : Record}
    (held : policy.gatheredValue (policy.siftedRecord record) = some (.record fields)) : fields ≠ [] := by
  rw [gatheredValue_siftedRecord coherent] at held
  exact ne_nil_of_gatheredFrom held

theorem becameText_iff (coherent : policy.Coherent) :
    (policy.deliver record).becameText = true ↔
      ∃ fields, policy.gatheredValue (policy.siftedRecord record) = some (.record fields) ∧
        policy.TooMany fields.length := by
  rcases deliver_cases policy record with ⟨fields, held, _, tooMany, deliver⟩ | ⟨fits, deliver⟩
  · rw [deliver]
    exact iff_of_true rfl ⟨fields, held, tooMany⟩
  · rw [deliver]
    refine iff_of_false Bool.false_ne_true ?_
    rintro ⟨fields, held, tooMany⟩
    exact fits fields held (ne_nil_of_siftedRecord coherent held) tooMany

/-- A gathered record that is left after a delivery is one that a sift left, and not too large. -/
theorem gatheredValue_deliver {fields : Record} (coherent : policy.Coherent)
    (held : policy.gatheredValue (policy.deliver record).record = some (.record fields)) :
    fields ≠ [] ∧ ¬ policy.TooMany fields.length := by
  rcases deliver_cases policy record with ⟨others, othersHeld, _, _, deliver⟩ | ⟨fits, deliver⟩
  · rw [deliver, gatheredValue_insert (gathers_of_gatheredValue othersHeld)] at held
    cases held
  · rw [deliver] at held
    have nonempty := ne_nil_of_siftedRecord coherent held
    exact ⟨nonempty, fits fields held nonempty⟩

theorem gatheredFields_deliver (policy : Policy) (record : Record) :
    (policy.deliver record).gatheredFields = policy.gatheredCount (policy.siftedRecord record) := by
  rcases deliver_cases policy record with ⟨_, _, _, _, deliver⟩ | ⟨_, deliver⟩
  · rw [deliver]
  · rw [deliver]

theorem gatheredCount_of_single {value : Value} (held : policy.gatheredValue record = some value)
    (single : value.isRecord = false) : policy.gatheredCount record = 1 := by
  rw [gatheredCount, held]
  cases value with
  | record fields => cases single
  | null | bool _ | number _ | string _ | array _ => rfl

/-- Where no empty record stands under the reserved name, some field is counted if anything stands there. -/
theorem gatheredCount_pos_iff
    (nonempty : ∀ fields, policy.gatheredValue record = some (.record fields) → fields ≠ []) :
    0 < policy.gatheredCount record ↔ (policy.gatheredValue record).isSome = true := by
  cases held : policy.gatheredValue record with
  | none => simp [gatheredCount, held]
  | some value =>
    cases kind : value.isRecord with
    | false => simp [gatheredCount_of_single held kind]
    | true =>
      obtain ⟨fields, rfl⟩ := Value.exists_record kind
      simp [gatheredCount, held, List.length_pos_iff, nonempty fields held]

/-- Stowing leaves something under the reserved name exactly if the sift did. -/
theorem isSome_gatheredValue_deliver (policy : Policy) (record : Record) :
    (policy.gatheredValue (policy.deliver record).record).isSome =
      (policy.gatheredValue (policy.siftedRecord record)).isSome := by
  rcases deliver_cases policy record with ⟨_, held, _, _, deliver⟩ | ⟨_, deliver⟩
  · rw [deliver, held, gatheredValue_insert (gathers_of_gatheredValue held)]
    rfl
  · rw [deliver]

/-! ## Together -/

/-- Every record is delivered, in whatever line it came, and the delivery accounts for what the sift left. -/
theorem accounts_deliver {settings : Settings} {policy : Policy} (accepted : settings.toPolicy = .ok policy)
    (record : Record) :
    (∀ line, Json.parseOrdered line = .ok (.record record) → policy.deliverLine line = .ok (policy.deliver record)) ∧
      policy.Accounts (policy.sift record) (policy.deliver record) := by
  have coherent := Settings.coherent_of_toPolicy accepted
  have counted := gatheredFields_deliver policy record
  have nonempty : ∀ fields, policy.gatheredValue (policy.siftedRecord record) = some (.record fields) → fields ≠ [] :=
    fun _ held => ne_nil_of_siftedRecord coherent held
  refine ⟨fun line read => deliverLine_of_parseOrdered read, ?_⟩
  constructor
  case becameText =>
    rw [becameText_iff coherent]
    simp only [gatheredValue_eq_some_iff, and_assoc, exists_and_left]
    rfl
  case asText =>
    intro told
    rcases deliver_cases policy record with ⟨fields, held, _, _, deliver⟩ | ⟨_, deliver⟩
    · exact ⟨fields, get?_of_gatheredValue held, by rw [deliver]; rfl⟩
    · rw [deliver] at told
      cases told
  case asSifted =>
    intro untold
    rcases deliver_cases policy record with ⟨_, _, _, _, deliver⟩ | ⟨_, deliver⟩
    · rw [deliver] at untold
      cases untold
    · rw [deliver]
      rfl
  case changed =>
    rcases deliver_cases policy record with ⟨_, _, _, _, deliver⟩ | ⟨_, deliver⟩
    · simp [deliver]
    · simp [deliver, sift]
  case countNothing =>
    intro nothing
    have absent : policy.gatheredValue (policy.siftedRecord record) = none := gatheredValue_eq_none_iff.2 nothing
    rw [counted, gatheredCount, absent]
  case countRecord =>
    intro gathers fields found
    have held : policy.gatheredValue (policy.siftedRecord record) = some (.record fields) :=
      gatheredValue_eq_some_iff.2 ⟨gathers, found⟩
    rw [counted, gatheredCount, held]
  case countSingle =>
    intro gathers value found single
    have held : policy.gatheredValue (policy.siftedRecord record) = some value :=
      gatheredValue_eq_some_iff.2 ⟨gathers, found⟩
    rw [counted, gatheredCount_of_single held single]
  case hasGathered => simp [Delivery.hasGathered]
  case present =>
    intro gathers
    have stands : policy.gatheredValue (policy.deliver record).record =
        (policy.deliver record).record.get? policy.gatheredName := if_pos gathers
    rw [← stands, isSome_gatheredValue_deliver, ← gatheredCount_pos_iff nonempty, ← counted]
    simp [Delivery.hasGathered]
  case bounded =>
    intro gathers most limit fields found
    obtain ⟨filled, fits⟩ := gatheredValue_deliver coherent (gatheredValue_eq_some_iff.2 ⟨gathers, found⟩)
    refine ⟨List.length_pos_iff.2 filled, ?_⟩
    by_contra more
    exact fits (.inr ⟨most, limit, not_le.1 more⟩)
  case noRecord =>
    intro gathers always fields found
    obtain ⟨_, fits⟩ := gatheredValue_deliver coherent (gatheredValue_eq_some_iff.2 ⟨gathers, found⟩)
    exact fits (.inl always)

/-- A text that stood under the reserved name is one of two gathered fields, which are one too many. -/
theorem accounts_deliver_narrow :
    narrowSettings.toPolicy = .ok narrowPolicy ∧
      let record := [("host", .string "a"), ("time", .null), ("undefined", .string "b")]
      let fields := [("host", .string "a"), ("undefined", .string "b")]
      let delivery := narrowPolicy.deliver record
      (narrowPolicy.sift record).record.get? "undefined" = some (.record fields) ∧
        narrowPolicy.deliverLine (Record.text record) = .ok delivery ∧ delivery.becameText = true ∧
        delivery.record = [("time", .null), ("undefined", .string (Record.text fields))] ∧
        delivery.gatheredFields = 2 ∧ narrowPolicy.Accounts (narrowPolicy.sift record) delivery := by
  have accepted : narrowSettings.toPolicy = .ok narrowPolicy := rfl
  refine ⟨accepted, ?_⟩
  intro record fields delivery
  have legible : (Value.record record).Legible Json.greatestDepth :=
    ⟨by decide, ⟨trivial, trivial, trivial, trivial⟩, by unfold Fields.Sorted; decide, trivial, trivial, trivial, trivial⟩
  have held : (narrowPolicy.sift record).record.get? "undefined" = some (.record fields) := by decide
  obtain ⟨delivers, accounts⟩ := accounts_deliver accepted record
  have told : delivery.becameText = true := accounts.becameText.2 ⟨rfl, fields, held, .inr ⟨1, rfl, by decide⟩⟩
  obtain ⟨others, othersHeld, stored⟩ := accounts.asText told
  cases held.symm.trans othersHeld
  exact ⟨held, delivers _ (Json.parseOrdered_text legible), told, stored, accounts.countRecord rfl fields held, accounts⟩

end LogSieve.Policy
