import LogSieve.Proofs.Redelivery
/-!
# When a record changes

Sifting reports a change exactly if it makes one: it neither reports nor makes one in a
settled record, and in every other record it does both (`siftAlters_eq_false_iff_settled`,
`siftedRecord_eq_self_iff_settled`). Delivering likewise leaves exactly the delivered records
as they are (`changed_iff_ne`).
-/
namespace LogSieve.Policy
variable {policy : Policy} {record : Record}

/-! ## Sifting -/

theorem rests_of_alters_eq_false {field : String × Value} (inOrder : field.2.InOrder)
    (idle : policy.alters field = false) : policy.Rests field := by
  rw [alters, Bool.or_eq_false_iff, decide_eq_false_iff_not, not_not] at idle
  exact ⟨idle.1, Value.pruned_of_prunes_eq_false inOrder idle.2⟩

theorem settledTop_of_movesAny_eq_false (inside : ∀ field ∈ record, field.2.InOrder)
    (idle : policy.movesAny record = false) : policy.SettledTop record := by
  intro field member free
  rw [movesAny, List.any_eq_false] at idle
  have still := idle field (mem_placed.2 ⟨member, free⟩)
  simp only [Bool.or_eq_true, decide_eq_true_eq, not_or, Bool.not_eq_true, ne_eq, not_not] at still
  have rests := rests_of_alters_eq_false (inside field member) still.1
  refine ⟨rests, ?_⟩
  rw [← rests.pruneValue_eq]
  exact still.2

theorem holds_of_resiftAlters_eq_false {value : Value} (inOrder : value.InOrder)
    (idle : policy.resiftAlters value = false) : policy.Holds value := by
  cases kind : value.isRecord with
  | false =>
    rw [resiftAlters_of_single kind] at idle
    exact .single value kind idle
  | true =>
    obtain ⟨fields, rfl⟩ := Value.exists_record kind
    obtain ⟨sorted, inside⟩ := inOrder
    rw [Value.fieldsInOrder_iff] at inside
    rw [resiftAlters, Bool.or_eq_false_iff, List.any_eq_false, decide_eq_false_iff_not] at idle
    obtain ⟨still, stays⟩ := idle
    have rest : ∀ field ∈ fields, policy.Rests field ∧ ¬ policy.Drops field.1 field.2 := by
      intro field member
      have quiet := still field member
      simp only [Bool.or_eq_true, decide_eq_true_eq, not_or, Bool.not_eq_true] at quiet
      have rests := rests_of_alters_eq_false (inside field member) quiet.1
      exact ⟨rests, rests.pruneValue_eq ▸ quiet.2⟩
    refine .record fields sorted ?_ (fun field member => (rest field member).1)
      (fun field member => (rest field member).2)
    rintro rfl
    exact stays rfl

/-- Sifting reports nothing exactly in settled records. -/
theorem siftAlters_eq_false_iff_settled (inOrder : (Value.record record).InOrder) :
    policy.siftAlters record = false ↔ policy.Settled record := by
  refine ⟨fun idle => ?_, siftAlters_of_settled⟩
  obtain ⟨sorted, inside⟩ := inOrder
  rw [Value.fieldsInOrder_iff] at inside
  rw [siftAlters, Bool.or_eq_false_iff] at idle
  refine ⟨sorted, settledTop_of_movesAny_eq_false inside idle.1, ?_⟩
  intro value found
  have still := idle.2
  rw [found, Option.any_some] at still
  exact holds_of_resiftAlters_eq_false (inside _ (Fields.mem_of_get? (get?_of_gatheredValue found))) still

theorem not_nestsDotted_of_settledTop (top : policy.SettledTop record) : ¬ policy.NestsDotted record := by
  rintro ⟨_, _, field, member, free, gathered⟩
  obtain ⟨rests, placed⟩ := top field member free
  rw [rests.pruneValue_eq, placed] at gathered
  cases gathered

/-- Sifting changes nothing exactly in settled records. -/
theorem siftedRecord_eq_self_iff_settled (coherent : policy.Coherent) :
    policy.siftedRecord record = record ↔ policy.Settled record := by
  refine ⟨fun same => ?_, siftedRecord_of_settled⟩
  -- A record that a sift can leave has nothing at its top that moves, so the sift settles it.
  have top := settledTop_siftedRecord coherent record
  rw [same] at top
  rw [← same]
  exact settled_siftedRecord coherent (not_nestsDotted_of_settledTop top)

/-! ## Delivering -/

theorem delivered_of_changed_eq_false (inOrder : (Value.record record).InOrder)
    (idle : (policy.deliver record).changed = false) : policy.Delivered record := by
  rcases deliver_cases policy record with ⟨_, _, _, _, deliver⟩ | ⟨fits, deliver⟩
  · rw [deliver] at idle
    cases idle
  · rw [deliver] at idle
    have settled := (siftAlters_eq_false_iff_settled inOrder).1 idle
    rw [siftedRecord_of_settled settled] at fits
    exact settled.delivered fits

/-- A gathered record that becomes text was not that text before. -/
theorem insert_text_ne (coherent : policy.Coherent) {fields : Record}
    (held : policy.gatheredValue (policy.siftedRecord record) = some (.record fields)) (text : String) :
    Fields.insert (policy.siftedRecord record) policy.gatheredName (.string text) ≠ record := by
  intro same
  have gathers := gathers_of_gatheredValue held
  have found : policy.gatheredValue record = some (.string text) := by
    rw [← same]
    exact gatheredValue_insert gathers _ _
  -- Beside a text only fields that move make a gathered record, and none of the fields at the top does.
  have top : policy.SettledTop record := by
    intro field member free
    rw [← same] at member
    rcases Fields.mem_of_mem_insert member with rfl | old
    · exact absurd ⟨gathers, rfl⟩ free
    · exact settledTop_siftedRecord coherent record field old free
  rw [gatheredValue_siftedRecord coherent, gatheredFrom, top.gathered_eq_nil, gather_nil, found, Option.bind_some,
    resift_of_single rfl] at held
  split at held
  · cases held
  · cases held

theorem delivered_of_record_eq (coherent : policy.Coherent) (same : (policy.deliver record).record = record) :
    policy.Delivered record := by
  rcases deliver_cases policy record with ⟨fields, held, _, _, deliver⟩ | ⟨fits, deliver⟩
  · rw [deliver] at same
    exact absurd same (insert_text_ne coherent held _)
  · rw [deliver] at same
    have settled := (siftedRecord_eq_self_iff_settled coherent).1 same
    rw [siftedRecord_of_settled settled] at fits
    exact settled.delivered fits

/-- A change is reported exactly if the record is another one afterwards, by sifting as by delivering. -/
theorem changed_iff_ne {settings : Settings} {policy : Policy} (accepted : settings.toPolicy = .ok policy)
    {record : Record} (inOrder : (Value.record record).InOrder) :
    ((policy.sift record).changed = true ↔ (policy.sift record).record ≠ record) ∧
      ((policy.deliver record).changed = true ↔ (policy.deliver record).record ≠ record) := by
  have coherent := Settings.coherent_of_toPolicy accepted
  constructor
  · rw [Ne, ← Bool.not_eq_false, not_iff_not, sift, siftAlters_eq_false_iff_settled inOrder,
      siftedRecord_eq_self_iff_settled coherent]
  · rw [Ne, ← Bool.not_eq_false, not_iff_not]
    constructor
    · intro idle
      rw [deliver_of_delivered (delivered_of_changed_eq_false inOrder idle)]
    · intro same
      rw [deliver_of_delivered (delivered_of_record_eq coherent same)]

/-- Sifting leaves a record that was gathered earlier, and delivering changes it into text. -/
theorem changed_iff_ne_narrow :
    narrowSettings.toPolicy = .ok narrowPolicy ∧
      let record := [("time", .null), ("undefined", .record [("host", .string "a"), ("level", .string "b")])]
      (Value.record record).InOrder ∧
        (narrowPolicy.sift record).changed = false ∧ (narrowPolicy.sift record).record = record ∧
        (narrowPolicy.deliver record).changed = true ∧ (narrowPolicy.deliver record).record ≠ record := by
  have accepted : narrowSettings.toPolicy = .ok narrowPolicy := rfl
  refine ⟨accepted, ?_⟩
  intro record
  have inOrder : (Value.record record).InOrder :=
    ⟨by unfold Fields.Sorted; decide, trivial, ⟨by unfold Fields.Sorted; decide, trivial, trivial, trivial⟩, trivial⟩
  obtain ⟨sifting, delivering⟩ := changed_iff_ne accepted inOrder
  have quiet : (narrowPolicy.sift record).changed = false := rfl
  have told : (narrowPolicy.deliver record).changed = true := rfl
  refine ⟨inOrder, quiet, ?_, told, delivering.1 told⟩
  by_contra moved
  rw [sifting.2 moved] at quiet
  cases quiet

end LogSieve.Policy
