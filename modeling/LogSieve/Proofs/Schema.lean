import LogSieve.Proofs.Placement
import LogSieve.Proofs.Redelivery
/-!
# The names at the top of a delivery

Where fields are gathered, the settings alone say which names can stand at the top of a
delivered record: those that they list, without dots, and the reserved name. A listed
field is there whatever its value, and neither the gathered record nor its text ever takes
its place (`deliver_names`).
-/
namespace LogSieve.Policy
variable {policy : Policy}

theorem kept_iff (coherent : policy.Coherent) (gathers : policy.gathers = true) {field : String × Value} :
    policy.Kept field ↔ field.1 ∈ policy.keep := by
  constructor
  · exact And.right
  · intro kept
    refine ⟨?_, kept⟩
    rintro ⟨_, reserved⟩
    exact coherent.reservedFree gathers (reserved ▸ kept)

/-- Stowing changes nothing but the value under the reserved name. -/
theorem get?_deliver {name : String} (other : name ≠ policy.gatheredName) (record : Record) :
    (policy.deliver record).record.get? name = (policy.fieldsAt .top record).get? name := by
  rcases deliver_cases policy record with ⟨_, _, _, _, deliver⟩ | ⟨_, deliver⟩
  · rw [deliver, Fields.get?_insert, if_neg other, get?_siftedRecord other]
  · rw [deliver, get?_siftedRecord other]

/-- Under every other name stands the last of the retained fields that come to it. -/
theorem lastOf_deliver {settings : Settings} (describes : settings.Describes policy) (coherent : policy.Coherent)
    (gathers : policy.gathers = true) {record : Record} (sorted : Fields.Sorted record) {name : String}
    (other : name ≠ policy.gatheredName) :
    policy.LastOf (fun field => settings.Retains policy field.1) record name
      ((policy.deliver record).record.get? name) := by
  have kept : policy.Kept = fun field => settings.Retains policy field.1 := by
    funext field
    exact propext ((kept_iff coherent gathers).trans describes.mem_keep_iff)
  rw [get?_deliver other, ← kept]
  exact lastOf_top gathers sorted name

/-- Besides the reserved name exactly those stand at the top of a delivered record that the retained fields
    come to, each with the pruned value of the last of them. None of them is the reserved name. -/
theorem deliver_names {settings : Settings} {policy : Policy} (accepted : settings.toPolicy = .ok policy)
    (gathers : settings.gathers = true) {record : Record} (sorted : Fields.Sorted record) :
    let delivered := (policy.deliver record).record
    (∀ name, name ≠ settings.gatheredName →
      (name ∈ Fields.names delivered ↔
        ∃ field ∈ record, settings.Retains policy field.1 ∧ policy.rename field.1 = name)) ∧
    (∀ field ∈ record, settings.Retains policy field.1 →
      (∀ other ∈ record, settings.Retains policy other.1 → policy.rename other.1 = policy.rename field.1 →
        other.1 ≤ field.1) →
      delivered.get? (policy.rename field.1) = some (policy.pruneValue field.2)) ∧
    (∀ name, settings.Retains policy name → policy.rename name ≠ settings.gatheredName) ∧
    ∀ name ∈ Fields.names delivered, name ∈ policy.keep ∨ name = settings.gatheredName := by
  have coherent := Settings.coherent_of_toPolicy accepted
  have describes := Settings.describes_of_toPolicy accepted
  have on : policy.gathers = true := describes.gathers.trans gathers
  have free : ∀ name, settings.Retains policy name → policy.rename name ≠ settings.gatheredName := by
    intro name retained
    rw [← describes.gatheredName]
    exact coherent.rename_ne_gatheredName on (describes.mem_keep_iff.2 retained)
  have names : ∀ name, name ≠ settings.gatheredName →
      (name ∈ Fields.names (policy.deliver record).record ↔
        ∃ field ∈ record, settings.Retains policy field.1 ∧ policy.rename field.1 = name) := by
    intro name other
    rw [← describes.gatheredName] at other
    rw [Fields.mem_names_iff]
    exact (lastOf_deliver describes coherent on sorted other).isSome_iff
  refine ⟨names, ?_, free, ?_⟩
  · intro field member retained greatest
    have other := free field.1 retained
    rw [← describes.gatheredName] at other
    exact (lastOf_deliver describes coherent on sorted other).eq_some sorted member retained rfl greatest
  · intro name member
    by_cases reserved : name = settings.gatheredName
    · exact .inr reserved
    · obtain ⟨field, _, retained, rfl⟩ := (names name reserved).1 member
      exact .inl (coherent.keepClosed field.1 (describes.mem_keep_iff.2 retained))

/-- A kept name with a dot, and at most one gathered field that is not stored as text. -/
def keptDottedSettings : Settings :=
  { Settings.initial with
    gathers := true, keep := "a.b", keepMore := "time", dotReplacement := "_", maxFields := 1 }

/-- The policy of these settings. -/
def keptDottedPolicy : Policy :=
  { initial with
    gathers := true, keep := ["a.b", "a_b", "time"], dotReplacement := some "_", maxFields := some 1 }

/-- Both spellings of a kept name come to one, the last of them with an empty value, and what was gathered
    becomes text beside them. -/
theorem deliver_names_dotted :
    keptDottedSettings.toPolicy = .ok keptDottedPolicy ∧ keptDottedSettings.gathers = true ∧
      let record := [("a.b", .bool true), ("a_b", .string ""), ("c", .null), ("undefined", .string "x")]
      Fields.Sorted record ∧
        (keptDottedPolicy.deliver record).becameText = true ∧
        keptDottedSettings.Retains keptDottedPolicy "a_b" ∧
        (keptDottedPolicy.deliver record).record.get? "a_b" = some (.string "") ∧
        ∀ name ∈ Fields.names (keptDottedPolicy.deliver record).record,
          name ∈ keptDottedPolicy.keep ∨ name = "undefined" := by
  have accepted : keptDottedSettings.toPolicy = .ok keptDottedPolicy := rfl
  refine ⟨accepted, rfl, ?_⟩
  intro record
  have sorted : Fields.Sorted record := by unfold Fields.Sorted; decide
  have retained : keptDottedSettings.Retains keptDottedPolicy "a_b" := by
    refine .inr ⟨"a.b", ?_, by decide⟩
    unfold Settings.Lists
    decide
  obtain ⟨_, values, _, schema⟩ := deliver_names accepted rfl sorted
  refine ⟨sorted, rfl, retained, ?_, schema⟩
  have greatest : ∀ other ∈ record, keptDottedPolicy.rename other.1 = "a_b" → other.1 ≤ "a_b" := by decide
  have member : ("a_b", Value.string "") ∈ record := by decide
  exact values _ member retained fun other inside _ named => greatest other inside named

end LogSieve.Policy
