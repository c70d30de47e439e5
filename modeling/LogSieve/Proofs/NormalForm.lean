import LogSieve.Proofs.Gathering
/-!
# The form of a sifted record

What a sift leaves, whatever way a field took: no record inside a field has an empty field,
an empty field itself is listed under the name it has now, and where dots are replaced no
name has one but the reserved name (`normalForm_sift`).
-/
namespace LogSieve.Value

/-- The value is the other one, or stands in it in records inside each other. -/
inductive Within (inner : Value) : Value → Prop
  | self : Within inner inner
  | field {fields : List (String × Value)} {field : String × Value} (member : field ∈ fields)
      (inside : Within inner field.2) : Within inner (.record fields)

theorem Pruned.within {replacement : Option String} {value inner : Value} (pruned : value.Pruned replacement)
    (within : inner.Within value) : inner.Pruned replacement := by
  induction within with
  | self => exact pruned
  | field member _ ih => exact ih (pruned.inside _ member)

end LogSieve.Value

namespace LogSieve.Policy
variable {policy : Policy} {record : Record}

/-- The field stands at the top of the record and is not reserved, or it is one of those gathered. -/
def Shows (policy : Policy) (record : Record) (field : String × Value) : Prop :=
  field ∈ record ∧ ¬ policy.Reserves field.1 ∨
    ∃ gathered, policy.gatheredValue record = some (.record gathered) ∧ field ∈ gathered

/-- The form that a sift gives to a record. -/
structure NormalForm (policy : Policy) (record sifted : Record) : Prop where
  filledInside : ∀ field, policy.Shows sifted field → ∀ inner, (Value.record inner).Within field.2 →
    ∀ other ∈ inner, other.2.isEmpty = false
  filledTop : ∀ field ∈ sifted, ¬ policy.Reserves field.1 → field.2.isEmpty = true →
    field.1 ∈ policy.keep ∨ field.1 ∈ policy.keepEmpty
  gathered : ∀ value, policy.gatheredValue sifted = some value →
    value.isRecord = false ∧ value ≠ .string "" ∨
      ∃ fields, value = .record fields ∧ fields ≠ [] ∧
        ∀ field ∈ fields, field.2.isEmpty = true → field.1 ∈ policy.keepEmpty
  undottedTop : policy.dotReplacement.isSome = true → ∀ field ∈ sifted, Key.Dotted field.1 → policy.Reserves field.1
  /-- The reserved name keeps its dots among the gathered fields where an earlier value that is no record
      stands under it. -/
  undottedGathered : policy.dotReplacement.isSome = true → ∀ fields,
    policy.gatheredValue sifted = some (.record fields) → ∀ field ∈ fields, Key.Dotted field.1 →
      field.1 = policy.gatheredName ∧ policy.gatheredValue record = some field.2 ∧ field.2.isRecord = false
  undottedInside : policy.dotReplacement.isSome = true → policy.renamesNested = true →
    ∀ field, policy.Shows sifted field → ∀ inner, (Value.record inner).Within field.2 →
      ∀ other ∈ inner, ¬ Key.Dotted other.1

/-! ## The three ways of a field -/

/-- A gathered field is at rest and stays, unless it is an earlier value that is no record. -/
theorem of_mem_gatheredFrom (coherent : policy.Coherent) {fields : Record}
    (gathered : policy.gatheredFrom record = some (.record fields)) {field : String × Value} (member : field ∈ fields) :
    policy.Rests field ∧ ¬ policy.Drops field.1 field.2 ∨
      field.1 = policy.gatheredName ∧ policy.HoldsSingle record field.2 := by
  rcases gatheredFrom_cases gathered with ⟨holds, _⟩ | ⟨earlier, holds, _, same⟩ | ⟨_, same⟩
  · have single := holds.single
    cases single
  · cases same
    rcases Fields.mem_of_mem_insert member with rfl | fresh
    · exact .inr ⟨rfl, holds⟩
    · exact .inl (of_mem_fieldsAt_gathered coherent fresh)
  · cases same
    rcases Fields.mem_of_mem_insertAll member with carried | fresh
    · exact .inl (of_mem_staying coherent carried)
    · exact .inl (of_mem_fieldsAt_gathered coherent fresh)

theorem pruned_of_shows (coherent : policy.Coherent) {field : String × Value}
    (shown : policy.Shows (policy.siftedRecord record) field) : field.2.Pruned policy.nestedReplacement := by
  rcases shown with ⟨member, free⟩ | ⟨fields, held, member⟩
  · exact (settledTop_siftedRecord coherent record field member free).1.value
  · rw [gatheredValue_siftedRecord coherent] at held
    rcases of_mem_gatheredFrom coherent held member with ⟨rests, _⟩ | ⟨_, holds⟩
    · exact rests.value
    · exact .single _ holds.single

/-- A field at rest has no dot in its name where dots are replaced. -/
theorem Rests.not_dotted {field : String × Value} (rests : policy.Rests field) (coherent : policy.Coherent)
    (replaces : policy.dotReplacement.isSome = true) : ¬ Key.Dotted field.1 := by
  intro dotted
  exact coherent.rename_eq_self_iff.1 rests.name ⟨replaces, dotted⟩

/-! ## Together -/

/-- Every sifted record is in normal form. -/
theorem normalForm_sift {settings : Settings} {policy : Policy} (accepted : settings.toPolicy = .ok policy)
    (record : Record) : policy.NormalForm record (policy.sift record).record := by
  have coherent := Settings.coherent_of_toPolicy accepted
  have top := settledTop_siftedRecord coherent record
  have held := gatheredValue_siftedRecord coherent record
  constructor
  case filledInside =>
    intro field shown inner within
    exact ((pruned_of_shows coherent shown).within within).filled
  case filledTop =>
    intro field member free empty
    rcases place_eq_top_iff.1 (top field member free).2 with kept | ⟨_, stays⟩
    · exact .inl kept
    · exact .inr (mem_keepEmpty_of_not_drops stays empty)
  case gathered =>
    intro value found
    rw [sift, held] at found
    cases kind : value.isRecord with
    | false =>
      have filled := (holdsSingle_of_gatheredFrom found kind).filled
      refine .inl ⟨rfl, ?_⟩
      rintro rfl
      cases filled
    | true =>
      right
      obtain ⟨fields, rfl⟩ := Value.exists_record kind
      refine ⟨fields, rfl, ne_nil_of_gatheredFrom found, ?_⟩
      intro field member empty
      rcases of_mem_gatheredFrom coherent found member with ⟨_, stays⟩ | ⟨_, holds⟩
      · exact mem_keepEmpty_of_not_drops stays empty
      · rw [holds.filled] at empty
        cases empty
  case undottedTop =>
    intro replaces field member dotted
    by_contra free
    exact (top field member free).1.not_dotted coherent replaces dotted
  case undottedGathered =>
    intro replaces fields found field member dotted
    rw [sift, held] at found
    rcases of_mem_gatheredFrom coherent found member with ⟨rests, _⟩ | ⟨named, holds⟩
    · exact absurd dotted (rests.not_dotted coherent replaces)
    · exact ⟨named, holds.held, holds.single⟩
  case undottedInside =>
    intro replaces renames field shown inner within other member dotted
    apply ((pruned_of_shows coherent shown).within within).untouched other member
    rw [nestedReplacement, if_pos renames]
    exact ⟨replaces, dotted⟩

/-- A text stands under a reserved name with a dot, among the gathered fields too, beside a record that is
    pruned. -/
theorem normalForm_sift_dotted :
    dottedSettings.toPolicy = .ok dottedPolicy ∧
      let record := [("a.b", .record [("c", .string ""), ("d", .null)]), ("more.fields", .string "x")]
      let sifted := (dottedPolicy.sift record).record
      let fields := [("a_b", .record [("d", .null)]), ("more.fields", .string "x")]
      dottedPolicy.NormalForm record sifted ∧ dottedPolicy.gatheredValue sifted = some (.record fields) ∧
        (∀ field ∈ sifted, Key.Dotted field.1 → field.1 = "more.fields") ∧
        (∀ field ∈ fields, Key.Dotted field.1 → field.1 = "more.fields" ∧ field.2 = .string "x") := by
  have accepted : dottedSettings.toPolicy = .ok dottedPolicy := rfl
  refine ⟨accepted, ?_⟩
  intro record sifted fields
  have form : dottedPolicy.NormalForm record sifted := normalForm_sift accepted record
  have found : dottedPolicy.gatheredValue sifted = some (.record fields) := by decide
  refine ⟨form, found, ?_, ?_⟩
  · intro field member dotted
    exact (form.undottedTop rfl field member dotted).2
  · intro field member dotted
    obtain ⟨named, held, _⟩ := form.undottedGathered rfl fields found field member dotted
    have same : dottedPolicy.gatheredValue record = some (.string "x") := rfl
    exact ⟨named, Option.some.inj (held.symm.trans same)⟩

end LogSieve.Policy
