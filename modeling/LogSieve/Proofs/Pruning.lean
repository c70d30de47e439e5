import LogSieve.Proofs.Fields
import LogSieve.Proofs.Policy
import LogSieve.Pruning
/-!
# Pruned values

Pruning neither makes a value empty nor fills an empty one (`isEmpty_prune`), and what it
leaves is pruned: no record in it has an empty field, a name with a dot to replace or names
out of order (`pruned_prune`). Pruning does nothing to such a value (`prune_of_pruned`), and
of the fields that come to one name it takes the last that is not empty (`prune_exact`).
-/
namespace LogSieve.Value

/-- The value has fields. -/
def isRecord : Value → Bool
  | .record _ => true
  | .null | .bool _ | .number _ | .string _ | .array _ => false

theorem exists_record {value : Value} (isRecord : value.isRecord = true) : ∃ fields, value = .record fields := by
  cases value with
  | record fields => exact ⟨fields, rfl⟩
  | null | bool _ | number _ | string _ | array _ => cases isRecord

/-- Induction on the records inside each other. Lists count as single values, whatever is in them. -/
@[elab_as_elim]
theorem record_induction {motive : Value → Prop}
    (single : ∀ value, value.isRecord = false → motive value)
    (record : ∀ fields, (∀ field ∈ fields, motive field.2) → motive (.record fields)) :
    ∀ value, motive value
  | .record fields => record fields (fun field member =>
      have _inside : field ∈ fields := member
      record_induction single record field.2)
  | .null => single _ rfl
  | .bool _ => single _ rfl
  | .number _ => single _ rfl
  | .string _ => single _ rfl
  | .array _ => single _ rfl
termination_by value => sizeOf value
decreasing_by
  have smaller := List.sizeOf_lt_of_mem member
  obtain ⟨name, value⟩ := field
  simp only [Value.record.sizeOf_spec, Prod.mk.sizeOf_spec] at smaller ⊢
  omega

/-! ## Pruning as a filter -/

section
variable (replacement : Option String)

theorem prune_of_single {value : Value} (single : value.isRecord = false) : value.prune replacement = value := by
  cases value with
  | record fields => cases single
  | null | bool _ | number _ | string _ | array _ => rfl

theorem prunes_of_single {value : Value} (single : value.isRecord = false) :
    value.prunes replacement = false := by
  cases value with
  | record fields => cases single
  | null | bool _ | number _ | string _ | array _ => rfl

theorem survivors_eq (fields : List (String × Value)) :
    survivors replacement fields =
      (fields.filter (fun field => !(field.2.prune replacement).isEmpty)).map
        (fun field => (Key.undotted replacement field.1, field.2.prune replacement)) := by
  induction fields with
  | nil => rfl
  | cons field rest ih =>
    obtain ⟨name, value⟩ := field
    rw [survivors]
    by_cases empty : (value.prune replacement).isEmpty = true
    · simp [empty, ih]
    · simp [empty, ih]

theorem mem_survivors {fields : List (String × Value)} {field : String × Value} :
    field ∈ survivors replacement fields ↔
      ∃ source ∈ fields, (source.2.prune replacement).isEmpty = false ∧
        (Key.undotted replacement source.1, source.2.prune replacement) = field := by
  rw [survivors_eq, List.mem_map]
  simp only [List.mem_filter, Bool.not_eq_true', and_assoc]

theorem anyPruned_eq_false_iff {fields : List (String × Value)} :
    anyPruned replacement fields = false ↔
      ∀ field ∈ fields, field.2.prunes replacement = false ∧ (field.2.prune replacement).isEmpty = false ∧
        ¬ Key.Touched replacement field.1 := by
  induction fields with
  | nil => simp [anyPruned]
  | cons field rest ih =>
    obtain ⟨name, value⟩ := field
    simp only [anyPruned, Bool.or_eq_false_iff, decide_eq_false_iff_not, List.forall_mem_cons, ih, and_assoc]

theorem survivors_eq_nil_iff {fields : List (String × Value)} :
    survivors replacement fields = [] ↔ ∀ field ∈ fields, (field.2.prune replacement).isEmpty = true := by
  rw [survivors_eq, List.map_eq_nil_iff, List.filter_eq_nil_iff]
  simp

/-- Of the fields that survive none is empty, so the record of them is empty only if there is none. -/
theorem allEmpty_ofList_survivors (fields : List (String × Value)) :
    allEmpty (Fields.ofList (survivors replacement fields)) = true ↔ survivors replacement fields = [] := by
  rw [allEmpty_iff]
  constructor
  · intro empty
    rw [← Fields.ofList_eq_nil_iff, List.eq_nil_iff_forall_not_mem]
    intro field member
    obtain ⟨source, _, filled, rfl⟩ := (mem_survivors replacement).1 (Fields.mem_of_mem_ofList member)
    have := empty _ member
    rw [filled] at this
    cases this
  · intro none
    simp [none, Fields.ofList, Fields.insertAll]

/-- A value is as empty after pruning as before. -/
@[simp] theorem isEmpty_prune (value : Value) : (value.prune replacement).isEmpty = value.isEmpty := by
  induction value using record_induction with
  | single value single => rw [prune_of_single replacement single]
  | record fields ih =>
    rw [prune, isEmpty, isEmpty, Bool.eq_iff_iff, allEmpty_ofList_survivors, survivors_eq_nil_iff, allEmpty_iff]
    refine forall_congr' (fun field => forall_congr' (fun member => ?_))
    rw [ih field member]

end

/-! ## Pruned values -/

/-- Pruning has nothing to do anywhere in the value. -/
inductive Pruned (replacement : Option String) : Value → Prop
  | single (value : Value) (single : value.isRecord = false) : Pruned replacement value
  | record (fields : List (String × Value)) (sorted : Fields.Sorted fields)
      (untouched : ∀ field ∈ fields, ¬ Key.Touched replacement field.1)
      (filled : ∀ field ∈ fields, field.2.isEmpty = false)
      (inside : ∀ field ∈ fields, Pruned replacement field.2) : Pruned replacement (.record fields)

variable {replacement : Option String}

theorem Pruned.untouched {fields : List (String × Value)} (pruned : (Value.record fields).Pruned replacement) :
    ∀ field ∈ fields, ¬ Key.Touched replacement field.1 := by
  cases pruned with
  | single _ single => cases single
  | record _ _ untouched _ _ => exact untouched

theorem Pruned.filled {fields : List (String × Value)} (pruned : (Value.record fields).Pruned replacement) :
    ∀ field ∈ fields, field.2.isEmpty = false := by
  cases pruned with
  | single _ single => cases single
  | record _ _ _ filled _ => exact filled

theorem Pruned.inside {fields : List (String × Value)} (pruned : (Value.record fields).Pruned replacement) :
    ∀ field ∈ fields, field.2.Pruned replacement := by
  cases pruned with
  | single _ single => cases single
  | record _ _ _ _ inside => exact inside

theorem pruned_prune (plain : ∀ text ∈ replacement, ¬ Key.Dotted text) (value : Value) :
    (value.prune replacement).Pruned replacement := by
  induction value using record_induction with
  | single value single =>
    rw [prune_of_single replacement single]
    exact .single value single
  | record fields ih =>
    rw [prune]
    have survived : ∀ field ∈ Fields.ofList (survivors replacement fields), ∃ source ∈ fields,
        (source.2.prune replacement).isEmpty = false ∧
          (Key.undotted replacement source.1, source.2.prune replacement) = field :=
      fun field member => (mem_survivors replacement).1 (Fields.mem_of_mem_ofList member)
    refine .record _ (Fields.sorted_ofList _) ?_ ?_ ?_
    · intro field member
      obtain ⟨source, _, _, rfl⟩ := survived field member
      exact Key.not_touched_undotted plain source.1
    · intro field member
      obtain ⟨source, _, filled, rfl⟩ := survived field member
      exact filled
    · intro field member
      obtain ⟨source, inside, _, rfl⟩ := survived field member
      exact ih source inside

theorem prune_of_pruned {value : Value} (pruned : value.Pruned replacement) : value.prune replacement = value := by
  induction pruned with
  | single value single => exact prune_of_single replacement single
  | record fields sorted untouched filled inside ih =>
    have all : fields.filter (fun field => !(field.2.prune replacement).isEmpty) = fields := by
      rw [List.filter_eq_self]
      intro field member
      rw [isEmpty_prune, filled field member, Bool.not_false]
    have same : ∀ field ∈ fields, (Key.undotted replacement field.1, field.2.prune replacement) = id field := by
      intro field member
      rw [Key.undotted_of_not_touched (untouched field member), ih field member, id]
    rw [prune, survivors_eq, all, List.map_congr_left same, List.map_id, Fields.ofList_of_sorted sorted]

theorem prunes_of_pruned {value : Value} (pruned : value.Pruned replacement) :
    value.prunes replacement = false := by
  induction pruned with
  | single value single => exact prunes_of_single replacement single
  | record fields sorted untouched filled inside ih =>
    rw [prunes, anyPruned_eq_false_iff]
    intro field member
    exact ⟨ih field member, by rw [isEmpty_prune, filled field member], untouched field member⟩

/-- In a value in order pruning has something to do unless the value is pruned. -/
theorem pruned_of_prunes_eq_false {value : Value} (inOrder : value.InOrder) (idle : value.prunes replacement = false) :
    value.Pruned replacement := by
  induction value using record_induction with
  | single value single => exact .single value single
  | record fields ih =>
    obtain ⟨sorted, inside⟩ := inOrder
    rw [fieldsInOrder_iff] at inside
    rw [prunes, anyPruned_eq_false_iff] at idle
    refine .record fields sorted ?_ ?_ ?_
    · intro field member
      exact (idle field member).2.2
    · intro field member
      simpa using (idle field member).2.1
    · intro field member
      exact ih field member (inside field member) (idle field member).1

/-! ## What pruning comes to -/

/-- Under each name of a pruned record stands the last of the fields that are not empty and come to it. -/
theorem lastWrite_prune (replacement : Option String) {fields : Record} (sorted : Fields.Sorted fields)
    (name : String) :
    Fields.LastWrite (fun field => (Key.undotted replacement field.1, field.2.prune replacement))
      (fun field => field.2.isEmpty = false) fields name
      (Fields.get? (Fields.ofList (survivors replacement fields)) name) := by
  rw [survivors_eq]
  apply Fields.lastWrite_ofList sorted
  intro field
  simp

theorem isEmpty_iff_of_single {value : Value} (single : value.isRecord = false) :
    value.isEmpty = true ↔ value = .string "" := by
  cases value with
  | record fields => cases single
  | string text => simp [isEmpty]
  | null | bool _ | number _ | array _ => simp [isEmpty]

theorem prune_eq_of_isEmpty (replacement : Option String) {value : Value} (empty : value.isEmpty = true) :
    value.prune replacement = .string "" ∨ value.prune replacement = .record [] := by
  cases kind : value.isRecord with
  | false =>
    left
    rw [prune_of_single replacement kind]
    exact (isEmpty_iff_of_single kind).1 empty
  | true =>
    right
    obtain ⟨fields, rfl⟩ := exists_record kind
    rw [isEmpty, allEmpty_iff] at empty
    have none : survivors replacement fields = [] := by
      rw [survivors_eq_nil_iff]
      intro field member
      rw [isEmpty_prune]
      exact empty field member
    rw [prune, none]
    rfl

/-- Pruning reports a change exactly if it makes one. -/
theorem prunes_eq_true_iff (plain : ∀ text ∈ replacement, ¬ Key.Dotted text) {value : Value}
    (inOrder : value.InOrder) : value.prunes replacement = true ↔ value.prune replacement ≠ value := by
  constructor
  · intro told same
    have pruned := pruned_prune plain value
    rw [same] at pruned
    rw [prunes_of_pruned pruned] at told
    cases told
  · intro changed
    by_contra idle
    exact changed (prune_of_pruned (pruned_of_prunes_eq_false inOrder (by simpa using idle)))

/-- Pruning leaves a single value alone. A record it leaves with the last of the fields, of those that are not
    empty, that come to each name, themselves pruned. It neither empties a value nor fills one, and if the
    replacement has no dot of its own, it tells whether it changed anything and has nothing left to do. -/
theorem prune_exact (replacement : Option String) {value : Value} (inOrder : value.InOrder) :
    (value.isRecord = false → value.prune replacement = value ∧ value.prunes replacement = false) ∧
      (∀ fields, value = .record fields → ∃ pruned, value.prune replacement = .record pruned ∧
        Fields.Sorted pruned ∧ ∀ name,
          Fields.LastWrite (fun field => (Key.undotted replacement field.1, field.2.prune replacement))
            (fun field => field.2.isEmpty = false) fields name (Fields.get? pruned name)) ∧
      (value.prune replacement).isEmpty = value.isEmpty ∧
      ((value.prune replacement).isEmpty = true →
        value.prune replacement = .string "" ∨ value.prune replacement = .record []) ∧
      ((∀ text ∈ replacement, ¬ Key.Dotted text) →
        (value.prunes replacement = true ↔ value.prune replacement ≠ value) ∧
        (value.prune replacement).prune replacement = value.prune replacement ∧
        (value.prune replacement).prunes replacement = false) := by
  refine ⟨?_, ?_, isEmpty_prune replacement value, ?_, ?_⟩
  · intro single
    exact ⟨prune_of_single replacement single, prunes_of_single replacement single⟩
  · rintro fields rfl
    exact ⟨_, prune.eq_1 replacement fields, Fields.sorted_ofList _, lastWrite_prune replacement inOrder.1⟩
  · intro empty
    rw [isEmpty_prune] at empty
    exact prune_eq_of_isEmpty replacement empty
  · intro plain
    have pruned := pruned_prune plain value
    exact ⟨prunes_eq_true_iff plain inOrder, prune_of_pruned pruned, prunes_of_pruned pruned⟩

/-- Two names come to one, and the field that counts there holds an empty one and a name with a dot. -/
theorem prune_exact_colliding :
    let fields : Record := [("a.b", .null), ("a_b", .record [("c.d", .bool true), ("e", .string "")]),
      ("f", .record [("g", .string "")])]
    let value := Value.record fields
    value.InOrder ∧ (∀ text ∈ some "_", ¬ Key.Dotted text) ∧
      (∃ pruned, value.prune (some "_") = .record pruned ∧
        Fields.get? pruned "a_b" = some (.record [("c_d", .bool true)]) ∧ Fields.get? pruned "f" = none) ∧
      value.prunes (some "_") = true ∧ value.prune (some "_") ≠ value ∧
      (value.prune (some "_")).prunes (some "_") = false := by
  intro fields value
  have inOrder : value.InOrder :=
    ⟨by unfold Fields.Sorted; decide, trivial,
      ⟨by unfold Fields.Sorted; decide, trivial, trivial, trivial⟩,
      ⟨by unfold Fields.Sorted; decide, trivial, trivial⟩, trivial⟩
  have plain : ∀ text ∈ some "_", ¬ Key.Dotted text := by simp; decide
  obtain ⟨_, record, _, _, settles⟩ := prune_exact (some "_") inOrder
  obtain ⟨changes, _, quiet⟩ := settles plain
  obtain ⟨pruned, same, sorted, last⟩ := record fields rfl
  have told : value.prunes (some "_") = true := rfl
  refine ⟨inOrder, plain, ⟨pruned, same, ?_, ?_⟩, told, changes.1 told, quiet⟩
  · have member : ("a_b", Value.record [("c.d", .bool true), ("e", .string "")]) ∈ fields := by decide
    exact (last "a_b").eq_some inOrder.1 member rfl (by decide) (by decide)
  · have absent : ¬ (Fields.get? pruned "f").isSome = true := by
      rw [(last "f").isSome_iff]
      decide
    simpa using absent

end LogSieve.Value
