import LogSieve.Proofs.Json.Numeral
import LogSieve.Proofs.Pruning
/-!
# How deep a value is nested

A reader opens only so many lists and records inside each other, and only whole numbers of
64 bits surely read back as they were written. A value within these bounds whose records are
in order is `Legible`: what is written of it is read back as the same value. Putting a value
in order makes it no deeper (`depth_ordered_le`), and pruning keeps it legible
(`Legible.prune`).
-/
namespace LogSieve.Value

/-- Induction on the lists and records inside each other. -/
@[elab_as_elim]
theorem nested_induction {motive : Value → Prop} (null : motive .null) (bool : ∀ b, motive (.bool b))
    (number : ∀ n, motive (.number n)) (string : ∀ s, motive (.string s))
    (array : ∀ items, (∀ item ∈ items, motive item) → motive (.array items))
    (record : ∀ fields, (∀ field ∈ fields, motive field.2) → motive (.record fields)) (value : Value) :
    motive value := by
  refine Value.rec (motive_1 := motive) (motive_2 := fun items => ∀ item ∈ items, motive item)
    (motive_3 := fun fields => ∀ field ∈ fields, motive field.2) (motive_4 := fun field => motive field.2)
    null bool number string array record ?_ ?_ ?_ ?_ ?_ value
  · simp
  · intro head tail first rest
    exact List.forall_mem_cons.2 ⟨first, rest⟩
  · simp
  · intro head tail first rest
    exact List.forall_mem_cons.2 ⟨first, rest⟩
  · intro name value inside
    exact inside

/-! ## Depth -/

mutual
/-- The number of lists and records inside each other. -/
def depth : Value → Nat
  | .array items => itemsDepth items + 1
  | .record fields => fieldsDepth fields + 1
  | .null | .bool _ | .number _ | .string _ => 0
def itemsDepth : List Value → Nat
  | [] => 0
  | item :: rest => max item.depth (itemsDepth rest)
def fieldsDepth : List (String × Value) → Nat
  | [] => 0
  | (_, value) :: rest => max value.depth (fieldsDepth rest)
end

theorem itemsDepth_le_iff {items : List Value} {limit : Nat} :
    itemsDepth items ≤ limit ↔ ∀ item ∈ items, item.depth ≤ limit := by
  induction items with
  | nil => simp [itemsDepth]
  | cons item rest ih => simp [itemsDepth, ih]

theorem fieldsDepth_le_iff {fields : List (String × Value)} {limit : Nat} :
    fieldsDepth fields ≤ limit ↔ ∀ field ∈ fields, field.2.depth ≤ limit := by
  induction fields with
  | nil => simp [fieldsDepth]
  | cons field rest ih => obtain ⟨name, value⟩ := field; simp [fieldsDepth, ih]

/-! ## Order -/

theorem orderedItems_eq (items : List Value) : orderedItems items = items.map ordered := by
  induction items with
  | nil => rfl
  | cons item rest ih => rw [orderedItems, ih, List.map_cons]

theorem orderedFields_eq (fields : List (String × Value)) :
    orderedFields fields = fields.map (fun field => (field.1, field.2.ordered)) := by
  induction fields with
  | nil => rfl
  | cons field rest ih => obtain ⟨name, value⟩ := field; rw [orderedFields, ih, List.map_cons]

theorem depth_ordered_le (value : Value) : value.ordered.depth ≤ value.depth := by
  induction value using nested_induction with
  | null | bool _ | number _ | string _ => exact le_rfl
  | array items ih =>
    rw [ordered, depth, depth, Nat.add_le_add_iff_right, itemsDepth_le_iff, orderedItems_eq]
    intro item member
    obtain ⟨source, inside, rfl⟩ := List.mem_map.1 member
    exact (ih source inside).trans (itemsDepth_le_iff.1 le_rfl source inside)
  | record fields ih =>
    rw [ordered, depth, depth, Nat.add_le_add_iff_right, fieldsDepth_le_iff, orderedFields_eq]
    intro field member
    obtain ⟨source, inside, rfl⟩ := List.mem_map.1 (Fields.mem_of_mem_ofList member)
    exact (ih source inside).trans (fieldsDepth_le_iff.1 le_rfl source inside)

/-- A value in order stays as it is. -/
theorem ordered_of_inOrder {value : Value} (inOrder : value.InOrder) : value.ordered = value := by
  induction value using nested_induction with
  | null | bool _ | number _ | string _ => rfl
  | array items ih =>
    have same : ∀ item ∈ items, item.ordered = id item := fun item member =>
      ih item member (itemsInOrder_iff.1 inOrder item member)
    rw [ordered, orderedItems_eq, List.map_congr_left same, List.map_id]
  | record fields ih =>
    have same : ∀ field ∈ fields, (field.1, field.2.ordered) = id field := fun field member => by
      rw [ih field member (fieldsInOrder_iff.1 inOrder.2 field member), id]
    rw [ordered, orderedFields_eq, List.map_congr_left same, List.map_id, Fields.ofList_of_sorted inOrder.1]

/-! ## Numbers -/

mutual
/-- Every number in the value is a whole number of 64 bits. -/
def Whole : Value → Prop
  | .number n => n.IsWord
  | .array items => ItemsWhole items
  | .record fields => FieldsWhole fields
  | .null | .bool _ | .string _ => True
def ItemsWhole : List Value → Prop
  | [] => True
  | item :: rest => item.Whole ∧ ItemsWhole rest
def FieldsWhole : List (String × Value) → Prop
  | [] => True
  | (_, value) :: rest => value.Whole ∧ FieldsWhole rest
end

theorem itemsWhole_iff {items : List Value} : ItemsWhole items ↔ ∀ item ∈ items, item.Whole := by
  induction items with
  | nil => simp [ItemsWhole]
  | cons item rest ih => simp [ItemsWhole, ih]

theorem fieldsWhole_iff {fields : List (String × Value)} :
    FieldsWhole fields ↔ ∀ field ∈ fields, field.2.Whole := by
  induction fields with
  | nil => simp [FieldsWhole]
  | cons field rest ih => obtain ⟨name, value⟩ := field; simp [FieldsWhole, ih]

/-! ## Legible values -/

/-- A reader that opens so many lists and records inside each other reads the written value back. -/
structure Legible (limit : Nat) (value : Value) : Prop where
  depth_le : value.depth ≤ limit
  whole : value.Whole
  inOrder : value.InOrder

theorem legible_string (limit : Nat) (s : String) : (Value.string s).Legible limit :=
  ⟨Nat.zero_le limit, trivial, trivial⟩

theorem Legible.mono {value : Value} {limit more : Nat} (legible : value.Legible limit) (le : limit ≤ more) :
    value.Legible more :=
  ⟨legible.depth_le.trans le, legible.whole, legible.inOrder⟩

theorem legible_record_iff {fields : Record} {limit : Nat} :
    (Value.record fields).Legible (limit + 1) ↔
      Fields.Sorted fields ∧ ∀ field ∈ fields, field.2.Legible limit := by
  constructor
  · rintro ⟨shallow, whole, sorted, inOrder⟩
    rw [depth, Nat.add_le_add_iff_right, fieldsDepth_le_iff] at shallow
    rw [Whole, fieldsWhole_iff] at whole
    rw [fieldsInOrder_iff] at inOrder
    exact ⟨sorted, fun field member => ⟨shallow field member, whole field member, inOrder field member⟩⟩
  · rintro ⟨sorted, inside⟩
    refine ⟨?_, ?_, sorted, ?_⟩
    · rw [depth, Nat.add_le_add_iff_right, fieldsDepth_le_iff]
      exact fun field member => (inside field member).depth_le
    · rw [Whole, fieldsWhole_iff]
      exact fun field member => (inside field member).whole
    · rw [fieldsInOrder_iff]
      exact fun field member => (inside field member).inOrder

theorem Legible.prune {value : Value} {limit : Nat} (legible : value.Legible limit) (replacement : Option String) :
    (value.prune replacement).Legible limit := by
  induction value using record_induction generalizing limit with
  | single value single => rwa [prune_of_single replacement single]
  | record fields ih =>
    cases limit with
    | zero => cases legible.depth_le
    | succ limit =>
      rw [Value.prune, legible_record_iff]
      refine ⟨Fields.sorted_ofList _, ?_⟩
      intro field member
      obtain ⟨source, inside, _, rfl⟩ := (mem_survivors replacement).1 (Fields.mem_of_mem_ofList member)
      exact ih source inside ((legible_record_iff.1 legible).2 source inside)

end LogSieve.Value
