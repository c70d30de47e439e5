import LogSieve.Fields
/-!
# Values and records

What a log record holds. A record maps names to values; the fields of a value
read from outside are brought into ascending order at every depth by `ordered`,
where of several values of one name the last one written counts. `InOrder` says
that this has been done, and no operation of the library undoes it.
-/
namespace LogSieve

/-- A number is a whole number or a binary floating-point number. -/
inductive Number where
  | integer (value : Int)
  | float (value : Float)
deriving DecidableEq, Repr, Inhabited

inductive Value where
  | null
  | bool (value : Bool)
  | number (value : Number)
  | string (value : String)
  | array (items : List Value)
  | record (fields : List (String × Value))
deriving Repr, Inhabited

/-- Named values in ascending order of their names. -/
abbrev Record := Fields Value

namespace Value

mutual
private def decideEq : (a b : Value) → Decidable (a = b)
  | .null, .null => isTrue rfl
  | .bool a, .bool b => decidable_of_iff (a = b) (by simp)
  | .number a, .number b => decidable_of_iff (a = b) (by simp)
  | .string a, .string b => decidable_of_iff (a = b) (by simp)
  | .array a, .array b => @decidable_of_iff _ (a = b) (by simp) (decideItems a b)
  | .record a, .record b => @decidable_of_iff _ (a = b) (by simp) (decideFields a b)
  | .null, .bool _ | .null, .number _ | .null, .string _ | .null, .array _ | .null, .record _
  | .bool _, .null | .bool _, .number _ | .bool _, .string _ | .bool _, .array _ | .bool _, .record _
  | .number _, .null | .number _, .bool _ | .number _, .string _
  | .number _, .array _ | .number _, .record _
  | .string _, .null | .string _, .bool _ | .string _, .number _ | .string _, .array _ | .string _, .record _
  | .array _, .null | .array _, .bool _ | .array _, .number _ | .array _, .string _ | .array _, .record _
  | .record _, .null | .record _, .bool _ | .record _, .number _ | .record _, .string _ | .record _, .array _ =>
    isFalse (by simp)
private def decideItems : (a b : List Value) → Decidable (a = b)
  | [], [] => isTrue rfl
  | [], _ :: _ | _ :: _, [] => isFalse (by simp)
  | x :: xs, y :: ys =>
    @decidable_of_iff _ (x = y ∧ xs = ys) (by simp)
      (@instDecidableAnd _ _ (decideEq x y) (decideItems xs ys))
private def decideFields : (a b : List (String × Value)) → Decidable (a = b)
  | [], [] => isTrue rfl
  | [], _ :: _ | _ :: _, [] => isFalse (by simp)
  | (m, x) :: xs, (n, y) :: ys =>
    @decidable_of_iff _ (m = n ∧ x = y ∧ xs = ys) (by simp [and_assoc])
      (@instDecidableAnd _ _ inferInstance (@instDecidableAnd _ _ (decideEq x y) (decideFields xs ys)))
end

instance : DecidableEq Value := decideEq

mutual
/-- The value with the fields of every record in ascending order of their names,
    array items included; the last value written under a name counts. -/
def ordered : Value → Value
  | .array items => .array (orderedItems items)
  | .record fields => .record (Fields.ofList (orderedFields fields))
  | .null => .null
  | .bool b => .bool b
  | .number n => .number n
  | .string s => .string s
def orderedItems : List Value → List Value
  | [] => []
  | item :: rest => item.ordered :: orderedItems rest
/-- Every field's value in order, the fields themselves as they stand. -/
def orderedFields : List (String × Value) → List (String × Value)
  | [] => []
  | (name, value) :: rest => (name, value.ordered) :: orderedFields rest
end

mutual
/-- The names of every record inside are strictly ascending. -/
def InOrder : Value → Prop
  | .array items => ItemsInOrder items
  | .record fields => Fields.Sorted fields ∧ FieldsInOrder fields
  | .null | .bool _ | .number _ | .string _ => True
def ItemsInOrder : List Value → Prop
  | [] => True
  | item :: rest => item.InOrder ∧ ItemsInOrder rest
def FieldsInOrder : List (String × Value) → Prop
  | [] => True
  | (_, value) :: rest => value.InOrder ∧ FieldsInOrder rest
end

theorem itemsInOrder_iff {items : List Value} : ItemsInOrder items ↔ ∀ v ∈ items, v.InOrder := by
  induction items with
  | nil => simp [ItemsInOrder]
  | cons item rest ih => simp [ItemsInOrder, ih]

theorem fieldsInOrder_iff {fields : List (String × Value)} :
    FieldsInOrder fields ↔ ∀ field ∈ fields, field.2.InOrder := by
  induction fields with
  | nil => simp [FieldsInOrder]
  | cons field rest ih => obtain ⟨name, value⟩ := field; simp [FieldsInOrder, ih]

/-- Values that are all in order stay so when written into a record. -/
theorem fieldsInOrder_insertAll {fields later : Record} (h : FieldsInOrder fields) (l : FieldsInOrder later) :
    FieldsInOrder (Fields.insertAll fields later) := by
  induction later generalizing fields with
  | nil => exact h
  | cons field rest ih =>
    obtain ⟨name, value⟩ := field
    refine ih (fieldsInOrder_iff.2 fun other m => ?_) l.2
    rcases Fields.mem_of_mem_insert m with e | m
    · exact e ▸ l.1
    · exact fieldsInOrder_iff.1 h other m

mutual
theorem inOrder_ordered : (v : Value) → v.ordered.InOrder
  | .array items => itemsInOrder_ordered items
  | .record fields =>
    ⟨Fields.sorted_ofList _, @fieldsInOrder_insertAll [] _ trivial (fieldsInOrder_ordered fields)⟩
  | .null | .bool _ | .number _ | .string _ => trivial
theorem itemsInOrder_ordered : (items : List Value) → ItemsInOrder (orderedItems items)
  | [] => trivial
  | item :: rest => ⟨inOrder_ordered item, itemsInOrder_ordered rest⟩
theorem fieldsInOrder_ordered : (fields : List (String × Value)) → FieldsInOrder (orderedFields fields)
  | [] => trivial
  | (_, value) :: rest => ⟨inOrder_ordered value, fieldsInOrder_ordered rest⟩
end

end Value
end LogSieve
