import LogSieve.Delivery
import LogSieve.Proofs.Json.Parsed
import Mathlib.Data.List.Perm.Basic
/-!
# The order of fields in a line

Two values that differ in the order of fields at most become the same value in order
(`Reordered.ordered_eq`) and are nested equally deep (`Reordered.depth_eq`). So two lines for
them are delivered alike, or neither is (`deliverLine_reordered`): where names collide on the
way, the order of the line does not decide which of the fields stays. A line that is delivered
is one for a value (`Json.parse_eq_ok_iff`), so this is said of every line that is.
-/
namespace LogSieve.Value

mutual
/-- The other value is the same with the fields of its records in any order, where no record has two fields of
    one name. -/
def Reordered : Value → (other : Value) → Prop
  | .null, other => other = .null
  | .bool b, other => other = .bool b
  | .number n, other => other = .number n
  | .string s, other => other = .string s
  | .array items, other => ∃ others, other = .array others ∧ ItemsReordered items others
  | .record fields, other =>
    (fields.map (·.1)).Nodup ∧
      ∃ matching others, other = .record others ∧ FieldsReordered fields matching ∧ matching.Perm others
/-- The items agree one by one. -/
def ItemsReordered : List Value → (others : List Value) → Prop
  | [], others => others = []
  | item :: rest, others => ∃ other more, others = other :: more ∧ Reordered item other ∧ ItemsReordered rest more
/-- The fields agree one by one. -/
def FieldsReordered : List (String × Value) → (others : List (String × Value)) → Prop
  | [], others => others = []
  | (name, value) :: rest, others =>
    ∃ other more, others = (name, other) :: more ∧ Reordered value other ∧ FieldsReordered rest more
end

section
variable {α : Type} {f : Value → α}

theorem map_eq_of_itemsReordered {items others : List Value} (reordered : ItemsReordered items others)
    (same : ∀ item ∈ items, ∀ other, Reordered item other → f item = f other) : items.map f = others.map f := by
  induction items generalizing others with
  | nil => rw [show others = [] from reordered]
  | cons item rest ih =>
    obtain ⟨other, more, rfl, first, moreReordered⟩ := reordered
    obtain ⟨firstSame, restSame⟩ := List.forall_mem_cons.1 same
    rw [List.map_cons, List.map_cons, firstSame other first, ih moreReordered restSame]

theorem map_eq_of_fieldsReordered {fields others : List (String × Value)} (reordered : FieldsReordered fields others)
    (same : ∀ field ∈ fields, ∀ other, Reordered field.2 other → f field.2 = f other) :
    fields.map (fun field => (field.1, f field.2)) = others.map (fun field => (field.1, f field.2)) := by
  induction fields generalizing others with
  | nil => rw [show others = [] from reordered]
  | cons field rest ih =>
    obtain ⟨name, value⟩ := field
    obtain ⟨other, more, rfl, first, moreReordered⟩ := reordered
    obtain ⟨firstSame, restSame⟩ := List.forall_mem_cons.1 same
    rw [List.map_cons, List.map_cons, firstSame other first, ih moreReordered restSame]

end

/-- In order, values that differ in the order of fields are one. -/
theorem Reordered.ordered_eq {value other : Value} (reordered : value.Reordered other) :
    value.ordered = other.ordered := by
  induction value using nested_induction generalizing other with
  | null | bool _ | number _ | string _ => rw [show other = _ from reordered]
  | array items ih =>
    obtain ⟨others, rfl, reordered⟩ := reordered
    rw [ordered, ordered, orderedItems_eq, orderedItems_eq,
      map_eq_of_itemsReordered reordered fun item member _ => ih item member]
  | record fields ih =>
    obtain ⟨distinct, matching, others, rfl, reordered, perm⟩ := reordered
    have agree := map_eq_of_fieldsReordered reordered fun field member _ => ih field member
    have moved := perm.map fun field => (field.1, field.2.ordered)
    rw [ordered, ordered, orderedFields_eq, orderedFields_eq, agree]
    congr 1
    refine Fields.ofList_perm moved ?_
    rw [← agree, List.map_map]
    exact distinct

/-! ## Depth -/

theorem itemsDepth_eq (items : List Value) : itemsDepth items = (items.map depth).foldr max 0 := by
  induction items with
  | nil => rfl
  | cons item rest ih => rw [itemsDepth, ih, List.map_cons, List.foldr_cons]

theorem fieldsDepth_eq (fields : List (String × Value)) :
    fieldsDepth fields = ((fields.map fun field => (field.1, field.2.depth)).map (·.2)).foldr max 0 := by
  induction fields with
  | nil => rfl
  | cons field rest ih =>
    obtain ⟨name, value⟩ := field
    rw [fieldsDepth, ih, List.map_cons, List.map_cons, List.foldr_cons]

theorem Reordered.depth_eq {value other : Value} (reordered : value.Reordered other) : value.depth = other.depth := by
  induction value using nested_induction generalizing other with
  | null | bool _ | number _ | string _ => rw [show other = _ from reordered]
  | array items ih =>
    obtain ⟨others, rfl, reordered⟩ := reordered
    rw [depth, depth, itemsDepth_eq, itemsDepth_eq,
      map_eq_of_itemsReordered reordered fun item member _ => ih item member]
  | record fields ih =>
    obtain ⟨_, matching, others, rfl, reordered, perm⟩ := reordered
    have agree := map_eq_of_fieldsReordered reordered fun field member _ => ih field member
    have moved := (perm.map fun field => (field.1, field.2.depth)).map (·.2)
    rw [depth, depth, fieldsDepth_eq, fieldsDepth_eq, agree, moved.foldr_op_eq]

end LogSieve.Value

namespace LogSieve.Policy
variable {line other : String} {value reordered : Value}

/-- A policy delivers a line as it delivers any other line for the same value with the fields of its records in
    another order. -/
theorem deliverLine_reordered (policy : Policy) (spelled : value.SpelledBy line)
    (otherSpelled : reordered.SpelledBy other) (same : value.Reordered reordered) (delivery : Delivery) :
    policy.deliverLine line = .ok delivery ↔ policy.deliverLine other = .ok delivery := by
  by_cases shallow : value.depth ≤ Json.greatestDepth
  · have read : Json.parseOrdered line = .ok value.ordered := by
      rw [Json.parseOrdered, Json.parse_eq_ok_iff.2 ⟨spelled, shallow⟩]
      rfl
    have otherRead : Json.parseOrdered other = .ok value.ordered := by
      rw [Json.parseOrdered, Json.parse_eq_ok_iff.2 ⟨otherSpelled, same.depth_eq ▸ shallow⟩, same.ordered_eq]
      rfl
    rw [deliverLine_eq, deliverLine_eq, read, otherRead]
  · have deep := Nat.lt_of_not_le shallow
    obtain ⟨error, refused, _⟩ := Json.parse_of_spelledBy_of_deep spelled deep
    obtain ⟨otherError, otherRefused, _⟩ := Json.parse_of_spelledBy_of_deep otherSpelled (same.depth_eq ▸ deep)
    simp [deliverLine_eq, Json.parseOrdered, refused, otherRefused, Except.map]

/-- Names come to one among the fields gathered now, among those gathered earlier and inside a record; the last of
    them in order stays, whichever is written last. -/
theorem deliverLine_reordered_colliding :
    let policy : Policy := { initial with gathers := true, renamesNested := true, dotReplacement := some "_" }
    let value : Value := .record
      [("undefined", .record [("c_d", .bool true), ("c.d", .bool false)]),
        ("a_b", .record [("e_f", .bool false), ("e.f", .bool true)]), ("a.b", .string "x")]
    let reordered : Value := .record
      [("a.b", .string "x"), ("a_b", .record [("e.f", .bool true), ("e_f", .bool false)]),
        ("undefined", .record [("c.d", .bool false), ("c_d", .bool true)])]
    let line := "\x7b\"undefined\":\x7b\"c_d\":true,\"c.d\":false\x7d," ++
      "\"a_b\":\x7b\"e_f\":false,\"e.f\":true\x7d,\"a.b\":\"x\"\x7d"
    let other := " \x7b\"a\\u002eb\" : \"x\", \"a_b\": \x7b \"e.f\":true, \"e_f\":false\x7d ," ++
      "\"undefined\":\x7b\"c.d\":false ,\"c_d\":true\x7d\x7d"
    value.SpelledBy line ∧ reordered.SpelledBy other ∧ value.Reordered reordered ∧
      ∃ delivery, policy.deliverLine line = .ok delivery ∧ policy.deliverLine other = .ok delivery ∧
        delivery.text = "\x7b\"undefined\":\x7b\"a_b\":\x7b\"e_f\":false\x7d,\"c_d\":true\x7d\x7d" := by
  intro policy value reordered line other
  obtain ⟨spelled, _⟩ := Json.parse_eq_ok_iff.1 (show Json.parse line = .ok value by decide +kernel)
  obtain ⟨otherSpelled, _⟩ := Json.parse_eq_ok_iff.1 (show Json.parse other = .ok reordered by decide +kernel)
  have nested : Value.Reordered (.record [("e_f", .bool false), ("e.f", .bool true)])
      (.record [("e.f", .bool true), ("e_f", .bool false)]) :=
    ⟨by decide, _, _, rfl, ⟨_, _, rfl, rfl, _, _, rfl, rfl, rfl⟩, .swap _ _ _⟩
  have earlier : Value.Reordered (.record [("c_d", .bool true), ("c.d", .bool false)])
      (.record [("c.d", .bool false), ("c_d", .bool true)]) :=
    ⟨by decide, _, _, rfl, ⟨_, _, rfl, rfl, _, _, rfl, rfl, rfl⟩, .swap _ _ _⟩
  have same : value.Reordered reordered :=
    ⟨by decide, _, _, rfl, ⟨_, _, rfl, earlier, _, _, rfl, nested, _, _, rfl, rfl, rfl⟩, (List.reverse_perm _).symm⟩
  obtain ⟨delivery, delivered, text⟩ := map_eq_ok_iff.1 (show (policy.deliverLine line).map Delivery.text =
    .ok "\x7b\"undefined\":\x7b\"a_b\":\x7b\"e_f\":false\x7d,\"c_d\":true\x7d\x7d" by decide +kernel)
  exact ⟨spelled, otherSpelled, same, delivery, delivered,
    (deliverLine_reordered policy spelled otherSpelled same delivery).1 delivered, text⟩

end LogSieve.Policy
