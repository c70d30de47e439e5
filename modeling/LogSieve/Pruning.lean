import LogSieve.Key
import LogSieve.Value
/-!
# Empty values

The empty string is empty, and so is a record whose fields are all empty; nothing
else is. `prune` takes the empty fields out of a record and of the records in its
fields, and takes the dots out of the names it passes if it is given a replacement for
them. It does not look into lists. `prunes` says whether it had anything to do.
-/
namespace LogSieve.Value

mutual
/-- Nothing but empty strings is in the value. -/
def isEmpty : Value → Bool
  | .string s => s == ""
  | .record fields => allEmpty fields
  | .null | .bool _ | .number _ | .array _ => false
def allEmpty : List (String × Value) → Bool
  | [] => true
  | (_, value) :: rest => value.isEmpty && allEmpty rest
end

mutual
/-- The value without empty fields. Of fields that come to the same name the last one counts. -/
def prune (replacement : Option String) : Value → Value
  | .record fields => .record (Fields.ofList (survivors replacement fields))
  | .array items => .array items
  | .null => .null
  | .bool b => .bool b
  | .number n => .number n
  | .string s => .string s
/-- The pruned values of the fields that are not empty then, under their names without dots. -/
def survivors (replacement : Option String) : List (String × Value) → List (String × Value)
  | [] => []
  | (name, value) :: rest =>
    let pruned := value.prune replacement
    if pruned.isEmpty then survivors replacement rest
    else (Key.undotted replacement name, pruned) :: survivors replacement rest
end

mutual
/-- Pruning takes out a field or touches a name. -/
def prunes (replacement : Option String) : Value → Bool
  | .record fields => anyPruned replacement fields
  | .array _ | .null | .bool _ | .number _ | .string _ => false
/-- Some field is taken out, has its name touched or is itself pruned. -/
def anyPruned (replacement : Option String) : List (String × Value) → Bool
  | [] => false
  | (name, value) :: rest =>
    value.prunes replacement || (value.prune replacement).isEmpty || decide (Key.Touched replacement name) ||
      anyPruned replacement rest
end

theorem allEmpty_iff {fields : List (String × Value)} :
    allEmpty fields = true ↔ ∀ field ∈ fields, field.2.isEmpty = true := by
  induction fields with
  | nil => simp [allEmpty]
  | cons field rest ih => obtain ⟨name, value⟩ := field; simp [allEmpty, ih]

end LogSieve.Value
