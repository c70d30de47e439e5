import LogSieve.Policy
import LogSieve.Pruning
/-!
# Sifting a record

Every field of a record is renamed, pruned and then given a place: at the top, among
the gathered fields, or nowhere. The gathered fields stand in one record under the
policy's name for it. What the record already holds under that name was gathered
earlier; it is sifted again and merged with the new fields, which count more.
-/
namespace LogSieve

inductive Place where
  | top
  | gathered
  | nowhere
deriving DecidableEq, Repr

namespace Policy

/-- A field's value without what is empty in it. -/
def pruneValue (policy : Policy) (value : Value) : Value := value.prune policy.nestedReplacement

/-- The field, of which the value has been pruned, is dropped for being empty. -/
def Drops (policy : Policy) (name : String) (pruned : Value) : Prop :=
  pruned.isEmpty = true ∧ name ∉ policy.keepEmpty

instance (policy : Policy) (name : String) (pruned : Value) : Decidable (policy.Drops name pruned) :=
  inferInstanceAs (Decidable (_ ∧ _))

/-- The place of a field of the record, by its name as it came in and its pruned value. -/
def place (policy : Policy) (name : String) (pruned : Value) : Place :=
  if name ∈ policy.keep then .top
  else if policy.Drops name pruned then .nowhere
  else if policy.gathers then .gathered
  else .top

/-- The name is the one under which fields are gathered. -/
def Reserves (policy : Policy) (name : String) : Prop := policy.gathers = true ∧ name = policy.gatheredName

instance (policy : Policy) (name : String) : Decidable (policy.Reserves name) :=
  inferInstanceAs (Decidable (_ ∧ _))

/-- A field as it is stored: with a new name and a pruned value. -/
def stored (policy : Policy) (field : String × Value) : String × Value :=
  (policy.rename field.1, policy.pruneValue field.2)

/-- Storing the field changes its name or its value. -/
def alters (policy : Policy) (field : String × Value) : Bool :=
  decide (policy.rename field.1 ≠ field.1) || field.2.prunes policy.nestedReplacement

/-! ## The fields of the record -/

/-- The fields that are given a place. -/
def placed (policy : Policy) (record : Record) : Record :=
  record.filter (fun field => ¬ policy.Reserves field.1)

/-- The fields whose place is `place`, as they are stored there. -/
def fieldsAt (policy : Policy) (place : Place) (record : Record) : Record :=
  .ofList (((policy.placed record).filter
    (fun field => policy.place field.1 (policy.pruneValue field.2) = place)).map policy.stored)

/-- Some field is stored otherwise than it came in. -/
def movesAny (policy : Policy) (record : Record) : Bool :=
  (policy.placed record).any
    (fun field => policy.alters field || decide (policy.place field.1 (policy.pruneValue field.2) ≠ .top))

/-! ## What was gathered before -/

def gatheredValue (policy : Policy) (record : Record) : Option Value :=
  if policy.gathers then record.get? policy.gatheredName else none

/-- The earlier gathered fields that stay, as they are stored. -/
def staying (policy : Policy) (fields : Record) : Record :=
  .ofList ((fields.filter
    (fun field => ¬ policy.Drops field.1 (policy.pruneValue field.2))).map policy.stored)

/-- What stays of an earlier gathered value. One that is not a record stays as it is unless it is
    empty. -/
def resift (policy : Policy) : Value → Option Value
  | .record fields =>
    let fields := policy.staying fields
    if fields = [] then none else some (.record fields)
  | other => if other.isEmpty then none else some other

/-- Sifting the earlier gathered value again changes it. -/
def resiftAlters (policy : Policy) : Value → Bool
  | .record fields =>
    fields.any
        (fun field => policy.alters field || decide (policy.Drops field.1 (policy.pruneValue field.2))) ||
      decide (policy.staying fields = [])
  | other => other.isEmpty

/-! ## Together -/

/-- The value under the reserved name, from what stays of the earlier one and the fields gathered now.
    An earlier value that is not a record becomes a field of its own, unless it is alone. -/
def gather (policy : Policy) (earlier : Option Value) (fresh : Record) : Option Value :=
  match earlier with
  | none => if fresh = [] then none else some (.record fresh)
  | some value =>
    if fresh = [] then some value
    else match value with
      | .record fields => some (.record (Fields.insertAll fields fresh))
      | other => some (.record (Fields.insert fresh policy.gatheredName other))

/-- The number of fields under the reserved name: those of a record, or one. -/
def gatheredCount (policy : Policy) (record : Record) : Nat :=
  match policy.gatheredValue record with
  | none => 0
  | some (.record fields) => fields.length
  | some _ => 1

def siftedRecord (policy : Policy) (record : Record) : Record :=
  let top := policy.fieldsAt .top record
  let earlier := (policy.gatheredValue record).bind policy.resift
  match policy.gather earlier (policy.fieldsAt .gathered record) with
  | none => top
  | some value => Fields.insert top policy.gatheredName value

def siftAlters (policy : Policy) (record : Record) : Bool :=
  policy.movesAny record || (policy.gatheredValue record).any policy.resiftAlters

end Policy

/-- A sifted record and what was noticed on the way. -/
structure Sifted where
  record : Record
  changed : Bool
  gatheredFields : Nat
deriving DecidableEq, Repr

def Sifted.hasGathered (sifted : Sifted) : Bool := 0 < sifted.gatheredFields

namespace Policy

/-- Renames, prunes and places every field of a record. -/
def sift (policy : Policy) (record : Record) : Sifted where
  record := policy.siftedRecord record
  changed := policy.siftAlters record
  gatheredFields := policy.gatheredCount (policy.siftedRecord record)

/-- What each of so many runs does, of which every one takes up the record that the one before left. -/
def siftAgain (policy : Policy) (record : Record) : (runs : Nat) → List Sifted
  | 0 => []
  | runs + 1 =>
    let sifted := policy.sift record
    sifted :: policy.siftAgain sifted.record runs

end Policy
end LogSieve
