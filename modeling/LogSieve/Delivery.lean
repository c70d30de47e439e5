import LogSieve.Error
import LogSieve.Json.Printer
import LogSieve.Json.Reader
import LogSieve.Sifting
/-!
# Delivering a record

A record is delivered sifted, and with its gathered record as text if that has more
fields than the policy allows. A text that was delivered earlier stays. What runs on lines
and on the workbench has an outcome for a record that cannot be written (`tryStow`,
`tryDeliver`, `deliverLine`); there is no such record (`tryDeliver_eq`, `deliverLine_eq`).
-/
namespace LogSieve

inductive Stowed where
  | asText (text : String)
  | asRecord (fields : Record)
deriving DecidableEq, Repr

/-- A record as it is delivered and what was noticed on the way. -/
structure Delivery where
  record : Record
  changed : Bool
  /-- The number of gathered fields before they became text. -/
  gatheredFields : Nat
  becameText : Bool
deriving DecidableEq, Repr

namespace Delivery

def hasGathered (delivery : Delivery) : Bool := 0 < delivery.gatheredFields

def text (delivery : Delivery) : String := Record.text delivery.record

end Delivery

namespace Policy

/-- So many gathered fields are stored as text. -/
def TooMany (policy : Policy) (count : Nat) : Prop :=
  policy.alwaysAsText = true ∨ ∃ most ∈ policy.maxFields, most < count

instance (policy : Policy) (count : Nat) : Decidable (policy.TooMany count) :=
  inferInstanceAs (Decidable (_ ∨ _))

def stow (policy : Policy) (fields : Record) : Stowed :=
  if policy.gathers ∧ fields ≠ [] ∧ policy.TooMany fields.length then .asText (Record.text fields)
  else .asRecord fields

/-- The record under the reserved name, if that is what is there. -/
def gatheredRecord (policy : Policy) (record : Record) : Option Record :=
  match policy.gatheredValue record with
  | some (.record fields) => some fields
  | _ => none

/-- What a sifted record is delivered as when the record that it gathered, if it gathered one, is stowed so. -/
def withStowed (policy : Policy) (sifted : Sifted) : Option Stowed → Delivery
  | some (.asText text) =>
    ⟨Fields.insert sifted.record policy.gatheredName (.string text), true, sifted.gatheredFields, true⟩
  | some (.asRecord _) | none => ⟨sifted.record, sifted.changed, sifted.gatheredFields, false⟩

/-- Sifts a record and stows what it gathered. -/
def deliver (policy : Policy) (record : Record) : Delivery :=
  let sifted := policy.sift record
  policy.withStowed sifted ((policy.gatheredRecord sifted.record).map policy.stow)

/-- What each of so many runs does, of which every one takes up the record that the one before left. -/
def deliverAgain (policy : Policy) (record : Record) : (runs : Nat) → List Delivery
  | 0 => []
  | runs + 1 =>
    let delivery := policy.deliver record
    delivery :: policy.deliverAgain delivery.record runs

/-! ## Outcomes -/

/-- Stows a gathered record, unless it is to be stored as text and cannot be written. -/
def tryStow (policy : Policy) (fields : Record) : Except Error Stowed :=
  if policy.gathers ∧ fields ≠ [] ∧ policy.TooMany fields.length then
    ((Record.tryText fields).mapError .unwritable).map .asText
  else .ok (.asRecord fields)

/-- Sifts a record and stows what it gathered, unless that cannot be stowed. -/
def tryDeliver (policy : Policy) (record : Record) : Except Error Delivery :=
  let sifted := policy.sift record
  match policy.gatheredRecord sifted.record with
  | none => .ok (policy.withStowed sifted none)
  | some fields => (policy.tryStow fields).map fun stowed => policy.withStowed sifted (some stowed)

/-- Delivers the record in a line, unless there is none in it or what is delivered cannot be written. -/
def deliverLine (policy : Policy) (line : String) : Except Error Delivery := do
  match ← (Json.parseOrdered line).mapError .recordSyntax with
  | .record record =>
    let delivery ← policy.tryDeliver record
    let _ ← (Record.tryText delivery.record).mapError .unwritable
    .ok delivery
  | _ => .error .notARecord

/-- Every gathered record can be stowed. -/
theorem tryStow_eq (policy : Policy) (fields : Record) : policy.tryStow fields = .ok (policy.stow fields) := by
  unfold tryStow stow
  split <;> rfl

/-- Every record can be delivered. -/
theorem tryDeliver_eq (policy : Policy) (record : Record) :
    policy.tryDeliver record = .ok (policy.deliver record) := by
  unfold tryDeliver deliver
  cases gathered : policy.gatheredRecord (policy.sift record).record with
  | none => simp only [gathered, Option.map_none]
  | some fields => simp only [gathered, tryStow_eq, Option.map_some, Except.map]

/-- A line is delivered if it can be read and holds a record, and only what is read decides about that. -/
theorem deliverLine_eq (policy : Policy) (line : String) :
    policy.deliverLine line =
      match Json.parseOrdered line with
      | .error error => .error (.recordSyntax error)
      | .ok (.record record) => .ok (policy.deliver record)
      | .ok _ => .error .notARecord := by
  unfold deliverLine
  cases Json.parseOrdered line with
  | error error => rfl
  | ok value =>
    cases value with
    | record record =>
      show policy.tryDeliver record >>= (fun delivery =>
        (Record.tryText delivery.record).mapError .unwritable >>= fun _ => .ok delivery) = .ok (policy.deliver record)
      rw [tryDeliver_eq]
      rfl
    | _ => rfl

end Policy
end LogSieve
