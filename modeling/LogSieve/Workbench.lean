import LogSieve.Delivery
import LogSieve.Policy.Loading
/-!
# A workbench

A policy and a record to try things on, one step after another. A step that fails
leaves both as they were.
-/
namespace LogSieve

/-- Where a policy comes from: a configuration document, or itself. -/
inductive PolicySource where
  | document (text : String)
  | policy (policy : Policy)

def PolicySource.load : PolicySource → Except Error Policy
  | document text => Policy.ofText text
  | policy p => .ok p

inductive StepError where
  | failed (error : Error)
  /-- A text is not that of a value. -/
  | notAValue (error : Json.Error)
  /-- A text is that of a value which is not a record. -/
  | notARecord
deriving DecidableEq, Repr

def StepError.message : StepError → String
  | failed error => error.message
  | notAValue error => error.message
  | notARecord => "not a JSON object"

def Value.ofText (text : String) : Except StepError Value := (Json.parseOrdered text).mapError .notAValue

def Record.ofText (text : String) : Except StepError Record := do
  match ← Value.ofText text with
  | .record fields => .ok fields
  | _ => .error .notARecord

/-- What lies on the workbench. -/
structure Workbench where
  policy : Policy
  record : Record

/-- What can be done on the workbench. -/
inductive Step where
  | policy (source : PolicySource)
  | record (text : String)
  | insert (name valueText : String)
  | remove (name : String)
  /-- Prunes the whole record as a nested one. -/
  | prune
  | sift
  | deliver
  /-- Delivers the text of the record and reads the record back. -/
  | deliverText
  /-- Stows the whole record as a gathered one. -/
  | stow

inductive Finding where
  | policy (policy : Policy)
  | record (record : Record)
  | removed (record : Record) (value : Option Value)
  | pruned (record : Record) (changed : Bool)
  | sifted (sifted : Sifted)
  | delivered (delivery : Delivery)
  | stowed (stowed : Stowed)

namespace Workbench

def empty : Workbench := ⟨Policy.initial, []⟩

/-- The record that stands for a stowed one: its fields, or its text in a field. -/
def ofStowed : Stowed → Record
  | .asRecord fields => fields
  | .asText text => [("encoded", .string text)]

def step (bench : Workbench) : Step → Except StepError (Workbench × Finding)
  | .policy source =>
    match source.load with
    | .ok policy => .ok ({ bench with policy }, .policy policy)
    | .error error => .error (.failed error)
  | .record text => do
    let record ← Record.ofText text
    .ok ({ bench with record }, .record record)
  | .insert name valueText => do
    let value ← Value.ofText valueText
    let record := Fields.insert bench.record name value
    .ok ({ bench with record }, .record record)
  | .remove name =>
    let record := Fields.erase bench.record name
    .ok ({ bench with record }, .removed record (Fields.get? bench.record name))
  | .prune =>
    let replacement := bench.policy.nestedReplacement
    let record := Fields.ofList (Value.survivors replacement bench.record)
    .ok ({ bench with record }, .pruned record (Value.anyPruned replacement bench.record))
  | .sift =>
    let sifted := bench.policy.sift bench.record
    .ok ({ bench with record := sifted.record }, .sifted sifted)
  | .deliver => do
    let delivery ← (bench.policy.tryDeliver bench.record).mapError .failed
    .ok ({ bench with record := delivery.record }, .delivered delivery)
  | .deliverText =>
    match bench.policy.deliverLine (Record.text bench.record) with
    | .error error => .error (.failed error)
    | .ok delivery => do
      let record ← Record.ofText delivery.text
      .ok ({ bench with record }, .delivered delivery)
  | .stow => do
    let stowed ← (bench.policy.tryStow bench.record).mapError .failed
    .ok ({ bench with record := ofStowed stowed }, .stowed stowed)

/-- Takes steps one after another and gives what each answers. -/
def run (bench : Workbench) : List Step → List (Except StepError Finding)
  | [] => []
  | first :: rest =>
    match bench.step first with
    | .ok (bench, finding) => .ok finding :: run bench rest
    | .error error => .error error :: run bench rest

end Workbench
end LogSieve
