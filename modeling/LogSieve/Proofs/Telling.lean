import LogSieve.Session
import LogSieve.Proofs.Files
/-!
# What telling and writing leave as it is

An event that is told changes the file of the log and nothing else that a call goes by, and
not even that file if the filter of the log holds it back (`Spares`). Writing out deliveries
tells of each of them and leaves the policy and the log as they are.
-/
namespace LogSieve.Session
variable {session : Session} {place : Location}

/-- The event is not added to what stands at `place`: the log is elsewhere, or its filter holds the event
    back. -/
def Spares (session : Session) (place : Location) (event : Event) : Prop :=
  ∀ log ∈ session.log, log.place = place → log.filter.passes event = false

theorem Spares.of_log_eq {other : Session} {event : Event} (spared : session.Spares place event)
    (same : other.log = session.log) : other.Spares place event := by
  rw [Spares, same]
  exact spared

theorem spares_of_no_log (silent : session.log = none) (place : Location) (event : Event) :
    session.Spares place event := by
  intro log logs
  rw [silent] at logs
  cases logs

/-! ## Telling -/

@[simp] theorem policy_tell (session : Session) (event : Event) : (session.tell event).policy = session.policy := by
  unfold tell
  split
  · rfl
  · split <;> rfl

@[simp] theorem log_tell (session : Session) (event : Event) : (session.tell event).log = session.log := by
  unfold tell
  split
  · rfl
  · split <;> rfl

theorem addition_of_spares {log : Log} {event : Event} (spared : session.Spares place event)
    (logs : session.log = some log) (here : log.place = place) (time : String) : log.addition time event = [] := by
  rw [Log.addition, spared log logs here]
  rfl

/-- An event changes what stands at the place of the log at most, and that only if the filter lets it through. -/
theorem entry?_tell {event : Event} (spared : session.Spares place event) :
    Files.entry? (session.tell event).files place = session.files.entry? place := by
  unfold tell
  cases logs : session.log with
  | none => rfl
  | some log =>
    simp only
    cases told : log.tell session.time session.files event with
    | error fault => rfl
    | ok files =>
      rw [Log.tell] at told
      by_cases here : log.place = place
      · rw [addition_of_spares spared logs here, Files.append, if_pos rfl] at told
        cases told
        rfl
      · exact Files.entry?_append (Ne.symm here) told

theorem toldTo_of_spares (spared : ∀ delivery, session.Spares place (.delivered delivery)) :
    session.toldTo place = fun _ => [] := by
  funext delivery
  unfold toldTo
  cases logs : session.log with
  | none => rfl
  | some log =>
    simp only
    split
    · rename_i here
      exact addition_of_spares (spared delivery) logs here session.time
    · rfl

/-! ## Writing out -/

@[simp] theorem policy_overwrite (session : Session) (place : Location) (offset : Nat) (bytes : Bytes) :
    (session.overwrite place offset bytes).policy = session.policy := rfl

@[simp] theorem log_overwrite (session : Session) (place : Location) (offset : Nat) (bytes : Bytes) :
    (session.overwrite place offset bytes).log = session.log := rfl

@[simp] theorem policy_writeOut (session : Session) (place : Location) (offset : Nat) (held : Bytes)
    (deliveries : List Delivery) : (session.writeOut place offset held deliveries).policy = session.policy := by
  induction deliveries generalizing session offset held with
  | nil => rfl
  | cons delivery rest ih => simp [writeOut, ih]

@[simp] theorem log_writeOut (session : Session) (place : Location) (offset : Nat) (held : Bytes)
    (deliveries : List Delivery) : (session.writeOut place offset held deliveries).log = session.log := by
  induction deliveries generalizing session offset held with
  | nil => rfl
  | cons delivery rest ih => simp [writeOut, ih]

end LogSieve.Session
