import LogSieve.Buffer
import LogSieve.Delivery
import LogSieve.Lines
/-!
# A file of records

The lines of a file are delivered one by one up to the first that cannot be. Blank
lines are passed over. What is written goes through a buffer, so that a device without
room is noticed only when bytes pass on to it. A log that is written to the file that is
read adds lines to those that are there.
-/
namespace LogSieve

/-- Why a call came to nothing. -/
inductive CallError where
  | noPolicy
  | failed (error : Error)
  | file (fault : FileFault)
deriving DecidableEq, Repr

def CallError.message : CallError → String
  | noPolicy => "No config loaded. Call load_config() or set_config_json()."
  | failed error => error.message
  | file fault => fault.message

/-- What a file of records came to: the deliveries, in order, and why there are no more of them if that
    is not because the file has ended. -/
structure Feed where
  deliveries : List Delivery
  failure : Option CallError
deriving DecidableEq, Repr

namespace Feed

def cons (delivery : Delivery) (feed : Feed) : Feed := ⟨delivery :: feed.deliveries, feed.failure⟩

/-- What a line comes to: nothing if it is blank. -/
def deliverBytes (policy : Policy) (bytes : Bytes) : Except CallError (Option Delivery) :=
  match Files.decode bytes with
  | .error fault => .error (.file fault)
  | .ok line =>
    if Lines.IsBlank line then .ok none
    else match policy.deliverLine line with
      | .error error => .error (.failed error)
      | .ok delivery => .ok (some delivery)

/-- What passes on to the file and what is held when the text of a delivery is written as a line. -/
def pushDelivery (held : Bytes) (delivery : Delivery) : Bytes × Bytes :=
  Buffer.pushLine held (Files.encode delivery.text) Lines.lineFeed

/-- Delivers lines, with `held` in the buffer. If there is no room where they are written, the first bytes
    that pass on are the end of it. -/
def run (policy : Policy) (noRoom : Bool) (held : Bytes) : List Bytes → Feed
  | [] => ⟨[], if noRoom ∧ held ≠ [] then some (.file .noSpace) else none⟩
  | bytes :: rest =>
    match deliverBytes policy bytes with
    | .error error => ⟨[], some error⟩
    | .ok none => run policy noRoom held rest
    | .ok (some delivery) =>
      let pushed := pushDelivery held delivery
      if noRoom ∧ pushed.1 ≠ [] then ⟨[delivery], some (.file .noSpace)⟩
      else cons delivery (run policy noRoom pushed.2 rest)

def written (feed : Feed) : Bytes := feed.deliveries.flatMap (fun delivery => Lines.written delivery.text)

/-- The number of deliveries in which the gathered record became text. -/
def textCount (feed : Feed) : Nat := feed.deliveries.countP (·.becameText)

/-! ## A file that grows -/

/-- What is told of the lines that can be delivered. -/
def told (policy : Policy) (tell : Delivery → Bytes) (lines : List Bytes) : Bytes :=
  lines.flatMap fun bytes =>
    match deliverBytes policy bytes with
    | .ok (some delivery) => tell delivery
    | _ => []

/-- The lines that come to be read from a file if `tell` is added to it at every delivery. Something that no
    line feed ends is a line if nothing has been added by the time it is read; otherwise it goes on with
    what has been added. What is told is no record, so the reading ends with the first line of it, and
    nothing is told of that one. -/
def linesRead (policy : Policy) (tell : Delivery → Bytes) (content : Bytes) : List Bytes :=
  let added := told policy tell (Lines.ended content)
  if added = [] then Lines.split content ++ Lines.split (told policy tell [Lines.unended content])
  else Lines.ended content ++ Lines.split (Lines.unended content ++ added)

theorem told_of_silent (policy : Policy) (lines : List Bytes) : told policy (fun _ => []) lines = [] := by
  simp only [told, List.flatMap_eq_nil_iff]
  intro bytes _
  split <;> rfl

/-- A file to which nothing is added has its own lines. -/
theorem linesRead_of_silent (policy : Policy) (content : Bytes) :
    linesRead policy (fun _ => []) content = Lines.split content := by
  simp [linesRead, told_of_silent, Lines.split, Lines.ended, Lines.unended, Text.segments]

end Feed
end LogSieve
