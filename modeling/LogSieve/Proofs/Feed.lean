import LogSieve.Feed
import LogSieve.Proofs.Lines
import LogSieve.Proofs.Outcomes
/-!
# The lines of a file of records

A feed with room to write is what the lines that are not blank are delivered as, up to the
first that cannot be (`run_eq`). Where there is no room the buffer hides that until it is
full or there is nothing more to deliver (`failure_run_noRoom`). What is written of a feed is read
back as the texts of its deliveries, one to a line (`decode_written`).
-/
namespace LogSieve

/-- What the bytes of a line that is not blank are delivered as. -/
def Policy.deliverEncoded (policy : Policy) (bytes : Bytes) : Except CallError Delivery := do
  let line ← (Files.decode bytes).mapError .file
  (policy.deliverLine line).mapError .failed

namespace Feed
variable {policy : Policy} {bytes : Bytes}

/-! ## Reading -/

theorem deliverBytes_of_blank (blank : Lines.Blank bytes) : deliverBytes policy bytes = .ok none := by
  obtain ⟨line, decoded, blank⟩ := blank
  rw [deliverBytes, decoded]
  exact if_pos blank

theorem deliverBytes_of_not_blank (filled : ¬ Lines.Blank bytes) :
    deliverBytes policy bytes = (policy.deliverEncoded bytes).map some := by
  rw [deliverBytes, Policy.deliverEncoded]
  cases decoded : Files.decode bytes with
  | error fault => rfl
  | ok line =>
    rw [Lines.blank_of_decode decoded] at filled
    simp only [if_neg filled]
    cases delivered : policy.deliverLine line with
    | error error => simp [Except.map, bind, Except.bind, delivered]
    | ok delivery => simp [Except.map, bind, Except.bind, delivered]

/-- What lines are delivered as, the blank ones left out. -/
def lineOutcomes (policy : Policy) (lines : List Bytes) : List (Except CallError Delivery) :=
  (lines.filter (¬ Lines.Blank ·)).map policy.deliverEncoded

theorem lineOutcomes_of_blank (blank : Lines.Blank bytes) (rest : List Bytes) :
    lineOutcomes policy (bytes :: rest) = lineOutcomes policy rest := by
  simp [lineOutcomes, blank]

theorem lineOutcomes_of_not_blank (filled : ¬ Lines.Blank bytes) (rest : List Bytes) :
    lineOutcomes policy (bytes :: rest) = policy.deliverEncoded bytes :: lineOutcomes policy rest := by
  simp [lineOutcomes, filled]

/-- What the lines of a file that are not blank are delivered as. -/
def outcomes (policy : Policy) (content : Bytes) : List (Except CallError Delivery) :=
  (Lines.filled content).map policy.deliverEncoded

theorem lineOutcomes_split (policy : Policy) (content : Bytes) :
    lineOutcomes policy (Lines.split content) = outcomes policy content := rfl

/-- The deliveries up to the first error. -/
def upTo (outcomes : List (Except CallError Delivery)) : Feed := ⟨(upToError outcomes).1, (upToError outcomes).2⟩

theorem upTo_error (error : CallError) (rest : List (Except CallError Delivery)) :
    upTo (.error error :: rest) = ⟨[], some error⟩ := rfl

theorem upTo_ok (delivery : Delivery) (rest : List (Except CallError Delivery)) :
    upTo (.ok delivery :: rest) = cons delivery (upTo rest) := rfl

/-- Blank lines are passed over and the others are delivered up to the first that cannot be, if there is room
    to write. -/
theorem run_cases (policy : Policy) (noRoom : Bool) (held : Bytes) (lines : List Bytes) :
    run policy noRoom held lines = upTo (lineOutcomes policy lines) ∨
      noRoom = true ∧ (run policy noRoom held lines).failure = some (.file .noSpace) := by
  induction lines generalizing held with
  | nil =>
    by_cases full : noRoom ∧ held ≠ []
    · exact .inr ⟨full.1, if_pos full⟩
    · exact .inl (by simp only [run, if_neg full]; rfl)
  | cons bytes rest ih =>
    by_cases blank : Lines.Blank bytes
    · simp only [run, deliverBytes_of_blank blank, lineOutcomes_of_blank blank]
      exact ih held
    · simp only [run, deliverBytes_of_not_blank blank, lineOutcomes_of_not_blank blank]
      cases policy.deliverEncoded bytes with
      | error error => exact .inl rfl
      | ok delivery =>
        simp only [Except.map, upTo_ok]
        split
        · rename_i full
          exact .inr ⟨full.1, rfl⟩
        · rcases ih (pushDelivery held delivery).2 with more | more
          · exact .inl (congrArg (cons delivery) more)
          · exact .inr more

/-- With room to write, the buffer makes no difference. -/
theorem run_eq (policy : Policy) (held : Bytes) (lines : List Bytes) :
    run policy false held lines = upTo (lineOutcomes policy lines) :=
  (run_cases policy false held lines).resolve_right (by simp)

/-! ## Writing -/

/-- What passes on and what is held then is what was held and the line. -/
theorem pushDelivery_append (held : Bytes) (delivery : Delivery) :
    (pushDelivery held delivery).1 ++ (pushDelivery held delivery).2 = held ++ Lines.written delivery.text := by
  rw [pushDelivery, Buffer.pushLine_append, Lines.written, List.append_assoc]

theorem pushDelivery_fst_eq_nil_iff {held : Bytes} {delivery : Delivery} :
    (pushDelivery held delivery).1 = [] ↔ (held ++ Lines.written delivery.text).length ≤ Buffer.size := by
  rw [pushDelivery, Buffer.pushLine_fst_eq_nil_iff, Lines.written, List.append_assoc]

theorem written_cons (delivery : Delivery) (feed : Feed) :
    (cons delivery feed).written = Lines.written delivery.text ++ feed.written := rfl

/-- What stops a feed that writes these bytes where there is no room for any. It is noticed when bytes pass on from
    the buffer, which they do in the end at the latest, unless there are none or a line stops the feed before. -/
def failureWithoutRoom (bytes : Bytes) (failure : Option CallError) : Option CallError :=
  if bytes = [] ∨ failure ≠ none ∧ bytes.length ≤ Buffer.size then failure else some (.file .noSpace)

theorem failureWithoutRoom_of_short {bytes : Bytes} (short : bytes.length ≤ Buffer.size) (error : CallError) :
    failureWithoutRoom bytes (some error) = some error :=
  if_pos (.inr ⟨Option.some_ne_none error, short⟩)

theorem failureWithoutRoom_of_long {bytes : Bytes} (long : Buffer.size < bytes.length) (failure : Option CallError) :
    failureWithoutRoom bytes failure = some (.file .noSpace) := by
  refine if_neg ?_
  rintro (rfl | ⟨_, short⟩)
  · exact absurd long (by decide)
  · omega

/-- A feed as it comes out where there is no room. -/
def withoutRoom (feed : Feed) : Feed := { feed with failure := failureWithoutRoom feed.written feed.failure }

/-- The bytes that are held already count as written: when they pass on is all that the buffer decides. -/
theorem failure_run_of_held (policy : Policy) {held : Bytes} (short : held.length ≤ Buffer.size) (lines : List Bytes) :
    (run policy true held lines).failure =
      failureWithoutRoom (held ++ (upTo (lineOutcomes policy lines)).written)
        (upTo (lineOutcomes policy lines)).failure := by
  induction lines generalizing held with
  | nil => cases held <;> rfl
  | cons bytes rest ih =>
    by_cases blank : Lines.Blank bytes
    · simp only [run, deliverBytes_of_blank blank, lineOutcomes_of_blank blank]
      exact ih short
    · simp only [run, deliverBytes_of_not_blank blank, lineOutcomes_of_not_blank blank]
      cases policy.deliverEncoded bytes with
      | error error =>
        simp only [Except.map, upTo_error]
        exact (failureWithoutRoom_of_short (by simpa [written] using short) error).symm
      | ok delivery =>
        simp only [Except.map, upTo_ok, written_cons, ← List.append_assoc]
        by_cases kept : (pushDelivery held delivery).1 = []
        · have behind : (pushDelivery held delivery).2 = held ++ Lines.written delivery.text := by
            simpa [kept] using pushDelivery_append held delivery
          rw [if_neg (fun full => full.2 kept), behind]
          exact ih (pushDelivery_fst_eq_nil_iff.1 kept)
        · have long := mt pushDelivery_fst_eq_nil_iff.2 kept
          rw [if_pos ⟨trivial, kept⟩, failureWithoutRoom_of_long]
          rw [List.length_append]
          omega

theorem failure_run_noRoom (policy : Policy) (lines : List Bytes) :
    (run policy true [] lines).failure = (upTo (lineOutcomes policy lines)).withoutRoom.failure :=
  failure_run_of_held policy (by decide) lines

/-! ## Reading back -/

theorem printable_text (delivery : Delivery) : Json.Printable delivery.text.toList := by
  rw [Delivery.text, Record.text, Value.text, String.toList_ofList]
  exact Json.printable_write _

/-- The text of a delivery starts with a brace. -/
theorem not_isBlank_text (delivery : Delivery) : ¬ Lines.IsBlank delivery.text := by
  intro blank
  rw [Lines.IsBlank, Delivery.text, Record.text, Value.text, String.toList_ofList] at blank
  cases fields : delivery.record with
  | nil => simp [fields, Json.write, Text.isBlank] at blank
  | cons field rest => simp [fields, Json.write, Text.isBlank] at blank

/-- The texts of deliveries, written one to a line, are what is read line by line; no line is blank. -/
theorem decode_written (deliveries : List Delivery) :
    (Lines.filled ((deliveries.map (·.text)).flatMap Lines.written)).map Files.decode =
      (deliveries.map (·.text)).map .ok := by
  have printable : ∀ text ∈ deliveries.map (·.text), Json.Printable text.toList := by simp [printable_text]
  have notBlank : ∀ bytes ∈ (deliveries.map (·.text)).map Files.encode, ¬ Lines.Blank bytes := by
    simp [Lines.blank_of_decode (Files.decode_encode _), not_isBlank_text]
  have filled : Lines.filled ((deliveries.map (·.text)).flatMap Lines.written) =
      (deliveries.map (·.text)).map Files.encode := by
    rw [Lines.filled, Lines.split_flatMap_written printable, List.filter_eq_self]
    simpa using notBlank
  rw [filled, List.map_map]
  exact List.map_congr_left fun text _ => Files.decode_encode text

end Feed
end LogSieve
