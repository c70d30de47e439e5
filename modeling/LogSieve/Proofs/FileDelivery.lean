import LogSieve.Proofs.Feed
import LogSieve.Proofs.Telling
/-!
# Files of records delivered

A file of records is delivered exactly (`call_file_exact`): the answer and what is written are
those of its lines up to the first that cannot be delivered, whatever the buffer does on the
way, and what is written is read back line by line. An event that a log adds to the written
file comes behind the lines (`call_file_told`).
-/
namespace LogSieve.Session
variable {session : Session} {policy : Policy} {input output : String} {place source target : Location}
  {content : Bytes}

/-! ## Writing out -/

theorem entry?_overwrite (found : session.files.entry? place = some (.file content)) (bytes : Bytes) :
    Files.entry? (session.overwrite place content.length bytes).files place = some (.file (content ++ bytes)) := by
  obtain ⟨written, done, found⟩ := Files.writeAt_end found bytes
  simp only [overwrite, done]
  exact found

/-- What is written out comes behind what the file holds: first what is held in the buffer, then the text of
    every delivery as a line. -/
theorem entry?_writeOut (session : Session) (held : Bytes) (deliveries : List Delivery)
    (found : session.files.entry? place = some (.file content))
    (spared : ∀ delivery, session.Spares place (.delivered delivery)) :
    Files.entry? (session.writeOut place content.length held deliveries).files place =
      some (.file (content ++ held ++ (deliveries.map (·.text)).flatMap Lines.written)) := by
  induction deliveries generalizing session content held with
  | nil => simpa [writeOut] using entry?_overwrite found held
  | cons delivery rest ih =>
    have told : Files.entry? (session.tell (.delivered delivery)).files place = some (.file content) :=
      (entry?_tell (spared delivery)).trans found
    have passed := entry?_overwrite told (Feed.pushDelivery held delivery).1
    have written := ih _ (Feed.pushDelivery held delivery).2 passed (fun other => (spared other).of_log_eq (by simp))
    rw [List.length_append] at written
    rw [writeOut, written, List.append_assoc content, Feed.pushDelivery_append]
    simp

/-! ## From file to file -/

/-- The way is clear from the file `input`, which is at `source` and holds `content`, to the file `output` at
    `target`: the files are two, there is room to write, and of the deliveries nothing is told in either. -/
structure Clears (session : Session) (input output : String) (source target : Location) (content : Bytes) :
    Prop where
  opened : session.files.openInput input = .ok source
  holds : session.files.entry? source = some (.file content)
  emptied : (session.files.openEmptied output).map Prod.fst = .ok target
  room : session.files.entry? target ≠ some .fullDevice
  apart : target ≠ source
  sourceSpared : ∀ delivery, session.Spares source (.delivered delivery)
  targetSpared : ∀ delivery, session.Spares target (.delivered delivery)

/-- The texts stand at `place`, each with a line feed behind it, and these texts are what is read there line
    by line. -/
def HoldsLines (session : Session) (place : Location) (texts : List String) : Prop :=
  ∃ bytes, session.files.entry? place = some (.file bytes) ∧ bytes = texts.flatMap Lines.written ∧
    (Lines.filled bytes).map Files.decode = texts.map .ok

/-- Emptying the output leaves the input as it was and the output with nothing in it. -/
theorem Clears.emptied_apart (clear : session.Clears input output source target content) :
    ∃ files, session.files.openEmptied output = .ok (target, files) ∧ files.read source = .ok content ∧
      files.entry? target = some (.file []) := by
  obtain ⟨⟨place, files⟩, emptied, same⟩ := map_eq_ok_iff.1 clear.emptied
  have same : target = place := same.symm
  subst same
  obtain ⟨_, stands, others⟩ := Files.entry?_of_openEmptied emptied
  refine ⟨files, emptied, ?_, stands.resolve_right clear.room⟩
  rw [Files.read, others source clear.apart.symm, clear.holds]

theorem deliverFile_eq (clear : session.Clears input output source target content) (policy : Policy) :
    ∃ written : Session, written.log = session.log ∧
      written.HoldsLines target ((upToError (Feed.outcomes policy content)).1.map (·.text)) ∧
      session.deliverFile policy input output =
        match upToError (Feed.outcomes policy content) with
        | (_, some error) => (written, .error error)
        | (deliveries, none) =>
          (written.tell (.fileDone input deliveries.length (deliveries.countP (·.becameText))),
            .ok deliveries.length) := by
  obtain ⟨files, emptied, read, empty⟩ := clear.emptied_apart
  have room : files.entry? target ≠ some .fullDevice := by simp [empty]
  let opened : Session := { session with files }
  have silent : opened.toldTo source = fun _ => [] := toldTo_of_spares clear.sourceSpared
  rcases first : upToError (Feed.outcomes policy content) with ⟨deliveries, failure⟩
  refine ⟨opened.writeOut target 0 [] deliveries, log_writeOut .., ?_, ?_⟩
  · have written := opened.entry?_writeOut [] deliveries empty clear.targetSpared
    exact ⟨_, written, rfl, Feed.decode_written deliveries⟩
  · have feed : Feed.run policy false [] (Lines.split content) = ⟨deliveries, failure⟩ := by
      rw [Feed.run_eq, Feed.lineOutcomes_split, Feed.upTo, first]
    simp only [deliverFile, clear.opened, emptied, read, decide_eq_false room]
    rw [silent, Feed.linesRead_of_silent, feed]
    cases failure <;> rfl

theorem HoldsLines.of_tell {event : Event} {texts : List String} (holds : session.HoldsLines place texts)
    (spared : session.Spares place event) : HoldsLines (session.tell event) place texts := by
  obtain ⟨bytes, found, lines⟩ := holds
  exact ⟨bytes, (entry?_tell spared).trans found, lines⟩

/-- Without a policy, or without the input, nothing is done. Where the way is clear and every line that is not
    blank can be delivered, the answer is their number and the output holds their texts; otherwise the answer
    is the error of the first that cannot be, and the output holds the texts of those in front of it. -/
theorem call_file_exact (session : Session) (input output : String) :
    (session.policy = none → session.call (.file input output) = (session, .error .noPolicy)) ∧
    ∀ policy, session.policy = some policy →
      (∀ fault, session.files.openInput input = .error fault →
        session.call (.file input output) = (session, .error (.file fault))) ∧
      ∀ source target content, session.Clears input output source target content →
        (∀ deliveries : List Delivery, Feed.outcomes policy content = deliveries.map .ok →
          session.Spares target (.fileDone input deliveries.length (deliveries.countP (·.becameText))) →
          ∃ after, session.call (.file input output) = (after, .ok (.file (Lines.filled content).length)) ∧
            after.HoldsLines target (deliveries.map (·.text))) ∧
        ∀ (deliveries : List Delivery) error rest,
          Feed.outcomes policy content = deliveries.map .ok ++ .error error :: rest →
          ∃ after, session.call (.file input output) = (after, .error error) ∧
            after.HoldsLines target (deliveries.map (·.text)) := by
  constructor
  · intro unloaded
    simp [call, withPolicy, unloaded, replying, Except.map]
  intro policy loaded
  constructor
  · intro fault missing
    simp [call, withPolicy, loaded, replying, deliverFile, missing, Except.map]
  intro source target content clear
  obtain ⟨written, log, holds, delivered⟩ := deliverFile_eq clear policy
  constructor
  · intro deliveries accepted spared
    have count : deliveries.length = (Lines.filled content).length := by
      simpa [Feed.outcomes] using (congrArg List.length accepted).symm
    simp only [accepted, upToError_ok] at delivered holds
    refine ⟨written.tell (.fileDone input deliveries.length (deliveries.countP (·.becameText))), ?_,
      holds.of_tell (spared.of_log_eq log)⟩
    simp only [call, withPolicy, loaded, replying, delivered, ← count, Except.map]
  · intro deliveries error rest refused
    simp only [refused, upToError_error] at delivered holds
    refine ⟨written, ?_, holds⟩
    simp only [call, withPolicy, loaded, replying, delivered, Except.map]

/-- A session that has loaded the settings of an empty document, with its log where the environment says. -/
def withTwoFiles (log : Option String) : Session :=
  let files := Files.ofWorkingDirectory
    [(["whole"], .file (Files.encode "\x7b\"a\":\"b c\"\x7d\r\n \n\x7b\"d\":null\x7d")),
      (["broken"], .file (Files.encode "\x7b\"a\":\"b c\"\x7d\n[]\n\x7b\x7d\n"))]
  ((start ⟨none, log, none⟩ files "now").call (.loadText "\x7b\x7d")).1

theorem call_file_exact_two_files :
    let session := withTwoFiles none
    let place := workingDirectory ++ ["out"]
    (∃ after, session.call (.file "whole" "out") = (after, .ok (.file 2)) ∧
      after.HoldsLines place ["\x7b\"a\":\"b c\"\x7d", "\x7b\"d\":null\x7d"]) ∧
    (∃ after, session.call (.file "broken" "out") = (after, .error (.failed .notARecord)) ∧
      after.HoldsLines place ["\x7b\"a\":\"b c\"\x7d"]) ∧
    session.call (.file "other" "out") = (session, .error (.file .notFound)) ∧
    (start ⟨none, none, none⟩ ⟨[]⟩ "now").call (.file "whole" "out") =
      (start ⟨none, none, none⟩ ⟨[]⟩ "now", .error .noPolicy) := by
  let first : Delivery := ⟨[("a", .string "b c")], false, 0, false⟩
  let second : Delivery := ⟨[("d", .null)], false, 0, false⟩
  have loaded : (withTwoFiles none).policy = some .initial := by decide +kernel
  have exact (input : String) := (call_file_exact (withTwoFiles none) input "out").2 .initial loaded
  have spared : ∀ place event, (withTwoFiles none).Spares place event := spares_of_no_log rfl
  refine ⟨?_, ?_, (exact "other").1 .notFound (by decide +kernel), (call_file_exact _ "whole" "out").1 rfl⟩
  · have clear : (withTwoFiles none).Clears "whole" "out" (workingDirectory ++ ["whole"])
        (workingDirectory ++ ["out"]) (Files.encode "\x7b\"a\":\"b c\"\x7d\r\n \n\x7b\"d\":null\x7d") :=
      ⟨by decide +kernel, by decide +kernel, by decide +kernel, by decide +kernel, by decide, fun _ => spared _ _,
        fun _ => spared _ _⟩
    have delivered := ((exact "whole").2 _ _ _ clear).1 [first, second] (by decide +kernel) (spared _ _)
    have count : (Lines.filled (Files.encode "\x7b\"a\":\"b c\"\x7d\r\n \n\x7b\"d\":null\x7d")).length = 2 := by
      decide +kernel
    have texts : [first, second].map (·.text) = ["\x7b\"a\":\"b c\"\x7d", "\x7b\"d\":null\x7d"] := by decide +kernel
    rwa [count, texts] at delivered
  · have clear : (withTwoFiles none).Clears "broken" "out" (workingDirectory ++ ["broken"])
        (workingDirectory ++ ["out"]) (Files.encode "\x7b\"a\":\"b c\"\x7d\n[]\n\x7b\x7d\n") :=
      ⟨by decide +kernel, by decide +kernel, by decide +kernel, by decide +kernel, by decide, fun _ => spared _ _,
        fun _ => spared _ _⟩
    have delivered := ((exact "broken").2 _ _ _ clear).2 [first] (.failed .notARecord) [.ok ⟨[], false, 0, false⟩]
      (by decide +kernel)
    have texts : [first].map (·.text) = ["\x7b\"a\":\"b c\"\x7d"] := by decide +kernel
    rwa [texts] at delivered

/-- A log in the file that is written, which adds its event behind the lines. -/
theorem call_file_told :
    let session := withTwoFiles (some "out")
    let source := workingDirectory ++ ["whole"]
    let target := workingDirectory ++ ["out"]
    let content := Files.encode "\x7b\"a\":\"b c\"\x7d\r\n \n\x7b\"d\":null\x7d"
    let deliveries : List Delivery := [⟨[("a", .string "b c")], false, 0, false⟩, ⟨[("d", .null)], false, 0, false⟩]
    session.policy = some .initial ∧ session.files.openInput "whole" = .ok source ∧
      session.files.entry? source = some (.file content) ∧
      (session.files.openEmptied "out").map Prod.fst = .ok target ∧ target ≠ source ∧
      session.files.entry? target ≠ some .fullDevice ∧
      Feed.outcomes .initial content = deliveries.map .ok ∧
      ¬ HoldsLines (session.call (.file "whole" "out")).1 target (deliveries.map (·.text)) := by
  intro session source target content deliveries
  have told : Files.entry? (session.call (.file "whole" "out")).1.files target ≠
      some (.file ((deliveries.map (·.text)).flatMap Lines.written)) := by decide +kernel
  refine ⟨by decide +kernel, by decide +kernel, by decide +kernel, by decide +kernel, by decide,
    by decide +kernel, by decide +kernel, ?_⟩
  rintro ⟨bytes, found, lines, _⟩
  exact told (lines ▸ found)

end LogSieve.Session
