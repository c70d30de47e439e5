import LogSieve.Proofs.FileDelivery
/-!
# What a file of records is answered with

The answer is exact whatever the files are and wherever the log is (`answersFile`): the first
fault of finding the input, opening the output and reading the input, and otherwise what the
lines come to that are read. These are the lines of the input as it is once the output has
been emptied, unless deliveries are told in it meanwhile (`outcomesRead_of_spares`).
-/
namespace LogSieve.Session
variable {session : Session} {policy : Policy} {input output : String} {source target : Location} {files : Files}
  {content : Bytes}

/-- The answer that a feed comes to. -/
def feedAnswer (feed : Feed) : Except CallError Reply :=
  match feed.failure with
  | some error => .error error
  | none => .ok (.file feed.deliveries.length)

/-- What the lines are delivered as that come to be read from a file at `source`. -/
def outcomesRead (session : Session) (policy : Policy) (source : Location) (content : Bytes) :
    List (Except CallError Delivery) :=
  Feed.lineOutcomes policy (Feed.linesRead policy (session.toldTo source) content)

/-- If no delivery is told in the file, its own lines come to be read. -/
theorem outcomesRead_of_spares (spared : ∀ delivery, session.Spares source (.delivered delivery))
    (policy : Policy) (content : Bytes) :
    session.outcomesRead policy source content = Feed.outcomes policy content := by
  rw [outcomesRead, toldTo_of_spares spared, Feed.linesRead_of_silent, Feed.lineOutcomes_split]

/-- What a file of records is answered with. The input is found, the output is opened and emptied, and then the
    input is read; the first fault in this is the answer. If there is none, the answer is what the lines come to
    that are read, and where there is no room to write them, what that comes to without room. -/
structure AnswersFile (session : Session) (policy : Policy) (input output : String) : Prop where
  unfound {fault : FileFault} (missing : session.files.openInput input = .error fault) :
    (session.call (.file input output)).2 = .error (.file fault)
  unopened {source : Location} {fault : FileFault} (found : session.files.openInput input = .ok source)
      (closed : session.files.openEmptied output = .error fault) :
    (session.call (.file input output)).2 = .error (.file fault)
  unread {source target : Location} {files : Files} {fault : FileFault}
      (found : session.files.openInput input = .ok source)
      (opened : session.files.openEmptied output = .ok (target, files))
      (unreadable : files.read source = .error fault) :
    (session.call (.file input output)).2 = .error (.file fault)
  delivered {source target : Location} {files : Files} {content : Bytes}
      (found : session.files.openInput input = .ok source)
      (opened : session.files.openEmptied output = .ok (target, files))
      (holds : files.read source = .ok content) (room : files.entry? target ≠ some .fullDevice) :
    (session.call (.file input output)).2 = feedAnswer (Feed.upTo (session.outcomesRead policy source content))
  withoutRoom {source target : Location} {files : Files} {content : Bytes}
      (found : session.files.openInput input = .ok source)
      (opened : session.files.openEmptied output = .ok (target, files))
      (holds : files.read source = .ok content) (full : files.entry? target = some .fullDevice) :
    (session.call (.file input output)).2 =
      feedAnswer (Feed.upTo (session.outcomesRead policy source content)).withoutRoom

theorem answer_file (loaded : session.policy = some policy) (input output : String) :
    (session.call (.file input output)).2 = (session.deliverFile policy input output).2.map .file := by
  simp only [call, withPolicy, loaded, replying]

theorem answer_deliverFile (found : session.files.openInput input = .ok source)
    (opened : session.files.openEmptied output = .ok (target, files)) (holds : files.read source = .ok content)
    (policy : Policy) :
    (session.deliverFile policy input output).2.map .file =
      feedAnswer (Feed.run policy (files.entry? target = some .fullDevice) []
        (Feed.linesRead policy (session.toldTo source) content)) := by
  have same : ({ session with files } : Session).toldTo source = session.toldTo source := rfl
  simp only [deliverFile, found, opened, holds, same]
  rcases Feed.run policy _ _ _ with ⟨deliveries, failure⟩
  cases failure <;> rfl

theorem feedAnswer_run_noRoom (policy : Policy) (lines : List Bytes) :
    feedAnswer (Feed.run policy true [] lines) =
      feedAnswer (Feed.upTo (Feed.lineOutcomes policy lines)).withoutRoom := by
  have failure := Feed.failure_run_noRoom policy lines
  rcases Feed.run_cases policy true [] lines with feed | ⟨_, full⟩
  · rw [feed] at failure ⊢
    simp only [feedAnswer, ← failure]
    rfl
  · rw [full] at failure
    simp only [feedAnswer, full, ← failure]

theorem answersFile (loaded : session.policy = some policy) (input output : String) :
    session.AnswersFile policy input output where
  unfound missing := by
    simp [answer_file loaded, deliverFile, missing, Except.map]
  unopened found closed := by
    simp [answer_file loaded, deliverFile, found, closed, Except.map]
  unread found opened unreadable := by
    simp [answer_file loaded, deliverFile, found, opened, unreadable, Except.map]
  delivered found opened holds room := by
    rw [answer_file loaded, answer_deliverFile found opened holds, decide_eq_false room, Feed.run_eq, outcomesRead]
  withoutRoom found opened holds full := by
    rw [answer_file loaded, answer_deliverFile found opened holds, decide_eq_true full, feedAnswer_run_noRoom,
      outcomesRead]

end LogSieve.Session
