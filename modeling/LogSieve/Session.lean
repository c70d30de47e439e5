import LogSieve.Feed
import LogSieve.Log
import LogSieve.Policy.Loading
/-!
# Sessions

A session holds at most one policy, which only a successful load replaces, and a log if
the environment names a file for it. Every call answers or fails, and a call that fails
leaves the policy as it was. How the filter of the log is written belongs to the library that
writes the log, so the reader of filters is an argument of the start.
-/
namespace LogSieve

structure Environment where
  config : Option String
  log : Option String
  /-- The filter of what is told, as it is written. -/
  level : Option String
deriving DecidableEq, Repr

/-- The filter that the environment asks for: of `info` and graver events, if it asks for none or for one that
    cannot be read. -/
def Environment.filter (environment : Environment) (readFilter : String → Option Filter) : Filter :=
  (environment.level.bind readFilter).getD (.ofLevel .info)

/-- What a session knows between two calls. -/
structure Session where
  policy : Option Policy
  files : Files
  log : Option Log
  /-- What the clock shows, as it is written before an event. -/
  time : String
  /-- What was said about a log that could not be opened or written. -/
  complaints : String

inductive Call where
  | loadFile (path : String)
  | loadText (text : String)
  | status
  | line (line : String)
  | lineInFull (line : String)
  | lines (lines : List String)
  | file (input output : String)
deriving DecidableEq, Repr

inductive Reply where
  | loaded
  | status (policy : Option Policy)
  | line (delivery : Delivery)
  | lineInFull (delivery : Delivery)
  | lines (deliveries : List Delivery)
  | file (records : Nat)
deriving DecidableEq, Repr

namespace Session

/-- Tells an event to the log, if there is one. -/
def tell (session : Session) (event : Event) : Session :=
  match session.log with
  | none => session
  | some log =>
    match log.tell session.time session.files event with
    | .ok files => { session with files }
    | .error fault => { session with complaints := session.complaints ++ Log.untold fault }

def tellDelivery (session : Session) (result : Except Error Delivery) : Session :=
  match result with
  | .ok delivery => session.tell (.delivered delivery)
  | .error _ => session

/-! ## Loading -/

def adopt (session : Session) (policy : Policy) : Session := { session with policy := some policy }

/-- Reads a policy from a file without replacing the one that is there. -/
def readPolicy (session : Session) (path : String) : Session × Except Error Policy :=
  let session := session.tell (.loading path)
  match Policy.ofFile session.files path with
  | .ok policy => (session.tell (.loaded policy), .ok policy)
  | .error error => (session, .error error)

def load (session : Session) (policy : Except Error Policy) : Session × Except CallError Reply :=
  match policy with
  | .ok policy => (session.adopt policy, .ok .loaded)
  | .error error => (session, .error (.failed error))

/-! ## Starting -/

/-- Opens the log that the environment names. If it cannot be opened there is none, and a complaint. -/
def openLog (session : Session) (readFilter : String → Option Filter) (environment : Environment) : Session :=
  match environment.log with
  | none => session
  | some path =>
    match session.files.openSink path with
    | .ok (place, files) => { session with files, log := some ⟨place, environment.filter readFilter⟩ }
    | .error fault =>
      { session with
        complaints := "recnorm_rs: diagnostics disabled: " ++ (Error.logFile path fault).message ++ "\n" }

/-- Loads the policy that the environment names. If it cannot be loaded there is none, and an event. -/
def loadNamed (session : Session) (environment : Environment) : Session :=
  match environment.config with
  | none => session
  | some path =>
    match session.readPolicy path with
    | (session, .ok policy) => session.adopt policy
    | (session, .error error) => session.tell (.notLoaded error)

/-- Opens the log, with the filter as it is read, and then loads the policy. -/
def startWith (readFilter : String → Option Filter) (environment : Environment) (files : Files) (time : String) :
    Session :=
  let session : Session := { policy := none, files, log := none, time, complaints := "" }
  (session.openLog readFilter environment).loadNamed environment

/-- A start with the filters that can be read here. -/
def start (environment : Environment) (files : Files) (time : String) : Session :=
  startWith Filter.ofText? environment files time

/-! ## Delivering -/

def deliverLine (session : Session) (policy : Policy) (line : String) : Session × Except CallError Delivery :=
  let result := policy.deliverLine line
  (session.tellDelivery result, result.mapError .failed)

/-- Delivers all lines and then answers with the first error among them, if there is one. -/
def deliverLines (session : Session) (policy : Policy) (lines : List String) :
    Session × Except CallError (List Delivery) :=
  let results := lines.map policy.deliverLine
  (results.foldl tellDelivery session, (results.mapM id).mapError .failed)

/-- What is added to the file at `place` when a delivery is told: nothing, unless the log is there. -/
def toldTo (session : Session) (place : Location) (delivery : Delivery) : Bytes :=
  match session.log with
  | none => []
  | some log => if log.place = place then log.addition session.time (.delivered delivery) else []

/-- Writes bytes over those at `place` from an offset on. What there is no room for is lost. -/
def overwrite (session : Session) (place : Location) (offset : Nat) (bytes : Bytes) : Session :=
  { session with files := (session.files.writeAt place offset bytes).toOption.getD session.files }

/-- Tells of every delivery and writes its text to `place`, where `offset` bytes have been written and `held`
    is in the buffer. In the end the buffer is written out. -/
def writeOut (session : Session) (place : Location) (offset : Nat) (held : Bytes) : List Delivery → Session
  | [] => session.overwrite place offset held
  | delivery :: rest =>
    let pushed := Feed.pushDelivery held delivery
    let session := (session.tell (.delivered delivery)).overwrite place offset pushed.1
    writeOut session place (offset + pushed.1.length) pushed.2 rest

/-- Delivers a file of records into another. The input is found before the output is emptied, and read
    after. -/
def deliverFile (session : Session) (policy : Policy) (input output : String) :
    Session × Except CallError Nat :=
  match session.files.openInput input with
  | .error fault => (session, .error (.file fault))
  | .ok source =>
    match session.files.openEmptied output with
    | .error fault => (session, .error (.file fault))
    | .ok (place, files) =>
      let session := { session with files }
      match files.read source with
      | .error fault => (session, .error (.file fault))
      | .ok content =>
        let noRoom := decide (files.entry? place = some .fullDevice)
        let feed := Feed.run policy noRoom [] (Feed.linesRead policy (session.toldTo source) content)
        let session := session.writeOut place 0 [] feed.deliveries
        match feed.failure with
        | some error => (session, .error error)
        | none =>
          let count := feed.deliveries.length
          (session.tell (.fileDone input count feed.textCount), .ok count)

/-- Asks the policy for something, if there is one. -/
def withPolicy {α : Type} (session : Session) (ask : Policy → Session × Except CallError α) :
    Session × Except CallError α :=
  match session.policy with
  | none => (session, .error .noPolicy)
  | some policy => ask policy

/-! ## Calls -/

def replying {α : Type} (reply : α → Reply) (answer : Session × Except CallError α) :
    Session × Except CallError Reply := (answer.1, answer.2.map reply)

def call (session : Session) : Call → Session × Except CallError Reply
  | .loadFile path =>
    let (session, policy) := session.readPolicy path
    session.load policy
  | .loadText text => session.load (Policy.ofText text)
  | .status => (session, .ok (.status session.policy))
  | .line line => replying .line (session.withPolicy (session.deliverLine · line))
  | .lineInFull line => replying .lineInFull (session.withPolicy (session.deliverLine · line))
  | .lines lines => replying .lines (session.withPolicy (session.deliverLines · lines))
  | .file input output => replying .file (session.withPolicy (session.deliverFile · input output))

/-- The text of the file that a path leads to, if there is one. -/
def fileText? (session : Session) (path : String) : Option String := (session.files.readText path).toOption

/-- The lines of the log in a file, without the times. -/
def logLines (session : Session) (path : String) : List String :=
  Log.linesWithoutTime ((session.fileText? path).getD "")

end Session
end LogSieve
