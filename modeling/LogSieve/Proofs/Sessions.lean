import LogSieve.Proofs.FileAnswers
import Mathlib.Data.List.Forall2
/-!
# Sessions through their calls

What one call leaves of the policy is settled first (`policy_call`): the policy that it loads,
if it loads one, and otherwise the one that was there. From this a session holds, whatever
calls it has gone through, the policy of the latest load that succeeded, and answers by it
(`policy_run`).
-/
namespace LogSieve

/-- The calls that can replace the policy. -/
def Call.Loads : Call → Prop
  | .loadFile _ | .loadText _ => True
  | .status | .line _ | .lineInFull _ | .lines _ | .file _ _ => False

/-- The calls that need a policy. -/
def Call.Delivers : Call → Prop
  | .line _ | .lineInFull _ | .lines _ | .file _ _ => True
  | .loadFile _ | .loadText _ | .status => False

namespace Session
variable {session : Session} {policy : Policy}

/-! ## Loads -/

/-- The policy in a file, if there is one; the log is told before the file is read. -/
def filePolicy? (session : Session) (path : String) : Option Policy :=
  (Policy.ofFile (session.tell (.loading path)).files path).toOption

/-- The policy that a call loads: nothing if it is no load or fails. -/
def loaded? (session : Session) : Call → Option Policy
  | .loadFile path => session.filePolicy? path
  | .loadText text => (Policy.ofText text).toOption
  | .status | .line _ | .lineInFull _ | .lines _ | .file _ _ => none

theorem loaded?_eq_none (session : Session) {call : Call} (other : ¬ call.Loads) :
    session.loaded? call = none := by
  cases call <;> first | rfl | exact absurd trivial other

theorem readPolicy_cases (session : Session) (path : String) :
    (session.readPolicy path).1.policy = session.policy ∧
      (session.readPolicy path).2.toOption = session.filePolicy? path := by
  rw [readPolicy, filePolicy?]
  cases Policy.ofFile (session.tell (.loading path)).files path with
  | error error => simp [Except.toOption]
  | ok policy => simp [Except.toOption]

theorem load_cases (session : Session) (policy : Except Error Policy) :
    (session.load policy).1.policy = policy.toOption.or session.policy ∧
      ((session.load policy).2 = .ok .loaded ↔ policy.toOption.isSome) := by
  cases policy <;> simp [load, adopt, Except.toOption]

/-! ## What a call leaves -/

@[simp] theorem policy_tellDelivery (session : Session) (result : Except Error Delivery) :
    (session.tellDelivery result).policy = session.policy := by
  cases result <;> simp [tellDelivery]

theorem policy_withPolicy {α : Type} (ask : Policy → Session × Except CallError α)
    (kept : ∀ policy, (ask policy).1.policy = session.policy) :
    (session.withPolicy ask).1.policy = session.policy := by
  cases loaded : session.policy with
  | none => simp [withPolicy, loaded]
  | some policy => simpa [withPolicy, loaded] using kept policy

theorem policy_deliverLines (session : Session) (policy : Policy) (lines : List String) :
    (session.deliverLines policy lines).1.policy = session.policy := by
  rw [deliverLines]
  generalize lines.map policy.deliverLine = results
  induction results generalizing session with
  | nil => rfl
  | cons result rest ih => simpa using ih (session.tellDelivery result)

theorem policy_deliverFile (session : Session) (policy : Policy) (input output : String) :
    (session.deliverFile policy input output).1.policy = session.policy := by
  unfold deliverFile
  split
  · rfl
  · split
    · rfl
    · simp only
      split
      · rfl
      · split <;> simp

/-- Asking the policy for something loads none. -/
theorem replying_cases {α : Type} (reply : α → Reply) {ask : Policy → Session × Except CallError α}
    (kept : ∀ policy, (ask policy).1.policy = session.policy) (other : ∀ result, reply result ≠ .loaded) :
    (replying reply (session.withPolicy ask)).1.policy = (none : Option Policy).or session.policy ∧
      ((replying reply (session.withPolicy ask)).2 = .ok .loaded ↔ (none : Option Policy).isSome) := by
  refine ⟨policy_withPolicy ask kept, fun loaded => ?_, fun some => by cases some⟩
  obtain ⟨result, _, same⟩ := map_eq_ok_iff.1 loaded
  exact absurd same (other result)

/-- A call leaves the policy that it loads, or else the one that was there; it answers that it has loaded one
    exactly then. -/
theorem policy_call (session : Session) (call : Call) :
    (session.call call).1.policy = (session.loaded? call).or session.policy ∧
      ((session.call call).2 = .ok .loaded ↔ (session.loaded? call).isSome) := by
  cases call with
  | loadFile path =>
    obtain ⟨kept, read⟩ := readPolicy_cases session path
    have left := load_cases (session.readPolicy path).1 (session.readPolicy path).2
    rwa [kept, read] at left
  | loadText text => exact load_cases session (Policy.ofText text)
  | status => simp [Session.call, loaded?]
  | line line => exact replying_cases .line (fun policy => policy_tellDelivery ..) (by simp)
  | lineInFull line => exact replying_cases .lineInFull (fun policy => policy_tellDelivery ..) (by simp)
  | lines lines => exact replying_cases .lines (policy_deliverLines session · lines) (by simp)
  | file input output => exact replying_cases .file (policy_deliverFile session · input output) (by simp)

/-- A call that fails leaves the policy as it was. -/
theorem policy_call_of_error {call : Call} {error : CallError} (failed : (session.call call).2 = .error error) :
    (session.call call).1.policy = session.policy := by
  obtain ⟨left, loads⟩ := policy_call session call
  cases loaded : session.loaded? call with
  | none => rw [left, loaded, Option.none_or]
  | some policy =>
    rw [loaded, failed] at loads
    exact absurd (loads.2 rfl) (by simp)

/-! ## What a session has loaded -/

def atTime (session : Session) (time : String) : Session := { session with time }

/-- A session goes through calls, each of them at the time that the clock shows then. -/
def run (session : Session) : List (String × Call) → Session
  | [] => session
  | (time, call) :: rest => run ((session.atTime time).call call).1 rest

/-- The policies that are loaded on the way, in order. -/
def loads (session : Session) : List (String × Call) → List Policy
  | [] => []
  | (time, call) :: rest =>
    ((session.atTime time).loaded? call).toList ++ loads ((session.atTime time).call call).1 rest

theorem policy_run_eq (session : Session) (calls : List (String × Call)) :
    (session.run calls).policy = (session.policy.toList ++ session.loads calls).getLast? := by
  induction calls generalizing session with
  | nil => cases loaded : session.policy <;> simp [run, loads, loaded]
  | cons entry rest ih =>
    obtain ⟨time, call⟩ := entry
    rw [run, loads, ih, (policy_call (session.atTime time) call).1]
    cases (session.atTime time).loaded? call with
    | none => rfl
    | some policy => cases session.policy <;> simp

/-- The policy of the file that the environment names, as it is when the log is open. -/
def preload (readFilter : String → Option Filter) (environment : Environment) (files : Files) (time : String) :
    Option Policy :=
  let session : Session := { policy := none, files, log := none, time, complaints := "" }
  environment.config.bind (session.openLog readFilter environment).filePolicy?

theorem policy_openLog (session : Session) (readFilter : String → Option Filter) (environment : Environment) :
    (session.openLog readFilter environment).policy = session.policy := by
  unfold openLog
  split
  · rfl
  · split <;> rfl

theorem policy_loadNamed (session : Session) (environment : Environment) :
    (session.loadNamed environment).policy =
      (environment.config.bind session.filePolicy?).or session.policy := by
  unfold loadNamed
  cases environment.config with
  | none => rfl
  | some path =>
    obtain ⟨kept, read⟩ := readPolicy_cases session path
    rw [Option.bind_some, ← read]
    rcases answer : session.readPolicy path with ⟨after, error | policy⟩
    · rw [answer] at kept
      simpa [answer, Except.toOption] using kept
    · simp [answer, adopt, Except.toOption]

theorem policy_startWith (readFilter : String → Option Filter) (environment : Environment) (files : Files)
    (time : String) :
    (startWith readFilter environment files time).policy = preload readFilter environment files time := by
  rw [startWith, policy_loadNamed, policy_openLog, Option.or_none]
  rfl

/-! ## Answers -/

/-- The calls that deliver answer by the policy: both ways of delivering a line alike, several lines as each of
    them by itself or with the error of the first that fails, and a file as the lines that are read from it,
    which are its own if nothing is told in it meanwhile. -/
structure AnswersBy (session : Session) (policy : Policy) : Prop where
  line (line : String) :
    (session.call (.line line)).2 = ((policy.deliverLine line).mapError .failed).map .line
  lineInFull (line : String) :
    (session.call (.lineInFull line)).2 = ((policy.deliverLine line).mapError .failed).map .lineInFull
  lines (lines : List String) (deliveries : List Delivery) :
    (session.call (.lines lines)).2 = .ok (.lines deliveries) ↔
      List.Forall₂ (fun line delivery => (session.call (.lineInFull line)).2 = .ok (.lineInFull delivery))
        lines deliveries
  firstFailing (before : List String) (line : String) (after : List String) (deliveries : List Delivery)
      (error : CallError)
      (accepted : List.Forall₂ (fun line delivery =>
        (session.call (.lineInFull line)).2 = .ok (.lineInFull delivery)) before deliveries)
      (refused : (session.call (.lineInFull line)).2 = .error error) :
    (session.call (.lines (before ++ line :: after))).2 = .error error
  file (input output : String) : session.AnswersFile policy input output
  ownLines {source : Location} (spared : ∀ delivery, session.Spares source (.delivered delivery)) (content : Bytes) :
    session.outcomesRead policy source content = Feed.outcomes policy content
  clearFile {input output : String} {source target : Location} {content : Bytes}
      (clear : session.Clears input output source target content) :
    (session.call (.file input output)).2 = feedAnswer (Feed.upTo (Feed.outcomes policy content))

theorem answer_lineInFull (loaded : session.policy = some policy) (line : String) :
    (session.call (.lineInFull line)).2 = ((policy.deliverLine line).mapError .failed).map .lineInFull := by
  simp only [call, withPolicy, loaded, replying, deliverLine]

theorem answer_lineInFull_eq_ok_iff (loaded : session.policy = some policy) {line : String} {delivery : Delivery} :
    (session.call (.lineInFull line)).2 = .ok (.lineInFull delivery) ↔
      policy.deliverLine line = .ok delivery := by
  rw [answer_lineInFull loaded]
  cases policy.deliverLine line <;> simp [Except.map]

theorem answer_lineInFull_eq_error_iff (loaded : session.policy = some policy) {line : String}
    {error : CallError} :
    (session.call (.lineInFull line)).2 = .error error ↔
      ∃ refusal, policy.deliverLine line = .error refusal ∧ .failed refusal = error := by
  rw [answer_lineInFull loaded]
  cases policy.deliverLine line <;> simp [Except.map]

/-- Each of the lines is delivered by itself, in their order. -/
theorem forall₂_answers_iff (loaded : session.policy = some policy) {lines : List String}
    {deliveries : List Delivery} :
    List.Forall₂ (fun line delivery => (session.call (.lineInFull line)).2 = .ok (.lineInFull delivery))
      lines deliveries ↔ lines.map policy.deliverLine = deliveries.map .ok := by
  simp only [answer_lineInFull_eq_ok_iff loaded]
  rw [← List.forall₂_eq_eq_eq, List.forall₂_map_left_iff, List.forall₂_map_right_iff]

theorem answer_lines (loaded : session.policy = some policy) (lines : List String) :
    (session.call (.lines lines)).2 = (((lines.map policy.deliverLine).mapM id).mapError .failed).map .lines := by
  simp only [call, withPolicy, loaded, replying, deliverLines]

theorem answersBy (loaded : session.policy = some policy) : session.AnswersBy policy where
  line line := by simp only [call, withPolicy, loaded, replying, deliverLine]
  lineInFull := answer_lineInFull loaded
  lines lines deliveries := by
    rw [forall₂_answers_iff loaded, ← mapM_id_eq_ok_iff, answer_lines loaded]
    cases (lines.map policy.deliverLine).mapM id <;> simp [Except.map]
  firstFailing before line after deliveries error accepted refused := by
    rw [forall₂_answers_iff loaded] at accepted
    obtain ⟨refusal, refuses, rfl⟩ := (answer_lineInFull_eq_error_iff loaded).1 refused
    rw [answer_lines loaded, List.map_append, List.map_cons, accepted, refuses, mapM_id_of_error]
    rfl
  file := answersFile loaded
  ownLines spared content := outcomesRead_of_spares spared policy content
  clearFile {input output source target content} clear := by
    obtain ⟨files, opened, holds, empty⟩ := clear.emptied_apart
    rw [(answersFile loaded input output).delivered clear.opened opened holds (by simp [empty]),
      outcomesRead_of_spares clear.sourceSpared]

theorem call_of_no_policy (unloaded : session.policy = none) {call : Call} (delivers : call.Delivers) :
    session.call call = (session, .error .noPolicy) := by
  cases call with
  | loadFile path => exact delivers.elim
  | loadText text => exact delivers.elim
  | status => exact delivers.elim
  | line line => simp [Session.call, withPolicy, unloaded, replying, Except.map]
  | lineInFull line => simp [Session.call, withPolicy, unloaded, replying, Except.map]
  | lines lines => simp [Session.call, withPolicy, unloaded, replying, Except.map]
  | file input output => simp [Session.call, withPolicy, unloaded, replying, Except.map]

/-! ## Runs -/

/-- Whatever calls a session has gone through, and whatever filter its log has, its policy is that of the latest
    load that succeeded, of which the first is that of the file that the environment names, and there is none if
    none did. Calls that fail and calls that are no loads leave it, and those that deliver answer by it. -/
theorem policy_run (readFilter : String → Option Filter) (environment : Environment) (files : Files) (time : String)
    (calls : List (String × Call)) (now : String) :
    let started := startWith readFilter environment files time
    let session := (started.run calls).atTime now
    session.policy = ((preload readFilter environment files time).toList ++ started.loads calls).getLast? ∧
      (∀ call, (session.call call).2 = .ok .loaded ↔ (session.loaded? call).isSome) ∧
      (∀ call error, (session.call call).2 = .error error → (session.call call).1.policy = session.policy) ∧
      (∀ call : Call, ¬ call.Loads → (session.call call).1.policy = session.policy) ∧
      (session.policy = none → ∀ call : Call, call.Delivers → session.call call = (session, .error .noPolicy)) ∧
      ∀ policy, session.policy = some policy → session.AnswersBy policy := by
  intro started session
  refine ⟨?_, fun call => (policy_call session call).2, fun call error => policy_call_of_error, ?_,
    fun unloaded call => call_of_no_policy unloaded, fun policy => answersBy⟩
  · exact (policy_run_eq started calls).trans (by rw [policy_startWith])
  · intro call other
    rw [(policy_call session call).1, loaded?_eq_none session other, Option.none_or]

/-- An environment that names a file of settings which are all as by default. -/
def namingConfig : Environment := ⟨some "config", none, none⟩

/-- An environment that names the same file for the log, which is to tell what this filter lets through. -/
def loggingToConfig (filter : String) : Environment := ⟨some "config", some "config", some filter⟩

def withConfig : Files := Files.ofWorkingDirectory [(["config"], .file (Files.encode "\x7b\x7d"))]

/-- A load that succeeds between two that fail. -/
def threeLoads : List (String × Call) :=
  [("t", .loadText "["), ("u", .loadText "\x7b\"useUndefined\":true,\"defaultKeepFields\":\"b\"\x7d"),
    ("v", .loadFile "other")]

/-- The policy of the load that succeeds. -/
def keepingPolicy : Policy := { Policy.initial with gathers := true, keep := ["b"] }

def afterLoads (environment : Environment) (count : Nat) : Session :=
  ((start environment withConfig "s").run (threeLoads.take count)).atTime "w"

theorem policy_run_three_loads :
    (afterLoads namingConfig 1).policy = some .initial ∧
      (afterLoads namingConfig 3).policy = some keepingPolicy ∧
      ((afterLoads namingConfig 3).call (.loadFile "other")).1.policy = some keepingPolicy ∧
      ((afterLoads namingConfig 3).call .status).1.policy = some keepingPolicy ∧
      ((afterLoads namingConfig 3).call (.lines ["\x7b\"a\":true\x7d", "\x7b\"b\":true\x7d"])).2 =
        .ok (.lines [⟨[("undefined", .record [("a", .bool true)])], true, 1, false⟩,
          ⟨[("b", .bool true)], false, 0, false⟩]) ∧
      ((afterLoads namingConfig 3).call (.lines ["\x7b\x7d", "[]", "["])).2 = .error (.failed .notARecord) ∧
      ((afterLoads namingConfig 3).call (.file "config" "out")).2 = .ok (.file 1) ∧
      ((afterLoads namingConfig 3).call (.file "config" "config")).2 = .ok (.file 0) ∧
      ((afterLoads namingConfig 3).call (.file "config" "/dev/full")).2 = .error (.file .noSpace) ∧
      (afterLoads ⟨none, none, none⟩ 1).call (.line "\x7b\x7d") =
        (afterLoads ⟨none, none, none⟩ 1, .error .noPolicy) ∧
      (afterLoads (loggingToConfig "warn,recnorm_core=info") 0).policy = none ∧
      (afterLoads (loggingToConfig "info,recnorm_core=warn") 0).policy = some .initial := by
  have run (environment : Environment) (count : Nat) :=
    policy_run Filter.ofText? environment withConfig "s" (threeLoads.take count) "w"
  have policy : (afterLoads namingConfig 3).policy = some keepingPolicy :=
    (run namingConfig 3).1.trans (by decide +kernel)
  have unloaded : (afterLoads ⟨none, none, none⟩ 1).policy = none :=
    (run ⟨none, none, none⟩ 1).1.trans (by decide +kernel)
  obtain ⟨_, _, failed, other, _, answers⟩ := run namingConfig 3
  have answers : (afterLoads namingConfig 3).AnswersBy keepingPolicy := answers keepingPolicy policy
  have failing : ((afterLoads namingConfig 3).call (.loadFile "other")).2 =
      .error (.failed (.configFile "other" .notFound)) := by decide +kernel
  let files := (afterLoads namingConfig 3).files
  let place (name : String) : Location := workingDirectory ++ [name]
  have found : files.openInput "config" = .ok (place "config") := by decide +kernel
  have out : files.openEmptied "out" = .ok (place "out", files.store (place "out") []) := by decide +kernel
  have itself : files.openEmptied "config" = .ok (place "config", files.store (place "config") []) := by decide +kernel
  have full : files.openEmptied "/dev/full" = .ok (["dev", "full"], files) := by decide +kernel
  have content : files.read (place "config") = .ok (Files.encode "\x7b\x7d") := by decide +kernel
  have apart : (files.store (place "out") []).read (place "config") = .ok (Files.encode "\x7b\x7d") := by
    decide +kernel
  have nothing : (files.store (place "config") []).read (place "config") = .ok [] := by decide +kernel
  have refused := (run ⟨none, none, none⟩ 1).2.2.2.2.1 unloaded (.line "\x7b\x7d") trivial
  have preloaded (filter : String) := (run (loggingToConfig filter) 0).1
  refine ⟨(run namingConfig 1).1.trans (by decide +kernel), policy, (failed _ _ failing).trans policy,
    (other .status id).trans policy, ?_, ?_, ?_, ?_, ?_, refused, (preloaded _).trans (by decide +kernel),
    (preloaded _).trans (by decide +kernel)⟩
  · exact (answers.lines _ _).2 (.cons (by decide +kernel) (.cons (by decide +kernel) .nil))
  · exact answers.firstFailing ["\x7b\x7d"] "[]" ["["] [⟨[], false, 0, false⟩] _ (.cons (by decide +kernel) .nil)
      (by decide +kernel)
  · exact ((answers.file _ _).delivered found out apart (by decide +kernel)).trans (by decide +kernel)
  · exact ((answers.file _ _).delivered found itself nothing (by decide +kernel)).trans (by decide +kernel)
  · exact ((answers.file _ _).withoutRoom found full content (by decide +kernel)).trans (by decide +kernel)

end Session
end LogSieve
