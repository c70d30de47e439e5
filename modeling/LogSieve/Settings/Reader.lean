import LogSieve.Json.Skipped
import LogSieve.Json.Typed
import LogSieve.Settings
/-!
# Configuration documents

A document is a JSON object that names its settings, or a JSON list that gives them
in their order and may end early. An object may hold other names, whose values are
skipped, but no setting twice, in whatever spelling.
-/
namespace LogSieve.Settings
open LogSieve.Json

def readAssignment (setting : Setting) : Reader Assignment := fun text =>
  match setting with
  | .gathers => (readBool text).map (fun read => (.gathers read.1, read.2))
  | .renamesNested => (readBool text).map (fun read => (.renamesNested read.1, read.2))
  | .alwaysAsText => (readBool text).map (fun read => (.alwaysAsText read.1, read.2))
  | .keep => (readText text).map (fun read => (.keep read.1, read.2))
  | .keepMore => (readText text).map (fun read => (.keepMore read.1, read.2))
  | .keepEmpty => (readText text).map (fun read => (.keepEmpty read.1, read.2))
  | .gatheredName => (readText text).map (fun read => (.gatheredName read.1, read.2))
  | .dotReplacement => (readText text).map (fun read => (.dotReplacement read.1, read.2))
  | .maxFields => (readInteger text).map (fun read => (.maxFields read.1, read.2))

/-- A setting named again is noticed with the white space after its key read, and the brace if the
    object ends there. -/
def repeatedFault (setting : Setting) (text : List Char) : Fault :=
  match skipSpace text with
  | [] => .before (.repeatedField setting.name) []
  | c :: rest => .before (.repeatedField setting.name) (if c = '\x7d' then rest else c :: rest)

/-- The settings that an object names, from behind its opening brace or behind a field, where those in
    `seen` have been named before. -/
def readNamed (bound : Nat) (seen : List Setting) (first : Bool) (text : List Char) :
    Except Fault (List Assignment × List Char) :=
  match bound with
  | 0 => .error (.before .endInObject text)
  | bound + 1 => do
    let (key, rest) ← nextKey first text
    match key with
    | none => .ok ([], rest)
    | some key =>
      match Setting.ofSpelling? key with
      | none =>
        let rest ← afterColon rest
        let rest ← skip rest
        readNamed bound seen false rest
      | some setting =>
        if setting ∈ seen then .error (repeatedFault setting rest)
        else
          let rest ← afterColon rest
          let (assignment, rest) ← readAssignment setting rest
          let (more, rest) ← readNamed bound (setting :: seen) false rest
          .ok (assignment :: more, rest)

/-- The end of a list that has given every setting. -/
def readListEnd : Reader (List Assignment) := fun text =>
  match skipSpace text with
  | [] => .error (.before .endInList [])
  | c :: rest =>
    if c = ']' then .ok ([], rest)
    else if c = ',' then
      match skipSpace rest with
      | [] => .error (.before .trailingCharacters [])
      | d :: rest => .error (.at (if d = ']' then .trailingComma else .trailingCharacters) (d :: rest))
    else .error (.at .trailingCharacters (c :: rest))

/-- The settings that a list gives, from behind its opening bracket or behind an item, where those in
    `left` are still to come. -/
def readListed (left : List Setting) (first : Bool) (text : List Char) :
    Except Fault (List Assignment × List Char) :=
  match left with
  | [] => readListEnd text
  | setting :: left => do
    let (more, rest) ← nextItem first text
    if more then
      let (assignment, rest) ← readAssignment setting rest
      let (later, rest) ← readListed left false rest
      .ok (assignment :: later, rest)
    else .ok ([], rest)

/-- The assignments of a document in the order of its text. -/
def readDocument : Reader (List Assignment) := fun text =>
  match skipSpace text with
  | [] => .error (.before .endInValue [])
  | c :: rest =>
    if c = '[' then readListed Setting.all true rest
    else if c = '\x7b' then readNamed (loopBound text) [] true rest
    else typeFault "struct RawConfig" (c :: rest)

def parse (text : String) : Except Json.Error Settings :=
  (readAll readDocument text.toList).map ofAssignments

end LogSieve.Settings
