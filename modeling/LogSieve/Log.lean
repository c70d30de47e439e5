import LogSieve.Files
import LogSieve.Filter
/-!
# The log

A log holds the events that its filter lets through, one to a line behind the time.
-/
namespace LogSieve

structure Log where
  place : Location
  filter : Filter

namespace Log

/-- What an event adds to the log: its line behind the time, or nothing if the filter holds it back. -/
def addition (log : Log) (time : String) (event : Event) : Bytes :=
  if log.filter.passes event then Files.encode (time ++ " " ++ event.line ++ "\n") else []

def tell (log : Log) (time : String) (files : Files) (event : Event) : Except FileFault Files :=
  files.append log.place (log.addition time event)

/-- What is said of an event that could not be written. -/
def untold (fault : FileFault) : String :=
  "[tracing-subscriber] Unable to write an event to the Writer for this Subscriber! Error: " ++ fault.message
    ++ "\n\n"

/-- Opens a log in a file, which is created if it is not there, writes to its end and reads all of it. -/
def writeTo (files : Files) (path text : String) : Except Error (Files × String) := do
  let (place, files) ← (files.openSink path).mapError (.logFile path)
  let files ← (files.append place (Files.encode text)).mapError (.logFile path)
  .ok (files, (files.readText path).toOption.getD "")

/-- A line without the word in front of it. -/
def withoutTime (line : List Char) : List Char :=
  if ' ' ∈ line then (line.dropWhile (· ≠ ' ')).drop 1 else line

/-- The lines of a log without the times in front of them. -/
def linesWithoutTime (text : String) : List String :=
  let pieces := Text.segments '\n' text.toList
  let lines := if pieces.getLast? = some [] then pieces.dropLast else pieces
  lines.map (fun line => String.ofList (withoutTime line))

end Log
end LogSieve
