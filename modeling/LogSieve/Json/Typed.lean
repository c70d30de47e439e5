import LogSieve.Json.Printer
import LogSieve.Json.Reader
import LogSieve.Text.Quotation
/-!
# Reading a value of a wanted type

A value of another type is described in words. It is read first, so that what is
wrong with its own text is noticed before its type is; only lists and records are
left unopened.
-/
namespace LogSieve.Json

def describeInteger (n : Int) : String := "integer `" ++ String.ofList (writeInt n) ++ "`"

def describeNumber : Number → String
  | .integer n => describeInteger n
  | .float x => "floating point `" ++ String.ofList (writeFloat x) ++ "`"

/-- The value at the front of a text in words. -/
def describeValue : Reader String := fun text =>
  match text with
  | [] => .error (.before .endInValue [])
  | c :: rest =>
    if c = 'n' then (afterWord ['u', 'l', 'l'] rest).map ("null", ·)
    else if c = 't' then (afterWord ['r', 'u', 'e'] rest).map ("boolean `true`", ·)
    else if c = 'f' then (afterWord ['a', 'l', 's', 'e'] rest).map ("boolean `false`", ·)
    else if c = '"' then
      (readString rest).map (fun read => ("string " ++ Text.quotation (String.ofList read.1), read.2))
    else if c = '-' ∨ isDigit c then
      (readNumber (c :: rest)).map (fun read => (describeNumber read.1, read.2))
    else if c = '[' then .ok ("sequence", c :: rest)
    else if c = '\x7b' then .ok ("map", c :: rest)
    else .error (.at .noValue (c :: rest))

/-- What is wrong with a text that begins with no value of the wanted type. -/
def typeFault {α : Type} (wanted : String) (text : List Char) : Except Fault α :=
  describeValue text >>= fun read => .error (.before (.otherType read.1 wanted) read.2)

def readBool : Reader Bool := fun text =>
  match skipSpace text with
  | [] => .error (.before .endInValue [])
  | c :: rest =>
    if c = 't' then (afterWord ['r', 'u', 'e'] rest).map (true, ·)
    else if c = 'f' then (afterWord ['a', 'l', 's', 'e'] rest).map (false, ·)
    else typeFault "a boolean" (c :: rest)

def readText : Reader String := fun text =>
  match skipSpace text with
  | [] => .error (.before .endInValue [])
  | c :: rest =>
    if c = '"' then (readString rest).map (fun read => (String.ofList read.1, read.2))
    else typeFault "a string" (c :: rest)

/-- A whole number of 64 bits with a sign. -/
def readInteger : Reader Int := fun text =>
  match skipSpace text with
  | [] => .error (.before .endInValue [])
  | c :: rest =>
    if c = '-' ∨ isDigit c then do
      let (number, rest) ← readNumber (c :: rest)
      match number with
      | .integer n =>
        if n < signedLimit then .ok (n, rest) else .error (.before (.beyondRange (describeInteger n) "i64") rest)
      | .float x => .error (.before (.otherType (describeNumber (.float x)) "i64") rest)
    else typeFault "i64" (c :: rest)

end LogSieve.Json
