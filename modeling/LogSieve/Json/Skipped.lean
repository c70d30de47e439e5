import LogSieve.Json.Reader
/-!
# Running over a value

A value that nobody asked for only has to have the shape of a value: it may be nested
to any depth, a number may be of any size, and an escape need not name a character.
Where a shape is broken the cause is not always the one that `readValue` gives.
-/
namespace LogSieve.Json

/-- The text after the items of a list, from behind its opening bracket or behind an item. -/
def skipItems (item : List Char → Except Fault (List Char)) (bound : Nat) (first : Bool) (text : List Char) :
    Except Fault (List Char) :=
  match bound with
  | 0 => .error (.before .endInList text)
  | bound + 1 =>
    match skipSpace text with
    | [] => .error (.before .endInList [])
    | c :: rest =>
      if c = ']' then .ok rest
      else if first then item (c :: rest) >>= skipItems item bound false
      else if c = ',' then item rest >>= skipItems item bound false
      else .error (.at .noCommaInList (c :: rest))

def skipKey (text : List Char) : Except Fault (List Char) :=
  match skipSpace text with
  | [] => .error (.before .endInObject [])
  | c :: rest => if c = '"' then skipString rest >>= afterColon else .error (.at .keyNotString (c :: rest))

/-- The text after the fields of a record, from behind its opening brace or behind a field. -/
def skipFields (value : List Char → Except Fault (List Char)) (bound : Nat) (first : Bool)
    (text : List Char) : Except Fault (List Char) :=
  match bound with
  | 0 => .error (.before .endInObject text)
  | bound + 1 =>
    match skipSpace text with
    | [] => .error (.before .endInObject [])
    | c :: rest =>
      if c = '\x7d' then .ok rest
      else if first then skipKey (c :: rest) >>= value >>= skipFields value bound false
      else if c = ',' then skipKey rest >>= value >>= skipFields value bound false
      else .error (.at .noCommaInObject (c :: rest))

/-- The text after a value that opens lists and records less than `depth` deep, with fewer than `bound`
    items or fields in each. -/
def skipValue (bound depth : Nat) (text : List Char) : Except Fault (List Char) :=
  match skipSpace text with
  | [] => .error (.before .endInValue [])
  | c :: rest =>
    if c = 'n' then afterWord ['u', 'l', 'l'] rest
    else if c = 't' then afterWord ['r', 'u', 'e'] rest
    else if c = 'f' then afterWord ['a', 'l', 's', 'e'] rest
    else if c = '"' then skipString rest
    else if c = '-' ∨ isDigit c then skipNumeral (c :: rest)
    else if c = '[' then
      match depth with
      | 0 => .error (.at .tooDeep (c :: rest))
      | depth + 1 => skipItems (skipValue bound depth) bound true rest
    else if c = '\x7b' then
      match depth with
      | 0 => .error (.at .tooDeep (c :: rest))
      | depth + 1 => skipFields (skipValue bound depth) bound true rest
    else .error (.at .noValue (c :: rest))

def skip (text : List Char) : Except Fault (List Char) := skipValue (loopBound text) (loopBound text) text

end LogSieve.Json
