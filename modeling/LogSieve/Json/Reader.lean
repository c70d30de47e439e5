import LogSieve.Json.Numeral
import LogSieve.Json.Quoted
/-!
# Reading a value

`parse` reads a whole text as one value, with the fields of a record as they are
written. `parseOrdered` then puts them in order. Lists and records may be nested 127
deep. Loops over items and fields are bounded by the length of the whole text, of
which every round reads a part.
-/
namespace LogSieve.Json

/-- Lists and records inside each other that a reader will open. -/
def greatestDepth : Nat := 127

/-- The white space that JSON allows between its parts. -/
def isSpace (c : Char) : Bool := c == ' ' || c == '\n' || c == '\t' || c == '\r'

def skipSpace (text : List Char) : List Char := text.dropWhile isSpace

/-- The text after `word`, which is compared letter by letter. -/
def afterWord (word : List Char) (text : List Char) : Except Fault (List Char) :=
  match word, text with
  | [], rest => .ok rest
  | _ :: _, [] => .error (.before .endInValue [])
  | w :: word, c :: rest => if c = w then afterWord word rest else .error (.at .misspelledWord (c :: rest))

/-- Whether a list goes on, and the text from its next item on or after its bracket. -/
def nextItem (first : Bool) : Reader Bool := fun text =>
  match skipSpace text with
  | [] => .error (.before .endInList [])
  | c :: rest =>
    if c = ']' then .ok (false, rest)
    else if first then .ok (true, c :: rest)
    else if c = ',' then
      match skipSpace rest with
      | [] => .error (.before .endInValue [])
      | d :: rest => if d = ']' then .error (.at .trailingComma (d :: rest)) else .ok (true, d :: rest)
    else .error (.at .noCommaInList (c :: rest))

def readKey (text : List Char) : Except Fault (Option String × List Char) :=
  match text with
  | '"' :: rest => do
    let (key, rest) ← readString rest
    .ok (some (String.ofList key), rest)
  | _ => .error (.at .keyNotString text)

/-- The next key of a record and the text after it, or nothing and the text after the record's brace. -/
def nextKey (first : Bool) : Reader (Option String) := fun text =>
  match skipSpace text with
  | [] => .error (.before .endInObject [])
  | c :: rest =>
    if c = '\x7d' then .ok (none, rest)
    else if first then readKey (c :: rest)
    else if c = ',' then
      match skipSpace rest with
      | [] => .error (.before .endInValue [])
      | d :: rest => if d = '\x7d' then .error (.at .trailingComma (d :: rest)) else readKey (d :: rest)
    else .error (.at .noCommaInObject (c :: rest))

def afterColon (text : List Char) : Except Fault (List Char) :=
  match skipSpace text with
  | [] => .error (.before .endInObject [])
  | c :: rest => if c = ':' then .ok rest else .error (.at .noColon (c :: rest))

/-- The items of a list from behind its opening bracket or behind an item, fewer than `bound`. -/
def readItems (item : Reader Value) (bound : Nat) (first : Bool) (text : List Char) :
    Except Fault (List Value × List Char) :=
  match bound with
  | 0 => .error (.before .endInList text)
  | bound + 1 => do
    let (more, rest) ← nextItem first text
    if more then
      let (head, rest) ← item rest
      let (tail, rest) ← readItems item bound false rest
      .ok (head :: tail, rest)
    else .ok ([], rest)

/-- The fields of a record from behind its opening brace or behind a field, fewer than `bound`, as they
    are written. -/
def readFields (value : Reader Value) (bound : Nat) (first : Bool) (text : List Char) :
    Except Fault (List (String × Value) × List Char) :=
  match bound with
  | 0 => .error (.before .endInObject text)
  | bound + 1 => do
    let (key, rest) ← nextKey first text
    match key with
    | none => .ok ([], rest)
    | some key =>
      let rest ← afterColon rest
      let (head, rest) ← value rest
      let (tail, rest) ← readFields value bound false rest
      .ok ((key, head) :: tail, rest)

/-- A value that may open lists and records `depth` deep, with fewer than `bound` items or fields in each. -/
def readValue (bound depth : Nat) (text : List Char) : Except Fault (Value × List Char) :=
  match skipSpace text with
  | [] => .error (.before .endInValue [])
  | c :: rest =>
    if c = 'n' then (afterWord ['u', 'l', 'l'] rest).map (.null, ·)
    else if c = 't' then (afterWord ['r', 'u', 'e'] rest).map (.bool true, ·)
    else if c = 'f' then (afterWord ['a', 'l', 's', 'e'] rest).map (.bool false, ·)
    else if c = '"' then (readString rest).map (fun read => (.string (String.ofList read.1), read.2))
    else if c = '-' ∨ isDigit c then (readNumber (c :: rest)).map (fun read => (.number read.1, read.2))
    else if c = '[' then
      match depth with
      | 0 => .error (.at .tooDeep (c :: rest))
      | depth + 1 =>
        (readItems (readValue bound depth) bound true rest).map (fun read => (.array read.1, read.2))
    else if c = '\x7b' then
      match depth with
      | 0 => .error (.at .tooDeep (c :: rest))
      | depth + 1 =>
        (readFields (readValue bound depth) bound true rest).map (fun read => (.record read.1, read.2))
    else .error (.at .noValue (c :: rest))

def atEnd (text : List Char) : Except Fault Unit :=
  match skipSpace text with
  | [] => .ok ()
  | rest => .error (.at .trailingCharacters rest)

/-- What `reader` makes of the whole of a text. -/
def readAll {α : Type} (reader : Reader α) (text : List Char) : Except Error α :=
  let read : Except Fault α := do
    let (result, rest) ← reader text
    atEnd rest
    .ok result
  read.mapError (·.located text)

/-- More rounds than any loop over the text can take. -/
def loopBound (text : List Char) : Nat := text.length + 1

/-- The value that a text stands for, with the fields of its records as they are written. -/
def parse (text : String) : Except Error Value :=
  readAll (readValue (loopBound text.toList) greatestDepth) text.toList

/-- The value that a text stands for, with the fields of its records in order. -/
def parseOrdered (text : String) : Except Error Value := (parse text).map Value.ordered

end LogSieve.Json
