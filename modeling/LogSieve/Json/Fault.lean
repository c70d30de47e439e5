/-!
# What can be wrong with a JSON text

A fault has a cause and a place. While reading, the place is the number of bytes
of the text that are still unread, which is all that a reader of the rest knows;
`Fault.located` turns it into a line and a column of the whole text. Columns count
bytes.
-/
namespace LogSieve.Json

/-- Why a text is not the JSON value that was looked for. -/
inductive Cause where
  | endInValue
  | endInList
  | endInObject
  | endInString
  | noValue
  | misspelledWord
  | noColon
  | noCommaInList
  | noCommaInObject
  | keyNotString
  | trailingComma
  | trailingCharacters
  | tooDeep
  | controlCharacter
  | unknownEscape
  | loneSurrogate
  | cutSurrogatePair
  | malformedNumber
  | numberTooLarge
  /-- A value of another type than the one wanted; both are described in words. -/
  | otherType (found wanted : String)
  /-- A value of the wanted type beyond its range. -/
  | beyondRange (found wanted : String)
  | repeatedField (name : String)
deriving DecidableEq, Repr

def Cause.message : Cause → String
  | .endInValue => "EOF while parsing a value"
  | .endInList => "EOF while parsing a list"
  | .endInObject => "EOF while parsing an object"
  | .endInString => "EOF while parsing a string"
  | .noValue => "expected value"
  | .misspelledWord => "expected ident"
  | .noColon => "expected `:`"
  | .noCommaInList => "expected `,` or `]`"
  | .noCommaInObject => "expected `,` or `\x7d`"
  | .keyNotString => "key must be a string"
  | .trailingComma => "trailing comma"
  | .trailingCharacters => "trailing characters"
  | .tooDeep => "recursion limit exceeded"
  | .controlCharacter => "control character (\\u0000-\\u001F) found while parsing a string"
  | .unknownEscape => "invalid escape"
  | .loneSurrogate => "lone leading surrogate in hex escape"
  | .cutSurrogatePair => "unexpected end of hex escape"
  | .malformedNumber => "invalid number"
  | .numberTooLarge => "number out of range"
  | .otherType found wanted => "invalid type: " ++ found ++ ", expected " ++ wanted
  | .beyondRange found wanted => "invalid value: " ++ found ++ ", expected " ++ wanted
  | .repeatedField name => "duplicate field `" ++ name ++ "`"

/-- A cause, and the number of bytes left unread where it was noticed. -/
structure Fault where
  cause : Cause
  unread : Nat
deriving DecidableEq, Repr

def byteCount (text : List Char) : Nat := text.foldl (fun n c => n + c.utf8Size) 0

/-- A fault noticed with all of `rest` unread. -/
def Fault.before (cause : Cause) (rest : List Char) : Fault := ⟨cause, byteCount rest⟩

/-- A fault noticed at the first byte of `rest`, which counts as read. At the end of the text
    there is no such byte. -/
def Fault.at (cause : Cause) (rest : List Char) : Fault := ⟨cause, byteCount rest - 1⟩

/-- A place in a text: its line, from 1, and the number of bytes before it on that line. -/
structure Position where
  line : Nat
  column : Nat
deriving DecidableEq, Repr

/-- The place `count` bytes further on in `text`, a character of several bytes included. -/
def Position.advance (place : Position) : (count : Nat) → (text : List Char) → Position
  | _, [] => place
  | count, c :: rest =>
    if count < c.utf8Size then ⟨place.line, place.column + count⟩
    else if c = '\n' then advance ⟨place.line + 1, 0⟩ (count - 1) rest
    else advance ⟨place.line, place.column + c.utf8Size⟩ (count - c.utf8Size) rest

/-- The place after the first `count` bytes of `text`. -/
def Position.after (text : List Char) (count : Nat) : Position := Position.advance ⟨1, 0⟩ count text

structure Error where
  cause : Cause
  position : Position
deriving DecidableEq, Repr

def Fault.located (fault : Fault) (text : List Char) : Error :=
  ⟨fault.cause, Position.after text (byteCount text - fault.unread)⟩

def Error.message (error : Error) : String :=
  error.cause.message ++ " at line " ++ toString error.position.line ++
    " column " ++ toString error.position.column

/-- What can keep a record from being written. Nothing can: the names of its fields are texts, a number that is
    not finite does not occur, and a text has room for all that is written to it. -/
inductive WriteFault where
deriving DecidableEq, Repr

def WriteFault.message : WriteFault → String := nofun

/-- Reads something from the front of a text and gives back the rest. -/
abbrev Reader (α : Type) := List Char → Except Fault (α × List Char)

end LogSieve.Json
