import LogSieve.Files
import LogSieve.Text.Blank
/-!
# Lines

A file of lines: a line feed ends a line, and a carriage return right before it
belongs to the end too. What follows the last line feed is a line if there is anything.
-/
namespace LogSieve.Lines

def lineFeed : UInt8 := 10
def carriageReturn : UInt8 := 13

/-- A line that a line feed ended, without a carriage return at its end. -/
def withoutReturn (line : Bytes) : Bytes :=
  if line.getLast? = some carriageReturn then line.dropLast else line

/-- The lines of a file that a line feed ends. -/
def ended (content : Bytes) : List Bytes := (Text.segments lineFeed content).dropLast.map withoutReturn

/-- What follows the last line feed of a file. -/
def unended (content : Bytes) : Bytes :=
  (Text.segments lineFeed content).getLast (Text.segments_ne_nil lineFeed content)

def split (content : Bytes) : List Bytes :=
  ended content ++ if unended content = [] then [] else [unended content]

/-- The line has nothing but blanks in it. -/
def IsBlank (line : String) : Prop := line.toList.all Text.isBlank = true

instance (line : String) : Decidable (IsBlank line) := inferInstanceAs (Decidable (_ = _))

def written (text : String) : Bytes := Files.encode text ++ [lineFeed]

end LogSieve.Lines
