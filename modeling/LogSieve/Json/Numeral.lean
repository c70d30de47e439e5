import LogSieve.Decimal.Scaled
import LogSieve.Json.Fault
import LogSieve.Value
/-!
# Numbers in text

A numeral has a sign, digits, and perhaps a fraction and an exponent. Without those
two it is a whole number as long as 64 bits hold it, and is read exactly. Every other
numeral, and minus zero, is read in binary64.
-/
namespace LogSieve.Json

structure Exponent where
  negative : Bool
  digits : List Char
deriving DecidableEq, Repr

structure Numeral where
  negative : Bool
  whole : List Char
  /-- Empty where there is no point. -/
  fraction : List Char
  exponent : Option Exponent
deriving DecidableEq, Repr

/-! ## Grammar -/

def isDigit (c : Char) : Bool := '0' ≤ c && c ≤ '9'

/-- The digits at the front of a text, and what follows them. -/
def spanDigits (text : List Char) : List Char × List Char := (text.takeWhile isDigit, text.dropWhile isDigit)

/-- What is wrong where a digit should be: `atEnd` if the text has ended. The byte there counts as read. -/
def digitFault (atEnd : Cause) (text : List Char) : Fault :=
  if text = [] then .before atEnd [] else .at .malformedNumber text

def readDigits (atEnd : Cause) : Reader (List Char) := fun text =>
  match spanDigits text with
  | ([], _) => .error (digitFault atEnd text)
  | (digits, rest) => .ok (digits, rest)

/-- The digits before the point: a zero stands alone. -/
def readWhole (atEnd : Cause) : Reader (List Char) := fun text =>
  match text with
  | '0' :: rest => if rest.head?.any isDigit then .error (.at .malformedNumber rest) else .ok (['0'], rest)
  | _ => readDigits atEnd text

/-- The point and the digits after it, if there is a point. -/
def readFraction (atEnd : Cause) : Reader (List Char) := fun text =>
  match text with
  | '.' :: rest => readDigits atEnd rest
  | _ => .ok ([], text)

/-- The sign of an exponent; none means plus. The answer says whether it is a minus. -/
def readSign : List Char → Bool × List Char
  | '+' :: rest => (false, rest)
  | '-' :: rest => (true, rest)
  | rest => (false, rest)

def readExponent (atEnd : Cause) : Reader (Option Exponent) := fun text =>
  match text with
  | [] => .ok (none, [])
  | c :: rest =>
    if c = 'e' ∨ c = 'E' then
      match readSign rest with
      | (negative, rest) => do
        let (digits, rest) ← readDigits atEnd rest
        .ok (some ⟨negative, digits⟩, rest)
    else .ok (none, c :: rest)

/-- A numeral without its minus sign, which has been read before if `negative`. -/
def readUnsigned (atEnd : Cause) (negative : Bool) : Reader Numeral := fun text => do
  let (whole, rest) ← readWhole atEnd text
  let (fraction, rest) ← readFraction atEnd rest
  let (exponent, rest) ← readExponent atEnd rest
  .ok (⟨negative, whole, fraction, exponent⟩, rest)

/-- A numeral. A text that ends where a digit should be has the cause `atEnd`. -/
def readNumeral (atEnd : Cause) : Reader Numeral := fun text =>
  match text with
  | '-' :: rest => readUnsigned atEnd true rest
  | _ => readUnsigned atEnd false text

/-! ## Value -/

def digitValue (c : Char) : Nat := c.toNat - 48

def ofDigits (digits : List Char) : Nat := digits.foldl (fun n c => n * 10 + digitValue c) 0

/-- The greatest exponent that is told from a greater one. -/
def greatestExponent : Nat := 0x7FFFFFFF

/-- The exponent with these digits after `value`. Beyond the greatest it gives the number of digits
    behind the one that showed it. -/
def exponentValue (value : Nat) : List Char → Except Nat Nat
  | [] => .ok value
  | c :: rest =>
    let next := value * 10 + digitValue c
    if next ≤ greatestExponent then exponentValue next rest else .error rest.length

/-- The least number that 64 bits with a sign do not hold: 2^63. -/
def signedLimit : Nat := 0x8000000000000000

namespace Numeral

/-- Neither a fraction nor an exponent is written. -/
def isWhole (n : Numeral) : Bool := n.fraction.isEmpty && n.exponent.isNone

/-- The whole number that a numeral without fraction and exponent stands for, where 64 bits hold it. -/
def integer? (n : Numeral) : Option Int :=
  let magnitude := ofDigits n.whole
  if n.negative then
    if 0 < magnitude ∧ magnitude ≤ signedLimit then some (-(magnitude : Int)) else none
  else if magnitude < Decimal.wordLimit then some magnitude
  else none

def mantissa (n : Numeral) : Decimal.Scaled :=
  .ofDigits (n.whole.map digitValue) (n.fraction.map digitValue)

/-- The magnitude of a numeral in binary64. Beyond its range it gives the number of digits that need
    not be read to see that. -/
def magnitude (n : Numeral) : Except Nat Float :=
  let mantissa := n.mantissa
  let scaled (scale : Int) : Except Nat Float :=
    match Decimal.Scaled.toFloat? ⟨mantissa.significand, scale⟩ with
    | some x => .ok x
    | none => .error 0
  match n.exponent with
  | none => scaled mantissa.scale
  | some e =>
    match exponentValue 0 e.digits with
    | .ok value => scaled (if e.negative then mantissa.scale - value else mantissa.scale + value)
    | .error unread => if mantissa.significand = 0 ∨ e.negative then .ok 0 else .error unread

/-- The number that a numeral stands for. Beyond the range of binary64 it gives the number of digits
    that need not be read to see that. -/
def number (n : Numeral) : Except Nat Number :=
  match if n.isWhole then n.integer? else none with
  | some i => .ok (.integer i)
  | none => n.magnitude.map (fun x => .float (if n.negative then -x else x))

end Numeral

def readNumber : Reader Number := fun text => do
  let (numeral, rest) ← readNumeral .endInValue text
  match numeral.number with
  | .ok number => .ok (number, rest)
  | .error unread => .error ⟨.numberTooLarge, byteCount rest + unread⟩

/-- The text after a numeral of any size. -/
def skipNumeral (text : List Char) : Except Fault (List Char) :=
  (readNumeral .malformedNumber text).map (·.2)

end LogSieve.Json
