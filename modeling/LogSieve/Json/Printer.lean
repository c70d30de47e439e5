import LogSieve.Decimal.Shortest
import LogSieve.Json.Quoted
import LogSieve.Value
/-!
# Writing a value

One written form per value, without white space, with the fields of a record in the
order in which the record holds them.
-/
namespace LogSieve.Json

def writeNat (n : Nat) : List Char := Nat.toDigits 10 n

/-- The digits of a whole number, behind a minus if it is below zero. -/
def writeInt : Int → List Char
  | .ofNat n => writeNat n
  | .negSucc n => '-' :: writeNat (n + 1)

/-- How a binary64 number is laid out: the exponents of the leading digit between which it is written
    without a power of ten. -/
structure FloatLayout where
  least : Int
  greatest : Int

/-- Numbers from 0.00001 up to 10^16 are written without a power of ten. -/
def floatLayout : FloatLayout := ⟨-5, 15⟩

/-- A decimal with a point and at least one digit on each side of it. -/
def writePlain (digits : List Char) (exponent : Int) : List Char :=
  if 0 ≤ exponent then digits ++ List.replicate exponent.toNat '0' ++ ['.', '0']
  else
    let places := exponent.natAbs
    if places < digits.length then
      digits.take (digits.length - places) ++ '.' :: digits.drop (digits.length - places)
    else '0' :: '.' :: List.replicate (places - digits.length) '0' ++ digits

/-- A decimal with one digit before the point and a power of ten with its sign; the point is left out
    behind a single digit. -/
def writeScientific (digits : List Char) (leading : Int) : List Char :=
  let mantissa := if digits.length ≤ 1 then digits else digits.take 1 ++ '.' :: digits.drop 1
  mantissa ++ 'e' :: (if leading < 0 then '-' else '+') :: writeNat leading.natAbs

/-- The shortest digits of a positive number, plain or with a power of ten. -/
def writeDecimal (layout : FloatLayout) (number : Decimal.Point) : List Char :=
  let digits := writeNat number.digits
  let leading := number.exponent + digits.length - 1
  if layout.least ≤ leading ∧ leading ≤ layout.greatest then writePlain digits number.exponent
  else writeScientific digits leading

/-- The bit that a binary64 number has if its sign is a minus: 2^63. -/
def signBit : Nat := 0x8000000000000000

def writeFloat (x : Float) : List Char :=
  let bits := x.toBits.toNat
  let binary := Decimal.Binary.ofBits bits
  let magnitude :=
    if binary.significand = 0 then ['0', '.', '0'] else writeDecimal floatLayout (Decimal.shortest binary)
  if signBit ≤ bits then '-' :: magnitude else magnitude

def writeNumber : Number → List Char
  | .integer n => writeInt n
  | .float x => writeFloat x

mutual
def write : Value → List Char
  | .null => ['n', 'u', 'l', 'l']
  | .bool true => ['t', 'r', 'u', 'e']
  | .bool false => ['f', 'a', 'l', 's', 'e']
  | .number n => writeNumber n
  | .string s => writeString s
  | .array [] => ['[', ']']
  | .array (item :: rest) => '[' :: (write item ++ writeMoreItems rest)
  | .record [] => ['\x7b', '\x7d']
  | .record ((name, value) :: rest) =>
    '\x7b' :: (writeString name ++ ':' :: (write value ++ writeMoreFields rest))
/-- Further items, each behind a comma, and the closing bracket. -/
def writeMoreItems : List Value → List Char
  | [] => [']']
  | item :: rest => ',' :: (write item ++ writeMoreItems rest)
/-- Further fields, each behind a comma, and the closing brace. -/
def writeMoreFields : List (String × Value) → List Char
  | [] => ['\x7d']
  | (name, value) :: rest => ',' :: (writeString name ++ ':' :: (write value ++ writeMoreFields rest))
end

end LogSieve.Json

namespace LogSieve

def Value.text (value : Value) : String := String.ofList (Json.write value)

def Record.text (record : Record) : String := Value.text (.record record)

/-- Writes a record, or says why it cannot be written. -/
def Record.tryText (record : Record) : Except Json.WriteFault String := .ok (Record.text record)

end LogSieve
