/-!
# Reading a decimal through a 64-bit significand

A decimal with a point or an exponent is read as a whole number below 2^64 times a
power of ten. Digits that no longer fit are dropped, and the product is taken in
binary64, each operation rounding once. So the result can differ from the nearest
binary64 number in its last place.
-/
namespace LogSieve.Decimal

/-- The number `significand · 10^scale`, where the significand is below 2^64. -/
structure Scaled where
  significand : Nat
  scale : Int
deriving DecidableEq, Repr

/-- The least number that 64 bits do not hold: 2^64. -/
def wordLimit : Nat := 0x10000000000000000

def Fits (significand digit : Nat) : Prop := significand * 10 + digit < wordLimit

instance (significand digit : Nat) : Decidable (Fits significand digit) := inferInstanceAs (Decidable (_ < _))

namespace Scaled

/-- Takes in digits before the point. From the first that does not fit on they only count. -/
def addWhole (significand : Nat) : List Nat → Scaled
  | [] => ⟨significand, 0⟩
  | digit :: rest =>
    if Fits significand digit then addWhole (significand * 10 + digit) rest
    else ⟨significand, rest.length + 1⟩

/-- Takes in digits after the point, up to the first that does not fit. -/
def addFraction (number : Scaled) : List Nat → Scaled
  | [] => number
  | digit :: rest =>
    if Fits number.significand digit then addFraction ⟨number.significand * 10 + digit, number.scale - 1⟩ rest
    else number

def ofDigits (whole fraction : List Nat) : Scaled := addFraction (addWhole 0 whole) fraction

/-- The binary64 number nearest to `10^n`. -/
def power (n : Nat) : Float := Float.ofScientific 1 false n

/-- The greatest power of ten below the greatest binary64 number. -/
def greatestPower : Nat := 308

/-- Divides by `10^n`, in steps where that power has no binary64 number. -/
def divided (x : Float) (n : Nat) : Float :=
  if n ≤ greatestPower then x / power n
  else if x == 0 then x
  else divided (x / power greatestPower) (n - greatestPower)
termination_by n
decreasing_by simp only [greatestPower] at *; omega

/-- The number in binary64; there is none where it exceeds every finite one. -/
def toFloat? (number : Scaled) : Option Float :=
  let x := number.significand.toUInt64.toFloat
  if number.scale < 0 then some (divided x number.scale.natAbs)
  else if number.scale.natAbs ≤ greatestPower then
    let product := x * power number.scale.natAbs
    if product.isInf then none else some product
  else if x == 0 then some x
  else none

end Scaled
end LogSieve.Decimal
