/-!
# The shortest decimal of a binary number

Among the decimals that read back as the same binary64 number, those with the
fewest digits, and of them the one nearest to the number. All arithmetic is exact:
both grids, that of the quarter of the last binary place and that of a power of
ten, are counted in one common unit.
-/
namespace LogSieve.Decimal

/-- The positive number `digits · 10^exponent`, a point of the grid of that power of ten. -/
structure Point where
  digits : Nat
  exponent : Int
deriving DecidableEq, Repr

/-- The finite positive number `significand · 2^exponent`. `lopsided` says that the next smaller
    binary64 number is only half as far away as the next greater one. -/
structure Binary where
  significand : Nat
  exponent : Int
  lopsided : Bool
deriving DecidableEq, Repr

/-- The number that follows the 52 places of a significand: 2^52. -/
def hiddenBit : Nat := 0x10000000000000

/-- The number of stored exponents: 2^11. -/
def exponentCount : Nat := 0x800

/-- The magnitude that the bits of a finite binary64 number stand for. -/
def Binary.ofBits (bits : Nat) : Binary :=
  let stored : Nat := bits / hiddenBit % exponentCount
  let tail : Nat := bits % hiddenBit
  if stored = 0 then ⟨tail, -1074, false⟩
  else ⟨hiddenBit + tail, (stored : Int) - 1075, tail = 0 && stored ≠ 1⟩

/-- A quarter of the last binary place of `x`, in the unit shared with `gridStep x k`. -/
def quarter (x : Binary) (k : Int) : Nat := Nat.pow 2 (x.exponent - 2).toNat * Nat.pow 10 (-k).toNat

/-- The power of ten `10^k`, in the unit shared with `quarter x k`. -/
def gridStep (x : Binary) (k : Int) : Nat := Nat.pow 10 k.toNat * Nat.pow 2 (2 - x.exponent).toNat

def position (x : Binary) (k : Int) : Nat := 4 * x.significand * quarter x k

/-- A point, in the shared unit, that reads back as `x`: it lies no farther from `x` than half way
    to either neighbour, where the half way points themselves belong to an even significand. -/
def readsBack (x : Binary) (k : Int) (point : Nat) : Bool :=
  let lower := (4 * x.significand - (if x.lopsided then 1 else 2)) * quarter x k
  let upper := (4 * x.significand + 2) * quarter x k
  if x.significand % 2 = 0 then lower ≤ point && point ≤ upper else lower < point && point < upper

/-- The multiple of `10^k` that reads back as `x` and lies nearest to it, if there is one.
    Of two that lie equally near the even one is taken. -/
def onGrid? (x : Binary) (k : Int) : Option Point :=
  let step := gridStep x k
  let below := position x k / step
  let rest := position x k % step
  let nearer := if 2 * rest < step || (2 * rest = step && below % 2 = 0) then below else below + 1
  let farther := if nearer = below then below + 1 else below
  if readsBack x k (nearer * step) then some ⟨nearer, k⟩
  else if readsBack x k (farther * step) then some ⟨farther, k⟩
  else none

/-- Tries `count` grids from `10^k` downwards. -/
def finerGrids (x : Binary) : (count : Nat) → (k : Int) → Point
  | 0, k => ⟨position x k / gridStep x k, k⟩
  | count + 1, k => (onGrid? x k).getD (finerGrids x count (k - 1))

/-- The exponent of a power of ten above `x`, from the binary logarithm of `x`. -/
def coarsest (x : Binary) : Int := ((x.significand.log2 : Int) + x.exponent) * 30103 / 100000 + 2

/-- The shortest decimal of `x`. Seventeen digits always read back, so that one of the grids has a
    point that does. -/
def shortest (x : Binary) : Point := finerGrids x 20 (coarsest x)

end LogSieve.Decimal
