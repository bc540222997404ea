/-!
# The shortest decimal of a binary fraction

A finite double is `m · 2^q`. The reals that round to it form an
interval around it, whose ends belong to it exactly when `m` is even.
Its **shortest decimal** is the decimal with the fewest digits inside
that interval, and among those the nearest to the double.

Everything is computed on `Nat`. For each number of digits the grid of
decimals of that many digits is looked at on both sides of the value:
if any point of the grid lies in the interval, so does one of these two
neighbours, so the first grid with a hit has the fewest digits.
-/

namespace Specimen

/-- **A decimal** `digits · 10^exponent`. -/
structure Decimal where
  /-- The digits, read as a number. -/
  digits : Nat
  /-- The power of ten they count. -/
  exponent : Int
deriving DecidableEq, Repr

/-- **A positive binary fraction** `mantissa · 2^exponent`, with whether
the next smaller double is only half as far away as the next larger. -/
structure BinaryFraction where
  /-- The mantissa, positive. -/
  mantissa : Nat
  /-- The power of two it counts. -/
  exponent : Int
  /-- Whether it is the least double of its binade. -/
  leastOfBinade : Bool

/-- A power of two. -/
def twoTo (n : Nat) : Nat := Nat.pow 2 n

/-- A power of ten. -/
def tenTo (n : Nat) : Nat := Nat.pow 10 n

namespace BinaryFraction

/-- The fraction of a finite double's bits, sign left out. -/
def ofBits (bits : UInt64) : BinaryFraction :=
  let biased : Nat := bits.toNat / twoTo 52 % twoTo 11
  let fraction := bits.toNat % twoTo 52
  if biased == 0 then ⟨fraction, -1074, false⟩
  else ⟨fraction + twoTo 52, Int.ofNat biased - 1075, fraction == 0 && 1 < biased⟩

/-- A fraction as a quotient of naturals, in quarters: numerator of
four times the value, and denominator. -/
def quarters (x : BinaryFraction) : Nat × Nat :=
  (4 * x.mantissa * twoTo x.exponent.toNat, twoTo (-x.exponent).toNat)

/-- Whether `digits · 10^exponent` lies in the interval that rounds to
the fraction. -/
def admits (x : BinaryFraction) (d : Decimal) : Bool :=
  let scale := twoTo x.exponent.toNat
  let low := (4 * x.mantissa - (if x.leastOfBinade then 1 else 2)) * scale
  let high := (4 * x.mantissa + 2) * scale
  let tens := tenTo (-d.exponent).toNat
  let point := 4 * d.digits * tenTo d.exponent.toNat * x.quarters.2
  let low := low * tens
  let high := high * tens
  if x.mantissa % 2 == 0 then low ≤ point && point ≤ high else low < point && point < high

/-- The greatest decimal counting `10^exponent` that is not above the
fraction, and whether the next one is strictly nearer, or as near and
even. -/
def below (x : BinaryFraction) (exponent : Int) : Nat × Bool :=
  let num := x.mantissa * twoTo x.exponent.toNat * tenTo (-exponent).toNat
  let den := twoTo (-x.exponent).toNat * tenTo exponent.toNat
  let floor := num / den
  let twice := 2 * (num % den)
  (floor, twice > den || (twice == den && floor % 2 == 1))

/-- The nearest decimal counting `10^exponent` in the interval. -/
def nearestOn (x : BinaryFraction) (exponent : Int) : Option Decimal :=
  let (floor, up) := x.below exponent
  let low : Decimal := ⟨floor, exponent⟩
  let high : Decimal := ⟨floor + 1, exponent⟩
  let (first, second) := if up then (high, low) else (low, high)
  if x.admits first then some first else if x.admits second then some second else none

/-- The exponent of the leading decimal digit, at most one too small or
too large. -/
def leadingExponent (x : BinaryFraction) : Int :=
  (Int.ofNat (Nat.log2 x.mantissa) + x.exponent) * 30103 / 100000

/-- **The shortest decimal**: the hit on the coarsest grid that has
one. -/
def shortest (x : BinaryFraction) : Decimal :=
  let top := x.leadingExponent + 1
  ((List.range 20).findSome? fun k : Nat => x.nearestOn (top - Int.ofNat k)).getD ⟨0, 0⟩

end BinaryFraction

/-- Drops the zeros at the end of a decimal's digits. -/
def Decimal.trimmed (d : Decimal) : Decimal :=
  go d.digits d.digits d.exponent
where
  /-- Divides by ten while that is exact, at most as often as the first
  argument says. -/
  go : Nat → Nat → Int → Decimal
    | 0, digits, exponent => ⟨digits, exponent⟩
    | fuel + 1, digits, exponent =>
      if digits % 10 == 0 && digits != 0 then go fuel (digits / 10) (exponent + 1)
      else ⟨digits, exponent⟩

/-- One digit is enough for the smallest positive double. -/
example : (BinaryFraction.ofBits 1).shortest = ⟨5, -324⟩ := by decide +kernel

/-- The double next to one tenth. -/
example : (BinaryFraction.ofBits 0x3fb999999999999a).shortest = ⟨1, -1⟩ := by decide +kernel

end Specimen
