import CqlDdl.Text

/-! Binary floating-point numbers of 64 bits by their fields: what they stand for, rounding of an
exact magnitude, and the sum. Every finite one is a whole number of units of 2⁻¹⁰⁷⁴, so all
arithmetic here is on natural numbers and integers. -/

namespace CqlDdl

/-- The three fields of a 64-bit floating-point number. -/
structure Binary64 where
  negative : Bool
  exponent : Fin 2048
  fraction : Fin 4503599627370496
deriving DecidableEq, Repr

namespace Binary64

/-- A number from its sign and its two fields, each cut to its width. -/
def pack (negative : Bool) (exponent fraction : Nat) : Binary64 where
  negative := negative
  exponent := ⟨exponent % 2048, Nat.mod_lt _ (by decide)⟩
  fraction := ⟨fraction % 4503599627370496, Nat.mod_lt _ (by decide)⟩

-- Powers are `Nat.pow` by name, so that no other power of an importing module stands in for it.

/-- The number that a word of 64 bits encodes. -/
def ofBits (bits : UInt64) : Binary64 :=
  pack (decide (Nat.pow 2 63 ≤ bits.toNat)) (bits.toNat / Nat.pow 2 52) bits.toNat

/-- The infinity of a sign. -/
def infinity (negative : Bool) : Binary64 :=
  pack negative 2047 0

/-- The value of an operation without a result. -/
def nan : Binary64 :=
  pack false 2047 (Nat.pow 2 51)

/-- The largest exponent field marks the infinities and the values that are not numbers. -/
def isFinite (x : Binary64) : Bool :=
  x.exponent.val != 2047

/-- The values that are not numbers. -/
def isNaN (x : Binary64) : Bool :=
  x.exponent.val == 2047 && x.fraction.val != 0

/-- The two infinities. -/
def isInfinite (x : Binary64) : Bool :=
  x.exponent.val == 2047 && x.fraction.val == 0

/-- The fraction with its leading bit, which numbers with exponent field 0 do not have. -/
def significand (x : Binary64) : Nat :=
  if x.exponent.val = 0 then x.fraction.val else Nat.pow 2 52 + x.fraction.val

/-- The number of places that the significand is shifted by; exponent fields 0 and 1 share one. -/
def scale (x : Binary64) : Nat :=
  x.exponent.val - 1

/-- The units of 2⁻¹⁰⁷⁴ in the number one. -/
def unitsPerOne : Nat :=
  Nat.pow 2 1074

/-- The magnitude of a finite number in units of 2⁻¹⁰⁷⁴. -/
def units (x : Binary64) : Nat :=
  x.significand * Nat.pow 2 x.scale

/-- The value of a finite number in units of 2⁻¹⁰⁷⁴. -/
def signedUnits (x : Binary64) : Int :=
  if x.negative then -(x.units : Int) else x.units

/-- The finite numbers without a fractional part. -/
def isInteger (x : Binary64) : Bool :=
  x.isFinite && x.units % unitsPerOne == 0

/-- The numbers above zero, infinity among them. -/
def isPositive (x : Binary64) : Bool :=
  !x.negative && !x.isNaN && (x.isInfinite || x.units != 0)

/-- The whole part of a number above zero, and 0 for every other value. -/
def wholePart (x : Binary64) : Nat :=
  if x.isFinite && !x.negative then x.units / unitsPerOne else 0

/-- The quotient rounded to the nearest natural number, a half to the even one. -/
def roundedQuotient (n d : Nat) : Nat :=
  let q := n / d
  let twice := 2 * (n % d)
  if twice < d then q
  else if d < twice then q + 1
  else if q % 2 = 0 then q else q + 1

/-- The number nearest to a magnitude of `n / d` units of 2⁻¹⁰⁷⁴; of two equally near, the one with
the even significand. Beyond the largest finite number lies infinity. -/
def ofRatio (negative : Bool) (n d : Nat) : Binary64 :=
  let shift := (n / d).log2 - 52
  let q := roundedQuotient n (d * Nat.pow 2 shift)
  if q < Nat.pow 2 52 then pack negative 0 q
  else
    let exponent := if q = Nat.pow 2 53 then shift + 2 else shift + 1
    if exponent < 2047 then pack negative exponent q else infinity negative

/-- The number nearest to a magnitude given in units of 2⁻¹⁰⁷⁴. -/
def ofUnits (negative : Bool) (n : Nat) : Binary64 :=
  ofRatio negative n 1

/-- The number nearest to a natural number with a sign; zero may have one, too. -/
def ofSigned (negative : Bool) (n : Nat) : Binary64 :=
  ofUnits negative (n * unitsPerOne)

/-- The number nearest to a natural number. -/
def ofNat (n : Nat) : Binary64 :=
  ofSigned false n

/-- The sum, rounded once. Two zeros have a negative sum only if both are negative. -/
def add (x y : Binary64) : Binary64 :=
  if x.isNaN || y.isNaN then nan
  else if x.isInfinite then
    if y.isInfinite && x.negative != y.negative then nan else x
  else if y.isInfinite then y
  else
    let total := x.signedUnits + y.signedUnits
    if total = 0 then pack (x.negative && y.negative) 0 0
    else ofUnits (decide (total < 0)) total.natAbs

instance : Add Binary64 := ⟨add⟩

end Binary64

end CqlDdl
