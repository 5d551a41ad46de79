import CqlDdl.Binary64

/-! The decimal text of a floating-point number: the fewest digits that read back as the number,
of those the nearest, written with a point or with an exponent. -/

namespace CqlDdl

/-- A decimal `0.d₁d₂…dₖ · 10^point`, given by its digits. -/
structure Decimal where
  digits : Text
  point : Int
deriving DecidableEq, Repr

namespace Decimal

/-- Numbers with at most this many digits before the point are written without an exponent. -/
def longestWhole : Int := 21

/-- Numbers with at least this many zeros right after the point are written with an exponent. -/
def mostZeros : Int := 6

/-- The digits with a point after the first one, if there are more. -/
def mantissa : Text → Text
  | [] => []
  | [d] => [d]
  | d :: rest => d :: '.' :: rest

/-- The exponent with its sign, which is always written. -/
def exponentText (e : Int) : Text :=
  'e' :: (if e < 0 then '-' else '+') :: Text.ofNat e.natAbs

/-- The text of a decimal: digits, filled up with zeros to the point, or a point among them, or
zeros between the point and them, or an exponent after them. -/
def text (d : Decimal) : Text :=
  let count : Int := d.digits.length
  if count ≤ d.point ∧ d.point ≤ longestWhole then
    d.digits ++ List.replicate (d.point - count).toNat '0'
  else if 0 < d.point ∧ d.point ≤ longestWhole then
    d.digits.take d.point.toNat ++ '.' :: d.digits.drop d.point.toNat
  else if -mostZeros < d.point ∧ d.point ≤ 0 then
    '0' :: '.' :: (List.replicate (-d.point).toNat '0' ++ d.digits)
  else
    mantissa d.digits ++ exponentText (d.point - 1)

/-- The decimal `n · 10^place`, without the zeros that end it. The first digit always stays. -/
def ofScaled (n : Nat) (place : Int) : Decimal :=
  let digits := Text.ofNat n
  let rest := (digits.tail.reverse.dropWhile (· == '0')).reverse
  ⟨digits.headD '0' :: rest, place + digits.length⟩

end Decimal

namespace Binary64

/-- The number one in quarters of a unit, in which the ends of rounding intervals are whole. -/
def quartersPerOne : Nat :=
  4 * unitsPerOne

/-- The ends of the interval of reals that round to a number, in quarters of a unit. Below a power
of two the neighbour is only half as far away as above it. -/
def interval (x : Binary64) : Nat × Nat :=
  let middle := 4 * x.units
  let below := if x.fraction.val = 0 ∧ 1 < x.exponent.val then Nat.pow 2 x.scale
    else 2 * Nat.pow 2 x.scale
  (middle - below, middle + 2 * Nat.pow 2 x.scale)

/-- Whether `n / factor` quarters of a unit round to the number. The ends of the interval round to
it when its significand is even. -/
def roundsFrom (x : Binary64) (factor n : Nat) : Bool :=
  let (low, high) := x.interval
  if x.significand % 2 = 0 then low * factor ≤ n && n ≤ high * factor
  else low * factor < n && n < high * factor

/-- The step of the grid of multiples of `10^place`, in quarters of a unit, and the factor by which
it was scaled up to be whole. -/
def grid (place : Int) : Nat × Nat :=
  if 0 ≤ place then (Nat.pow 10 place.toNat * quartersPerOne, 1)
  else (quartersPerOne, Nat.pow 10 (-place).toNat)

/-- The multiple of `10^place` that reads back as the number, if one of the number's two neighbours
on that grid does: the nearer one if both do, and of two equally near the even one. -/
def onGrid (x : Binary64) (place : Int) : Option Nat :=
  let (step, factor) := grid place
  let value := 4 * x.units * factor
  let lower := value / step
  let upper := lower + 1
  match x.roundsFrom factor (lower * step), x.roundsFrom factor (upper * step) with
  | true, true => some (roundedQuotient value step)
  | true, false => some lower
  | false, true => some upper
  | false, false => none

/-- The place of the first digit of a number other than zero: 0 for units, -1 for tenths. -/
def firstPlace (x : Binary64) : Int :=
  if unitsPerOne ≤ x.units then (Text.ofNat (x.units / unitsPerOne)).length - 1
  else -((Text.ofNat ((unitsPerOne - 1) / x.units)).length : Int)

/-- The most digits that any number needs. -/
def mostDigits : Nat := 17

/-- The shortest decimal that reads back as the magnitude of a finite number other than zero: the
first grid with a hit, from one digit on. The last grid has one for every number, so the digits
that stand for no hit are never those of a number. -/
def shortest (x : Binary64) : Decimal :=
  let hit := (List.range mostDigits).findSome? fun (n : Nat) =>
    (x.onGrid (x.firstPlace - n)).map (Decimal.ofScaled · (x.firstPlace - n))
  hit.getD (Decimal.ofScaled x.units 0)

/-- Integers up to this one are written digit by digit; each of them is a number of its own. -/
def exactLimit : Nat := Nat.pow 2 53

/-- The text of the magnitude of a finite number. -/
def magnitudeText (x : Binary64) : Text :=
  let whole := x.units / unitsPerOne
  if x.units % unitsPerOne = 0 ∧ whole ≤ exactLimit then Text.ofNat whole else x.shortest.text

/-- The text of a number. Zero has no sign. -/
def text (x : Binary64) : Text :=
  if x.isNaN then "NaN".toList
  else
    let magnitude := if x.isInfinite then "Infinity".toList else x.magnitudeText
    if x.negative && (x.isInfinite || x.units != 0) then '-' :: magnitude else magnitude

end Binary64

end CqlDdl
