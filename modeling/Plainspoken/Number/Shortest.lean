import Plainspoken.Number.Binary

/-!
# The fewest digits that read back

A decimal reads back as a double when it lies among the reals that round to
that double.  For one, two, three, ... digits the two neighbours of the double
on the decimal grid with that many digits are tried; the first grid with a
neighbour that reads back gives the digits.  All tests are exact.
-/

namespace Plainspoken

namespace Number

/-- The decimal `digits * 10 ^ exponent`. -/
structure Decimal where
  digits : Nat
  exponent : Int
  deriving DecidableEq

/-- The reals that round to a positive double, as fractions over one
denominator: the double itself is `value / denominator`, and the reals between
`low` and `high` round to it, the ends included when `closed`. -/
structure RoundingInterval where
  low : Nat
  value : Nat
  high : Nat
  denominator : Nat
  closed : Bool

/-- The rounding interval of a positive scaled value.  Below the least
mantissa of a binade the doubles lie twice as close, so there the interval
reaches down half as far. -/
def RoundingInterval.ofScaled (scaled : Scaled) : RoundingInterval :=
  let quarters := 4 * scaled.mantissa
  let below := if scaled.mantissa = normalMantissa then 1 else 2
  let scale := Nat.pow 2 (scaled.exponent - 2).toNat
  { low := (quarters - below) * scale
    value := quarters * scale
    high := (quarters + 2) * scale
    denominator := Nat.pow 2 (2 - scaled.exponent).toNat
    closed := scaled.mantissa % 2 == 0 }

def digitCount (number : Nat) : Nat :=
  (Nat.toDigits 10 number).length

/-- The exponent of the greatest power of ten not above the double. -/
def RoundingInterval.magnitude (interval : RoundingInterval) : Int :=
  let whole := interval.value / interval.denominator
  if 0 < whole then
    (digitCount whole : Int) - 1
  else
    let inverse := (interval.denominator + interval.value - 1) / interval.value
    Int.negOfNat (digitCount (inverse - 1))

/-- The neighbour of the double on the grid of multiples of `10 ^ exponent`
that reads back; of two, the nearer one, and the upper one when both are
equally near. -/
def RoundingInterval.onGrid (interval : RoundingInterval) (exponent : Int) :
    Option Decimal :=
  let unit := interval.denominator * Nat.pow 10 exponent.toNat
  let scale := Nat.pow 10 (-exponent).toNat
  let value := interval.value * scale
  let lower := value / unit
  let upper := lower + 1
  let lowerReads :=
    if interval.closed then interval.low * scale ≤ lower * unit
    else interval.low * scale < lower * unit
  let upperReads :=
    if interval.closed then upper * unit ≤ interval.high * scale
    else upper * unit < interval.high * scale
  let lowerNearer := 2 * (value - lower * unit) < unit
  if lowerReads ∧ (lowerNearer ∨ ¬ upperReads) then some ⟨lower, exponent⟩
  else if upperReads then some ⟨upper, exponent⟩
  else none

/-- Tries the grids with `count` digits, then one more, and so on. -/
def RoundingInterval.firstOnGrid (interval : RoundingInterval) (magnitude : Int) :
    Nat → Nat → Decimal
  | 0, count => ⟨interval.value / interval.denominator, magnitude - count⟩
  | attempts + 1, count =>
      match interval.onGrid (magnitude + 1 - count) with
      | some decimal => decimal
      | none => interval.firstOnGrid magnitude attempts (count + 1)

/-- The fewest digits that read back as a positive scaled value.  Seventeen
digits always suffice. -/
def shortest (scaled : Scaled) : Decimal :=
  let interval := RoundingInterval.ofScaled scaled
  interval.firstOnGrid interval.magnitude 17 1

end Number

end Plainspoken
