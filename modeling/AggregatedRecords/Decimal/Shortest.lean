/-!
# Decimal — the shortest digits of a double

A double stands for every real that rounds to it. Its shortest decimal is the
one with the fewest digits among those reals and, of these, the nearest to the
double itself; of two that are equally near it is the one with the even last
digit.

A positive finite double is taken as `m * 2 ^ q`. For one digit, two digits and
so on, only its two neighbours on the grid of decimals with so many digits are
held against the interval of reals that round to it, in exact arithmetic.
-/

namespace AggregatedRecords

namespace Decimal

/-- A positive finite double: `significand * 2 ^ exponent`. At a lower edge the
doubles below it are half as far apart as those above it. -/
structure Binary where
  significand : Nat
  exponent : Int
  isLowerEdge : Bool

/-- The number of values of the fraction field, which has 52 bits. -/
def fractionSize : Nat := 0x10000000000000

/-- The double of an exponent field and a fraction field. -/
def Binary.ofFields (exponent fraction : Nat) : Binary :=
  if exponent = 0 then ⟨fraction, -1074, false⟩
  else ⟨fractionSize + fraction, (exponent : Int) - 1075, fraction = 0 && exponent ≠ 1⟩

/-- A power as a numerator and a denominator. -/
def powerFraction (base : Nat) (exponent : Int) : Nat × Nat :=
  (Nat.pow base exponent.toNat, Nat.pow base (-exponent).toNat)

/-- Digits and the place of the point: the number they stand for is
`0.digits * 10 ^ point`. -/
structure Digits where
  digits : List Char
  point : Int
deriving Repr, DecidableEq

namespace Binary

variable (v : Binary)

/-- The interval of reals that round to a double, and the double within it, in
quarters of the last place: its lower end, the double, its upper end. -/
def quarters : Nat × Nat × Nat :=
  let middle := 4 * v.significand
  (if v.isLowerEdge then middle - 1 else middle - 2, middle, middle + 2)

/-- A quarter of the last place as a numerator and a denominator. -/
def quarter : Nat × Nat := powerFraction 2 (v.exponent - 2)

/-- The place of the point: the exponent of the first power of ten beyond the
double. No double is below `10 ^ (-400)`. -/
def point : Int :=
  let (numerator, denominator) := v.quarter
  let scaled := 4 * v.significand * numerator * Nat.pow 10 400 / denominator
  (Nat.toDigits 10 scaled).length - (400 : Int)

/-- The decimal on the grid of multiples of `10 ^ scale` that is nearest to the
double among those that round to it. Only the neighbours of the double on the
grid can be it. -/
def onGrid? (scale : Int) : Option Nat :=
  let (numerator, denominator) := v.quarter
  let (tenNumerator, tenDenominator) := powerFraction 10 scale
  -- the common measure of quarters and of grid steps
  let quarter := numerator * tenDenominator
  let step := tenNumerator * denominator
  let (low, middle, high) := v.quarters
  let isInside (n : Nat) :=
    if v.significand % 2 = 0 then low * quarter ≤ n * step && n * step ≤ high * quarter
    else low * quarter < n * step && n * step < high * quarter
  let below := middle * quarter / step
  let above := below + 1
  let belowDistance := middle * quarter - below * step
  let aboveDistance := above * step - middle * quarter
  if isInside below && isInside above then
    if belowDistance < aboveDistance then some below
    else if aboveDistance < belowDistance then some above
    else if below % 2 = 0 then some below
    else some above
  else if isInside below then some below
  else if isInside above then some above
  else none

/-- The shortest decimal of a double. Seventeen digits always suffice. -/
def shortest : Digits :=
  let found := (List.range 17).findSome? fun i =>
    let scale := v.point - (i + 1 : Nat)
    (v.onGrid? scale).map fun n => (n, scale)
  let (n, scale) := found.getD (0, 0)
  let digits := Nat.toDigits 10 n
  ⟨(digits.reverse.dropWhile (· = '0')).reverse, digits.length + scale⟩

end Binary

end Decimal

end AggregatedRecords
