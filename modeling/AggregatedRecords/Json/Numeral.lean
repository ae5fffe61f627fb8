/-!
# JSON — numbers as they are read

A numeral is the digits of a number as the text has them. An integer within 64
bits is read exactly. Every other number is read as a floating point number in
two steps, each of which may round: its leading digits, as many as fit into 64
bits, and then one multiplication or division by a power of ten.
-/

namespace AggregatedRecords

namespace Json

/-- A number: its sign, the digits before and after the point, and the
exponent. A part that the text does not have is absent. -/
structure Numeral where
  isNegative : Bool
  whole : List Nat
  fraction : Option (List Nat)
  exponent : Option Int
deriving Repr, DecidableEq

/-- What a numeral is read as. -/
inductive Number where
  /-- An integer from zero to below `2 ^ 64`. -/
  | natural (n : Nat)
  /-- The negative of a number from one to `2 ^ 63`. -/
  | negative (n : Nat)
  | float (x : Float)

namespace Numeral

/-- Takes digits into a number below `2 ^ 64` until one does not fit, and gives
the number of digits that are left. -/
def accumulate (n : Nat) : List Nat → Nat × Nat
  | [] => (n, 0)
  | digit :: digits =>
    if n * 10 + digit < UInt64.size then accumulate (n * 10 + digit) digits
    else (n, digits.length + 1)

/-- The power of ten with an exponent of at most 308. -/
def powerOfTen (exponent : Nat) : Float := Float.ofScientific 1 false exponent

/-- Divides by a power of ten, in steps of at most `10 ^ 308`. -/
def divideByPower (x : Float) (exponent : Nat) : Float :=
  if exponent ≤ 308 then x / powerOfTen exponent
  else if x == 0 then x
  else divideByPower (x / powerOfTen 308) (exponent - 308)
termination_by exponent

/-- A number times a power of ten, if that is finite. -/
def scale? (n : Nat) (exponent : Int) : Option Float :=
  let x := (UInt64.ofNat n).toFloat
  if exponent < 0 then some (divideByPower x exponent.natAbs)
  else if 308 < exponent then (if n = 0 then some x else none)
  else
    let scaled := x * powerOfTen exponent.toNat
    if scaled.isInf then none else some scaled

/-- The floating point number that a numeral is read as, if it is within their
range. -/
def float? (numeral : Numeral) : Option Float :=
  let (whole, beyond) := accumulate 0 numeral.whole
  let fraction := numeral.fraction.getD []
  let (significand, dropped) := accumulate whole fraction
  let places := fraction.length - dropped
  let exponent := (beyond : Int) - places + numeral.exponent.getD 0
  (scale? significand exponent).map fun x => if numeral.isNegative then -x else x

/-- What a numeral is read as, if it is within range. -/
def number? (numeral : Numeral) : Option Number :=
  let (n, beyond) := accumulate 0 numeral.whole
  if numeral.fraction.isSome || numeral.exponent.isSome || 0 < beyond then
    numeral.float?.map .float
  else if !numeral.isNegative then some (.natural n)
  else if 0 < n ∧ n ≤ UInt64.size / 2 then some (.negative n)
  else numeral.float?.map .float

end Numeral

end Json

end AggregatedRecords
