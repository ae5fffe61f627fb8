/-!
# Decimal — numbers of 64 bits as texts
-/

namespace AggregatedRecords

namespace Decimal

/-- The number with one more digit at its end, if it has 64 bits. -/
def addDigit? (n : Nat) (c : Char) : Option Nat :=
  if c.isDigit && n * 10 + (c.toNat - 48) < UInt64.size then some (n * 10 + (c.toNat - 48))
  else none

/-- The number of 64 bits that a text gives in decimal, with an optional plus
sign in front. Zeros in front do no harm. -/
def word? (text : List Char) : Option UInt64 :=
  let digits := match text with
    | '+' :: rest => rest
    | rest => rest
  if digits.isEmpty then none else (digits.foldlM addDigit? 0).map UInt64.ofNat

end Decimal

end AggregatedRecords
