/-!
# Text — ranges of code points

A class of characters is given by ranges of code points, each with its first
and its last one.
-/

namespace AggregatedRecords

namespace Text

/-- Whether one of the ranges holds a character. -/
def isWithin (ranges : List (Nat × Nat)) (c : Char) : Bool :=
  ranges.any fun (low, high) => low ≤ c.toNat && c.toNat ≤ high

end Text

end AggregatedRecords
