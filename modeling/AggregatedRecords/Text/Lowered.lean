/-!
# Text — in lower case

Names are told apart without regard to the case of their letters, of which only
those of ASCII have two.
-/

namespace AggregatedRecords

namespace Text

/-- A text with the letters of ASCII in lower case. -/
def lowered (s : String) : String := String.ofList (s.toList.map Char.toLower)

end Text

end AggregatedRecords
