import AggregatedRecords.Text.Lowered
/-!
# Decimal — the texts of unsigned numbers
-/

namespace AggregatedRecords

namespace Decimal

/-- Whether a text is an exponent, or nothing. -/
def isExponent : List Char → Bool
  | [] => true
  | mark :: rest =>
    let digits := match rest with
      | '+' :: rest => rest
      | '-' :: rest => rest
      | rest => rest
    (mark = 'e' || mark = 'E') && !digits.isEmpty && digits.all Char.isDigit

/-- Whether a text is a number: digits before or after a point, which need not
be there, and maybe an exponent. Infinity and what is no number have names. -/
def isNumber (text : List Char) : Bool :=
  let whole := text.takeWhile Char.isDigit
  let (fraction, rest) := match text.dropWhile Char.isDigit with
    | '.' :: rest => (rest.takeWhile Char.isDigit, rest.dropWhile Char.isDigit)
    | rest => ([], rest)
  !(whole.isEmpty && fraction.isEmpty) && isExponent rest ||
    ["inf", "infinity", "nan"].contains (Text.lowered (String.ofList text))

end Decimal

end AggregatedRecords
