import AggregatedRecords.Text.Unprintable
/-!
# Text — quoted for messages

Error messages show a text between quotes, so that none of its characters can
be mistaken for the message: the quote and the backslash follow a backslash,
the common controls have a letter, and every other unprintable character is
shown as its code point in hexadecimal between braces.
-/

namespace AggregatedRecords

namespace Text

/-- The code point of a character, between braces. -/
def codePoint (c : Char) : List Char :=
  '\\' :: 'u' :: '\x7b' :: (Nat.toDigits 16 c.toNat ++ ['\x7d'])

/-- A character as it stands between quotes of the given kind. -/
def quotedChar (quote c : Char) : List Char :=
  if c = '\x00' then ['\\', '0']
  else if c = '\t' then ['\\', 't']
  else if c = '\r' then ['\\', 'r']
  else if c = '\n' then ['\\', 'n']
  else if c = quote || c = '\\' then ['\\', c]
  else if isUnprintable c then codePoint c
  else [c]

/-- A text between double quotes. -/
def quoted (s : String) : String :=
  String.ofList ('"' :: (s.toList.flatMap (quotedChar '"') ++ ['"']))

/-- A character between single quotes. -/
def quotedAlone (c : Char) : String :=
  String.ofList ('\'' :: (quotedChar '\'' c ++ ['\'']))

end Text

end AggregatedRecords
