import AggregatedRecords.Bytes
/-!
# Text — octets in the escaped form of protocol buffer text

Printable ASCII stands for itself, except that quotes and the backslash follow
a backslash; three controls have a letter, and every other octet is a backslash
with three octal digits.
-/

namespace AggregatedRecords

namespace Text

/-- The octal digit of a value below eight. -/
def octalDigit (n : Nat) : Char := Char.ofNat (48 + n)

/-- An octet in escaped form. -/
def escapeOctet (x : UInt8) : List Char :=
  if x = 10 then ['\\', 'n']
  else if x = 13 then ['\\', 'r']
  else if x = 9 then ['\\', 't']
  else if x = 34 then ['\\', '"']
  else if x = 39 then ['\\', '\'']
  else if x = 92 then ['\\', '\\']
  else if 0x20 ≤ x ∧ x ≤ 0x7e then [Char.ofNat x.toNat]
  else
    ['\\', octalDigit (x.toNat / 64), octalDigit (x.toNat / 8 % 8), octalDigit (x.toNat % 8)]

/-- Octets in escaped form. -/
def escape (b : Bytes) : List Char := b.flatMap escapeOctet

end Text

end AggregatedRecords
