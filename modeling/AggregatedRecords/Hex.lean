import AggregatedRecords.Bytes
import AggregatedRecords.Text.Blank
import AggregatedRecords.Text.Quoted
/-!
# Hex — octets as pairs of digits

Writing gives two lowercase digits an octet. Reading takes digits of either
case, and `Hex.ofText` a looser form besides: blanks around it, one `0x` in
front, and separators anywhere in between.
-/

namespace AggregatedRecords

namespace Hex

/-- The lowercase digit of a value below sixteen. -/
def digit (n : Nat) : Char :=
  Char.ofNat (if n < 10 then 48 + n else 87 + n)

/-- The value of a digit, given as the octet of its character. -/
def value? (x : UInt8) : Option Nat :=
  let n := x.toNat
  if 48 ≤ n && n ≤ 57 then some (n - 48)
  else if 97 ≤ n && n ≤ 102 then some (n - 87)
  else if 65 ≤ n && n ≤ 70 then some (n - 55)
  else none

/-- The value of a digit. -/
def valueOf? (c : Char) : Option Nat :=
  if c.toNat < 0x80 then value? (UInt8.ofNat c.toNat) else none

/-- The two digits of an octet, the high one first. -/
def pair (x : UInt8) : List Char := [digit (x.toNat / 16), digit (x.toNat % 16)]

/-- The digits of a byte string. -/
def encode (b : Bytes) : String := String.ofList (b.flatMap pair)

/-- A byte string in messages: its digits, or a mark that there is none. -/
def shown (b : Bytes) : String := if b.isEmpty then "<empty>" else encode b

/-- Why a text holds no byte string. -/
inductive Error where
  /-- The number of digits is odd. -/
  | oddLength
  /-- The octet at a position is no digit. -/
  | notDigit (octet : UInt8) (position : Nat)
deriving Repr, DecidableEq

/-- The message of an error, which shows an octet as the character with its
number. -/
def Error.message : Error → String
  | .oddLength => "Odd number of digits"
  | .notDigit octet position =>
    "Invalid character " ++ Text.quotedAlone (Char.ofNat octet.toNat) ++
      s!" at position {position}"

/-- The octet of one or two digit values. -/
def octetOf (values : List Nat) : UInt8 :=
  UInt8.ofNat (values.foldl (fun sum value => sum * 16 + value) 0)

/-- The byte string whose digits the octets are. An odd number of digits is
reported before any of them is looked at. -/
def decode (digits : Bytes) : Except Error Bytes :=
  if digits.length % 2 = 1 then .error .oddLength
  else match digits.firstOutside fun x => (value? x).isSome with
    | some (octet, position) => .error (.notDigit octet position)
    | none => .ok ((groupsOf 2 (digits.filterMap value?)).map octetOf)

/-- The characters that may stand between digits. -/
def isSeparator (c : Char) : Bool := c = ':' || c = ' ' || c = '_'

/-- A text without the base mark in front of it. -/
def withoutMark : List Char → List Char
  | '0' :: 'x' :: rest => rest
  | '0' :: 'X' :: rest => rest
  | text => text

/-- The byte string that a text gives in the loose form. -/
def ofText (s : String) : Except Error Bytes :=
  let digits := (withoutMark (Text.trim s.toList)).filter fun c => !isSeparator c
  decode (Bytes.ofString (String.ofList digits))

end Hex

end AggregatedRecords
