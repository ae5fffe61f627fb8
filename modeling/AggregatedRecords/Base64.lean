import AggregatedRecords.Bytes
import AggregatedRecords.Text.Blank
/-!
# Base64 — the standard alphabet with padding

Three octets are four symbols of six bits. A last group of one or two octets is
filled up with padding, and reading requires exactly that form: the padding
present, and the bits that no octet uses zero.

Faults are looked for in a fixed order (`Base64.fault?`). A text is cut into a
body of whole groups and a *tail*, the last group or what there is of it; the
body is checked before the tail, so that padding counts as foreign in the body.
-/

namespace AggregatedRecords

namespace Base64

/-- The padding octet, an equals sign. -/
def pad : UInt8 := 61

/-- The symbol of a value below 64. -/
def symbol (n : Nat) : UInt8 :=
  UInt8.ofNat <|
    if n < 26 then 65 + n
    else if n < 52 then 71 + n
    else if n < 62 then n - 4
    else if n = 62 then 43
    else 47

/-- The value of a symbol. -/
def value? (x : UInt8) : Option Nat :=
  let n := x.toNat
  if 65 ≤ n && n ≤ 90 then some (n - 65)
  else if 97 ≤ n && n ≤ 122 then some (n - 71)
  else if 48 ≤ n && n ≤ 57 then some (n + 4)
  else if n = 43 then some 62
  else if n = 47 then some 63
  else none

/-- A symbol is an octet of the alphabet; padding is none. -/
def isSymbol (x : UInt8) : Bool := (value? x).isSome

/-- The four octets of the form of up to three octets. -/
def encodeGroup : Bytes → Bytes
  | [] => []
  | [x] => [symbol (x.toNat / 4), symbol (x.toNat % 4 * 16), pad, pad]
  | [x, y] =>
    [symbol (x.toNat / 4), symbol (x.toNat % 4 * 16 + y.toNat / 16), symbol (y.toNat % 16 * 4), pad]
  | x :: y :: z :: _ =>
    [symbol (x.toNat / 4), symbol (x.toNat % 4 * 16 + y.toNat / 16),
      symbol (y.toNat % 16 * 4 + z.toNat / 64), symbol (z.toNat % 64)]

/-- The padded form of a byte string, as octets. -/
def encode (b : Bytes) : Bytes := (groupsOf 3 b).flatMap encodeGroup

/-- The padded form of a byte string, as a text. -/
def encodeText (b : Bytes) : String :=
  String.ofList ((encode b).map fun x => Char.ofNat x.toNat)

/-- The octets of the values of up to four symbols. -/
def decodeGroup : List Nat → Bytes
  | [a, b] => [UInt8.ofNat (a * 4 + b / 16)]
  | [a, b, c] => [UInt8.ofNat (a * 4 + b / 16), UInt8.ofNat (b % 16 * 16 + c / 4)]
  | [a, b, c, d] =>
    [UInt8.ofNat (a * 4 + b / 16), UInt8.ofNat (b % 16 * 16 + c / 4),
      UInt8.ofNat (c % 4 * 64 + d)]
  | _ => []

/-- Why a text is no padded form. -/
inductive Error where
  /-- The octet at an offset may not stand there. -/
  | invalidByte (offset : Nat) (octet : UInt8)
  /-- The tail has too few symbols for an octet. -/
  | invalidLength (length : Nat)
  /-- The last symbol has bits that no octet uses. -/
  | invalidLastSymbol (offset : Nat) (octet : UInt8)
  /-- Padding is missing. -/
  | invalidPadding
deriving Repr, DecidableEq

/-- The message of an error. -/
def Error.message : Error → String
  | .invalidByte offset octet => s!"Invalid symbol {octet.toNat}, offset {offset}."
  | .invalidLength length => s!"Invalid input length: {length}"
  | .invalidLastSymbol offset octet => s!"Invalid last symbol {octet.toNat}, offset {offset}."
  | .invalidPadding => "Invalid padding"

/-- Where the tail of a text of a given length starts. -/
def tailStart (length : Nat) : Nat :=
  if length % 4 = 0 then length - 4 else length - length % 4

/-- The body of a text: its groups before the tail. -/
def body (text : Bytes) : Bytes := text.take (tailStart text.length)

/-- The tail of a text. -/
def tail (text : Bytes) : Bytes := text.drop (tailStart text.length)

/-- The symbols of the tail, up to its padding. -/
def tailSymbols (text : Bytes) : Bytes := (tail text).takeWhile (· != pad)

/-- The tail from its first padding on. -/
def tailPadding (text : Bytes) : Bytes := (tail text).dropWhile (· != pad)

/-- The offset after the last symbol of the tail. -/
def symbolsEnd (text : Bytes) : Nat := tailStart text.length + (tailSymbols text).length

/-- A foreign octet that stands alone in the tail. -/
def straggler? (text : Bytes) : Option Error :=
  match tail text with
  | [x] => if isSymbol x || x == pad then none else some (.invalidByte (text.length - 1) x)
  | _ => none

/-- A foreign octet of the body. -/
def bodyFault? (text : Bytes) : Option Error :=
  ((body text).firstOutside isSymbol).map fun (x, offset) => .invalidByte offset x

/-- A foreign octet before the padding of the tail. -/
def symbolFault? (text : Bytes) : Option Error :=
  ((tailSymbols text).firstOutside isSymbol).map fun (x, offset) =>
    .invalidByte (tailStart text.length + offset) x

/-- Padding that comes too early, or that something follows. -/
def paddingFault? (text : Bytes) : Option Error :=
  if tailPadding text ≠ [] ∧
      ((tailSymbols text).length < 2 ∨ (tailPadding text).any (· != pad)) then
    some (.invalidByte (symbolsEnd text) pad)
  else none

/-- A tail that is no group of four. -/
def lengthFault? (text : Bytes) : Option Error :=
  if text ≠ [] ∧ (tailSymbols text).length < 2 then some (.invalidLength (symbolsEnd text))
  else if (tail text).length % 4 ≠ 0 then some .invalidPadding
  else none

/-- Whether the last of the values of a tail has bits that no octet uses. -/
def hasSpareBits : List Nat → Bool
  | [_, b] => b % 16 != 0
  | [_, _, c] => c % 4 != 0
  | _ => false

/-- A last symbol with spare bits that are not zero. -/
def spareFault? (text : Bytes) : Option Error :=
  if hasSpareBits ((tailSymbols text).filterMap value?) then
    (tailSymbols text).getLast?.map (.invalidLastSymbol (symbolsEnd text - 1))
  else none

/-- The fault that reading reports: the first in the order of the checks. -/
def fault? (text : Bytes) : Option Error :=
  straggler? text <|> bodyFault? text <|> symbolFault? text <|> paddingFault? text <|>
    lengthFault? text <|> spareFault? text

/-- The byte string whose padded form the octets are. -/
def decode (text : Bytes) : Except Error Bytes :=
  match fault? text with
  | some e => .error e
  | none => .ok ((groupsOf 4 (text.filterMap value?)).flatMap decodeGroup)

/-- The byte string whose padded form a text is, blanks around it aside. -/
def decodeText (s : String) : Except Error Bytes :=
  decode (Bytes.ofString (String.ofList (Text.trim s.toList)))

end Base64

end AggregatedRecords
