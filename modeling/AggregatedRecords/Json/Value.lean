import AggregatedRecords.Decimal.Shortest
/-!
# JSON — values and how they are written

A value is written on one line without blanks, or indented by two blanks a
level with every item on a line of its own. Members stay in the order they are
given. Integers are written exactly, and a floating point number by the
shortest digits that read back.
-/

namespace AggregatedRecords

namespace Json

/-- A JSON value, with natural numbers apart from floating point ones. -/
inductive Value where
  | null
  | bool (b : Bool)
  | natural (n : Nat)
  | float (x : Float)
  | string (s : String)
  | array (items : List Value)
  | object (members : List (String × Value))

/-- An array of texts. -/
def Value.strings (texts : List String) : Value := .array (texts.map .string)

/-- A member for each value that is present. -/
def member? (name : String) (value : Option Value) : List (String × Value) :=
  value.toList.map fun v => (name, v)

/-! ## Numbers -/

/-- A number of zeros. -/
def zeros (n : Nat) : List Char := List.replicate n '0'

/-- Digits with a point: positional from `1e-5` up to below `1e16`, with at
least one place, and otherwise with a signed exponent. -/
def placed (d : Decimal.Digits) : List Char :=
  let count := d.digits.length
  if -5 < d.point ∧ d.point ≤ 0 then '0' :: '.' :: zeros (-d.point).toNat ++ d.digits
  else if 0 < d.point ∧ d.point ≤ 16 then
    let place := d.point.toNat
    if count ≤ place then d.digits ++ zeros (place - count) ++ ['.', '0']
    else d.digits.take place ++ '.' :: d.digits.drop place
  else
    let exponent := d.point - 1
    let fraction := if count ≤ 1 then [] else '.' :: d.digits.drop 1
    let sign := if exponent < 0 then '-' else '+'
    d.digits.take 1 ++ fraction ++ 'e' :: sign :: Nat.toDigits 10 exponent.natAbs

/-- The text of a floating point number, if it is finite. -/
def floatText? (x : Float) : Option String :=
  let bits := x.toBits.toNat
  let fraction := bits % Decimal.fractionSize
  let exponent := bits / Decimal.fractionSize % 2048
  let sign := if UInt64.size / 2 ≤ bits then ['-'] else []
  if exponent = 2047 then none
  else if exponent = 0 ∧ fraction = 0 then some (String.ofList (sign ++ ['0', '.', '0']))
  else
    let digits := (Decimal.Binary.ofFields exponent fraction).shortest
    some (String.ofList (sign ++ placed digits))

/-! ## Texts -/

/-- A character as it stands between quotes. -/
def escapeChar (c : Char) : List Char :=
  if c = '"' then ['\\', '"']
  else if c = '\\' then ['\\', '\\']
  else if c = '\x08' then ['\\', 'b']
  else if c = '\x0c' then ['\\', 'f']
  else if c = '\n' then ['\\', 'n']
  else if c = '\r' then ['\\', 'r']
  else if c = '\t' then ['\\', 't']
  else if c.toNat < 0x20 then
    ['\\', 'u', '0', '0', Nat.digitChar (c.toNat / 16), Nat.digitChar (c.toNat % 16)]
  else [c]

/-- A text between quotes. -/
def quote (s : String) : String :=
  String.ofList ('"' :: (s.toList.flatMap escapeChar ++ ['"']))

/-! ## Values -/

/-- How values are laid out. -/
inductive Layout where
  /-- On one line without blanks. -/
  | compact
  /-- With every item on a line of its own. -/
  | indented
deriving Repr, DecidableEq

namespace Layout

/-- What stands in front of an item or a closing bracket at a depth. -/
def lineBreak : Layout → (depth : Nat) → String
  | compact, _ => ""
  | indented, depth => String.ofList ('\n' :: List.replicate (2 * depth) ' ')

/-- What stands between a name and its value. -/
def colon : Layout → String
  | compact => ":"
  | indented => ": "

end Layout

mutual

/-- Writes a value at a depth behind what is written already. -/
def Value.write (layout : Layout) (depth : Nat) (out : String) : Value → String
  | .null => out ++ "null"
  | .bool b => out ++ (if b then "true" else "false")
  | .natural n => out ++ String.ofList (Nat.toDigits 10 n)
  | .float x => out ++ (floatText? x).getD "null"
  | .string s => out ++ quote s
  | .array [] => out ++ "[]"
  | .array (item :: items) =>
    let first := item.write layout (depth + 1) (out ++ "[" ++ layout.lineBreak (depth + 1))
    writeItems layout (depth + 1) first items ++ layout.lineBreak depth ++ "]"
  | .object [] => out ++ "\x7b\x7d"
  | .object ((name, value) :: members) =>
    let first := value.write layout (depth + 1)
      (out ++ "\x7b" ++ layout.lineBreak (depth + 1) ++ quote name ++ layout.colon)
    writeMembers layout (depth + 1) first members ++ layout.lineBreak depth ++ "\x7d"

/-- Writes the items of an array after the first one. -/
def writeItems (layout : Layout) (depth : Nat) (out : String) : List Value → String
  | [] => out
  | item :: items =>
    let next := item.write layout depth (out ++ "," ++ layout.lineBreak depth)
    writeItems layout depth next items

/-- Writes the members of an object after the first one. -/
def writeMembers (layout : Layout) (depth : Nat) (out : String) : List (String × Value) → String
  | [] => out
  | (name, value) :: members =>
    let next := value.write layout depth
      (out ++ "," ++ layout.lineBreak depth ++ quote name ++ layout.colon)
    writeMembers layout depth next members

end

/-- The text of a value. -/
def Value.render (layout : Layout) (value : Value) : String := value.write layout 0 ""

end Json

end AggregatedRecords
