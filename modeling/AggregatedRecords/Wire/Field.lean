import AggregatedRecords.Wire.Varint
/-!
# Wire — keys and values of fields

A field is a key, which gives its number and the form of its value, and the
value. This file has, for each type that occurs, how a field of it is written,
how long that is, and how the value is read once the key is.
-/

namespace AggregatedRecords

namespace Wire

/-- The number of a field and the form of its value. -/
structure Key where
  number : Nat
  wireType : WireType
deriving Repr, DecidableEq

namespace Key

/-- A key as one number. -/
def toNat (key : Key) : Nat := key.number * 8 + key.wireType.number

/-- The key that a number is, checked from the highest bits down. -/
def ofNat (n : Nat) : Except Cause Key :=
  if UInt32.size ≤ n then .error (.invalidKey n)
  else match WireType.ofNumber? (n % 8) with
    | none => .error (.invalidWireType (n % 8))
    | some wireType => if n / 8 = 0 then .error .zeroFieldNumber else .ok ⟨n / 8, wireType⟩

/-- Reads a key. -/
def read : Reader Key := do
  match ofNat (← Varint.read) with
  | .error cause => .fail cause
  | .ok key => pure key

/-- A key that was read is gone. -/
theorem read_lt {u rest : Unread} {key : Key} (h : read.run u = .ok (key, rest)) :
    rest.size < u.size := by
  cases hn : Varint.read.run u with
  | error e => simp [read, Consumer.run_bind, hn] at h
  | ok p =>
    rw [read, Consumer.run_bind_of_ok hn] at h
    exact Nat.lt_of_le_of_lt (Consumer.shrinks _ h) (Varint.read_lt hn)

/-- Requires the form of the value to be a given one. -/
def expect (key : Key) (wireType : WireType) : Reader Unit :=
  if key.wireType = wireType then pure ()
  else .fail (.unexpectedWireType key.wireType wireType)

theorem run_expect_eq_ok_iff {key : Key} {wireType : WireType} {u rest : Unread} {a : Unit} :
    (key.expect wireType).run u = .ok (a, rest) ↔ key.wireType = wireType ∧ u = rest := by
  unfold expect
  split <;> simp [*]

end Key

/-! ## Writing -/

/-- The key of a field. -/
def encodeKey (number : Nat) (wireType : WireType) : Bytes :=
  Varint.encode (Key.toNat ⟨number, wireType⟩)

/-- A field with a number as its value. -/
def encodeUInt64 (number : Nat) (value : UInt64) : Bytes :=
  encodeKey number .varint ++ Varint.encode value.toNat

/-- A field with octets as its value, after their number. -/
def encodeDelimited (number : Nat) (value : Bytes) : Bytes :=
  encodeKey number .lengthDelimited ++ (Varint.encode value.length ++ value)

/-- A field with a text as its value. -/
def encodeString (number : Nat) (value : String) : Bytes :=
  encodeDelimited number (Bytes.ofString value)

/-! ## Lengths

The numbers of the fields are below sixteen, so that a key takes up one octet. -/

/-- The length of a field with a number as its value. -/
def uint64Length (value : Nat) : Nat := 1 + Varint.encodedLength value

/-- The length of a field with so many octets as its value. -/
def delimitedLength (length : Nat) : Nat := 1 + Varint.encodedLength length + length

/-- The length of fields one after the other. -/
def totalLength (lengths : List Nat) : Nat := lengths.foldr (· + ·) 0

/-! ## Reading -/

/-- Reads a number. -/
def readUInt64 (key : Key) : Reader UInt64 := do
  key.expect .varint
  return UInt64.ofNat (← Varint.read)

/-- Reads octets, which may reach up to the end of all that is unread. -/
def readDelimited (key : Key) : Reader Bytes := do
  key.expect .lengthDelimited
  Reader.take (← Varint.read)

/-- Reads a text. -/
def readString (key : Key) : Reader String := do
  match Bytes.toString? (← readDelimited key) with
  | none => .fail .notText
  | some s => pure s

end Wire

end AggregatedRecords
