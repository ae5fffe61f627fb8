/-!
# Wire — why octets are no message

A failure is a cause and the members it happened in, the innermost first. A
member is named when the failure lies within its value; reading a key and
skipping an unknown field name nothing at their own level.
-/

namespace AggregatedRecords

namespace Wire

/-- The forms a field's value may have on the wire. -/
inductive WireType where
  | varint
  | fixed64
  | lengthDelimited
  | startGroup
  | endGroup
  | fixed32
deriving Repr, DecidableEq

namespace WireType

/-- The number of a wire type, the low three bits of a key. -/
def number : WireType → Nat
  | varint => 0
  | fixed64 => 1
  | lengthDelimited => 2
  | startGroup => 3
  | endGroup => 4
  | fixed32 => 5

/-- The wire type of a number. -/
def ofNumber? : Nat → Option WireType
  | 0 => some varint
  | 1 => some fixed64
  | 2 => some lengthDelimited
  | 3 => some startGroup
  | 4 => some endGroup
  | 5 => some fixed32
  | _ => none

/-- The name of a wire type in messages. -/
def name : WireType → String
  | varint => "Varint"
  | fixed64 => "SixtyFourBit"
  | lengthDelimited => "LengthDelimited"
  | startGroup => "StartGroup"
  | endGroup => "EndGroup"
  | fixed32 => "ThirtyTwoBit"

/-- A number is read back as its wire type. -/
@[simp] theorem ofNumber?_number (wireType : WireType) : ofNumber? wireType.number = some wireType := by
  cases wireType <;> rfl

end WireType

/-- What is wrong with the octets. -/
inductive Cause where
  /-- A varint has no end within ten octets, or more than 64 bits. -/
  | invalidVarint
  /-- A key has more than 32 bits. -/
  | invalidKey (key : Nat)
  /-- The low bits of a key are the number of no wire type. -/
  | invalidWireType (number : Nat)
  /-- A key has the field number zero. -/
  | zeroFieldNumber
  /-- A known field has a value of another form than its type. -/
  | unexpectedWireType (actual expected : WireType)
  /-- A value is longer than what is left to read. -/
  | underflow
  /-- A text is not in UTF-8. -/
  | notText
  /-- The last field of an embedded message reaches beyond its end. -/
  | lengthExceeded
  /-- A group ends that was not started. -/
  | unexpectedEndGroup
  /-- Messages and groups are nested too deep. -/
  | recursionLimit
deriving Repr, DecidableEq

/-- The message of a cause. -/
def Cause.message : Cause → String
  | invalidVarint => "invalid varint"
  | invalidKey key => s!"invalid key value: {key}"
  | invalidWireType number => s!"invalid wire type value: {number}"
  | zeroFieldNumber => "invalid tag value: 0"
  | unexpectedWireType actual expected =>
    s!"invalid wire type: {actual.name} (expected {expected.name})"
  | underflow => "buffer underflow"
  | notText => "invalid string value: data is not UTF-8 encoded"
  | lengthExceeded => "delimited length exceeded"
  | unexpectedEndGroup => "unexpected end group tag"
  | recursionLimit => "recursion limit reached"

/-- A field of a message type. -/
structure Member where
  message : String
  field : String
deriving Repr, DecidableEq

/-- A cause within members, the innermost first. -/
structure Failure where
  path : List Member
  cause : Cause
deriving Repr, DecidableEq

/-- The message of a failure. -/
def Failure.message (failure : Failure) : String :=
  let path := failure.path.map fun member => s!"{member.message}.{member.field}: "
  "failed to decode Protobuf message: " ++ String.join path ++ failure.cause.message

end Wire

end AggregatedRecords
