import AggregatedRecords.Json.Decoder
import AggregatedRecords.Record.Basic
/-!
# Record — user records as JSON

A user record is written as an object, without the explicit hash key when it
has none, and with its data as an array of numbers. It is read from an object,
where the explicit hash key may be missing or null, or from an array of the
three fields in order.
-/

namespace AggregatedRecords

open Json

namespace UserRecord

/-- The JSON form of a user record. -/
def toJson (r : UserRecord) : Value :=
  .object <|
    ("partition_key", .string r.partitionKey) ::
      (member? "explicit_hash_key" (r.explicitHashKey.map .string) ++
        [("data", .array (r.data.map fun x => .natural x.toNat))])

/-- The fields of a user record as far as they are given. -/
structure Given where
  partitionKey : Option String
  explicitHashKey : Option (Option String)
  data : Option Bytes
deriving Repr, DecidableEq

/-- Nothing given. -/
def Given.nothing : Given := ⟨none, none, none⟩

/-- Takes an explicit hash key, for which null is none. -/
def explicitHashKeyDecoder : Decoder (Option String) := Decoder.one (Token.optional Token.text)

/-- Takes data. -/
def dataDecoder : Decoder Bytes := Decoder.array Token.octet

/-- Takes the value of a member. -/
def member (name : String) (given : Given) : Decoder Given :=
  match name with
  | "partition_key" => do
    let key ← Decoder.field name given.partitionKey.isSome (Decoder.one Token.text)
    return { given with partitionKey := some key }
  | "explicit_hash_key" => do
    let key ← Decoder.field name given.explicitHashKey.isSome explicitHashKeyDecoder
    return { given with explicitHashKey := some key }
  | "data" => do
    let data ← Decoder.field name given.data.isSome dataDecoder
    return { given with data := some data }
  | _ => do
    Decoder.unknownField
    return given

/-- The user record of an object's members. -/
def ofMembers : Decoder UserRecord := do
  let given ← Decoder.members member .nothing
  match given.partitionKey, given.data with
  | none, _ => Consumer.fail (.mismatch (.missingField "partition_key"))
  | some _, none => Consumer.fail (.mismatch (.missingField "data"))
  | some key, some data => return ⟨key, given.explicitHashKey.getD none, data⟩

/-- The user record of an array's fields. -/
def ofFields : Decoder UserRecord := do
  let tooShort (length : Nat) : Json.Error :=
    .mismatch (.invalidLength length (.record "UserRecord") 3)
  match ← Decoder.item? true (Decoder.one Token.text) with
  | none => Consumer.fail (tooShort 0)
  | some key =>
    let explicitHashKey ← Decoder.item? false explicitHashKeyDecoder
    match ← Decoder.item? false dataDecoder with
    | none => Consumer.fail (tooShort 2)
    | some data => return ⟨key, explicitHashKey.getD none, data⟩

/-- The user record that a JSON text gives. -/
def ofJson (text : String) : Except Json.Error UserRecord :=
  Decoder.ofText (Decoder.record "UserRecord" ofMembers ofFields) text

end UserRecord

end AggregatedRecords
