import AggregatedRecords.Base64
import AggregatedRecords.Json.Value
import AggregatedRecords.Record.Basic
/-!
# Rendering — as JSON

Messages and user records as indented JSON. Data is given in Base64, and also
as a text where it is one. What is absent has no member, and neither have tags
where there are none.
-/

namespace AggregatedRecords

open Json

namespace Rendering

/-- The JSON form of data. -/
def dataJson (data : Bytes) : Value :=
  .object <|
    ("base64", .string (Base64.encodeText data)) ::
      member? "text" ((Bytes.toString? data).map .string)

/-- The JSON form of a tag. -/
def tagJson (tag : Tag) : Value :=
  .object (("key", .string tag.key) :: member? "value" (tag.value.map .string))

/-- The JSON form of a record. -/
def recordJson (record : Record) : Value :=
  let tags := if record.tags.isEmpty then none else some (record.tags.toList.map tagJson)
  .object <|
    ("partition_key_index", .natural record.partitionKeyIndex.toNat) ::
      (member? "explicit_hash_key_index"
          (record.explicitHashKeyIndex.map fun index => .natural index.toNat) ++
        ("data", dataJson record.data) :: member? "tags" (tags.map .array))

/-- The JSON form of a message. -/
def messageJson (message : AggregatedRecord) : Value :=
  .object [
    ("partition_key_table", .strings message.partitionKeyTable.toList),
    ("explicit_hash_key_table", .strings message.explicitHashKeyTable.toList),
    ("records", .array (message.records.toList.map recordJson))]

/-- A message as JSON. -/
def json (message : AggregatedRecord) : String := (messageJson message).render .indented

/-- The JSON form of a user record. -/
def userJson (r : UserRecord) : Value :=
  .object <|
    ("partition_key", .string r.partitionKey) ::
      (member? "explicit_hash_key" (r.explicitHashKey.map .string) ++
        [("data", dataJson r.data)])

/-- User records as JSON. -/
def usersJson (records : List UserRecord) : String :=
  (Value.array (records.map userJson)).render .indented

end Rendering

end AggregatedRecords
