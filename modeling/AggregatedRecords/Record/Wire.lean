import AggregatedRecords.Record.Basic
import AggregatedRecords.Wire.Message
/-!
# Record — messages on the wire

The schema of an aggregated record, by the numbers of its fields:

- `AggregatedRecord`: 1 repeated text, the partition keys; 2 repeated text, the
  explicit hash keys; 3 repeated `Record`.
- `Record`: 1 required index of the partition key; 2 optional index of the
  explicit hash key; 3 required octets, the data; 4 repeated `Tag`.
- `Tag`: 1 required text, the key; 2 optional text, the value.

Writing gives the fields by number, required ones always and optional ones when
present. Reading takes fields in any order, the last one of a single field
winning, and leaves a field that is missing at its default.
-/

namespace AggregatedRecords

open Wire

/-! ## Writing -/

/-- The octets of a tag. -/
def Tag.encode (tag : Tag) : Bytes :=
  encodeString 1 tag.key ++ tag.value.elim [] (encodeString 2)

/-- The octets of a record. -/
def Record.encode (record : Record) : Bytes :=
  encodeUInt64 1 record.partitionKeyIndex ++
    (record.explicitHashKeyIndex.elim [] (encodeUInt64 2) ++
      (encodeDelimited 3 record.data ++
        record.tags.toList.flatMap fun tag => encodeDelimited 4 tag.encode))

/-- The octets of a message. -/
def AggregatedRecord.encode (message : AggregatedRecord) : Bytes :=
  message.partitionKeyTable.toList.flatMap (encodeString 1) ++
    (message.explicitHashKeyTable.toList.flatMap (encodeString 2) ++
      message.records.toList.flatMap fun record => encodeDelimited 3 record.encode)

/-! ## Lengths -/

/-- The length of a tag's octets. -/
def Tag.encodedLength (tag : Tag) : Nat :=
  delimitedLength tag.key.utf8ByteSize +
    tag.value.elim 0 fun value => delimitedLength value.utf8ByteSize

/-- The length of a record's octets. -/
def Record.encodedLength (record : Record) : Nat :=
  uint64Length record.partitionKeyIndex.toNat +
    (record.explicitHashKeyIndex.elim 0 fun index => uint64Length index.toNat) +
    delimitedLength record.data.length +
    totalLength (record.tags.toList.map fun tag => delimitedLength tag.encodedLength)

/-- The length of a message's octets. -/
def AggregatedRecord.encodedLength (message : AggregatedRecord) : Nat :=
  totalLength (message.partitionKeyTable.toList.map fun key => delimitedLength key.utf8ByteSize) +
    totalLength
      (message.explicitHashKeyTable.toList.map fun key => delimitedLength key.utf8ByteSize) +
    totalLength (message.records.toList.map fun record => delimitedLength record.encodedLength)

/-! ## Reading -/

/-- Takes one field into a tag. -/
def Tag.step (depth : Nat) (key : Key) (tag : Tag) : Reader Tag :=
  match key.number with
  | 1 => .within ⟨"Tag", "key"⟩ do
    return { tag with key := ← readString key }
  | 2 => .within ⟨"Tag", "value"⟩ do
    return { tag with value := some (← readString key) }
  | _ => do
    skipField depth key
    return tag

/-- Takes one field into a record. -/
def Record.step (depth : Nat) (key : Key) (record : Record) : Reader Record :=
  match key.number with
  | 1 => .within ⟨"Record", "partition_key_index"⟩ do
    return { record with partitionKeyIndex := ← readUInt64 key }
  | 2 => .within ⟨"Record", "explicit_hash_key_index"⟩ do
    return { record with explicitHashKeyIndex := some (← readUInt64 key) }
  | 3 => .within ⟨"Record", "data"⟩ do
    return { record with data := ← readDelimited key }
  | 4 => .within ⟨"Record", "tags"⟩ do
    let tag ← readEmbedded Tag.step .empty depth key
    return { record with tags := record.tags.push tag }
  | _ => do
    skipField depth key
    return record

/-- Takes one field into a message. -/
def AggregatedRecord.step (depth : Nat) (key : Key) (message : AggregatedRecord) :
    Reader AggregatedRecord :=
  match key.number with
  | 1 => .within ⟨"AggregatedRecord", "partition_key_table"⟩ do
    let entry ← readString key
    return { message with partitionKeyTable := message.partitionKeyTable.push entry }
  | 2 => .within ⟨"AggregatedRecord", "explicit_hash_key_table"⟩ do
    let entry ← readString key
    return { message with explicitHashKeyTable := message.explicitHashKeyTable.push entry }
  | 3 => .within ⟨"AggregatedRecord", "records"⟩ do
    let record ← readEmbedded Record.step .empty depth key
    return { message with records := message.records.push record }
  | _ => do
    skipField depth key
    return message

/-- The message that the octets of a payload are. -/
def AggregatedRecord.decode (payload : Bytes) : Except Failure AggregatedRecord :=
  Wire.decode AggregatedRecord.step .empty payload

end AggregatedRecords
