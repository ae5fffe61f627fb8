import AggregatedRecords.Frame
import AggregatedRecords.KeyTable
import AggregatedRecords.Record.Wire
/-!
# Aggregator — user records into frames

An aggregator buffers user records, with their keys in two tables, until it is
asked for the frame of what it holds. It turns a record away that would take it
beyond its limits, unless it is empty: a record of any size can be sent alone.

The length of the payload is kept up to date with every record by what the
record adds (`Aggregator.cost`), without encoding anything.
-/

namespace AggregatedRecords

/-- Buffered user records: the tables of their keys, the records themselves,
and the length of the payload they make. -/
structure Aggregator where
  format : FrameFormat
  maxLength : Nat
  maxRecords : Nat
  partitionKeys : KeyTable
  explicitHashKeys : KeyTable
  records : Array Record
  payloadLength : Nat

namespace Aggregator

/-- The longest frame of several records, unless another limit is given. -/
def defaultMaxLength : Nat := 51200

/-- The most records of a frame, unless another limit is given. -/
def defaultMaxRecords : Nat := 4294967295

/-- The aggregator without records. A frame holds at least one record, however
small the limit. -/
def empty (format : FrameFormat) (maxLength maxRecords : Nat) : Aggregator where
  format := format
  maxLength := maxLength
  maxRecords := max maxRecords 1
  partitionKeys := .empty
  explicitHashKeys := .empty
  records := #[]
  payloadLength := 0

/-- The number of buffered records. -/
def size (a : Aggregator) : Nat := a.records.size

/-- Whether no record is buffered. -/
def isEmpty (a : Aggregator) : Bool := a.records.isEmpty

/-- The length of the frame of what is buffered. -/
def frameLength (a : Aggregator) : Nat := a.format.overhead + a.payloadLength

/-- The position a key has or would get in a table, and what its entry adds to
the payload. -/
def keyCost (table : KeyTable) (key : String) : Nat × Nat :=
  match table.indexOf? key with
  | some index => (index, 0)
  | none => (table.size, Wire.delimitedLength key.utf8ByteSize)

/-- What a record adds to the payload: the entries of keys that are new, and
its own field. -/
def cost (a : Aggregator) (r : UserRecord) : Nat :=
  let (partitionIndex, partitionEntry) := keyCost a.partitionKeys r.partitionKey
  let body := Wire.uint64Length partitionIndex + Wire.delimitedLength r.data.length
  match r.explicitHashKey with
  | none => partitionEntry + Wire.delimitedLength body
  | some key =>
    let (hashIndex, hashEntry) := keyCost a.explicitHashKeys key
    partitionEntry + hashEntry + Wire.delimitedLength (body + Wire.uint64Length hashIndex)

/-- Whether a record of a given cost is turned away. -/
def isFull (a : Aggregator) (added : Nat) : Bool :=
  !a.isEmpty && (a.maxRecords ≤ a.size || a.maxLength < a.frameLength + added)

/-- The aggregator with one more record, whatever its limits. -/
def insert (a : Aggregator) (r : UserRecord) (added : Nat) : Aggregator :=
  let (partitionIndex, partitionKeys) := a.partitionKeys.intern r.partitionKey
  let (hashIndex, explicitHashKeys) := match r.explicitHashKey with
    | none => (none, a.explicitHashKeys)
    | some key =>
      let (index, table) := a.explicitHashKeys.intern key
      (some (UInt64.ofNat index), table)
  { a with
    partitionKeys, explicitHashKeys
    records := a.records.push ⟨UInt64.ofNat partitionIndex, hashIndex, r.data, #[]⟩
    payloadLength := a.payloadLength + added }

/-- Buffers a record, or hands it back if it does not fit. -/
def push (a : Aggregator) (r : UserRecord) : Option UserRecord × Aggregator :=
  let added := a.cost r
  if a.isFull added then (some r, a) else (none, a.insert r added)

/-- The message of what is buffered. -/
def message (a : Aggregator) : AggregatedRecord :=
  ⟨a.partitionKeys.keys, a.explicitHashKeys.keys, a.records⟩

/-- The frame of what is buffered, if anything is, and the aggregator without
it. -/
def take (a : Aggregator) : Option Bytes × Aggregator :=
  if a.isEmpty then (none, a)
  else
    (some (a.format.encode a.message.encode),
      { a with
        partitionKeys := .empty
        explicitHashKeys := .empty
        records := #[]
        payloadLength := 0 })

/-- Buffers a record, making a frame of what is there if it does not fit. -/
def pushOrTake (progress : Aggregator × Array Bytes) (r : UserRecord) : Aggregator × Array Bytes :=
  let (a, frames) := progress
  match a.push r with
  | (none, a) => (a, frames)
  | (some r, a) =>
    let (frame, a) := a.take
    ((a.push r).2, frames ++ frame.toArray)

end Aggregator

/-- The frames of the standard format that hold the records in order. -/
def aggregateAll (records : List UserRecord) (maxLength maxRecords : Nat) : List Bytes :=
  let start := Aggregator.empty .standard maxLength maxRecords
  let (a, frames) := records.foldl Aggregator.pushOrTake (start, #[])
  (frames ++ a.take.1.toArray).toList

end AggregatedRecords
