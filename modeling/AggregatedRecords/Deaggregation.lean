import AggregatedRecords.Record.Basic
/-!
# Deaggregation — user records out of a message

Each record of a message is resolved against the tables of keys. The records
are taken in order, and in each record the partition key before the explicit
hash key, so the first index that points outside its table is the one reported.
-/

namespace AggregatedRecords

/-- The tables a record has indices into. -/
inductive KeyKind where
  | partitionKey
  | explicitHashKey
deriving Repr, DecidableEq

/-- The name of a kind of key in messages. -/
def KeyKind.name : KeyKind → String
  | partitionKey => "partition key"
  | explicitHashKey => "explicit hash key"

/-- An index of the record at a position that its table has no entry for. -/
structure DanglingIndex where
  kind : KeyKind
  record : Nat
  index : UInt64
  tableSize : Nat
deriving Repr, DecidableEq

/-- The message of a dangling index. -/
def DanglingIndex.message (e : DanglingIndex) : String :=
  s!"record {e.record}: {e.kind.name} index {e.index} out of range (table has {e.tableSize} entries)"

/-- The key at an index of a table. -/
def lookUp (kind : KeyKind) (table : Array String) (record : Nat) (index : UInt64) :
    Except DanglingIndex String :=
  match table[index.toNat]? with
  | some key => .ok key
  | none => .error ⟨kind, record, index, table.size⟩

namespace AggregatedRecord

/-- The user record that the record at a position stands for. -/
def resolve (message : AggregatedRecord) (record : Record) (position : Nat) :
    Except DanglingIndex UserRecord := do
  let partitionKey ←
    lookUp .partitionKey message.partitionKeyTable position record.partitionKeyIndex
  let explicitHashKey ← match record.explicitHashKeyIndex with
    | none => pure none
    | some index => some <$> lookUp .explicitHashKey message.explicitHashKeyTable position index
  return ⟨partitionKey, explicitHashKey, record.data⟩

/-- The user records of a message, or its first dangling index. -/
def deaggregate (message : AggregatedRecord) : Except DanglingIndex (List UserRecord) :=
  message.records.toList.zipIdx.mapM fun (record, position) => message.resolve record position

end AggregatedRecord

end AggregatedRecords
