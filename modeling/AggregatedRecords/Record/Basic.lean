import AggregatedRecords.Bytes
/-!
# Record — messages and user records

An aggregated record carries many records of a producer under one partition
key. Keys are written once, in two tables, and each record refers to them by
index; `UserRecord` is a record as it was before that.
-/

namespace AggregatedRecords

/-- A tag of a record. -/
structure Tag where
  key : String
  value : Option String
deriving Repr, DecidableEq

/-- A record within an aggregated record, whose keys are indices into its
tables. -/
structure Record where
  partitionKeyIndex : UInt64
  explicitHashKeyIndex : Option UInt64
  data : Bytes
  tags : Array Tag
deriving Repr, DecidableEq

/-- The message a frame carries: the tables of keys, and the records. -/
structure AggregatedRecord where
  partitionKeyTable : Array String
  explicitHashKeyTable : Array String
  records : Array Record
deriving Repr, DecidableEq

/-- A record of a producer, with its own keys. -/
structure UserRecord where
  partitionKey : String
  explicitHashKey : Option String
  data : Bytes
deriving Repr, DecidableEq

/-- The tag before any of its fields. -/
def Tag.empty : Tag := ⟨"", none⟩

/-- The record before any of its fields. -/
def Record.empty : Record := ⟨0, none, [], #[]⟩

/-- The message before any of its fields. -/
def AggregatedRecord.empty : AggregatedRecord := ⟨#[], #[], #[]⟩

end AggregatedRecords
