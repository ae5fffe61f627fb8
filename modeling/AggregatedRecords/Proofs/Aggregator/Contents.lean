import AggregatedRecords.Proofs.Aggregator.History
import AggregatedRecords.Proofs.KeyTable
/-!
# Aggregator — what is buffered

`Aggregator.Holds` says what the buffers of an aggregator are, given the records
accepted since the last frame: the distinct keys in the order of their first
appearance, and each record with the positions of its own keys. It is so of an
aggregator without records and stays so with every record taken in
(`Aggregator.Holds.insert`), and nothing else is left of a history
(`Aggregator.run_empty`). So what is buffered, and every frame, depends on the
accepted records alone (`Aggregator.buffers_run`).
-/

namespace AggregatedRecords

namespace Aggregator

variable {a : Aggregator} {r : UserRecord} {added : Nat}
variable {format : FrameFormat} {maxLength maxRecords : Nat} {records : List UserRecord}

/-- A record with its keys replaced by their positions in lists of keys. -/
def placed (partitionKeys hashKeys : List String) (r : UserRecord) : Record where
  partitionKeyIndex := UInt64.ofNat (partitionKeys.idxOf r.partitionKey)
  explicitHashKeyIndex := r.explicitHashKey.map fun key => UInt64.ofNat (hashKeys.idxOf key)
  data := r.data
  tags := #[]

/-- **What the buffers are** of an aggregator that holds given records. -/
structure Holds (a : Aggregator) (records : List UserRecord) : Prop where
  partitionKeys :
    a.partitionKeys.keys.toList = (records.map UserRecord.partitionKey).eraseDups
  explicitHashKeys :
    a.explicitHashKeys.keys.toList = (records.filterMap UserRecord.explicitHashKey).eraseDups
  records :
    a.records.toList =
      records.map (placed a.partitionKeys.keys.toList a.explicitHashKeys.keys.toList)

/-- The entry of a record has the positions that its keys have once they are in
the tables. -/
theorem entry_eq_placed (a : Aggregator) (r : UserRecord) (added : Nat) :
    a.entry r =
      placed (a.insert r added).partitionKeys.keys.toList
        (a.insert r added).explicitHashKeys.keys.toList r := by
  rw [placed, partitionKeys_insert, explicitHashKeys_insert, ← KeyTable.intern_fst, entry]
  cases r.explicitHashKey with
  | none => rfl
  | some key => rw [Option.elim_some, Option.map_some, Option.map_some, ← KeyTable.intern_fst]

namespace Holds

/-! ## One more record -/

/-- The keys of a record that is held stand in the tables. -/
theorem partitionKey_mem (h : a.Holds records) (hr : r ∈ records) :
    r.partitionKey ∈ a.partitionKeys.keys.toList := by
  rw [h.partitionKeys, List.mem_eraseDups]
  exact List.mem_map_of_mem hr

theorem explicitHashKey_mem (h : a.Holds records) (hr : r ∈ records) {key : String}
    (hkey : r.explicitHashKey = some key) : key ∈ a.explicitHashKeys.keys.toList := by
  rw [h.explicitHashKeys, List.mem_eraseDups, List.mem_filterMap]
  exact ⟨r, hr, hkey⟩

/-- **What was buffered stays as it is** when another record is taken in. -/
theorem placed_insert (h : a.Holds records) (hr : r ∈ records) (other : UserRecord)
    (added : Nat) :
    placed (a.insert other added).partitionKeys.keys.toList
        (a.insert other added).explicitHashKeys.keys.toList r =
      placed a.partitionKeys.keys.toList a.explicitHashKeys.keys.toList r := by
  have hpartition := KeyTable.idxOf_intern_of_mem (h.partitionKey_mem hr) other.partitionKey
  simp only [placed, partitionKeys_insert, explicitHashKeys_insert, hpartition]
  cases hkey : r.explicitHashKey with
  | none => rfl
  | some key =>
    cases other.explicitHashKey with
    | none => rfl
    | some otherKey =>
      have hhash := KeyTable.idxOf_intern_of_mem (h.explicitHashKey_mem hr hkey) otherKey
      simp only [Option.elim_some, Option.map_some, hhash]

/-- **Taking a record in** puts it behind those that are held. -/
theorem insert (h : a.Holds records) (r : UserRecord) (added : Nat) :
    (a.insert r added).Holds (records ++ [r]) where
  partitionKeys := by
    rw [partitionKeys_insert, List.map_append]
    exact KeyTable.toList_intern h.partitionKeys r.partitionKey
  explicitHashKeys := by
    rw [explicitHashKeys_insert, List.filterMap_append]
    cases hkey : r.explicitHashKey with
    | none => simpa [hkey] using h.explicitHashKeys
    | some key => simpa [hkey] using KeyTable.toList_intern h.explicitHashKeys key
  records := by
    have hbefore := List.map_congr_left fun other (hother : other ∈ records) =>
      h.placed_insert hother r added
    rw [records_insert, Array.toList_push, List.map_append, hbefore, ← h.records,
      entry_eq_placed a r added]
    rfl

/-! ## What follows for the tables -/

/-- **Every partition key is used** by a record that is buffered. -/
theorem partitionKey_used (h : a.Holds records) {index : Nat}
    (hindex : index < a.partitionKeys.size) :
    ∃ record ∈ a.records.toList, record.partitionKeyIndex = UInt64.ofNat index := by
  obtain ⟨key, hkey, rfl⟩ := KeyTable.exists_idxOf_eq hindex
  rw [h.partitionKeys, List.mem_eraseDups, List.mem_map] at hkey
  obtain ⟨r, hr, rfl⟩ := hkey
  rw [h.records]
  exact ⟨_, List.mem_map_of_mem hr, rfl⟩

/-- And so is every explicit hash key. -/
theorem explicitHashKey_used (h : a.Holds records) {index : Nat}
    (hindex : index < a.explicitHashKeys.size) :
    ∃ record ∈ a.records.toList, record.explicitHashKeyIndex = some (UInt64.ofNat index) := by
  obtain ⟨key, hkey, rfl⟩ := KeyTable.exists_idxOf_eq hindex
  rw [h.explicitHashKeys, List.mem_eraseDups, List.mem_filterMap] at hkey
  obtain ⟨r, hr, hsome⟩ := hkey
  rw [h.records]
  refine ⟨_, List.mem_map_of_mem hr, ?_⟩
  rw [placed, hsome, Option.map_some]

end Holds

/-! ## Histories -/

theorem holds_holding (format : FrameFormat) (maxLength maxRecords : Nat)
    (records : List UserRecord) : (holding format maxLength maxRecords records).Holds records := by
  induction records using List.reverseRecOn with
  | nil => exact ⟨rfl, rfl, rfl⟩
  | append_singleton records r ih =>
    rw [holding_concat]
    exact ih.insert r _

/-- Nothing is handed out only where nothing is held. -/
theorem take_fst_holding_eq_none_iff :
    (holding format maxLength maxRecords records).take.1 = none ↔ records = [] := by
  constructor
  · intro hnone
    by_contra hrecords
    rw [take_holding hrecords] at hnone
    cases hnone
  · rintro rfl
    rw [take_holding_nil]

/-- After a frame is taken, or asked for in vain, an aggregator is as it was
made. -/
theorem take_snd_holding :
    (holding format maxLength maxRecords records).take.2 = empty format maxLength maxRecords := by
  by_cases h : records = []
  · subst h
    rfl
  · rw [take_holding h]
    rfl

/-- **An aggregator is what it accepted since the last frame**, whatever was
pushed, turned away and taken before. Its tables are the distinct keys in the
order of their first appearance, all of them used; its records have the
positions of their own keys, and no tags. It gives the frame of just this, or
none if there are no records, and then goes on as a new one. -/
theorem buffers_run (format : FrameFormat) (maxLength maxRecords : Nat) (calls : List Call) :
    ∃ outcomes a, (empty format maxLength maxRecords).run calls = (outcomes, a) ∧
      a.Holds (waiting outcomes) ∧
      a.partitionKeys.keys.toList.Nodup ∧ a.explicitHashKeys.keys.toList.Nodup ∧
      (∀ index < a.partitionKeys.size,
        ∃ record ∈ a.records.toList, record.partitionKeyIndex = UInt64.ofNat index) ∧
      (∀ index < a.explicitHashKeys.size,
        ∃ record ∈ a.records.toList, record.explicitHashKeyIndex = some (UInt64.ofNat index)) ∧
      (a.take.1 = none ↔ waiting outcomes = []) ∧
      (waiting outcomes ≠ [] → a.take.1 = some (format.encode (AggregatedRecord.encode
        ⟨a.partitionKeys.keys, a.explicitHashKeys.keys, a.records⟩))) ∧
      ∀ later, a.take.2.run later = (empty format maxLength maxRecords).run later := by
  refine ⟨_, _, rfl, ?_⟩
  rw [run_empty]
  generalize waiting _ = records
  have h := holds_holding format maxLength maxRecords records
  refine ⟨h, KeyTable.nodup_keys _, KeyTable.nodup_keys _,
    fun index hindex => h.partitionKey_used hindex,
    fun index hindex => h.explicitHashKey_used hindex, take_fst_holding_eq_none_iff, ?_, ?_⟩
  · intro hrecords
    rw [take_holding hrecords]
    rfl
  · intro later
    rw [take_snd_holding]

end Aggregator

end AggregatedRecords
