import AggregatedRecords.Proofs.Aggregator.History
import AggregatedRecords.Proofs.Frame
import AggregatedRecords.Proofs.KeyTable
import AggregatedRecords.Proofs.Record.Length
import Mathlib
/-!
# Aggregator — the length of the payload

An aggregator adds up what each record costs and never encodes anything until
it is asked for the frame. The cost of a record is exactly what the encoding of
the message grows by (`Aggregator.encodedLength_insert`): the entries of keys
that are new, and the record's own field with the positions its keys have or
get.

Positions are written in 64 bits, so all of this is said of tables that are no
larger (`Aggregator.Indexable`), as the tables of every message are whose
length fits 64 bits.
-/

namespace AggregatedRecords

namespace Aggregator

open Wire

variable {a : Aggregator} {r : UserRecord} {added : Nat}

/-! ## Tables -/

/-- What the entries of a table take up in the payload. -/
def tableLength (keys : Array String) : Nat :=
  totalLength (keys.toList.map fun key => delimitedLength key.utf8ByteSize)

theorem tableLength_push (keys : Array String) (key : String) :
    tableLength (keys.push key) = tableLength keys + delimitedLength key.utf8ByteSize := by
  rw [tableLength, Array.toList_push, List.map_append, List.map_singleton, totalLength_concat]
  rfl

/-- Every entry takes up something. -/
theorem size_le_tableLength (keys : Array String) : keys.size ≤ tableLength keys := by
  obtain ⟨keys⟩ := keys
  induction keys with
  | nil => exact Nat.zero_le _
  | cons key keys ih =>
    have hentry : 1 ≤ delimitedLength key.utf8ByteSize := by
      simp only [delimitedLength]
      omega
    change keys.length ≤ tableLength ⟨keys⟩ at ih
    change keys.length + 1 ≤ delimitedLength key.utf8ByteSize + tableLength ⟨keys⟩
    omega

/-- The position a cost is computed for is the one that interning gives. -/
theorem keyCost_fst (table : KeyTable) (key : String) :
    (keyCost table key).1 = (table.intern key).1 := by
  unfold keyCost
  cases h : table.indexOf? key with
  | some index => rw [KeyTable.intern_of_some h]
  | none => exact (KeyTable.intern_of_none h).1.symm

/-- **A key costs what its table grows by**: an entry if it is new, and nothing
otherwise. -/
theorem tableLength_intern (table : KeyTable) (key : String) :
    tableLength (table.intern key).2.keys = tableLength table.keys + (keyCost table key).2 := by
  unfold keyCost
  cases h : table.indexOf? key with
  | some index => rw [KeyTable.intern_of_some h, Nat.add_zero]
  | none => rw [(KeyTable.intern_of_none h).2, tableLength_push]

/-! ## Positions that fit 64 bits -/

/-- Tables that no position is too large for. -/
structure Indexable (a : Aggregator) : Prop where
  partitionKeys : a.partitionKeys.size ≤ UInt64.size
  explicitHashKeys : a.explicitHashKeys.size ≤ UInt64.size

/-- Tables were no larger before a record was taken in. -/
theorem Indexable.of_insert (h : (a.insert r added).Indexable) : a.Indexable := by
  obtain ⟨hpartition, hhash⟩ := h
  rw [partitionKeys_insert] at hpartition
  rw [explicitHashKeys_insert] at hhash
  refine ⟨Nat.le_trans (KeyTable.size_le_size_intern _ _) hpartition, ?_⟩
  cases hkey : r.explicitHashKey with
  | none => rwa [hkey] at hhash
  | some key =>
    rw [hkey] at hhash
    exact Nat.le_trans (KeyTable.size_le_size_intern _ _) hhash

/-- The partition key's index is the position that the key stands at. -/
theorem toNat_partitionKeyIndex (h : (a.insert r added).Indexable) :
    (a.entry r).partitionKeyIndex.toNat = (a.partitionKeys.intern r.partitionKey).1 := by
  have hlt := KeyTable.intern_lt_size a.partitionKeys r.partitionKey
  have hle := h.partitionKeys
  rw [partitionKeys_insert] at hle
  exact UInt64.toNat_ofNat_of_lt' (Nat.lt_of_lt_of_le hlt hle)

/-- And so is the explicit hash key's. -/
theorem map_toNat_explicitHashKeyIndex (h : (a.insert r added).Indexable) :
    (a.entry r).explicitHashKeyIndex.map UInt64.toNat =
      r.explicitHashKey.map fun key => (a.explicitHashKeys.intern key).1 := by
  have hle := h.explicitHashKeys
  rw [explicitHashKeys_insert] at hle
  simp only [entry, Option.map_map]
  cases hkey : r.explicitHashKey with
  | none => rfl
  | some key =>
    rw [hkey] at hle
    have hlt := KeyTable.intern_lt_size a.explicitHashKeys key
    simp only [Option.map_some, Function.comp_apply,
      UInt64.toNat_ofNat_of_lt' (Nat.lt_of_lt_of_le hlt hle)]

/-- The tables of a message take up no more than the message. -/
theorem indexable_of_length (h : a.message.encode.length < UInt64.size) : a.Indexable := by
  rw [AggregatedRecord.length_encode] at h
  have hpartition := size_le_tableLength a.partitionKeys.keys
  have hhash := size_le_tableLength a.explicitHashKeys.keys
  simp only [AggregatedRecord.encodedLength, message] at h
  simp only [tableLength] at hpartition hhash
  exact ⟨by simp only [KeyTable.size]; omega, by simp only [KeyTable.size]; omega⟩

/-! ## The cost of a record -/

/-- The cost of a record: what its keys add to the tables, and the field of its
entry. -/
theorem cost_eq (h : (a.insert r added).Indexable) :
    a.cost r =
      (keyCost a.partitionKeys r.partitionKey).2 +
        (r.explicitHashKey.elim 0 fun key => (keyCost a.explicitHashKeys key).2) +
        delimitedLength (a.entry r).encodedLength := by
  have hpartition := toNat_partitionKeyIndex h
  have hhash := map_toNat_explicitHashKeyIndex h
  have hdata : (a.entry r).data = r.data := rfl
  have htags : (a.entry r).tags = #[] := rfl
  have hnone : totalLength (List.map (fun tag : Tag => delimitedLength tag.encodedLength) []) = 0 :=
    rfl
  rw [Record.encodedLength, hpartition, hdata, htags, hnone, ← keyCost_fst]
  unfold cost
  cases hkey : r.explicitHashKey with
  | none =>
    have hindex : (a.entry r).explicitHashKeyIndex = none := by simp [entry, hkey]
    simp only [hindex, Option.elim_none, Nat.add_zero]
  | some key =>
    rw [hkey] at hhash
    -- the position that the cost counts is the one that the entry carries
    obtain ⟨index, hindex, htoNat⟩ := Option.map_eq_some_iff.1 hhash
    simp only [← keyCost_fst] at htoNat
    simp only [hindex, Option.elim_some, htoNat, Nat.add_zero]
    rw [Nat.add_right_comm (uint64Length _)]

/-- **A record costs what the message grows by.** -/
theorem encodedLength_insert (h : (a.insert r added).Indexable) :
    (a.insert r added).message.encodedLength = a.message.encodedLength + a.cost r := by
  have hhash : tableLength (a.insert r added).explicitHashKeys.keys =
      tableLength a.explicitHashKeys.keys +
        r.explicitHashKey.elim 0 fun key => (keyCost a.explicitHashKeys key).2 := by
    rw [explicitHashKeys_insert]
    cases r.explicitHashKey with
    | none => rfl
    | some key => exact tableLength_intern _ _
  -- the tables grow by the new entries, the records by one field, and the cost is their sum
  have hpartition := tableLength_intern a.partitionKeys r.partitionKey
  have hcost := cost_eq h
  simp only [tableLength] at hhash hpartition
  simp only [AggregatedRecord.encodedLength, message, records_insert, partitionKeys_insert,
    Array.toList_push, List.map_append, List.map_singleton, totalLength_concat]
  omega

/-! ## The length of what is buffered -/

variable {format : FrameFormat} {maxLength maxRecords : Nat} {records : List UserRecord}

/-- **The length kept is the length of the message**, whichever records are
held. -/
theorem payloadLength_holding
    (h : (holding format maxLength maxRecords records).Indexable) :
    (holding format maxLength maxRecords records).payloadLength =
      (holding format maxLength maxRecords records).message.encodedLength := by
  induction records using List.reverseRecOn with
  | nil => rfl
  | append_singleton records r ih =>
    rw [holding_concat] at h ⊢
    rw [payloadLength_insert, encodedLength_insert h, ih h.of_insert]

/-- **The book-keeping is exact.** After any calls the payload length kept is
the length of the message that is buffered. So the frame length is that of the
frame taken next, if anything is buffered, and otherwise what surrounds a
payload. -/
theorem frameLength_run (format : FrameFormat) (maxLength maxRecords : Nat) (calls : List Call)
    {a : Aggregator} (ha : ((empty format maxLength maxRecords).run calls).2 = a)
    (hlength : a.message.encode.length < UInt64.size) :
    a.payloadLength = a.message.encode.length ∧
      (a.isEmpty = false → ∃ frame, a.take.1 = some frame ∧ frame.length = a.frameLength) ∧
      (a.isEmpty = true → a.frameLength = format.overhead) := by
  have hindexable := indexable_of_length hlength
  rw [run_empty] at ha
  generalize waiting _ = records at ha
  subst ha
  have hpayload := payloadLength_holding hindexable
  rw [← AggregatedRecord.length_encode] at hpayload
  obtain ⟨hformat, -, -⟩ := settings_holding format maxLength maxRecords records
  refine ⟨hpayload, fun hsome => ?_, fun hnone => ?_⟩
  · have hrecords : records ≠ [] := by
      intro hrecords
      rw [isEmpty_holding.2 hrecords] at hsome
      cases hsome
    refine ⟨_, by rw [take_holding hrecords], ?_⟩
    rw [FrameFormat.length_encode, frameLength, hformat, hpayload]
  · rw [isEmpty_holding] at hnone
    subst hnone
    rfl

/-- So it is after a record was turned away, a frame was taken, and two records
came under one key. -/
theorem frameLength_run_turnedAway :
    ∃ a, ((empty .standard 45 2).run
        [.push ⟨"a", some "b", [1]⟩, .push ⟨"c", some "b", [2, 3, 4, 5]⟩, .take,
          .push ⟨"c", some "b", [2]⟩, .push ⟨"c", none, []⟩]).2 = a ∧
      a.message.encode.length < UInt64.size ∧
      a.payloadLength = a.message.encode.length ∧
      ∃ frame, a.take.1 = some frame ∧ frame.length = a.frameLength := by
  have hlength : ((empty .standard 45 2).run
      [.push ⟨"a", some "b", [1]⟩, .push ⟨"c", some "b", [2, 3, 4, 5]⟩, .take,
        .push ⟨"c", some "b", [2]⟩, .push ⟨"c", none, []⟩]).2.message.encode.length <
      UInt64.size := by
    cbv
  obtain ⟨hpayload, hframe, -⟩ := frameLength_run .standard 45 2 _ rfl hlength
  exact ⟨_, rfl, hlength, hpayload, hframe (by cbv)⟩

end Aggregator

end AggregatedRecords
