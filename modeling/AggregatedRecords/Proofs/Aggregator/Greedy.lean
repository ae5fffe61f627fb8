import AggregatedRecords.Proofs.Aggregator.Contents
import AggregatedRecords.Proofs.Aggregator.RoundTrip
/-!
# Aggregator — batches are as large as the limits allow

A record is turned away when it would make one record too many, or a frame that
really is too long (`Aggregator.isFull_holding_iff`): the length that is foretold
is the one that would be written. So every batch of a list is within the limits
(`Aggregator.withinLimits_of_mem_batches`), and it ends only where the next
record does not fit any more (`Aggregator.isChain_batches`).

A frame is at least as long as the one of any record in it alone
(`Aggregator.length_frameOf_le_of_mem`), so a record that is too long by itself
shares its frame with no other.
-/

namespace AggregatedRecords

namespace Aggregator

open Wire

variable {format : FrameFormat} {maxLength maxRecords : Nat} {records : List UserRecord}

/-! ## Frames -/

/-- There are no more keys of a kind than records. -/
theorem size_tables_holding_le (format : FrameFormat) (maxLength maxRecords : Nat)
    (records : List UserRecord) :
    (holding format maxLength maxRecords records).partitionKeys.size ≤ records.length ∧
      (holding format maxLength maxRecords records).explicitHashKeys.size ≤ records.length := by
  induction records using List.reverseRecOn with
  | nil => exact ⟨Nat.le_refl _, Nat.le_refl _⟩
  | append_singleton records r ih =>
    obtain ⟨hpartition, hhash⟩ := ih
    rw [holding_concat, partitionKeys_insert, explicitHashKeys_insert, List.length_append]
    constructor
    · exact Nat.le_trans (KeyTable.size_intern_le _ _) (Nat.succ_le_succ hpartition)
    · cases r.explicitHashKey with
      | none => exact Nat.le_succ_of_le hhash
      | some key => exact Nat.le_trans (KeyTable.size_intern_le _ _) (Nat.succ_le_succ hhash)

/-- So positions fit 64 bits as long as the number of records does. -/
theorem indexable_holding (h : records.length ≤ UInt64.size) :
    (holding format maxLength maxRecords records).Indexable := by
  obtain ⟨hpartition, hhash⟩ := size_tables_holding_le format maxLength maxRecords records
  exact ⟨Nat.le_trans hpartition h, Nat.le_trans hhash h⟩

/-- **The frame of the records held is as long as it is said to be.** -/
theorem length_frameOf (h : (holding format maxLength maxRecords records).Indexable) :
    (frameOf format maxLength maxRecords records).length =
      (holding format maxLength maxRecords records).frameLength := by
  obtain ⟨hformat, -, -⟩ := settings_holding format maxLength maxRecords records
  rw [frameOf, FrameFormat.length_encode, AggregatedRecord.length_encode, frameLength, hformat,
    payloadLength_holding h]

/-- Aggregators that hold the same records have the same message. -/
theorem Holds.message_eq {a b : Aggregator} (ha : a.Holds records) (hb : b.Holds records) :
    a.message = b.message := by
  have hpartition : a.partitionKeys.keys = b.partitionKeys.keys :=
    Array.toList_inj.1 (ha.partitionKeys.trans hb.partitionKeys.symm)
  have hhash : a.explicitHashKeys.keys = b.explicitHashKeys.keys :=
    Array.toList_inj.1 (ha.explicitHashKeys.trans hb.explicitHashKeys.symm)
  have hrecords : a.records = b.records := by
    refine Array.toList_inj.1 ?_
    rw [ha.records, hb.records, hpartition, hhash]
  rw [message, message, hpartition, hhash, hrecords]

/-- **The frame of records is the one that is taken**, from an aggregator with
any limits, after any calls that leave it with just these. -/
theorem take_eq_frameOf {limit count : Nat} {calls : List Call} {outcomes : List Outcome}
    {a : Aggregator} (hrun : (empty format limit count).run calls = (outcomes, a))
    (hrecords : waiting outcomes ≠ []) (maxLength maxRecords : Nat) :
    a.take.1 = some (frameOf format maxLength maxRecords (waiting outcomes)) := by
  obtain rfl : ((empty format limit count).run calls).1 = outcomes := by rw [hrun]
  obtain rfl : ((empty format limit count).run calls).2 = a := by rw [hrun]
  generalize hwaiting : waiting _ = records at hrecords ⊢
  rw [run_empty, hwaiting, take_holding hrecords, frameOf,
    (holds_holding format limit count records).message_eq
      (holds_holding format maxLength maxRecords records)]

/-! ## A record alone -/

/-- The length of the message of a record by itself: the entries of its keys,
and the field of its entry with the first positions. -/
def lengthAlone (r : UserRecord) : Nat :=
  delimitedLength r.partitionKey.utf8ByteSize +
    (r.explicitHashKey.elim 0 fun key => delimitedLength key.utf8ByteSize) +
    delimitedLength (placed [] [] r).encodedLength

/-- The first positions are the shortest. -/
theorem encodedLength_placed_le (partitionKeys hashKeys : List String) (r : UserRecord) :
    (placed [] [] r).encodedLength ≤ (placed partitionKeys hashKeys r).encodedLength := by
  have hindex (index : UInt64) : uint64Length (UInt64.ofNat 0).toNat ≤ uint64Length index.toNat :=
    Nat.add_le_add_left (Varint.encodedLength_mono (Nat.zero_le _)) 1
  have hpartition := hindex (UInt64.ofNat (partitionKeys.idxOf r.partitionKey))
  simp only [Record.encodedLength, placed, List.idxOf_nil]
  cases r.explicitHashKey with
  | none =>
    simp only [Option.map_none, Option.elim_none]
    omega
  | some key =>
    have hhash := hindex (UInt64.ofNat (hashKeys.idxOf key))
    simp only [Option.map_some, Option.elim_some]
    omega

/-- **A message is at least as long as one of its records alone.** -/
theorem Holds.lengthAlone_le {a : Aggregator} {r : UserRecord} (h : a.Holds records)
    (hr : r ∈ records) : lengthAlone r ≤ a.message.encodedLength := by
  have hpartition := le_totalLength
    (List.mem_map_of_mem (f := fun key => delimitedLength key.utf8ByteSize)
      (h.partitionKey_mem hr))
  have hhash : (r.explicitHashKey.elim 0 fun key => delimitedLength key.utf8ByteSize) ≤
      totalLength (a.explicitHashKeys.keys.toList.map
        fun key => delimitedLength key.utf8ByteSize) := by
    cases hkey : r.explicitHashKey with
    | none => exact Nat.zero_le _
    | some key =>
      exact le_totalLength
        (List.mem_map_of_mem (f := fun key => delimitedLength key.utf8ByteSize)
          (h.explicitHashKey_mem hr hkey))
  have hentry : placed a.partitionKeys.keys.toList a.explicitHashKeys.keys.toList r ∈
      a.records.toList := by
    rw [h.records]
    exact List.mem_map_of_mem hr
  have hrecord := le_totalLength
    (List.mem_map_of_mem (f := fun record : Record => delimitedLength record.encodedLength)
      hentry)
  have hplaced := delimitedLength_mono
    (encodedLength_placed_le a.partitionKeys.keys.toList a.explicitHashKeys.keys.toList r)
  simp only [lengthAlone, AggregatedRecord.encodedLength, message]
  omega

/-- And its message is as long as that where it is the only one. -/
theorem encodedLength_holding_singleton (r : UserRecord) :
    (holding format maxLength maxRecords [r]).message.encodedLength = lengthAlone r := by
  obtain ⟨hpartition, hhash, hrecords⟩ := holds_holding format maxLength maxRecords [r]
  have hplaced : placed (holding format maxLength maxRecords [r]).partitionKeys.keys.toList
      (holding format maxLength maxRecords [r]).explicitHashKeys.keys.toList r =
        placed [] [] r := by
    rw [hpartition, hhash]
    cases hkey : r.explicitHashKey <;> simp [placed, hkey, List.eraseDups_cons]
  simp only [AggregatedRecord.encodedLength, message, hrecords, List.map_singleton, hplaced]
  rw [hpartition, hhash]
  cases hkey : r.explicitHashKey <;>
    simp [lengthAlone, totalLength, hkey, List.eraseDups_cons]

/-- **A frame is at least as long as the one of any record in it alone.** -/
theorem length_frameOf_le_of_mem (format : FrameFormat) (maxLength maxRecords : Nat)
    {records : List UserRecord} {r : UserRecord} (h : r ∈ records) :
    (frameOf format maxLength maxRecords [r]).length ≤
      (frameOf format maxLength maxRecords records).length := by
  have hlength := (holds_holding format maxLength maxRecords records).lengthAlone_le h
  simp only [frameOf, FrameFormat.length_encode, AggregatedRecord.length_encode,
    encodedLength_holding_singleton]
  exact Nat.add_le_add_left hlength _

/-! ## Records that do not fit -/

/-- **Records do not fit** into one frame when they are too many, or when the
frame is too long. -/
def Exceeds (format : FrameFormat) (maxLength maxRecords : Nat) (records : List UserRecord) :
    Prop :=
  max maxRecords 1 < records.length ∨
    maxLength < (frameOf format maxLength maxRecords records).length

/-- **A record is turned away exactly when it does not fit** with those that are
held, if there are any. -/
theorem isFull_holding_iff {r : UserRecord}
    (h : (holding format maxLength maxRecords (records ++ [r])).Indexable) :
    (holding format maxLength maxRecords records).isFull
        ((holding format maxLength maxRecords records).cost r) = true ↔
      records ≠ [] ∧ Exceeds format maxLength maxRecords (records ++ [r]) := by
  obtain ⟨hformat, hmaxLength, hmaxRecords⟩ :=
    settings_holding format maxLength maxRecords records
  have hempty : (holding format maxLength maxRecords records).isEmpty = false ↔ records ≠ [] := by
    rw [← Bool.not_eq_true, isEmpty_holding]
  have hlength : (frameOf format maxLength maxRecords (records ++ [r])).length =
      (holding format maxLength maxRecords records).frameLength +
        (holding format maxLength maxRecords records).cost r := by
    rw [length_frameOf h, holding_concat, frameLength, format_insert, payloadLength_insert,
      ← Nat.add_assoc, frameLength]
  simp only [isFull, Exceeds, hlength, size, size_holding, hmaxLength, hmaxRecords,
    List.length_append, List.length_singleton, Bool.and_eq_true, Bool.or_eq_true,
    decide_eq_true_eq, Bool.not_eq_true', hempty, Nat.lt_succ_iff]

/-! ## Batches -/

/-- **A batch within the limits**: it has at least one record and not too many,
and its frame is too long only if it is of a single record. -/
structure WithinLimits (format : FrameFormat) (maxLength maxRecords : Nat)
    (part : List UserRecord) : Prop where
  nonempty : part ≠ []
  length_le : part.length ≤ max maxRecords 1
  length_frame_le :
    2 ≤ part.length → (frameOf format maxLength maxRecords part).length ≤ maxLength

/-- A record alone is within any limits. -/
theorem withinLimits_singleton (format : FrameFormat) (maxLength maxRecords : Nat)
    (r : UserRecord) : WithinLimits format maxLength maxRecords [r] where
  nonempty := List.cons_ne_nil _ _
  length_le := Nat.le_max_right _ _
  length_frame_le h := absurd h (by simp)

/-- The records that wait are a batch within the limits, if there are any. -/
def Pending (format : FrameFormat) (maxLength maxRecords : Nat) (records : List UserRecord) :
    Prop :=
  records ≠ [] → WithinLimits format maxLength maxRecords records

/-- The number of records that wait fits 64 bits. -/
theorem Pending.length_lt (hmax : maxRecords < UInt64.size)
    (h : Pending format maxLength maxRecords records) : records.length < UInt64.size := by
  by_cases hrecords : records = []
  · subst hrecords
    decide
  · have hlength := (h hrecords).length_le
    have hone : 1 < UInt64.size := by decide
    omega

/-- So the positions do with the record that comes next. -/
theorem Pending.indexable (hmax : maxRecords < UInt64.size)
    (h : Pending format maxLength maxRecords records) (r : UserRecord) :
    (holding format maxLength maxRecords (records ++ [r])).Indexable := by
  refine indexable_holding ?_
  rw [List.length_append, List.length_singleton]
  exact h.length_lt hmax

/-- **A record that is not turned away** leaves a batch within the limits. -/
theorem Pending.concat (hmax : maxRecords < UInt64.size)
    (h : Pending format maxLength maxRecords records) {r : UserRecord}
    (hfits : (holding format maxLength maxRecords records).isFull
      ((holding format maxLength maxRecords records).cost r) = false) :
    Pending format maxLength maxRecords (records ++ [r]) := by
  intro _
  by_cases hrecords : records = []
  · subst hrecords
    exact withinLimits_singleton format maxLength maxRecords r
  · rw [← Bool.not_eq_true, isFull_holding_iff (h.indexable hmax r)] at hfits
    have hlimits : ¬ Exceeds format maxLength maxRecords (records ++ [r]) :=
      fun hexceeds => hfits ⟨hrecords, hexceeds⟩
    rw [Exceeds, not_or, Nat.not_lt, Nat.not_lt] at hlimits
    exact ⟨by simp, hlimits.1, fun _ => hlimits.2⟩

/-- **Every batch is within the limits.** -/
theorem withinLimits_of_mem_batches (hmax : maxRecords < UInt64.size)
    {pending records part : List UserRecord}
    (hpending : Pending format maxLength maxRecords pending)
    (hpart : part ∈ batches format maxLength maxRecords pending records) :
    WithinLimits format maxLength maxRecords part := by
  induction records generalizing pending with
  | nil =>
    cases pending with
    | nil => simp [batches] at hpart
    | cons r pending =>
      obtain rfl : part = r :: pending := by simpa [batches] using hpart
      exact hpending (List.cons_ne_nil _ _)
  | cons r records ih =>
    rw [batches] at hpart
    split at hpart
    · next hfull =>
      rcases List.mem_cons.1 hpart with rfl | hpart
      · exact hpending (ne_nil_of_isFull hfull)
      · exact ih (fun _ => withinLimits_singleton format maxLength maxRecords r) hpart
    · next hfits => exact ih (hpending.concat hmax (Bool.eq_false_of_not_eq_true hfits)) hpart

/-- The first batch begins with the records that wait, or else with the first
one that comes. -/
theorem head?_batches (format : FrameFormat) (maxLength maxRecords : Nat) (r : UserRecord)
    (pending records : List UserRecord) :
    ∃ part, (batches format maxLength maxRecords (r :: pending) records).head? = some part ∧
      part.head? = some r := by
  induction records generalizing pending with
  | nil => exact ⟨r :: pending, rfl, rfl⟩
  | cons next records ih =>
    rw [batches]
    split
    · exact ⟨r :: pending, rfl, rfl⟩
    · exact ih _

/-- **A batch ends only where the next record does not fit.** -/
theorem isChain_batches (hmax : maxRecords < UInt64.size) {pending : List UserRecord}
    (hpending : Pending format maxLength maxRecords pending) (records : List UserRecord) :
    (batches format maxLength maxRecords pending records).IsChain fun first second =>
      ∃ r, second.head? = some r ∧ Exceeds format maxLength maxRecords (first ++ [r]) := by
  induction records generalizing pending with
  | nil =>
    rw [batches]
    split
    · exact List.IsChain.nil
    · exact List.IsChain.singleton _
  | cons r records ih =>
    rw [batches]
    split
    · next hfull =>
      have hexceeds := ((isFull_holding_iff (hpending.indexable hmax r)).1 hfull).2
      refine (ih fun _ => withinLimits_singleton format maxLength maxRecords r).cons ?_
      -- the batch behind the cut begins with the record that was turned away
      intro second hsecond
      obtain ⟨part, hpart, hhead⟩ := head?_batches format maxLength maxRecords r [] records
      obtain rfl : part = second := Option.some.inj (hpart.symm.trans hsecond)
      exact ⟨r, hhead, hexceeds⟩
    · next hfits => exact ih (hpending.concat hmax (Bool.eq_false_of_not_eq_true hfits))

end Aggregator

/-- **Aggregating is greedy within its limits.** The list is cut into parts, one
for each frame, which opens to a message of just these records. A part has at
least one record and at most as many as are allowed, and where it has several
its frame is no longer than allowed. With the first record of the next part it
would have one record too many, or the frame of both would be too long. So a
record that is too long alone stays alone. The frame of some records is here the
one that any aggregator gives which holds just these. -/
theorem aggregateAll_greedy (records : List UserRecord) (maxLength maxRecords : UInt64) :
    ∃ parts : List (List UserRecord),
      parts.flatten = records ∧
      List.Forall₂
        (fun frame part =>
          frame = Aggregator.frameOf .standard maxLength.toNat maxRecords.toNat part ∧
          (∃ message, FrameFormat.standardPayloadOf frame = .ok message.encode ∧
            (message.encode.length < UInt64.size →
              AggregatedRecord.decode message.encode = .ok message) ∧
            message.records.size = part.length ∧ message.deaggregate = .ok part) ∧
          1 ≤ part.length ∧ part.length ≤ max maxRecords.toNat 1 ∧
          (2 ≤ part.length → frame.length ≤ maxLength.toNat))
        (aggregateAll records maxLength.toNat maxRecords.toNat) parts ∧
      (parts.IsChain fun first second => ∃ r, second.head? = some r ∧
        (max maxRecords.toNat 1 < (first ++ [r]).length ∨
          maxLength.toNat < (Aggregator.frameOf .standard maxLength.toNat maxRecords.toNat
            (first ++ [r])).length)) ∧
      (∀ part ∈ parts, ∀ r ∈ part,
        maxLength.toNat < (Aggregator.frameOf .standard maxLength.toNat maxRecords.toNat
          [r]).length → part = [r]) ∧
      ∀ (limit count : Nat) (calls : List Aggregator.Call) (outcomes : List Aggregator.Outcome)
        (a : Aggregator), (Aggregator.empty .standard limit count).run calls = (outcomes, a) →
          Aggregator.waiting outcomes ≠ [] →
            a.take.1 = some (Aggregator.frameOf .standard maxLength.toNat maxRecords.toNat
              (Aggregator.waiting outcomes)) := by
  have hmax : maxRecords.toNat < UInt64.size := maxRecords.toNat_lt
  have hstart : Aggregator.Pending .standard maxLength.toNat maxRecords.toNat [] :=
    fun h => absurd rfl h
  have hlimits {part : List UserRecord} (hpart : part ∈ Aggregator.batches .standard
      maxLength.toNat maxRecords.toNat [] records) :=
    Aggregator.withinLimits_of_mem_batches hmax hstart hpart
  refine ⟨_, Aggregator.flatten_batches [] records, ?_,
    Aggregator.isChain_batches hmax hstart records, ?_,
    fun limit count calls outcomes a hrun hrecords =>
      Aggregator.take_eq_frameOf hrun hrecords maxLength.toNat maxRecords.toNat⟩
  · rw [aggregateAll_eq_map_batches, List.forall₂_map_left_iff, List.forall₂_same]
    intro part hpart
    obtain ⟨hnonempty, hlength, hframe⟩ := hlimits hpart
    have hindexable : (Aggregator.holding .standard maxLength.toNat maxRecords.toNat
        part).Indexable := by
      refine Aggregator.indexable_holding ?_
      have hone : 1 < UInt64.size := by decide
      omega
    refine ⟨rfl, ⟨_, ?_, AggregatedRecord.decode_encode, Aggregator.size_message_holding,
      Aggregator.deaggregate_holding hindexable⟩, List.length_pos_of_ne_nil hnonempty, hlength,
      hframe⟩
    rw [Aggregator.frameOf, FrameFormat.standardPayloadOf, FrameFormat.parse_encode]
    rfl
  · intro part hpart r hr hlong
    have hfits := (hlimits hpart).length_frame_le
    -- with several records the frame would be as long as the one of this record at least
    have hle := Aggregator.length_frameOf_le_of_mem .standard maxLength.toNat maxRecords.toNat hr
    have hone : part.length = 1 := by
      have hpos := List.length_pos_of_mem hr
      by_contra hseveral
      have := hfits (by omega)
      omega
    obtain ⟨only, rfl⟩ := List.length_eq_one_iff.1 hone
    rw [List.mem_singleton.1 hr]

end AggregatedRecords
