import AggregatedRecords.Record.Wire
/-!
# Record — lengths on the wire

The lengths of varints, fields and messages are computed without writing
anything. This file proves that they are what is written
(`AggregatedRecord.length_encode`). What a field holds is no longer than the
message it is part of, so a bound on the message is one on everything in it
(`length_le_encodeDelimited`, `length_le_of_mem`).
-/

namespace AggregatedRecords

open Wire

/-! ## Varints and fields -/

namespace Wire

/-- Seven bits more are seven more in the logarithm. -/
theorem log2_div_128 {n : Nat} (h : 128 ≤ n) : n.log2 = (n / 128).log2 + 7 := by
  have hne : n / 128 ≠ 0 := by omega
  have hlow : 2 ^ (n / 128).log2 ≤ n / 128 := Nat.log2_self_le hne
  have hhigh : n / 128 < 2 ^ ((n / 128).log2 + 1) := Nat.lt_log2_self
  refine (Nat.log2_eq_iff (by omega)).2 ⟨?_, ?_⟩
  · rw [Nat.pow_add]
    omega
  · rw [show (n / 128).log2 + 7 + 1 = (n / 128).log2 + 1 + 7 by omega, Nat.pow_add]
    omega

/-- **The length of a varint is one octet for every seven bits.** -/
theorem Varint.length_encode (n : Nat) : (Varint.encode n).length = Varint.encodedLength n := by
  fun_induction Varint.encode n with
  | case1 n h =>
    have hlog : n.log2 < 7 := by
      rcases Nat.eq_zero_or_pos n with rfl | hpos
      · simp
      · exact (Nat.log2_lt (by omega)).2 h
    rw [Varint.encodedLength, Nat.div_eq_of_lt hlog]
    rfl
  | case2 n h ih =>
    have hlog := log2_div_128 (Nat.not_lt.1 h)
    rw [List.length_cons, ih, Varint.encodedLength, Varint.encodedLength, hlog]
    omega

/-- A larger number is no shorter. -/
theorem Varint.encodedLength_mono {m n : Nat} (h : m ≤ n) :
    Varint.encodedLength m ≤ Varint.encodedLength n := by
  have hlog : m.log2 ≤ n.log2 := by
    rcases Nat.eq_zero_or_pos m with rfl | hpos
    · simp
    · exact (Nat.le_log2 (by omega)).2 (Nat.le_trans (Nat.log2_self_le (by omega)) h)
  exact Nat.succ_le_succ (Nat.div_le_div_right hlog)

/-- And neither is the field of a longer value. -/
theorem delimitedLength_mono {m n : Nat} (h : m ≤ n) : delimitedLength m ≤ delimitedLength n := by
  have hvarint := Varint.encodedLength_mono h
  simp only [delimitedLength]
  omega

/-- A key of a message type takes up one octet. -/
theorem length_encodeKey {number : Nat} (wireType : WireType) (h : number < 16) :
    (encodeKey number wireType).length = 1 := by
  have hlow : wireType.number < 8 := by cases wireType <;> decide
  have hsize : Key.toNat ⟨number, wireType⟩ < 128 := by
    change number * 8 + wireType.number < 128
    omega
  rw [encodeKey, Varint.encode, if_pos hsize]
  rfl

theorem length_encodeUInt64 {number : Nat} (value : UInt64) (h : number < 16) :
    (encodeUInt64 number value).length = uint64Length value.toNat := by
  rw [encodeUInt64, List.length_append, length_encodeKey _ h, Varint.length_encode, uint64Length]

theorem length_encodeDelimited {number : Nat} (value : Bytes) (h : number < 16) :
    (encodeDelimited number value).length = delimitedLength value.length := by
  rw [encodeDelimited, List.length_append, List.length_append, length_encodeKey _ h,
    Varint.length_encode, delimitedLength]
  omega

theorem length_encodeString {number : Nat} (value : String) (h : number < 16) :
    (encodeString number value).length = delimitedLength value.utf8ByteSize := by
  rw [encodeString, length_encodeDelimited _ h, Bytes.length_ofString]

/-- Fields one after the other are as long as all of them together. -/
theorem length_flatMap {α : Type} {encode : α → Bytes} {length : α → Nat} (values : List α)
    (h : ∀ value, (encode value).length = length value) :
    (values.flatMap encode).length = totalLength (values.map length) := by
  rw [List.length_flatMap, funext h]
  rfl

/-- Lengths with one more at their end. -/
theorem totalLength_concat (lengths : List Nat) (length : Nat) :
    totalLength (lengths ++ [length]) = totalLength lengths + length := by
  induction lengths with
  | nil => simp [totalLength]
  | cons first lengths ih =>
    change first + totalLength (lengths ++ [length]) = first + totalLength lengths + length
    omega

/-- A single length is at most all of them together. -/
theorem le_totalLength {lengths : List Nat} {length : Nat} (h : length ∈ lengths) :
    length ≤ totalLength lengths := by
  induction lengths with
  | nil => cases h
  | cons first lengths ih =>
    change length ≤ first + totalLength lengths
    rcases List.mem_cons.1 h with rfl | h
    · exact Nat.le_add_right _ _
    · exact Nat.le_trans (ih h) (Nat.le_add_left _ _)

/-- A value is no longer than its field. -/
theorem length_le_encodeDelimited (number : Nat) (value : Bytes) :
    value.length ≤ (encodeDelimited number value).length := by
  simp only [encodeDelimited, List.length_append]
  omega

/-- A value of a repeated field is no longer than all of its values. -/
theorem length_le_of_mem {α : Type} (encode : α → Bytes) (number : Nat) {values : List α}
    {value : α} (h : value ∈ values) :
    (encode value).length ≤
      (values.flatMap fun value => encodeDelimited number (encode value)).length := by
  have hfield := (List.sublist_flatten_of_mem
    (List.mem_map_of_mem (f := fun value => encodeDelimited number (encode value)) h)).length_le
  rw [List.flatMap_def]
  exact Nat.le_trans (length_le_encodeDelimited number (encode value)) hfield

end Wire

/-! ## Messages -/

theorem Tag.length_encode (tag : Tag) : tag.encode.length = tag.encodedLength := by
  rw [Tag.encode, Tag.encodedLength, List.length_append, length_encodeString _ (by decide)]
  cases tag.value with
  | none => rfl
  | some value => simp only [Option.elim_some, length_encodeString _ (show 2 < 16 by decide)]

theorem Record.length_encode (record : Record) : record.encode.length = record.encodedLength := by
  have htags := length_flatMap record.tags.toList fun tag =>
    (length_encodeDelimited tag.encode (show 4 < 16 by decide)).trans
      (congrArg delimitedLength tag.length_encode)
  have hindex : (record.explicitHashKeyIndex.elim [] (encodeUInt64 2)).length =
      record.explicitHashKeyIndex.elim 0 fun index => uint64Length index.toNat := by
    cases record.explicitHashKeyIndex with
    | none => rfl
    | some index => simp only [Option.elim_some, length_encodeUInt64 _ (show 2 < 16 by decide)]
  rw [Record.encode, Record.encodedLength, List.length_append, List.length_append,
    List.length_append, length_encodeUInt64 _ (by decide), length_encodeDelimited _ (by decide),
    htags, hindex]
  omega

/-- **The length of a message is what is written of it.** -/
theorem AggregatedRecord.length_encode (message : AggregatedRecord) :
    message.encode.length = message.encodedLength := by
  have hkeys (number : Nat) (h : number < 16) (table : Array String) :
      (table.toList.flatMap (encodeString number)).length =
        totalLength (table.toList.map fun key => delimitedLength key.utf8ByteSize) :=
    length_flatMap table.toList fun key => length_encodeString key h
  have hrecords := length_flatMap message.records.toList fun record =>
    (length_encodeDelimited record.encode (show 3 < 16 by decide)).trans
      (congrArg delimitedLength record.length_encode)
  rw [AggregatedRecord.encode, AggregatedRecord.encodedLength, List.length_append,
    List.length_append, hkeys 1 (by decide), hkeys 2 (by decide), hrecords]
  omega

end AggregatedRecords
