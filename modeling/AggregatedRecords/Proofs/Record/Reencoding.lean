import AggregatedRecords.Proofs.Record.RoundTrip
import AggregatedRecords.Proofs.Wire.Pays
/-!
# Record — what was read can be written again

Octets that decode need not be what is written of a message: fields may be
missing, unknown, repeated or out of order, and numbers longer than necessary.
What is written of the message they decode to is never more than three times as
long (`AggregatedRecord.length_encode_le_of_decode`), where the worst there can
be are records without any fields.

So reading, writing and reading again comes back to the same message, and
between messages and what is written of them nothing is lost
(`AggregatedRecord.decode_inverts_encode`).
-/

namespace AggregatedRecords

open Wire

/-! ## Fields of each type -/

/-- **A tag's fields are paid for** by as many octets. -/
theorem Tag.pays_step (depth : Nat) (key : Key) (tag : Tag) :
    Pays 1 (tag.encodedLength + 1) (Tag.step depth key tag) Tag.encodedLength := by
  unfold Tag.step
  split
  · refine ((pays_readString key).put fun s => ?_).within _
    simp only [Tag.encodedLength, delimitedLength_eq]
    omega
  · refine ((pays_readString key).put fun s => ?_).within _
    simp only [Tag.encodedLength, delimitedLength_eq, Option.elim_some]
    omega
  · exact (pays_unchanged 1 _ (skipField depth key)).bind fun _ => pays_pure (Nat.le_succ _)

/-- **A record's fields are paid for** by twice as many, as its tags may lack
their keys. -/
theorem Record.pays_step (depth : Nat) (key : Key) (record : Record) :
    Pays 2 (record.encodedLength + 2) (Record.step depth key record) Record.encodedLength := by
  unfold Record.step
  split
  · refine (((pays_readUInt64 key).at_price (by decide)).put fun index => ?_).within _
    simp only [Record.encodedLength, uint64Length]
    omega
  · refine (((pays_readUInt64 key).at_price (by decide)).put fun index => ?_).within _
    simp only [Record.encodedLength, uint64Length, Option.elim_some]
    omega
  · refine (((pays_readDelimited key).at_price (by decide)).put fun data => ?_).within _
    simp only [Record.encodedLength, delimitedLength_eq]
    omega
  · have htag := pays_readEmbedded .empty depth key (Or.inl rfl) (by decide)
      (Tag.pays_step (depth - 1))
    refine (htag.put fun tag => ?_).within _
    simp only [Record.encodedLength, Array.toList_push, List.map_append, List.map_singleton,
      totalLength_concat]
    omega
  · exact (pays_unchanged 2 _ (skipField depth key)).bind fun _ => pays_pure (Nat.le_add_right _ 2)

/-- **A message's fields are paid for** by three times as many, as its records
may lack an index and their data. -/
theorem AggregatedRecord.pays_step (depth : Nat) (key : Key) (message : AggregatedRecord) :
    Pays 3 (message.encodedLength + 3) (AggregatedRecord.step depth key message)
      AggregatedRecord.encodedLength := by
  unfold AggregatedRecord.step
  split
  · refine (((pays_readString key).at_price (by decide)).put fun entry => ?_).within _
    simp only [AggregatedRecord.encodedLength, delimitedLength_eq, Array.toList_push,
      List.map_append, List.map_singleton, totalLength_concat]
    omega
  · refine (((pays_readString key).at_price (by decide)).put fun entry => ?_).within _
    simp only [AggregatedRecord.encodedLength, delimitedLength_eq, Array.toList_push,
      List.map_append, List.map_singleton, totalLength_concat]
    omega
  · have hrecord := pays_readEmbedded .empty depth key (Or.inr rfl) (by decide)
      (Record.pays_step (depth - 1))
    refine (hrecord.put fun record => ?_).within _
    simp only [AggregatedRecord.encodedLength, Array.toList_push, List.map_append,
      List.map_singleton, totalLength_concat]
    omega
  · exact (pays_unchanged 3 _ (skipField depth key)).bind fun _ => pays_pure (Nat.le_add_right _ 3)

/-! ## Whole payloads -/

/-- **Writing again takes no more than three times the octets** that were
read. -/
theorem AggregatedRecord.length_encode_le_of_decode {payload : Bytes} {message : AggregatedRecord}
    (h : decode payload = .ok message) : message.encode.length ≤ 3 * payload.length := by
  rw [decode, Wire.decode] at h
  cases hrun : (Reader.fields (AggregatedRecord.step depthLimit) 0 .empty).run
      (.ofBytes payload) with
  | error e =>
    rw [hrun] at h
    cases h
  | ok p =>
    rw [hrun] at h
    cases h
    have hpaid := pays_fields (AggregatedRecord.pays_step depthLimit) _ _ _ _ _ hrun
    have hempty : AggregatedRecord.empty.encodedLength = 0 := rfl
    have hsize : (Unread.ofBytes payload).size = payload.length := rfl
    rw [AggregatedRecord.length_encode]
    omega

/-- **Decoding is the inverse of encoding.** A message of any content is read
back from what is written of it, which is as long as it is computed to be. So
whatever octets are accepted, writing what they decode to and reading that gives
the same again, and takes at most three times the octets to write. -/
theorem AggregatedRecord.decode_inverts_encode :
    (∀ message : AggregatedRecord, message.encode.length < UInt64.size →
      decode message.encode = .ok message ∧ message.encodedLength = message.encode.length) ∧
    ∀ (payload : Bytes) (message : AggregatedRecord), decode payload = .ok message →
      message.encode.length ≤ 3 * payload.length ∧
      (message.encode.length < UInt64.size → decode message.encode = .ok message) :=
  ⟨fun message h => ⟨decode_encode h, message.length_encode.symm⟩,
    fun _ _ h => ⟨length_encode_le_of_decode h, decode_encode⟩⟩

/-- So it is with a record that lacks all its fields, of which three times as
much is written as was read. -/
theorem AggregatedRecord.decode_inverts_encode_bareRecord :
    ∃ message, decode [0x1a, 0x00] = .ok message ∧ message.records.toList = [.empty] ∧
      message.encode.length = 3 * 2 ∧ decode message.encode = .ok message := by
  have hrecord : Reads (readEmbedded Record.step .empty depthLimit ⟨3, .lengthDelimited⟩)
      (Varint.encode 0 ++ []) .empty :=
    reads_readEmbedded 3 (depthLimit - 1) (by decide) (Folds.nil _)
  have hfield : Takes (AggregatedRecord.step depthLimit) .empty
      (encodeKey 3 .lengthDelimited ++ (Varint.encode 0 ++ [])) ⟨#[], #[], #[.empty]⟩ :=
    takes_field 3 (fun record => AggregatedRecord.mk #[] #[] #[record]) (by decide) (by decide) rfl
      hrecord
  have hoctets : encodeKey 3 .lengthDelimited ++ (Varint.encode 0 ++ []) ++ [] = [0x1a, 0x00] := by
    cbv
  have hdecode := decode_of_folds (Folds.field hfield (Folds.nil _))
  rw [hoctets] at hdecode
  have hlength : (encode ⟨#[], #[], #[.empty]⟩).length = 3 * 2 := by cbv
  have hagain := (decode_inverts_encode.2 _ _ hdecode).2 (by rw [hlength]; decide)
  exact ⟨_, hdecode, rfl, hlength, hagain⟩

end AggregatedRecords
