import AggregatedRecords.Proofs.Record.Length
import AggregatedRecords.Proofs.Wire.Reads
/-!
# Record — messages are read back

A message of any content is read back from what is written of it, as long as
its length fits 64 bits (`AggregatedRecord.decode_encode`). The proof follows
the schema: each type has a lemma that its fields take the message without
fields to the one that was written.
-/

namespace AggregatedRecords

open Wire

/-- **A tag is read back.** -/
theorem Tag.folds_encode (depth : Nat) {tag : Tag} (h : tag.encode.length < UInt64.size) :
    Folds (Tag.step depth) .empty tag.encode tag := by
  obtain ⟨key, value⟩ := tag
  simp only [Tag.encode, encodeString, List.length_append] at h
  have hkeyLength := length_le_encodeDelimited 1 (Bytes.ofString key)
  have hkey : Takes (Tag.step depth) .empty (encodeString 1 key) ⟨key, none⟩ :=
    takes_field 1 (fun key => Tag.mk key none) (by decide) (by decide) rfl
      (reads_readString 1 (by rw [Bytes.length_ofString] at hkeyLength; omega))
  refine Folds.field hkey ?_
  cases value with
  | none => exact Folds.nil _
  | some value =>
    have hvalueLength := length_le_encodeDelimited 2 (Bytes.ofString value)
    have hvalue : Takes (Tag.step depth) ⟨key, none⟩ (encodeString 2 value) ⟨key, some value⟩ :=
      takes_field 2 (fun value => Tag.mk key (some value)) (by decide) (by decide) rfl
        (reads_readString 2 (by
          simp only [Option.elim_some, encodeString, Bytes.length_ofString] at h hvalueLength
          omega))
    have := Folds.field hvalue (Folds.nil _)
    rwa [List.append_nil] at this

/-- **A record is read back** where a level is left for its tags. -/
theorem Record.folds_encode (depth : Nat) {record : Record}
    (h : record.encode.length < UInt64.size) :
    Folds (Record.step (depth + 1)) .empty record.encode record := by
  obtain ⟨partitionIndex, hashIndex, data, ⟨tags⟩⟩ := record
  simp only [Record.encode, List.length_append] at h
  have hpartition : Takes (Record.step (depth + 1)) .empty (encodeUInt64 1 partitionIndex)
      ⟨partitionIndex, none, [], #[]⟩ :=
    takes_field 1 (fun index => Record.mk index none [] #[]) (by decide) (by decide) rfl
      (reads_readUInt64 1 partitionIndex)
  have hdataLength := length_le_encodeDelimited 3 data
  have hdata : Takes (Record.step (depth + 1)) ⟨partitionIndex, hashIndex, [], #[]⟩
      (encodeDelimited 3 data) ⟨partitionIndex, hashIndex, data, #[]⟩ :=
    takes_field 3 (fun data => Record.mk partitionIndex hashIndex data #[]) (by decide)
      (by decide) rfl (reads_readDelimited 3 (by omega))
  have htags : Folds (Record.step (depth + 1)) ⟨partitionIndex, hashIndex, data, #[]⟩
      (tags.flatMap fun tag => encodeDelimited 4 tag.encode)
      ⟨partitionIndex, hashIndex, data, ⟨tags⟩⟩ := by
    have hreads : ∀ tag ∈ tags, Reads (readEmbedded Tag.step .empty (depth + 1)
        ⟨4, .lengthDelimited⟩) (Varint.encode tag.encode.length ++ tag.encode) tag := by
      intro tag htag
      have htagLength := length_le_of_mem Tag.encode 4 htag
      have hlength : tag.encode.length < UInt64.size := by omega
      exact reads_readEmbedded 4 depth hlength (tag.folds_encode depth hlength)
    have := Folds.repeated (Record.step (depth + 1)) 4
      (Record.mk partitionIndex hashIndex data) (by decide) (by decide) (fun _ => rfl) hreads
      (Folds.nil _)
    rwa [List.append_nil] at this
  -- without a hash key index the data follow the partition key index
  cases hashIndex with
  | none =>
    change Folds _ _ (encodeUInt64 1 partitionIndex ++ (encodeDelimited 3 data ++ _)) _
    exact Folds.field hpartition (Folds.field hdata htags)
  | some index =>
    have hhash : Takes (Record.step (depth + 1)) ⟨partitionIndex, none, [], #[]⟩
        (encodeUInt64 2 index) ⟨partitionIndex, some index, [], #[]⟩ :=
      takes_field 2 (fun index => Record.mk partitionIndex (some index) [] #[]) (by decide)
        (by decide) rfl (reads_readUInt64 2 index)
    exact Folds.field hpartition (Folds.field hhash (Folds.field hdata htags))

/-- **A message is read back** where levels are left for its records and their
tags. -/
theorem AggregatedRecord.folds_encode (depth : Nat) {message : AggregatedRecord}
    (h : message.encode.length < UInt64.size) :
    Folds (AggregatedRecord.step (depth + 2)) .empty message.encode message := by
  obtain ⟨⟨partitionKeys⟩, ⟨hashKeys⟩, ⟨records⟩⟩ := message
  simp only [AggregatedRecord.encode, List.length_append] at h
  -- both tables are read alike, each under the number of its field
  have hkeys (number : Nat) {keys : List String}
      (hlength : (keys.flatMap (encodeString number)).length < UInt64.size) :
      ∀ key ∈ keys, Reads (readString ⟨number, .lengthDelimited⟩)
        (Varint.encode (Bytes.ofString key).length ++ Bytes.ofString key) key := by
    intro key hkey
    have hkeyLength := length_le_of_mem Bytes.ofString number hkey
    exact reads_readString number (Nat.lt_of_le_of_lt hkeyLength hlength)
  have hrecords : ∀ record ∈ records, Reads (readEmbedded Record.step .empty (depth + 2)
      ⟨3, .lengthDelimited⟩) (Varint.encode record.encode.length ++ record.encode) record := by
    intro record hrecord
    have hrecordLength := length_le_of_mem Record.encode 3 hrecord
    have hlength : record.encode.length < UInt64.size := by omega
    exact reads_readEmbedded 3 (depth + 1) hlength (record.folds_encode depth hlength)
  have hpartition : (partitionKeys.flatMap (encodeString 1)).length < UInt64.size := by omega
  have hhash : (hashKeys.flatMap (encodeString 2)).length < UInt64.size := by omega
  have hall : Folds (AggregatedRecord.step (depth + 2)) ⟨⟨partitionKeys⟩, ⟨hashKeys⟩, #[]⟩
      (records.flatMap fun record => encodeDelimited 3 record.encode)
      ⟨⟨partitionKeys⟩, ⟨hashKeys⟩, ⟨records⟩⟩ := by
    have := Folds.repeated (AggregatedRecord.step (depth + 2)) 3
      (AggregatedRecord.mk ⟨partitionKeys⟩ ⟨hashKeys⟩) (by decide) (by decide) (fun _ => rfl)
      hrecords (Folds.nil _)
    rwa [List.append_nil] at this
  exact Folds.repeated _ 1 (fun keys => AggregatedRecord.mk keys #[] #[]) (by decide) (by decide)
    (fun _ => rfl) (hkeys 1 hpartition)
    (Folds.repeated _ 2 (fun keys => AggregatedRecord.mk ⟨partitionKeys⟩ keys #[]) (by decide)
      (by decide) (fun _ => rfl) (hkeys 2 hhash) hall)

/-- **What is written of a message decodes to it**, whatever it holds, if its
length fits 64 bits. -/
theorem AggregatedRecord.decode_encode {message : AggregatedRecord}
    (h : message.encode.length < UInt64.size) : decode message.encode = .ok message :=
  decode_of_folds (AggregatedRecord.folds_encode 98 h)

end AggregatedRecords
