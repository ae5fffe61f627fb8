import AggregatedRecords.Proofs.Bytes
import AggregatedRecords.Proofs.Decimal.Word
import AggregatedRecords.Proofs.Rendering.TextFormat
/-!
# Rendering — a message is read back from its text

Whatever its keys, its data and its tags hold, the reader of the text format
gives back the message that was rendered, so different messages have different
texts (`AggregatedRecord.text_lossless`). The proof follows the schema: each type has
a lemma that its lines take the message without fields to the one that was
rendered.
-/

namespace AggregatedRecords

open Pattern (Reader)
open TextFormat

/-! ## Reading -/

/-- Takes a field into a tag. -/
def Tag.textStep (name : String) (tag : Tag) : Reader Tag :=
  match name with
  | "key" => do return { tag with key := ← scalar string? }
  | "value" => do return { tag with value := some (← scalar string?) }
  | _ => Consumer.fail ()

/-- Takes a field into a record. -/
def Record.textStep (name : String) (record : Record) : Reader Record :=
  match name with
  | "partition_key_index" => do
    return { record with partitionKeyIndex := ← scalar Decimal.word? }
  | "explicit_hash_key_index" => do
    return { record with explicitHashKeyIndex := some (← scalar Decimal.word?) }
  | "data" => do return { record with data := ← scalar quoted? }
  | "tags" => do return { record with tags := record.tags.push (← nested Tag.textStep .empty) }
  | _ => Consumer.fail ()

/-- Takes a field into a message. -/
def AggregatedRecord.textStep (name : String) (message : AggregatedRecord) :
    Reader AggregatedRecord :=
  match name with
  | "partition_key_table" => do
    return { message with partitionKeyTable := message.partitionKeyTable.push (← scalar string?) }
  | "explicit_hash_key_table" => do
    return { message with
      explicitHashKeyTable := message.explicitHashKeyTable.push (← scalar string?) }
  | "records" => do
    return { message with records := message.records.push (← nested Record.textStep .empty) }
  | _ => Consumer.fail ()

/-- The message that a text shows. -/
def AggregatedRecord.ofText? (text : String) : Option AggregatedRecord :=
  read? AggregatedRecord.textStep .empty text

/-! ## Reading back -/

variable {α : Type} {step : String → α → Reader α} {message : α} {name : String}

/-- A line with a text is taken in. -/
theorem takes_textLine (indent : Nat) (f : String → α) (value : String)
    (hname : isName name = true) (hstep : step name message = (do return f (← scalar string?))) :
    Takes step message (Rendering.fieldLine indent name (Rendering.quotedText value)) (f value) :=
  takes_fieldLine indent f hname hstep (newline_notMem_quotedBytes _) (string?_quotedText value)

/-- A line with octets is taken in. -/
theorem takes_bytesLine (indent : Nat) (f : Bytes → α) (value : Bytes)
    (hname : isName name = true) (hstep : step name message = (do return f (← scalar quoted?))) :
    Takes step message (Rendering.fieldLine indent name (Rendering.quotedBytes value)) (f value) :=
  takes_fieldLine indent f hname hstep (newline_notMem_quotedBytes _) (quoted?_quotedBytes value)

/-- A line with a number is taken in. -/
theorem takes_numberLine (indent : Nat) (f : UInt64 → α) (value : UInt64)
    (hname : isName name = true)
    (hstep : step name message = (do return f (← scalar Decimal.word?))) :
    Takes step message (Rendering.fieldLine indent name (Nat.toDigits 10 value.toNat))
      (f value) := by
  have hline : '\n' ∉ Nat.toDigits 10 value.toNat := by
    intro hmem
    have hdigit := Nat.isDigit_of_mem_toDigits (by decide) (by decide) hmem
    exact absurd hdigit (by decide)
  exact takes_fieldLine indent f hname hstep hline (Decimal.word?_toDigits value)

/-- **A tag is read back** behind those of its record before it. -/
theorem Tag.takes_tagLines (record : Record) (tag : Tag) :
    Takes Record.textStep record (Rendering.tagLines tag)
      { record with tags := record.tags.push tag } := by
  have hfields : Folds Tag.textStep .empty
      (Rendering.fieldLine 4 "key" (Rendering.quotedText tag.key) ++
        tag.value.elim [] fun value => Rendering.fieldLine 4 "value" (Rendering.quotedText value))
      tag := by
    obtain ⟨key, value⟩ := tag
    have hkey : Takes Tag.textStep .empty (Rendering.fieldLine 4 "key" (Rendering.quotedText key))
        ⟨key, none⟩ :=
      takes_textLine 4 (fun key => Tag.mk key none) key (by decide) rfl
    refine Folds.field hkey ?_
    cases value with
    | none => exact Folds.nil _
    | some value =>
      have hvalue : Takes Tag.textStep ⟨key, none⟩
          (Rendering.fieldLine 4 "value" (Rendering.quotedText value)) ⟨key, some value⟩ :=
        takes_textLine 4 (fun value => Tag.mk key (some value)) value (by decide) rfl
      exact Folds.single hvalue
  have hstep : Record.textStep "tags" record = (do
      return { record with tags := record.tags.push (← nested Tag.textStep .empty) }) := rfl
  exact takes_block 2 (fun tag => { record with tags := record.tags.push tag }) (by decide) hstep
    hfields

/-- **A record is read back** behind those of its message before it. -/
theorem Record.takes_recordLines (message : AggregatedRecord) (record : Record) :
    Takes AggregatedRecord.textStep message (Rendering.recordLines record)
      { message with records := message.records.push record } := by
  have hfields : Folds Record.textStep .empty
      (Rendering.fieldLine 2 "partition_key_index"
          (Nat.toDigits 10 record.partitionKeyIndex.toNat) ++
        ((record.explicitHashKeyIndex.elim [] fun index =>
            Rendering.fieldLine 2 "explicit_hash_key_index" (Nat.toDigits 10 index.toNat)) ++
          (Rendering.fieldLine 2 "data" (Rendering.quotedBytes record.data) ++
            record.tags.toList.flatMap Rendering.tagLines))) record := by
    obtain ⟨partitionIndex, hashIndex, data, ⟨tags⟩⟩ := record
    have hpartition : Takes Record.textStep .empty
        (Rendering.fieldLine 2 "partition_key_index" (Nat.toDigits 10 partitionIndex.toNat))
        ⟨partitionIndex, none, [], #[]⟩ :=
      takes_numberLine 2 (fun index => Record.mk index none [] #[]) partitionIndex (by decide) rfl
    have hdata : Takes Record.textStep ⟨partitionIndex, hashIndex, [], #[]⟩
        (Rendering.fieldLine 2 "data" (Rendering.quotedBytes data))
        ⟨partitionIndex, hashIndex, data, #[]⟩ :=
      takes_bytesLine 2 (fun data => Record.mk partitionIndex hashIndex data #[]) data (by decide)
        rfl
    have htags : Folds Record.textStep ⟨partitionIndex, hashIndex, data, #[]⟩
        (tags.flatMap Rendering.tagLines) ⟨partitionIndex, hashIndex, data, ⟨tags⟩⟩ :=
      Folds.repeated (Record.mk partitionIndex hashIndex data)
        fun _ tag _ => tag.takes_tagLines _
    refine Folds.field hpartition ?_
    cases hashIndex with
    | none =>
      -- nothing is written of an index that is not there
      change Folds _ _ (Rendering.fieldLine 2 "data" _ ++ _) _
      exact Folds.field hdata htags
    | some index =>
      have hhash : Takes Record.textStep ⟨partitionIndex, none, [], #[]⟩
          (Rendering.fieldLine 2 "explicit_hash_key_index" (Nat.toDigits 10 index.toNat))
          ⟨partitionIndex, some index, [], #[]⟩ :=
        takes_numberLine 2 (fun index => Record.mk partitionIndex (some index) [] #[]) index
          (by decide) rfl
      exact Folds.field hhash (Folds.field hdata htags)
  have hstep : AggregatedRecord.textStep "records" message = (do
      return { message with
        records := message.records.push (← nested Record.textStep .empty) }) := rfl
  exact takes_block 0 (fun record => { message with records := message.records.push record })
    (by decide) hstep hfields

/-- **What is shown of a message is read as it.** -/
theorem AggregatedRecord.ofText?_text (message : AggregatedRecord) :
    ofText? (Rendering.text message) = some message := by
  obtain ⟨⟨partitionKeys⟩, ⟨hashKeys⟩, ⟨records⟩⟩ := message
  have hrecords : Folds AggregatedRecord.textStep ⟨⟨partitionKeys⟩, ⟨hashKeys⟩, #[]⟩
      (records.flatMap Rendering.recordLines) ⟨⟨partitionKeys⟩, ⟨hashKeys⟩, ⟨records⟩⟩ :=
    Folds.repeated (AggregatedRecord.mk ⟨partitionKeys⟩ ⟨hashKeys⟩)
      fun _ record _ => record.takes_recordLines _
  have hhash : Folds AggregatedRecord.textStep ⟨⟨partitionKeys⟩, #[], #[]⟩
      (hashKeys.flatMap fun key =>
        Rendering.fieldLine 0 "explicit_hash_key_table" (Rendering.quotedText key))
      ⟨⟨partitionKeys⟩, ⟨hashKeys⟩, #[]⟩ :=
    Folds.repeated (fun keys => AggregatedRecord.mk ⟨partitionKeys⟩ keys #[]) fun done key _ =>
      takes_textLine 0 (fun key => AggregatedRecord.mk ⟨partitionKeys⟩ (done.push key) #[]) key
        (by decide) rfl
  have hpartition : Folds AggregatedRecord.textStep .empty
      (partitionKeys.flatMap fun key =>
        Rendering.fieldLine 0 "partition_key_table" (Rendering.quotedText key))
      ⟨⟨partitionKeys⟩, #[], #[]⟩ :=
    Folds.repeated (fun keys => AggregatedRecord.mk keys #[] #[]) fun done key _ =>
      takes_textLine 0 (fun key => AggregatedRecord.mk (done.push key) #[] #[]) key (by decide) rfl
  exact read?_ofList (hpartition.append (hhash.append hrecords))

/-- **Nothing of a message is lost in its text.** The reader gives back every
message that is shown, and so no two messages have the same text. -/
theorem AggregatedRecord.text_lossless :
    (∀ message : AggregatedRecord, ofText? (Rendering.text message) = some message) ∧
      ∀ message other : AggregatedRecord,
        Rendering.text message = Rendering.text other → message = other := by
  refine ⟨AggregatedRecord.ofText?_text, fun message other htext => ?_⟩
  have hread := congrArg ofText? htext
  rw [ofText?_text, ofText?_text] at hread
  exact Option.some.inj hread

end AggregatedRecords
