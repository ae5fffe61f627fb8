import AggregatedRecords.Proofs.Wire.Fields
import AggregatedRecords.Record.Wire
/-!
# Record — messages by their fields

The schema by itself: what a list of fields is as a tag, as a record and as a
message (`AggregatedRecord.ofFields?`). It says which numbers a type has and
what is made of the values under each of them, and has neither octets nor an
order of reading in it. Reading a payload comes to the same
(`AggregatedRecord.decode_eq_ok_iff`), type by type, the inner ones first.

Nothing in it asks for a field to be there. Whether the fields are there that the
schema requires is a question of its own (`AggregatedRecord.Complete`), and
what is missing has a default (`AggregatedRecord.exists_defaulted`).
-/

namespace AggregatedRecords

open Wire

/-! ## The schema -/

/-- The tag that fields are: the last key, which is the empty text without one,
and the last value. -/
def Tag.ofFields? (fields : List Field) : Option Tag := do
  let keys ← valuesOf Content.text? 1 fields
  let values ← valuesOf Content.text? 2 fields
  return ⟨keys.getLastD "", values.getLast?⟩

/-- The tag that octets are. -/
def Tag.ofOctets? (b : Bytes) : Option Tag := (fieldsAt 2 b).toOption.bind Tag.ofFields?

/-- The record that fields are: the last index of the partition key, which is
zero without one, the last index of the explicit hash key, the last data, which
are empty without any, and all tags. -/
def Record.ofFields? (fields : List Field) : Option Record := do
  let partitionKeyIndexes ← valuesOf Content.uint64? 1 fields
  let explicitHashKeyIndexes ← valuesOf Content.uint64? 2 fields
  let data ← valuesOf Content.octets? 3 fields
  let tags ← valuesOf (fun content => content.octets?.bind Tag.ofOctets?) 4 fields
  return ⟨partitionKeyIndexes.getLastD 0, explicitHashKeyIndexes.getLast?, data.getLastD [],
    tags.toArray⟩

/-- The record that octets are. -/
def Record.ofOctets? (b : Bytes) : Option Record := (fieldsAt 1 b).toOption.bind Record.ofFields?

/-- The message that fields are: all partition keys, all explicit hash keys and
all records. -/
def AggregatedRecord.ofFields? (fields : List Field) : Option AggregatedRecord := do
  let partitionKeys ← valuesOf Content.text? 1 fields
  let explicitHashKeys ← valuesOf Content.text? 2 fields
  let records ← valuesOf (fun content => content.octets?.bind Record.ofOctets?) 3 fields
  return ⟨partitionKeys.toArray, explicitHashKeys.toArray, records.toArray⟩

/-- The message that octets are. -/
def AggregatedRecord.ofOctets? (b : Bytes) : Option AggregatedRecord :=
  (fieldsAt 0 b).toOption.bind AggregatedRecord.ofFields?

/-! ## Field by field -/

/-- What becomes of a tag with one more field. -/
def Tag.take (field : Field) (tag : Tag) : Option Tag :=
  match field.number with
  | 1 => field.content.text?.map fun key => { tag with key := key }
  | 2 => field.content.text?.map fun value => { tag with value := some value }
  | _ => some tag

theorem Tag.absorbs : Absorbs (depthLimit - 2) (Tag.step (depthLimit - 2)) Tag.take := by
  rintro ⟨number, wireType⟩ tag u result rest
  match number with
  | 1 => exact views_readString.run_within _ _
  | 2 => exact views_readString.run_within _ _
  | 0 | _ + 3 => exact views_skipField.run_map _

theorem Tag.ofFields?_concat (fields : List Field) (field : Field) :
    Tag.ofFields? (fields ++ [field]) = (Tag.ofFields? fields).bind (Tag.take field) := by
  obtain ⟨number, content⟩ := field
  simp only [Tag.ofFields?, valuesOf_concat]
  cases valuesOf Content.text? 1 fields <;> cases valuesOf Content.text? 2 fields <;>
    match number with
    | 1 | 2 => cases hview : content.text? <;> simp [Tag.take, hview]
    | 0 | _ + 3 => simp [Tag.take]

/-- **A tag is what its octets are.** -/
theorem Tag.folds_iff {b : Bytes} {tag : Tag} :
    Folds (Tag.step (depthLimit - 2)) .empty b tag ↔ Tag.ofOctets? b = some tag :=
  folds_iff_ofFields Tag.absorbs rfl Tag.ofFields?_concat

/-- What becomes of a record with one more field. -/
def Record.take (field : Field) (record : Record) : Option Record :=
  match field.number with
  | 1 => field.content.uint64?.map fun index => { record with partitionKeyIndex := index }
  | 2 => field.content.uint64?.map fun index => { record with explicitHashKeyIndex := some index }
  | 3 => field.content.octets?.map fun data => { record with data := data }
  | 4 => (field.content.octets?.bind Tag.ofOctets?).map fun tag =>
      { record with tags := record.tags.push tag }
  | _ => some record

theorem Record.absorbs : Absorbs (depthLimit - 1) (Record.step (depthLimit - 1)) Record.take := by
  rintro ⟨number, wireType⟩ record u result rest
  match number with
  | 1 | 2 => exact views_readUInt64.run_within _ _
  | 3 => exact views_readDelimited.run_within _ _
  | 4 => exact (views_readEmbedded Tag.absorbs.isLocal fun _ _ => Tag.folds_iff).run_within _ _
  | 0 | _ + 5 => exact views_skipField.run_map _

theorem Record.ofFields?_concat (fields : List Field) (field : Field) :
    Record.ofFields? (fields ++ [field]) = (Record.ofFields? fields).bind (Record.take field) := by
  obtain ⟨number, content⟩ := field
  simp only [Record.ofFields?, valuesOf_concat]
  cases valuesOf Content.uint64? 1 fields <;> cases valuesOf Content.uint64? 2 fields <;>
    cases valuesOf Content.octets? 3 fields <;>
    cases valuesOf (fun content => content.octets?.bind Tag.ofOctets?) 4 fields <;>
    match number with
    | 1 | 2 => cases hview : content.uint64? <;> simp [Record.take, hview]
    | 3 => cases hview : content.octets? <;> simp [Record.take, hview]
    | 4 => cases hview : content.octets?.bind Tag.ofOctets? <;> simp [Record.take, hview]
    | 0 | _ + 5 => simp [Record.take]

/-- **A record is what its octets are.** -/
theorem Record.folds_iff {b : Bytes} {record : Record} :
    Folds (Record.step (depthLimit - 1)) .empty b record ↔ Record.ofOctets? b = some record :=
  folds_iff_ofFields Record.absorbs rfl Record.ofFields?_concat

/-- What becomes of a message with one more field. -/
def AggregatedRecord.take (field : Field) (message : AggregatedRecord) : Option AggregatedRecord :=
  match field.number with
  | 1 => field.content.text?.map fun key =>
      { message with partitionKeyTable := message.partitionKeyTable.push key }
  | 2 => field.content.text?.map fun key =>
      { message with explicitHashKeyTable := message.explicitHashKeyTable.push key }
  | 3 => (field.content.octets?.bind Record.ofOctets?).map fun record =>
      { message with records := message.records.push record }
  | _ => some message

theorem AggregatedRecord.absorbs :
    Absorbs depthLimit (AggregatedRecord.step depthLimit) AggregatedRecord.take := by
  rintro ⟨number, wireType⟩ message u result rest
  match number with
  | 1 | 2 => exact views_readString.run_within _ _
  | 3 => exact (views_readEmbedded Record.absorbs.isLocal fun _ _ => Record.folds_iff).run_within _ _
  | 0 | _ + 4 => exact views_skipField.run_map _

theorem AggregatedRecord.ofFields?_concat (fields : List Field) (field : Field) :
    AggregatedRecord.ofFields? (fields ++ [field]) =
      (AggregatedRecord.ofFields? fields).bind (AggregatedRecord.take field) := by
  obtain ⟨number, content⟩ := field
  simp only [AggregatedRecord.ofFields?, valuesOf_concat]
  cases valuesOf Content.text? 1 fields <;> cases valuesOf Content.text? 2 fields <;>
    cases valuesOf (fun content => content.octets?.bind Record.ofOctets?) 3 fields <;>
    match number with
    | 1 | 2 => cases hview : content.text? <;> simp [AggregatedRecord.take, hview]
    | 3 => cases hview : content.octets?.bind Record.ofOctets? <;>
        simp [AggregatedRecord.take, hview]
    | 0 | _ + 4 => simp [AggregatedRecord.take]

/-- **A payload decodes to what its fields are.** -/
theorem AggregatedRecord.decode_eq_ok_iff {payload : Bytes} {message : AggregatedRecord} :
    decode payload = .ok message ↔ ofOctets? payload = some message :=
  (Wire.decode_eq_ok_iff AggregatedRecord.absorbs.isLocal).trans
    (folds_iff_ofFields AggregatedRecord.absorbs rfl ofFields?_concat)

/-- And a payload whose fields are no message does not decode. -/
theorem AggregatedRecord.ofOctets?_eq_none_iff {payload : Bytes} :
    ofOctets? payload = none ↔ ∃ cause, decode payload = .error cause := by
  constructor
  · intro h
    cases hdecode : decode payload with
    | error cause => exact ⟨cause, rfl⟩
    | ok message =>
      rw [AggregatedRecord.decode_eq_ok_iff.1 hdecode] at h
      cases h
  · rintro ⟨cause, hcause⟩
    refine Option.eq_none_iff_forall_ne_some.2 fun message hread => ?_
    rw [AggregatedRecord.decode_eq_ok_iff.2 hread] at hcause
    cases hcause

/-! ## Fields that are missing -/

/-- The octets of a tag have the field that is required. -/
def Tag.Complete (b : Bytes) : Prop := Carries 2 b 1

/-- The octets of a record have the fields that are required, and so have those
of its tags. -/
def Record.Complete (b : Bytes) : Prop :=
  Carries 1 b 1 ∧ Carries 1 b 3 ∧
    ∀ fields, fieldsAt 1 b = .ok fields → ∀ tag, ⟨4, .octets tag⟩ ∈ fields → Tag.Complete tag

/-- The records of a payload have the fields that are required. -/
def AggregatedRecord.Complete (payload : Bytes) : Prop :=
  ∀ fields, fieldsAt 0 payload = .ok fields →
    ∀ record, ⟨3, .octets record⟩ ∈ fields → Record.Complete record

theorem Tag.ofOctets?_eq_some_iff {b : Bytes} {tag : Tag} :
    Tag.ofOctets? b = some tag ↔ ∃ fields, fieldsAt 2 b = .ok fields ∧ Tag.ofFields? fields = some tag :=
  fieldsAt_bind_eq_some_iff

theorem Record.ofOctets?_eq_some_iff {b : Bytes} {record : Record} :
    Record.ofOctets? b = some record ↔
      ∃ fields, fieldsAt 1 b = .ok fields ∧ Record.ofFields? fields = some record :=
  fieldsAt_bind_eq_some_iff

theorem AggregatedRecord.ofOctets?_eq_some_iff {b : Bytes} {message : AggregatedRecord} :
    AggregatedRecord.ofOctets? b = some message ↔
      ∃ fields, fieldsAt 0 b = .ok fields ∧ AggregatedRecord.ofFields? fields = some message :=
  fieldsAt_bind_eq_some_iff

/-- A tag without its key has the empty text for it. -/
theorem Tag.key_eq_empty {b : Bytes} {tag : Tag} (h : Tag.ofOctets? b = some tag)
    (hmissing : ¬ Carries 2 b 1) : tag.key = "" := by
  obtain ⟨fields, hfields, hofFields⟩ := Tag.ofOctets?_eq_some_iff.1 h
  simp only [Tag.ofFields?, Option.bind_eq_bind, Option.bind_eq_some_iff] at hofFields
  obtain ⟨keys, hkeys, _, -, ⟨⟩⟩ := hofFields
  rw [valuesOf_of_not_carries _ hfields hmissing] at hkeys
  cases hkeys
  rfl

/-- **What is missing is filled in.** Where the octets of a record lack a field
that is required, the record has its default, and so have its tags. -/
structure Record.Defaulted (b : Bytes) (record : Record) : Prop where
  partitionKeyIndex : ¬ Carries 1 b 1 → record.partitionKeyIndex = 0
  data : ¬ Carries 1 b 3 → record.data = []
  tags : ∀ fields, fieldsAt 1 b = .ok fields → ∀ tag, ⟨4, .octets tag⟩ ∈ fields →
    ∃ read ∈ record.tags.toList, ¬ Tag.Complete tag → read.key = ""

theorem Record.defaulted {b : Bytes} {record : Record} (h : Record.ofOctets? b = some record) :
    Record.Defaulted b record := by
  obtain ⟨fields, hfields, hofFields⟩ := Record.ofOctets?_eq_some_iff.1 h
  simp only [Record.ofFields?, Option.bind_eq_bind, Option.bind_eq_some_iff] at hofFields
  obtain ⟨partitionKeyIndexes, hpartition, _, -, data, hdata, tags, htags, ⟨⟩⟩ := hofFields
  constructor
  · intro hmissing
    rw [valuesOf_of_not_carries _ hfields hmissing] at hpartition
    cases hpartition
    rfl
  · intro hmissing
    rw [valuesOf_of_not_carries _ hfields hmissing] at hdata
    cases hdata
    rfl
  · intro fields' hfields' tag htag
    obtain rfl := Except.ok.inj (hfields.symm.trans hfields')
    obtain ⟨read, hread, htagRead⟩ := exists_mem_of_valuesOf htags htag
    exact ⟨read, by simpa using hread, Tag.key_eq_empty htagRead⟩

/-- Each record of a payload that decodes is in the message, with defaults for
what it lacks. -/
theorem AggregatedRecord.exists_defaulted {payload : Bytes} {message : AggregatedRecord}
    (h : ofOctets? payload = some message) {fields : List Field}
    (hfields : fieldsAt 0 payload = .ok fields) {b : Bytes} (hb : ⟨3, .octets b⟩ ∈ fields) :
    ∃ record ∈ message.records.toList, Record.Defaulted b record := by
  obtain ⟨fields', hfields', hofFields⟩ := AggregatedRecord.ofOctets?_eq_some_iff.1 h
  obtain rfl := Except.ok.inj (hfields.symm.trans hfields')
  simp only [ofFields?, Option.bind_eq_bind, Option.bind_eq_some_iff] at hofFields
  obtain ⟨_, -, _, -, records, hrecords, ⟨⟩⟩ := hofFields
  obtain ⟨record, hrecord, hread⟩ := exists_mem_of_valuesOf hrecords hb
  exact ⟨record, by simpa using hrecord, Record.defaulted hread⟩

/-- The fields of a payload with one partition key and one record. -/
theorem AggregatedRecord.fieldsAt_keyAndRecord {key record : Bytes} (hkey : key.length < UInt64.size)
    (hrecord : record.length < UInt64.size) :
    fieldsAt 0 (encodeDelimited 1 key ++ (encodeDelimited 3 record ++ [])) =
      .ok [⟨1, .octets key⟩, ⟨3, .octets record⟩] :=
  fieldsAt_eq_ok_iff.2 <|
    Folds.field (takes_collect [] (by decide) (by decide) hkey)
      (Folds.field (takes_collect _ (by decide) (by decide) hrecord) (Folds.nil _))

/-- A record may have no fields at all. -/
theorem Record.ofOctets?_nil : Record.ofOctets? [] = some .empty := by
  rw [Record.ofOctets?, fieldsAt_nil]
  rfl

end AggregatedRecords
