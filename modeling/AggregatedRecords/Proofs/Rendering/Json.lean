import AggregatedRecords.Proofs.Base64.RoundTrip
import AggregatedRecords.Proofs.Json.Tokens
import AggregatedRecords.Rendering.Json
import Mathlib.Data.List.Forall2
/-!
# Rendering — a message is read back from its JSON form

Messages and user records are read off documents member by member, data from
Base64 and what has no member as absent. The document of what is rendered gives
back the same, type by type, so nothing is lost (`Rendering.json_lossless`):
neither whether a key is absent or empty, nor any bit of an index, nor an octet
of data that is no text.
-/

namespace AggregatedRecords

open Json Document

/-! ## Reading -/

/-- The data that a document gives in Base64. -/
def dataOf? (document : Document) : Option Bytes := do
  (Base64.decodeText (← document.requiredAt "base64" string?)).toOption

/-- The tag that a document is. -/
def Tag.ofDocument? (document : Document) : Option Tag := do
  return ⟨← document.requiredAt "key" string?, ← document.optionalAt "value" string?⟩

/-- The record that a document is. -/
def Record.ofDocument? (document : Document) : Option Record := do
  let tags ← document.optionalAt "tags" (array? Tag.ofDocument?)
  return ⟨← document.requiredAt "partition_key_index" uint64?,
    ← document.optionalAt "explicit_hash_key_index" uint64?,
    ← document.requiredAt "data" dataOf?, (tags.getD []).toArray⟩

/-- The message that a document is. -/
def AggregatedRecord.ofDocument? (document : Document) : Option AggregatedRecord := do
  let partitionKeys ← document.requiredAt "partition_key_table" (array? string?)
  let explicitHashKeys ← document.requiredAt "explicit_hash_key_table" (array? string?)
  let records ← document.requiredAt "records" (array? Record.ofDocument?)
  return ⟨partitionKeys.toArray, explicitHashKeys.toArray, records.toArray⟩

/-- The user record that a document is. -/
def UserRecord.ofDocument? (document : Document) : Option UserRecord := do
  return ⟨← document.requiredAt "partition_key" string?,
    ← document.optionalAt "explicit_hash_key" string?, ← document.requiredAt "data" dataOf?⟩

/-- Data is shown as a text exactly if it is one, and then as that one. -/
def ShowsText (document : Document) (data : Bytes) : Prop :=
  (document.valuesAt "text" ≠ [] ↔ ∃ s, Bytes.ofString s = data) ∧
    ∀ value ∈ document.valuesAt "text", ∃ s, value = .string s ∧ Bytes.ofString s = data

namespace Rendering

/-! ## Reading back -/

variable {α β : Type}

/-- **Items that are read back** make an array that is. -/
theorem array?_map {f : α → Value} {read : Document → Option β} {g : α → β}
    (h : ∀ a, read (f a).document = some (g a)) (l : List α) :
    (Value.array (l.map f)).document.array? read = some (l.map g) := by
  have hread : (read ∘ Value.document) ∘ f = fun a => pure (g a) := funext h
  rw [Value.document, array?, itemDocuments_eq_map, List.mapM_map, List.mapM_map, hread]
  exact List.mapM_pure

theorem document_string (s : String) : (Value.string s).document = .string s := rfl

theorem string?_string (s : String) : (Value.string s).document.string? = some s := rfl

theorem array?_strings (texts : List String) :
    (Value.strings texts).document.array? string? = some texts := by
  rw [Value.strings, array?_map (g := id) string?_string, List.map_id]

theorem uint64?_natural (n : UInt64) : (Value.natural n.toNat).document.uint64? = some n := by
  rw [Value.document, uint64?, Numeral.number?_ofNat n.toNat_lt]
  exact congrArg some UInt64.ofNat_toNat

/-- The values under a name are those of the members with the name. -/
theorem valuesAt_object (name : String) (members : List (String × Value)) :
    (Value.object members).document.valuesAt name =
      (members.filter (·.1 = name)).map fun member => member.2.document := by
  rw [Value.document, valuesAt, memberDocuments_eq_map, List.filter_map, List.map_map]
  rfl

/-- A member for a value that may be absent has only its own name. -/
theorem filter_member? (name other : String) (value : Option Value) :
    (member? other value).filter (·.1 = name) = if other = name then member? other value else [] := by
  cases value <;> by_cases h : other = name <;> simp [member?, h]

/-- Data are read back from Base64. -/
theorem dataOf?_dataJson (data : Bytes) : dataOf? (dataJson data).document = some data := by
  have hdecode : Base64.decodeText (Base64.encodeText data) = .ok data := by
    have hblanks : Base64.decodeText ("" ++ Base64.encodeText data ++ "") = .ok data :=
      Base64.decodeText_blanks (by simp) (by simp)
    simpa using hblanks
  simp [dataOf?, dataJson, requiredAt, valuesAt_object, filter_member?, string?_string, hdecode,
    Except.toOption]

theorem showsText_dataJson (data : Bytes) : ShowsText (dataJson data).document data := by
  have hvalues : (dataJson data).document.valuesAt "text" =
      ((Bytes.toString? data).map Document.string).toList := by
    cases h : Bytes.toString? data <;>
      simp [dataJson, valuesAt_object, member?, h, document_string]
  rw [ShowsText, hvalues]
  cases h : Bytes.toString? data with
  | none =>
    have hnone : ¬ ∃ s, Bytes.ofString s = data := by
      rintro ⟨s, rfl⟩
      rw [Bytes.toString?_ofString] at h
      cases h
    simp [hnone]
  | some s =>
    have hs := Bytes.ofString_eq_of_toString? h
    simp only [Option.map_some, Option.toList_some, List.mem_singleton, forall_eq]
    exact ⟨⟨fun _ => ⟨s, hs⟩, fun _ => by simp⟩, s, rfl, hs⟩

theorem ofDocument?_tagJson (tag : Tag) : Tag.ofDocument? (tagJson tag).document = some tag := by
  obtain ⟨key, value⟩ := tag
  cases value <;>
    simp [Tag.ofDocument?, tagJson, requiredAt, optionalAt, valuesAt_object, member?, string?_string]

theorem ofDocument?_recordJson (record : Record) :
    Record.ofDocument? (recordJson record).document = some record := by
  obtain ⟨index, hashIndex, data, tags⟩ := record
  have htags := array?_map (g := id) ofDocument?_tagJson tags.toList
  have hempty : tags.isEmpty = true → tags = #[] := Array.isEmpty_iff.1
  cases hashIndex <;> by_cases h : tags.isEmpty = true <;>
    simp_all [Record.ofDocument?, recordJson, requiredAt, optionalAt, valuesAt_object, member?,
      uint64?_natural, dataOf?_dataJson]

/-- **A message is read back from its document.** -/
theorem ofDocument?_messageJson (message : AggregatedRecord) :
    AggregatedRecord.ofDocument? (messageJson message).document = some message := by
  have hrecords := array?_map (g := id) ofDocument?_recordJson message.records.toList
  simp [AggregatedRecord.ofDocument?, messageJson, requiredAt, valuesAt_object, array?_strings, hrecords]

/-- And so is a user record. -/
theorem ofDocument?_userJson (r : UserRecord) :
    UserRecord.ofDocument? (userJson r).document = some r := by
  obtain ⟨key, hashKey, data⟩ := r
  cases hashKey <;>
    simp [UserRecord.ofDocument?, userJson, requiredAt, optionalAt, valuesAt_object, member?,
      string?_string, dataOf?_dataJson]

/-- The data of a record are a document of their own. -/
theorem dataAt_recordJson (record : Record) :
    (recordJson record).document.requiredAt "data" some = some (dataJson record.data).document := by
  simp [recordJson, requiredAt, valuesAt_object, filter_member?]

theorem dataAt_userJson (r : UserRecord) :
    (userJson r).document.requiredAt "data" some = some (dataJson r.data).document := by
  simp [userJson, requiredAt, valuesAt_object, filter_member?]

/-! ## Texts -/

theorem isExact_dataJson (data : Bytes) : (dataJson data).isExact = true := by
  cases h : Bytes.toString? data <;>
    simp [dataJson, member?, h, Value.isExact, areMembersExact_eq_all]

theorem isExact_tagJson (tag : Tag) : (tagJson tag).isExact = true := by
  cases h : tag.value <;> simp [tagJson, member?, h, Value.isExact, areMembersExact_eq_all]

theorem isExact_recordJson (record : Record) : (recordJson record).isExact = true := by
  cases h : record.explicitHashKeyIndex <;> by_cases htags : record.tags.isEmpty = true <;>
    simp [recordJson, member?, h, htags, Value.isExact, areMembersExact_eq_all, areItemsExact_eq_all,
      isExact_dataJson, isExact_tagJson]

theorem isExact_messageJson (message : AggregatedRecord) : (messageJson message).isExact = true := by
  simp [messageJson, Value.strings, Value.isExact, areMembersExact_eq_all, areItemsExact_eq_all,
    isExact_recordJson]

theorem isExact_userJson (r : UserRecord) : (userJson r).isExact = true := by
  cases h : r.explicitHashKey <;>
    simp [userJson, member?, h, Value.isExact, areMembersExact_eq_all, isExact_dataJson]

/-- **A message loses nothing as JSON, and neither do user records.** What is
rendered is the text of a JSON document, from which the same message is read:
its tables, its indices, whether there are hash keys and values of tags, and its
data, in Base64. The data are also shown as a text exactly if they are one, and
then as that one. So it is with every list of user records. -/
theorem json_lossless :
    (∀ message : AggregatedRecord, ∃ document data,
      Document.ofText? (json message) = some document ∧
      AggregatedRecord.ofDocument? document = some message ∧
      document.requiredAt "records" (array? (requiredAt "data" some)) = some data ∧
      List.Forall₂ (fun d record => ShowsText d record.data) data message.records.toList) ∧
    ∀ users : List UserRecord, ∃ document data,
      Document.ofText? (usersJson users) = some document ∧
      document.array? UserRecord.ofDocument? = some users ∧
      document.array? (requiredAt "data" some) = some data ∧
      List.Forall₂ (fun d r => ShowsText d r.data) data users := by
  have hshows {α : Type} (dataOf : α → Bytes) (l : List α) :
      List.Forall₂ (fun d a => ShowsText d (dataOf a))
        (l.map fun a => (dataJson (dataOf a)).document) l := by
    rw [List.forall₂_map_left_iff, List.forall₂_same]
    exact fun a _ => showsText_dataJson (dataOf a)
  constructor
  · intro message
    have hdata : (messageJson message).document.requiredAt "records"
        (array? (requiredAt "data" some)) =
          some (message.records.toList.map fun record => (dataJson record.data).document) := by
      simp [messageJson, requiredAt, valuesAt_object, array?_map dataAt_recordJson]
    exact ⟨_, _, Document.ofText?_render .indented (isExact_messageJson message),
      ofDocument?_messageJson message, hdata, hshows Record.data _⟩
  · intro users
    have husers := array?_map (g := id) ofDocument?_userJson users
    rw [List.map_id] at husers
    have hexact : (Value.array (users.map userJson)).isExact = true := by
      simp [Value.isExact, areItemsExact_eq_all, isExact_userJson]
    exact ⟨_, _, Document.ofText?_render .indented hexact, husers,
      array?_map dataAt_userJson users, hshows UserRecord.data users⟩

end Rendering

end AggregatedRecords
