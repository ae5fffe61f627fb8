import AggregatedRecords.Proofs.Json.Arrays
import AggregatedRecords.Proofs.Rendering.Json
import AggregatedRecords.Record.Json
/-!
# Record — user records saved and loaded

A user record is read from an object by the names of its members, or from an array
of its three fields. Either way each field is what the document has of it, and only
the explicit hash key may be missing or null (`UserRecord.SaidBy`). A text gives
exactly the user record that its document says (`UserRecord.exists_takes_record`),
and what is written of a user record says it (`UserRecord.saidBy_toJson`). So every
user record comes back from its JSON form, and a user record that was read from any
other text does too (`UserRecord.ofJson_exactly_saidBy`).
-/

namespace AggregatedRecords

open Json Json.Decoder
open Json.Document (string? octet? array? optional? fieldAt Settles Gives)

namespace UserRecord

/-! ## What a document says -/

/-- Whether a document can be a user record: any object can, and an array of as many
items as there are fields. -/
def IsRecord : Document → Prop
  | .object _ => True
  | .array items => items.length = 3
  | _ => False

/-- **A document says a user record**: it has a partition key and data, and if it has
an explicit hash key, then that or null for none. -/
structure SaidBy (document : Document) (r : UserRecord) : Prop where
  isRecord : IsRecord document
  partitionKey : Gives string? (document.fieldAt 0 "partition_key") r.partitionKey
  explicitHashKey : Settles (optional? string?) (document.fieldAt 1 "explicit_hash_key") none
    r.explicitHashKey
  data : Gives (array? octet?) (document.fieldAt 2 "data") r.data

/-- The fields that a document fills. -/
def Fills (document : Document) (before after : Given) : Prop :=
  Document.Fills string? (document.fieldAt 0 "partition_key") before.partitionKey
    after.partitionKey ∧
  Document.Fills (optional? string?) (document.fieldAt 1 "explicit_hash_key")
    before.explicitHashKey after.explicitHashKey ∧
  Document.Fills (array? octet?) (document.fieldAt 2 "data") before.data after.data

/-- The user record of given fields, if there are enough of them. -/
def Given.complete? (given : Given) : Option UserRecord :=
  match given.partitionKey, given.data with
  | some key, some data => some ⟨key, given.explicitHashKey.getD none, data⟩
  | _, _ => none

theorem Given.complete?_eq_some_iff {given : Given} {r : UserRecord} :
    given.complete? = some r ↔ given.partitionKey = some r.partitionKey ∧
      given.explicitHashKey.getD none = r.explicitHashKey ∧ given.data = some r.data := by
  obtain ⟨key, hashKey, data⟩ := given
  obtain ⟨key', hashKey', data'⟩ := r
  cases key <;> cases data <;> simp [complete?]

/-- Fields that are filled say a user record, if there are enough of them. -/
theorem saidBy_iff {document : Document} {r : UserRecord} : SaidBy document r ↔
    IsRecord document ∧ ∃ given, Fills document .nothing given ∧ given.complete? = some r := by
  simp only [Given.complete?_eq_some_iff]
  constructor
  · rintro ⟨hrecord, hkey, hhash, hdata⟩
    obtain ⟨hash, hfills, hhash⟩ := Document.exists_fills_iff.2 hhash
    exact ⟨hrecord, ⟨some r.partitionKey, hash, some r.data⟩,
      ⟨Document.fills_some_iff.2 hkey, hfills, Document.fills_some_iff.2 hdata⟩, rfl, hhash, rfl⟩
  · rintro ⟨hrecord, ⟨key, hash, data⟩, ⟨hkey, hfills, hdata⟩, rfl, hhash, rfl⟩
    exact ⟨hrecord, Document.fills_some_iff.1 hkey,
      Document.exists_fills_iff.1 ⟨hash, hfills, hhash⟩, Document.fills_some_iff.1 hdata⟩

/-! ## Objects -/

/-- What a member adds to the fields that are given. -/
def absorb (given : Given) (name : String) (x : Document) : Option Given :=
  match name with
  | "partition_key" =>
    (if given.partitionKey.isSome then none else string? x).map fun key =>
      { given with partitionKey := some key }
  | "explicit_hash_key" =>
    (if given.explicitHashKey.isSome then none else optional? string? x).map fun key =>
      { given with explicitHashKey := some key }
  | "data" =>
    (if given.data.isSome then none else array? octet? x).map fun data =>
      { given with data := some data }
  | _ => some given

theorem takes_explicitHashKey :
    Takes explicitHashKeyDecoder Document.tokens (optional? string?) :=
  takesToken_text.optional.takes

theorem takes_data : Takes dataDecoder Document.tokens (array? octet?) :=
  takes_array takesToken_octet

/-- The value of a member is absorbed. -/
theorem takes_member (name : String) (given : Given) :
    Takes (member name given) (fun x : Document => .colon :: x.tokens) (absorb given name) := by
  unfold member
  split
  · exact (takes_field takesToken_text.takes _ _).map _
  · exact (takes_field takes_explicitHashKey _ _).map _
  · exact (takes_field takes_data _ _).map _
  · have hpassed : absorb given name = fun _ => some given := by
      funext x
      unfold absorb
      split <;> first | rfl | exact absurd rfl ‹_›
    rw [hpassed]
    exact takes_unknownField.map fun _ => given

/-- **Members fill the fields** that they name, each of them once. -/
theorem foldlM_absorb_eq_some_iff {members : List (String × Document)} {before after : Given} :
    members.foldlM (fun given member => absorb given member.1 member.2) before = some after ↔
      Fills (.object members) before after := by
  induction members generalizing before with
  | nil =>
    obtain ⟨key, hash, data⟩ := before
    obtain ⟨key', hash', data'⟩ := after
    simp [Fills, fieldAt, Document.valuesAt, Document.Fills, eq_comm]
  | cons member members ih =>
    obtain ⟨name, x⟩ := member
    simp only [List.foldlM_cons, Option.bind_eq_bind, Option.bind_eq_some_iff, ih, Fills,
      fieldAt, Document.valuesAt_cons]
    by_cases hname : name ∈ ["partition_key", "explicit_hash_key", "data"]
    · simp only [List.mem_cons, List.not_mem_nil, or_false] at hname
      -- one field is filled before the other members are read, and two stay as they are
      obtain rfl | rfl | rfl := hname <;>
        simp only [absorb, Document.exists_once_iff, String.reduceEq, if_true, if_false,
          Document.fills_cons] <;>
        grind
    · simp only [List.mem_cons, List.not_mem_nil, or_false, not_or] at hname
      simp [hname, absorb]

theorem takes_members :
    Takes (members member .nothing) (closedMembers true) fun members =>
      members.foldlM (fun given member => absorb given member.1 member.2) .nothing :=
  Decoder.takes_members (fun name given => takes_member name given) _

/-- Members are taken if there are enough of them. -/
theorem takes_ofMembers : Takes ofMembers (closedMembers true) fun members =>
    (members.foldlM (fun given member => absorb given member.1 member.2) .nothing).bind
      Given.complete? := by
  refine takes_members.check fun given tokens r rest => ?_
  obtain ⟨key, hash, data⟩ := given
  cases key <;> cases data <;> simp [Given.complete?, eq_comm]

/-! ## Arrays, and both -/

/-- The user record of items. -/
def ofItems? : List Document → Option UserRecord :=
  readItem string? fun key? =>
    readItem (optional? string?) fun hashKey? =>
      readItem (array? octet?) fun data? items =>
        if items = [] then Given.complete? ⟨key?, hashKey?, data?⟩ else none

theorem takes_ofFields : Takes (do let r ← ofFields; punctuation .closeBracket; return r)
    (closedItems true) ofItems? := by
  unfold ofFields
  simp only [Consumer.bind_bind]
  refine takes_item? takesToken_text.takes (fun key? => ?_) true
  cases key? with
  | none =>
    refine takes_fail _ (readItem_eq_none fun hashKey? => readItem_eq_none fun data? items => ?_)
    exact ite_self none
  | some key =>
    simp only [Consumer.bind_bind]
    refine takes_item? takes_explicitHashKey (fun hashKey? => ?_) false
    refine takes_item? takes_data (fun data? => ?_) false
    cases data? with
    | none => exact takes_fail _ fun items => ite_self none
    | some data => exact takes_closeBracket _ false

/-- **Items fill the fields** at their positions, and there are no others. -/
theorem ofItems?_eq_some_iff {items : List Document} {r : UserRecord} :
    ofItems? items = some r ↔ items.length = 3 ∧
      ∃ given, Fills (.array items) .nothing given ∧ given.complete? = some r := by
  simp only [ofItems?, Document.readItem_eq_some_iff, Option.ite_none_right_eq_some,
    List.getElem?_tail, Nat.reduceAdd, ← List.length_eq_zero_iff, List.length_tail]
  constructor
  · rintro ⟨key?, hkey, hashKey?, hhash, data?, hdata, hlength, hr⟩
    refine ⟨?_, ⟨key?, hashKey?, data?⟩, ⟨hkey, hhash, hdata⟩, hr⟩
    -- data are given, so there are three items at least
    obtain ⟨-, -, rfl⟩ := Given.complete?_eq_some_iff.1 hr
    obtain ⟨x, hx, -⟩ := Document.fills_some_iff.1 hdata
    have hlt : 2 < items.length := by
      by_contra hge
      rw [List.getElem?_eq_none (Nat.le_of_not_lt hge)] at hx
      cases hx
    omega
  · rintro ⟨hlength, ⟨key?, hashKey?, data?⟩, ⟨hkey, hhash, hdata⟩, hr⟩
    exact ⟨key?, hkey, hashKey?, hhash, data?, hdata, by omega, hr⟩

/-- **A user record is taken exactly as a document says it.** -/
theorem exists_takes_record : ∃ read,
    Takes (record "UserRecord" ofMembers ofFields) Document.tokens read ∧
      ∀ document r, read document = some r ↔ SaidBy document r := by
  refine ⟨_, takes_record takes_ofMembers takes_ofFields "UserRecord", fun document r => ?_⟩
  rw [saidBy_iff]
  cases document with
  | object members =>
    simp only [Option.bind_eq_some_iff, foldlM_absorb_eq_some_iff, IsRecord, true_and]
  | array items => simp only [ofItems?_eq_some_iff, IsRecord]
  | _ => simp [IsRecord]

/-- A text that is a document gives the user record that the document says. -/
theorem ofJson_eq_ok_iff {text : String} {document : Document} {r : UserRecord}
    (h : Document.ofText? text = some document) : ofJson text = .ok r ↔ SaidBy document r := by
  obtain ⟨read, htakes, hread⟩ := exists_takes_record
  rw [ofJson, Decoder.ofText_eq_ok_iff htakes h, hread]

/-- What is read from a text is what its document says. -/
theorem exists_saidBy_of_ofJson {text : String} {r : UserRecord} (h : ofJson text = .ok r) :
    ∃ document, Document.ofMended? text = some document ∧ SaidBy document r := by
  obtain ⟨read, htakes, hread⟩ := exists_takes_record
  obtain ⟨document, htext, hdocument⟩ := exists_of_ofText htakes h
  exact ⟨document, htext, (hread document r).1 hdocument⟩

/-! ## Writing -/

theorem isExact_toJson (r : UserRecord) : r.toJson.isExact = true := by
  cases h : r.explicitHashKey <;>
    simp [toJson, member?, h, Value.isExact, areMembersExact_eq_all, areItemsExact_eq_all]

theorem octet?_natural (x : UInt8) : octet? (Value.natural x.toNat).document = some x := by
  have hsize : x.toNat < UInt64.size := Nat.lt_trans x.toNat_lt (by decide)
  rw [octet?, Value.document, Document.natural?, Numeral.number?_ofNat hsize]
  simp [x.toNat_lt]

/-- The document that is written of a user record. -/
theorem fieldAt_toJson (r : UserRecord) :
    r.toJson.document.fieldAt 0 "partition_key" = [.string r.partitionKey] ∧
    r.toJson.document.fieldAt 1 "explicit_hash_key" =
      (r.explicitHashKey.map Document.string).toList ∧
    r.toJson.document.fieldAt 2 "data" =
      [(Value.array (r.data.map fun x => .natural x.toNat)).document] := by
  obtain ⟨key, hashKey, data⟩ := r
  refine ⟨?_, ?_, ?_⟩ <;> cases hashKey <;>
    simp [toJson, member?, Value.document, memberDocuments, fieldAt, Document.valuesAt]

/-- **What is written of a user record says it.** -/
theorem saidBy_toJson (r : UserRecord) : SaidBy r.toJson.document r := by
  obtain ⟨hkey, hhash, hdata⟩ := fieldAt_toJson r
  refine ⟨trivial, ?_, ?_, ?_⟩
  · rw [hkey]
    exact ⟨_, rfl, rfl⟩
  · rw [hhash]
    cases r.explicitHashKey <;> rfl
  · rw [hdata]
    exact ⟨_, rfl, by rw [Rendering.array?_map (g := id) octet?_natural, List.map_id]⟩

/-- **A user record comes back from its JSON form**, in either layout. -/
theorem ofJson_render (r : UserRecord) (layout : Layout) :
    ofJson (r.toJson.render layout) = .ok r :=
  (ofJson_eq_ok_iff (Document.ofText?_render layout (isExact_toJson r))).2 (saidBy_toJson r)

/-! ## Reading what was written -/

/-- The explicit hash key of a document is absent if it is missing or null, and else it
is the text that stands there. -/
theorem explicitHashKey_iff {values : List Document} {hashKey : Option String}
    (h : Settles (optional? string?) values none hashKey) :
    (values = [] ∨ values = [.null] ↔ hashKey = none) ∧
      ∀ key, values = [.string key] ↔ hashKey = some key := by
  match values with
  | [] =>
    obtain rfl : hashKey = none := h
    simp
  | [x] =>
    have hx : optional? string? x = some hashKey := h
    cases x with
    | null =>
      obtain rfl : none = hashKey := Option.some.inj hx
      simp
    | string s =>
      obtain rfl : some s = hashKey := Option.some.inj hx
      simp
    | _ => cases hx
  | _ :: _ :: _ => exact h.elim

/-- **A user record survives being saved and loaded.** Any user record comes back from
what is written of it. A text that is a document is read exactly as the user record
that the document says, in whatever order and however spelled. And a user record that is
read from any text comes back from what is written of it: its fields are those that the
document of the text has, where an explicit hash key that is missing or null is none, and
any text, the empty one too, is itself. -/
theorem ofJson_exactly_saidBy :
    (∀ (r : UserRecord) (layout : Layout), ofJson (r.toJson.render layout) = .ok r) ∧
    (∀ (text : String) (document : Document) (r : UserRecord),
      Document.ofText? text = some document → (ofJson text = .ok r ↔ SaidBy document r)) ∧
    ∀ (text : String) (r : UserRecord), ofJson text = .ok r →
      (∀ layout, ofJson (r.toJson.render layout) = .ok r) ∧
      ∃ document, Document.ofMended? text = some document ∧ SaidBy document r ∧
        (document.fieldAt 1 "explicit_hash_key" = [] ∨
          document.fieldAt 1 "explicit_hash_key" = [.null] ↔ r.explicitHashKey = none) ∧
        ∀ key, document.fieldAt 1 "explicit_hash_key" = [.string key] ↔
          r.explicitHashKey = some key := by
  refine ⟨ofJson_render, fun text document r => ofJson_eq_ok_iff, fun text r h => ?_⟩
  obtain ⟨document, htext, hsaid⟩ := exists_saidBy_of_ofJson h
  exact ⟨ofJson_render r, document, htext, hsaid, explicitHashKey_iff hsaid.explicitHashKey⟩

/-- So the fields may stand in an array, and a text may be spelled as a surrogate pair. -/
example : ofJson "[\"\\ud83d\\ude00\",null,[97]]" = .ok ⟨"😀", none, [97]⟩ := by cbv

end UserRecord

end AggregatedRecords
