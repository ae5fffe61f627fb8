import AggregatedRecords.Proofs.Hex
import AggregatedRecords.Proofs.Json.Values
import AggregatedRecords.Proofs.Rendering.Json
import AggregatedRecords.Proofs.Validation.Acceptance
import AggregatedRecords.Settings.Json
/-!
# Settings — saved and loaded

Settings are read from an object by the names of its members, or from an array by
position. In the end both come to the same: each field is settled by what the
document has of it, or by the default (`Settings.SaidBy`). A text gives exactly
the settings that its document says (`Settings.exists_takes_decoder`), if they are
usable. What is written of settings says them (`Settings.saidBy_toJson`), so
usable settings come back, and any others are refused (`Settings.ofJson_render`).
-/

namespace AggregatedRecords

open Json Json.Decoder
open Json.Document (string? uint64? bool? optional? fieldAt Settles)

/-! ## Digest algorithms -/

namespace DigestAlgorithm

/-- The algorithm that a document names, as a text or as an object with null under
the name. -/
def ofDocument? : Document → Option DigestAlgorithm
  | .string name => if name = md5.name then some md5 else none
  | .object [(name, .null)] => if name = md5.name then some md5 else none
  | _ => none

theorem ofToken_eq_ok_iff {token : Token} {algorithm : DigestAlgorithm} :
    ofToken token = .ok algorithm ↔ token = .string (some md5.name) ∧ algorithm = md5 := by
  unfold ofToken
  cases token with
  | string s =>
    cases s with
    | none => simp [Token.name]
    | some s => by_cases h : s = md5.name <;> simp [Token.name, h, eq_comm]
  | _ => simp [Token.name]

theorem eq_null_of_unit {token : Token} (h : token.unit = .ok ()) : token = .null := by
  unfold Token.unit at h
  split at h
  · rfl
  · exact absurd h reject_ne_ok

/-- **An algorithm is taken** in either form. -/
theorem takes_decoder : Takes decoder Document.tokens ofDocument? where
  sound {tokens a rest} h := by
    obtain ⟨_, mid, hpeek, hmore⟩ := Consumer.run_bind_eq_ok_iff.1 h
    obtain ⟨rfl, -⟩ := run_peek_eq_ok_iff.1 hpeek
    split at hmore
    · obtain ⟨_, _, hopen, hmore⟩ := Consumer.run_bind_eq_ok_iff.1 hmore
      obtain ⟨_, _, hname, hmore⟩ := Consumer.run_bind_eq_ok_iff.1 hmore
      obtain ⟨_, _, hcolon, hmore⟩ := Consumer.run_bind_eq_ok_iff.1 hmore
      obtain ⟨_, _, hnull, hmore⟩ := Consumer.run_bind_eq_ok_iff.1 hmore
      obtain ⟨_, _, hclose, hvalue⟩ := Consumer.run_bind_eq_ok_iff.1 hmore
      obtain ⟨_, rfl, htoken⟩ := run_one_eq_ok_iff.1 hname
      obtain ⟨_, rfl, hunit⟩ := run_one_eq_ok_iff.1 hnull
      obtain ⟨rfl, rfl⟩ := ofToken_eq_ok_iff.1 htoken
      obtain rfl := eq_null_of_unit hunit
      obtain rfl := run_punctuation_eq_ok_iff.1 hopen
      obtain rfl := run_punctuation_eq_ok_iff.1 hcolon
      obtain rfl := run_punctuation_eq_ok_iff.1 hclose
      cases hvalue
      exact ⟨[_, _, _, _, _], .object [(md5.name, .null)], rfl, rfl, rfl⟩
    · obtain ⟨_, rfl, htoken⟩ := run_one_eq_ok_iff.1 hmore
      obtain ⟨rfl, rfl⟩ := ofToken_eq_ok_iff.1 htoken
      exact ⟨[_], .string md5.name, rfl, rfl, rfl⟩
  complete {x a} h rest := by
    unfold ofDocument? at h
    split at h
    · obtain ⟨rfl, h⟩ := Option.ite_none_right_eq_some.1 h
      cases h
      rfl
    · obtain ⟨rfl, h⟩ := Option.ite_none_right_eq_some.1 h
      cases h
      rfl
    · cases h

end DigestAlgorithm

namespace Settings

/-! ## What a document says -/

/-- Whether a document can be a record of settings: any object can, and an array of
as many items as there are fields, or fewer. -/
def IsRecord : Document → Prop
  | .object _ => True
  | .array items => items.length ≤ 4
  | _ => False

/-- **A document says settings**: each field is what the document has of it, where
null is no limit, and the default if the document has nothing of it. -/
structure SaidBy (document : Document) (settings : Settings) : Prop where
  isRecord : IsRecord document
  magic : Settles string? (document.fieldAt 0 "magic") default.magic settings.magic
  digest : Settles DigestAlgorithm.ofDocument? (document.fieldAt 1 "digest") default.digest
    settings.digest
  maxFrameBytes : Settles (optional? uint64?) (document.fieldAt 2 "max_frame_bytes")
    default.maxFrameBytes settings.maxFrameBytes
  deaggregate : Settles bool? (document.fieldAt 3 "deaggregate") default.deaggregate
    settings.deaggregate

/-- The fields that a document fills. -/
def Fills (document : Document) (before after : Given) : Prop :=
  Document.Fills string? (document.fieldAt 0 "magic") before.magic after.magic ∧
  Document.Fills DigestAlgorithm.ofDocument? (document.fieldAt 1 "digest") before.digest
    after.digest ∧
  Document.Fills (optional? uint64?) (document.fieldAt 2 "max_frame_bytes") before.maxFrameBytes
    after.maxFrameBytes ∧
  Document.Fills bool? (document.fieldAt 3 "deaggregate") before.deaggregate after.deaggregate

/-- Fields that are filled settle all of them, with the default for the others. -/
theorem saidBy_iff {document : Document} {settings : Settings} : SaidBy document settings ↔
    IsRecord document ∧ ∃ given, Fills document .nothing given ∧ given.complete = settings := by
  constructor
  · rintro ⟨hrecord, hmagic, hdigest, hlimit, hdeaggregate⟩
    obtain ⟨magic, hmagic, h0⟩ := Document.exists_fills_iff.2 hmagic
    obtain ⟨digest, hdigest, h1⟩ := Document.exists_fills_iff.2 hdigest
    obtain ⟨limit, hlimit, h2⟩ := Document.exists_fills_iff.2 hlimit
    obtain ⟨deaggregate, hdeaggregate, h3⟩ := Document.exists_fills_iff.2 hdeaggregate
    refine ⟨hrecord, ⟨magic, digest, limit, deaggregate⟩,
      ⟨hmagic, hdigest, hlimit, hdeaggregate⟩, ?_⟩
    rw [Given.complete, h0, h1, h2, h3]
  · rintro ⟨hrecord, given, ⟨hmagic, hdigest, hlimit, hdeaggregate⟩, rfl⟩
    exact ⟨hrecord, Document.exists_fills_iff.1 ⟨_, hmagic, rfl⟩,
      Document.exists_fills_iff.1 ⟨_, hdigest, rfl⟩, Document.exists_fills_iff.1 ⟨_, hlimit, rfl⟩,
      Document.exists_fills_iff.1 ⟨_, hdeaggregate, rfl⟩⟩

/-! ## Objects -/

/-- What a member adds to the fields that are given. -/
def absorb (given : Given) (name : String) (x : Document) : Option Given :=
  match name with
  | "magic" =>
    (if given.magic.isSome then none else string? x).map fun magic =>
      { given with magic := some magic }
  | "digest" =>
    (if given.digest.isSome then none else DigestAlgorithm.ofDocument? x).map fun digest =>
      { given with digest := some digest }
  | "max_frame_bytes" =>
    (if given.maxFrameBytes.isSome then none else optional? uint64? x).map fun limit =>
      { given with maxFrameBytes := some limit }
  | "deaggregate" =>
    (if given.deaggregate.isSome then none else bool? x).map fun deaggregate =>
      { given with deaggregate := some deaggregate }
  | _ => some given

/-- A limit is taken as a number, or null as none. -/
theorem takes_limit : Takes limitDecoder Document.tokens (optional? uint64?) :=
  takesToken_uint64.optional.takes

/-- The value of a member is absorbed. -/
theorem takes_member (name : String) (given : Given) :
    Takes (member name given) (fun x : Document => .colon :: x.tokens) (absorb given name) := by
  unfold member
  split
  · exact (takes_field takesToken_text.takes _ _).map _
  · exact (takes_field DigestAlgorithm.takes_decoder _ _).map _
  · exact (takes_field takes_limit _ _).map _
  · exact (takes_field takesToken_boolean.takes _ _).map _
  · have hpassed : absorb given name = fun _ => some given := by
      funext x
      unfold absorb
      split <;> first | rfl | exact absurd rfl ‹_›
    rw [hpassed]
    exact takes_unknownField.map fun _ => given

/-- **Members fill the fields** that they name, each of them once. -/
theorem foldlM_absorb_eq_some_iff {members : List (String × Document)} {before after : Given} :
    members.foldlM (fun given member => absorb given member.1 member.2) before = some after ↔
      Fills (.object members) before after := by
  induction members generalizing before with
  | nil =>
    obtain ⟨magic, digest, limit, deaggregate⟩ := before
    obtain ⟨magic', digest', limit', deaggregate'⟩ := after
    simp [Fills, fieldAt, Document.valuesAt, Document.Fills, eq_comm]
  | cons member members ih =>
    obtain ⟨name, x⟩ := member
    simp only [List.foldlM_cons, Option.bind_eq_bind, Option.bind_eq_some_iff, ih, Fills,
      fieldAt, Document.valuesAt_cons]
    by_cases hname : name ∈ ["magic", "digest", "max_frame_bytes", "deaggregate"]
    · simp only [List.mem_cons, List.not_mem_nil, or_false] at hname
      -- one field is filled before the other members are read, and three stay as they are
      obtain rfl | rfl | rfl | rfl := hname <;>
        simp only [absorb, Document.exists_once_iff, String.reduceEq, if_true, if_false,
          Document.fills_cons] <;>
        grind
    · simp only [List.mem_cons, List.not_mem_nil, or_false, not_or] at hname
      simp [hname, absorb]

theorem takes_members :
    Takes (members member .nothing) (closedMembers true) fun members =>
      members.foldlM (fun given member => absorb given member.1 member.2) .nothing :=
  Decoder.takes_members (fun name given => takes_member name given) _

/-! ## Arrays, and both -/

/-- **Items fill the fields** at their positions, and there are no more of them. -/
theorem exists_takes_fields :
    ∃ read, Takes (do let given ← fields; punctuation .closeBracket; return given)
      (closedItems true) read ∧ ∀ items given, read items = some given ↔
        items.length ≤ 4 ∧ Fills (.array items) .nothing given := by
  unfold fields
  simp only [Consumer.bind_bind, Consumer.pure_bind_eq]
  have hlast (magic digest limit) := takes_item? takesToken_boolean.takes
    (fun deaggregate => takes_closeBracket (Given.mk magic digest limit deaggregate) false) false
  have hthird (magic digest) := takes_item? takes_limit (hlast magic digest) false
  have hsecond (magic) := takes_item? DigestAlgorithm.takes_decoder (hthird magic) false
  refine ⟨_, takes_item? takesToken_text.takes hsecond true, fun items given => ?_⟩
  have hlength : items.tail.tail.tail.tail = [] ↔ items.length ≤ 4 := by
    rw [← List.length_eq_zero_iff]
    simp only [List.length_tail]
    omega
  simp only [Document.readItem_eq_some_iff, List.getElem?_tail, Option.ite_none_right_eq_some,
    Option.some.injEq, hlength, Nat.reduceAdd]
  constructor
  · rintro ⟨magic, hmagic, digest, hdigest, limit, hlimit, deaggregate, hdeaggregate, hle, rfl⟩
    exact ⟨hle, hmagic, hdigest, hlimit, hdeaggregate⟩
  · rintro ⟨hle, hmagic, hdigest, hlimit, hdeaggregate⟩
    exact ⟨_, hmagic, _, hdigest, _, hlimit, _, hdeaggregate, hle, rfl⟩

/-- **Settings are taken exactly as a document says them.** -/
theorem exists_takes_decoder : ∃ read, Takes decoder Document.tokens read ∧
    ∀ document settings, read document = some settings ↔ SaidBy document settings := by
  obtain ⟨readItems, hitems, hread⟩ := exists_takes_fields
  refine ⟨_, (takes_record takes_members hitems "ValidateConfig").map Given.complete,
    fun document settings => ?_⟩
  rw [Option.map_eq_some_iff, saidBy_iff]
  cases document with
  | object members =>
    simp only [foldlM_absorb_eq_some_iff, IsRecord, true_and]
  | array items =>
    simp only [hread, IsRecord, and_assoc, exists_and_left]
  | _ => simp [IsRecord]

/-- What is read from a text is what its document says. -/
theorem exists_saidBy_of_ofText {text : String} {settings : Settings}
    (h : Decoder.ofText decoder text = .ok settings) :
    ∃ document, Document.ofMended? text = some document ∧ SaidBy document settings := by
  obtain ⟨read, htakes, hread⟩ := exists_takes_decoder
  obtain ⟨document, htext, hdocument⟩ := exists_of_ofText htakes h
  exact ⟨document, htext, (hread document settings).1 hdocument⟩

/-- A text that is a document gives the settings that the document says. -/
theorem ofText_eq_ok_iff {text : String} {document : Document} {settings : Settings}
    (h : Document.ofText? text = some document) :
    Decoder.ofText decoder text = .ok settings ↔ SaidBy document settings := by
  obtain ⟨read, htakes, hread⟩ := exists_takes_decoder
  rw [Decoder.ofText_eq_ok_iff htakes h, hread]

/-! ## Writing -/

theorem isExact_toJson (settings : Settings) : settings.toJson.isExact = true := by
  obtain ⟨magic, digest, limit, deaggregate⟩ := settings
  cases limit <;> rfl

/-- The document that is written of settings. -/
theorem fieldAt_toJson (settings : Settings) :
    settings.toJson.document.fieldAt 0 "magic" = [.string settings.magic] ∧
    settings.toJson.document.fieldAt 1 "digest" = [.string settings.digest.name] ∧
    settings.toJson.document.fieldAt 2 "max_frame_bytes" =
      [(settings.maxFrameBytes.elim .null fun limit => .natural limit.toNat : Value).document] ∧
    settings.toJson.document.fieldAt 3 "deaggregate" = [.bool settings.deaggregate] := by
  refine ⟨?_, ?_, ?_, ?_⟩ <;>
    simp [toJson, Value.document, memberDocuments, fieldAt, Document.valuesAt]

/-- **What is written of settings says them.** -/
theorem saidBy_toJson (settings : Settings) : SaidBy settings.toJson.document settings := by
  obtain ⟨hmagic, hdigest, hlimit, hdeaggregate⟩ := fieldAt_toJson settings
  refine ⟨trivial, ?_, ?_, ?_, ?_⟩
  · rw [hmagic]
    rfl
  · rw [hdigest]
    rfl
  · rw [hlimit]
    cases settings.maxFrameBytes with
    | none => rfl
    | some limit => exact congrArg (Option.map some) (Rendering.uint64?_natural limit)
  · rw [hdeaggregate]
    rfl

/-- **Usable settings survive being saved and loaded**, in either layout, and others
are refused for what is wrong with them. -/
theorem ofJson_render (settings : Settings) (layout : Layout) (wording : Wording) :
    ofJson (settings.toJson.render layout) wording =
      match settings.frameFormat with
      | .ok _ => .ok settings
      | .error e => .error (.config e) := by
  have hdocument := Document.ofText?_render layout (isExact_toJson settings)
  have hread := (ofText_eq_ok_iff hdocument).2 (saidBy_toJson settings)
  rw [ofJson, hread]
  simp only []
  cases settings.frameFormat <;> rfl

/-! ## Loading -/

/-- Settings that are loaded are read, and are usable. -/
theorem ofJson_eq_ok_iff {text : String} {wording : Wording} {settings : Settings} :
    ofJson text wording = .ok settings ↔ Decoder.ofText decoder text = .ok settings ∧
      ∃ format, settings.frameFormat = .ok format := by
  unfold ofJson
  cases hread : Decoder.ofText decoder text with
  | error e => simp
  | ok other =>
    cases hformat : other.frameFormat with
    | error e =>
      simp only [hformat, reduceCtorEq, false_iff, not_and, Except.ok.injEq]
      rintro rfl
      simp [hformat]
    | ok format =>
      simp only [hformat, Except.ok.injEq]
      constructor
      · rintro rfl
        exact ⟨rfl, format, hformat⟩
      · exact And.left

/-- **A text that is a document** loads exactly as the usable settings that the
document says, and otherwise does not load. -/
theorem ofJson_eq_ok_iff_saidBy {text : String} {document : Document} {wording : Wording}
    {settings : Settings} (h : Document.ofText? text = some document) :
    ofJson text wording = .ok settings ↔
      SaidBy document settings ∧ ∃ format, settings.frameFormat = .ok format := by
  rw [ofJson_eq_ok_iff, ofText_eq_ok_iff h]

/-- **Settings survive being saved and loaded, and loaded ones are usable.** Any
settings come back from what is written of them, or are refused if they describe
no envelope. A text that is a document loads exactly if it says usable settings. And
from any text that loads, a validator can be made, with a magic that is not empty:
the settings are those that the document of the text says, where a field that is
missing has its default and an explicit null is no limit. How errors are worded
does not matter. -/
theorem ofJson_faithful (wording : Wording) :
    (∀ (settings : Settings) (layout : Layout), ofJson (settings.toJson.render layout) wording =
      match settings.frameFormat with
      | .ok _ => .ok settings
      | .error e => .error (.config e)) ∧
    (∀ (text : String) (document : Document) (settings : Settings),
      Document.ofText? text = some document →
        (ofJson text wording = .ok settings ↔
          SaidBy document settings ∧ ∃ format, settings.frameFormat = .ok format)) ∧
    ∀ (text : String) (settings : Settings), ofJson text wording = .ok settings →
      (∃ format, settings.frameFormat = .ok format ∧ format.magic ≠ [] ∧
        Validator.ofSettings settings =
          .ok ⟨⟨format, settings.maxFrameBytes, settings.deaggregate⟩, .zero, .empty⟩) ∧
      ∃ document, Document.ofMended? text = some document ∧ SaidBy document settings ∧
        (document.fieldAt 0 "magic" = [] → settings.magic = default.magic) ∧
        (document.fieldAt 1 "digest" = [] → settings.digest = default.digest) ∧
        (document.fieldAt 2 "max_frame_bytes" = [] →
          settings.maxFrameBytes = default.maxFrameBytes) ∧
        (document.fieldAt 2 "max_frame_bytes" = [.null] → settings.maxFrameBytes = none) ∧
        (document.fieldAt 3 "deaggregate" = [] → settings.deaggregate = default.deaggregate) := by
  refine ⟨fun settings layout => ofJson_render settings layout wording,
    fun text document settings => ofJson_eq_ok_iff_saidBy,
    fun text settings h => ?_⟩
  obtain ⟨hread, format, hformat⟩ := ofJson_eq_ok_iff.1 h
  obtain ⟨document, htext, hsaid⟩ := exists_saidBy_of_ofText hread
  obtain ⟨-, hmagic, -⟩ := Hex.frameFormat_eq_ok_iff.1 hformat
  have hvalidator := Validator.ofSettings_of_frameFormat hformat
  refine ⟨⟨format, hformat, hmagic, hvalidator⟩, document, htext, hsaid, hsaid.magic.eq_missing,
    hsaid.digest.eq_missing, hsaid.maxFrameBytes.eq_missing, fun hnull => ?_,
    hsaid.deaggregate.eq_missing⟩
  have hsettled := hsaid.maxFrameBytes
  rw [hnull] at hsettled
  exact (Option.some.inj hsettled).symm

/-- So an object without any of the fields gives the defaults, and a member of
another name is passed over, although half of a surrogate pair stands alone in it. -/
example : ofJson "\x7b\"x\":\"\\ud800\"\x7d" = .ok default := by cbv

end Settings

end AggregatedRecords
