import AggregatedRecords.Proofs.Base64.RoundTrip
import AggregatedRecords.Proofs.Frame
import AggregatedRecords.Proofs.Record.RoundTrip
import AggregatedRecords.Validation.Validator
import Mathlib
/-!
# Validation — what is accepted

An attempt has a result when each of its parts has one, stage by stage. Put
together, octets are accepted when they are the frame of a payload within the
limit that decodes and, where user records are wanted, resolves
(`Checks.examine_eq_ok_iff`). A text is accepted when, blanks around it aside,
it is the padded form of such a frame, and of texts nothing else is
(`Validator.validate_eq_ok_iff`).
-/

namespace AggregatedRecords

/-! ## Attempts with a result -/

namespace Attempt

variable {α β : Type} {ε : Type}

/-- A bind has a result when both of its attempts have one. -/
theorem bind_eq_ok_iff {first : Attempt α} {next : α → Attempt β} {b : β} :
    (first >>= next).result = .ok b ↔ ∃ a, first.result = .ok a ∧ (next a).result = .ok b := by
  rw [result_bind]
  cases first.result with
  | error e => simp [Except.bind]
  | ok a => simp [Except.bind]

theorem map_eq_ok_iff {first : Attempt α} {f : α → β} {b : β} :
    (f <$> first).result = .ok b ↔ ∃ a, first.result = .ok a ∧ f a = b := by
  have hmap : f <$> first = first >>= fun a => pure (f a) := rfl
  simp only [hmap, bind_eq_ok_iff, pure_eq, Except.ok.injEq]

/-- A stage has the result of what it runs, whatever its errors become. -/
theorem stage_eq_ok_iff {stage : Stage} {result : Except ε α} {cause : ε → ValidationError}
    {a : α} : (Attempt.stage stage (result.mapError cause)).result = .ok a ↔ result = .ok a := by
  unfold Attempt.stage
  cases result <;> simp [Except.mapError]

/-- A note stands in no one's way. -/
theorem note_bind (event : Event) (next : Unit → Attempt β) :
    (note event >>= next).result = (next ()).result := by
  rw [result_bind]
  rfl

end Attempt

/-! ## Octets -/

namespace Checks

variable {checks : Checks} {raw payload : Bytes} {text : String} {validated : Validated}

/-- **What a payload validates to**, the limit being that of its whole
frame. -/
structure Accepts (checks : Checks) (payload : Bytes) (validated : Validated) : Prop where
  withinLimit : ∀ limit, checks.maxFrameBytes = some limit →
    (checks.format.encode payload).length ≤ limit.toNat
  record : AggregatedRecord.decode payload = .ok validated.record
  userRecords :
    if checks.deaggregate then
      ∃ users, validated.record.deaggregate = .ok users ∧ validated.userRecords = some users
    else validated.userRecords = none
  payloadLength : validated.payloadLength = payload.length
  frameLength : validated.frameLength = (checks.format.encode payload).length

theorem requireLength_eq_ok_iff {length : Nat} {u : Unit} :
    (checks.requireLength length).result = .ok u ↔
      ∀ limit, checks.maxFrameBytes = some limit → length ≤ limit.toNat := by
  unfold requireLength
  cases checks.maxFrameBytes with
  | none => simp
  | some limit =>
    by_cases h : length ≤ limit.toNat
    · simp [Attempt.require, h]
    · simp [Attempt.require, h]

theorem resolve_eq_ok_iff {record : AggregatedRecord} {userRecords : Option (List UserRecord)} :
    (checks.resolve record).result = .ok userRecords ↔
      if checks.deaggregate then
        ∃ users, record.deaggregate = .ok users ∧ userRecords = some users
      else userRecords = none := by
  unfold resolve
  cases checks.deaggregate with
  | false => simp [eq_comm]
  | true =>
    simp only [if_true, Attempt.map_eq_ok_iff, Attempt.stage_eq_ok_iff]
    exact exists_congr fun users => and_congr_right fun _ => eq_comm

/-- **Octets are accepted exactly as the frame of a payload** that is within
the limit, decodes, and resolves where it has to. -/
theorem examine_eq_ok_iff :
    (checks.examine raw).result = .ok validated ↔
      ∃ payload, raw = checks.format.encode payload ∧ checks.Accepts payload validated := by
  unfold examine
  simp only [Attempt.bind_eq_ok_iff, Attempt.note_bind, Attempt.stage_eq_ok_iff,
    requireLength_eq_ok_iff, resolve_eq_ok_iff, FrameFormat.parse_eq_ok_iff, Attempt.pure_eq,
    Except.ok.injEq]
  constructor
  · rintro ⟨-, hlimit, view, ⟨rfl, hview⟩, record, hrecord, userRecords, husers, rfl⟩
    refine ⟨view.payload, rfl, hlimit, hrecord, husers, rfl, ?_⟩
    rw [hview, FrameFormat.length_view]
  · rintro ⟨payload, rfl, h⟩
    refine ⟨(), h.withinLimit,
      ⟨checks.format.magic, payload, checks.format.algorithm.digest payload⟩, ⟨rfl, rfl⟩,
      validated.record, h.record, validated.userRecords, h.userRecords, ?_⟩
    rw [FrameFormat.length_view, ← h.payloadLength, ← h.frameLength]

/-- **A text is accepted exactly as the padded form of such a frame**, blanks
around it aside. -/
theorem examineText_eq_ok_iff :
    (checks.examineText text).result = .ok validated ↔
      ∃ payload, String.ofList (Text.trim text.toList) =
          Base64.encodeText (checks.format.encode payload) ∧
        checks.Accepts payload validated := by
  unfold examineText
  simp only [Attempt.bind_eq_ok_iff, Attempt.stage_eq_ok_iff, examine_eq_ok_iff,
    Base64.decodeText_eq_ok_iff]
  constructor
  · rintro ⟨raw, htext, payload, rfl, h⟩
    exact ⟨payload, htext, h⟩
  · rintro ⟨payload, htext, h⟩
    exact ⟨_, htext, payload, rfl, h⟩

end Checks

/-! ## Validators -/

namespace Validator

variable {settings : Settings} {format : FrameFormat}

/-- Usable settings make a validator, which is held to them. -/
theorem ofSettings_of_frameFormat (h : settings.frameFormat = .ok format) :
    ofSettings settings =
      .ok ⟨⟨format, settings.maxFrameBytes, settings.deaggregate⟩, .zero, .empty⟩ := by
  rw [ofSettings, Checks.ofSettings, h]
  rfl

/-- What came before has no influence on the result. -/
theorem validate_fst (v : Validator) (text : String) :
    (v.validate text).1 = (v.checks.examineText text).result := by
  rw [validate]

theorem validateBytes_fst (v : Validator) (raw : Bytes) :
    (v.validateBytes raw).1 = (v.checks.examine raw).result := by
  rw [validateBytes]

/-- **What a validator accepts is exactly the format.** A text is valid, and
gives just this, when blanks around it aside it is the padded form of a magic,
a payload and the payload's digest, within the limit, and the payload decodes
and resolves as the settings want. So two valid texts of the same octets are
the same but for the blanks around them. -/
theorem validate_eq_ok_iff (h : settings.frameFormat = .ok format) :
    ∃ start, ofSettings settings = .ok start ∧ ∀ v : Validator, v.checks = start.checks →
      (∀ text validated, (v.validate text).1 = .ok validated ↔
        ∃ payload : Bytes,
          String.ofList (Text.trim text.toList) =
            Base64.encodeText (format.magic ++ payload ++ Md5.digest payload) ∧
          (∀ limit, settings.maxFrameBytes = some limit →
            format.magic.length + payload.length + 16 ≤ limit.toNat) ∧
          AggregatedRecord.decode payload = .ok validated.record ∧
          (settings.deaggregate = false → validated.userRecords = none) ∧
          (settings.deaggregate = true → ∃ users,
            validated.record.deaggregate = .ok users ∧ validated.userRecords = some users) ∧
          validated.payloadLength = payload.length ∧
          validated.frameLength = format.magic.length + payload.length + 16) ∧
      ∀ s t x y, (v.validate s).1 = .ok x → (v.validate t).1 = .ok y →
        Base64.decodeText s = Base64.decodeText t → Text.trim s.toList = Text.trim t.toList := by
  refine ⟨_, ofSettings_of_frameFormat h, ?_⟩
  -- the account that a validator keeps may be any, its checks are those of the settings
  rintro ⟨checks, counts, times⟩ rfl
  constructor
  · intro text validated
    simp only [validate_fst, Checks.examineText_eq_ok_iff, ← FrameFormat.encode_eq]
    refine exists_congr fun payload => and_congr_right fun _ => ?_
    rw [← FrameFormat.length_encode_eq]
    constructor
    · intro haccepts
      have husers := haccepts.userRecords
      refine ⟨haccepts.withinLimit, haccepts.record, fun hoff => ?_, fun hon => ?_,
        haccepts.payloadLength, haccepts.frameLength⟩
      · simpa [hoff] using husers
      · simpa [hon] using husers
    · rintro ⟨hlimit, hrecord, hoff, hon, hpayload, hlength⟩
      refine ⟨hlimit, hrecord, ?_, hpayload, hlength⟩
      cases hdeaggregate : settings.deaggregate with
      | false => simpa using hoff hdeaggregate
      | true => simpa using hon hdeaggregate
  · intro s t x y hs ht hsame
    rw [validate_fst] at hs ht
    -- both are the padded form of the octets they are read as
    obtain ⟨payload, htext, -⟩ := Checks.examineText_eq_ok_iff.1 hs
    obtain ⟨payload', htext', -⟩ := Checks.examineText_eq_ok_iff.1 ht
    have hraw := Base64.decodeText_eq_ok_iff.2 htext
    rw [hsame] at hraw
    exact String.ofList_injective (htext.trans (Base64.decodeText_eq_ok_iff.1 hraw).symm)

/-- So a frame of just as many octets as are allowed is valid, with line breaks
around it, and gives the record in it. -/
theorem validate_eq_ok_iff_atLimit :
    ∃ start, ofSettings ⟨"F3:89:9a:c2", .md5, some 30, true⟩ = .ok start ∧
      ∃ validated,
        (start.validate "\n84mawgoBYRoFCAAaAQG0OyFZlExiujCc4fOxzzTi\n").1 = .ok validated ∧
        validated.userRecords = some [⟨"a", none, [1]⟩] ∧ validated.frameLength = 30 := by
  have hformat : (Settings.mk "F3:89:9a:c2" .md5 (some 30) true).frameFormat = .ok .standard := by
    cbv
  obtain ⟨start, hstart, h⟩ := validate_eq_ok_iff hformat
  refine ⟨start, hstart, ⟨⟨#["a"], #[], #[⟨0, none, [1], #[]⟩]⟩, some [⟨"a", none, [1]⟩], 10, 30⟩,
    ((h start rfl).1 _ _).2 ?_, rfl, rfl⟩
  have hlength : (AggregatedRecord.encode ⟨#["a"], #[], #[⟨0, none, [1], #[]⟩]⟩).length = 10 := by
    cbv
  refine ⟨AggregatedRecord.encode ⟨#["a"], #[], #[⟨0, none, [1], #[]⟩]⟩, ?_, ?_, ?_, ?_, ?_, ?_, ?_⟩
  · cbv
  · rintro limit ⟨⟩
    rw [hlength]
    decide
  · refine AggregatedRecord.decode_encode ?_
    rw [hlength]
    decide
  · intro hoff
    cases hoff
  · intro _
    exact ⟨[⟨"a", none, [1]⟩], by cbv, rfl⟩
  · exact hlength.symm
  · rw [hlength]
    rfl

end Validator

end AggregatedRecords
