import AggregatedRecords.Proofs.Record.Schema
import AggregatedRecords.Proofs.Validation.Acceptance
/-!
# Validation — required fields

The schema requires fields of a record and of a tag, and a validator should
refuse a payload that lacks one of them (`Validator.RefusesIncomplete`). It does
so only where the fields that are there do not fit the schema in the first place
(`Validator.refusesIncomplete_iff`): that a field is missing changes nothing of
the answer. So a payload may be valid that is not complete
(`Validator.validateBytes_incomplete`), and gives a user record of the first
partition key.
-/

namespace AggregatedRecords

open Wire

/-! ## Payloads that are decoded -/

namespace Checks

variable {checks : Checks} {raw payload : Bytes}

/-- Octets are a frame within the limit, so that its payload is decoded. -/
def Frames (checks : Checks) (payload raw : Bytes) : Prop :=
  raw = checks.format.encode payload ∧
    ∀ limit, checks.maxFrameBytes = some limit → raw.length ≤ limit.toNat

theorem Frames.unique {other : Bytes} (h : checks.Frames payload raw)
    (hother : checks.Frames other raw) : payload = other :=
  checks.format.encode_injective (h.1.symm.trans hother.1)

/-- User records may be inconsistent, but nothing about them is undecodable. -/
theorem resolve_ne_undecodable (checks : Checks) (record : AggregatedRecord) (cause : Failure) :
    (checks.resolve record).result ≠ .error (.undecodable cause) := by
  unfold resolve
  cases checks.deaggregate with
  | false => simp
  | true =>
    intro h
    cases hdeaggregate : record.deaggregate <;>
      simp [hdeaggregate, Functor.map, Attempt.andThen, Attempt.stage, Except.mapError] at h

/-- **A frame is undecodable where its payload is.** -/
theorem examine_eq_undecodable_iff (h : checks.Frames payload raw) {cause : Failure} :
    (checks.examine raw).result = .error (.undecodable cause) ↔
      AggregatedRecord.decode payload = .error cause := by
  obtain ⟨rfl, hlimit⟩ := h
  have hlength : (checks.requireLength (checks.format.encode payload).length).result = .ok () :=
    requireLength_eq_ok_iff.2 hlimit
  simp only [examine, Attempt.result_bind, hlength, FrameFormat.parse_encode, Attempt.stage,
    Attempt.note, Except.mapError, Except.bind]
  cases hdecode : AggregatedRecord.decode payload with
  | error e => simp
  | ok record =>
    have hresolve := checks.resolve_ne_undecodable record cause
    cases hresult : (checks.resolve record).result with
    | error e => simpa [hresult] using hresolve
    | ok users => simp [hresult]

/-- What is accepted is a frame whose payload decodes. -/
theorem exists_frames_of_examine {validated : Validated}
    (h : (checks.examine raw).result = .ok validated) :
    ∃ payload, checks.Frames payload raw ∧
      AggregatedRecord.decode payload = .ok validated.record := by
  obtain ⟨payload, rfl, haccepts⟩ := examine_eq_ok_iff.1 h
  exact ⟨payload, ⟨rfl, haccepts.withinLimit⟩, haccepts.record⟩

end Checks

/-! ## What is asked of a validator, and where it holds -/

namespace Validator

/-- **No payload passes that lacks a required field.** What is accepted is
complete, and a payload that is not complete is undecodable. -/
def RefusesIncomplete (v : Validator) (raw : Bytes) : Prop :=
  ∀ payload, v.checks.Frames payload raw →
    (∀ validated, (v.validateBytes raw).1 = .ok validated → AggregatedRecord.Complete payload) ∧
    (¬ AggregatedRecord.Complete payload →
      ∃ cause, (v.validateBytes raw).1 = .error (.undecodable cause))

/-- **A payload is refused for what its fields are, never for what they are
not.** Incomplete payloads are refused exactly where the fields that are there
do not fit the schema, which no field that is missing has a part in. Any other
frame within the limit is decoded, and where it is accepted each of its records
is in the message with defaults for the fields that it lacks. -/
theorem refusesIncomplete_iff (v : Validator) (raw : Bytes) :
    (v.RefusesIncomplete raw ↔ ∀ payload, v.checks.Frames payload raw →
      AggregatedRecord.Complete payload ∨ AggregatedRecord.ofOctets? payload = none) ∧
    ∀ validated, (v.validateBytes raw).1 = .ok validated → ∃ payload,
      v.checks.Frames payload raw ∧ AggregatedRecord.ofOctets? payload = some validated.record ∧
      ∀ fields, fieldsAt 0 payload = .ok fields → ∀ record, ⟨3, .octets record⟩ ∈ fields →
        ∃ read ∈ validated.record.records.toList, Record.Defaulted record read := by
  have haccepted {validated} (h : (v.validateBytes raw).1 = .ok validated) :
      ∃ payload, v.checks.Frames payload raw ∧
        AggregatedRecord.ofOctets? payload = some validated.record := by
    rw [validateBytes_fst] at h
    obtain ⟨payload, hframes, hdecode⟩ := Checks.exists_frames_of_examine h
    exact ⟨payload, hframes, AggregatedRecord.decode_eq_ok_iff.1 hdecode⟩
  refine ⟨forall_congr' fun payload => forall_congr' fun hframes => ⟨fun h => ?_, fun h => ?_⟩, ?_⟩
  · by_cases hcomplete : AggregatedRecord.Complete payload
    · exact .inl hcomplete
    · obtain ⟨cause, hrefused⟩ := h.2 hcomplete
      rw [validateBytes_fst, Checks.examine_eq_undecodable_iff hframes] at hrefused
      exact .inr (AggregatedRecord.ofOctets?_eq_none_iff.2 ⟨cause, hrefused⟩)
  · constructor
    · intro validated hok
      obtain ⟨other, hother, hread⟩ := haccepted hok
      obtain rfl := hframes.unique hother
      exact h.resolve_right (by simp [hread])
    · intro hmissing
      obtain ⟨cause, hdecode⟩ :=
        AggregatedRecord.ofOctets?_eq_none_iff.1 (h.resolve_left hmissing)
      refine ⟨cause, ?_⟩
      rwa [validateBytes_fst, Checks.examine_eq_undecodable_iff hframes]
  · intro validated hok
    obtain ⟨payload, hframes, hread⟩ := haccepted hok
    exact ⟨payload, hframes, hread, fun fields hfields record hrecord =>
      AggregatedRecord.exists_defaulted hread hfields hrecord⟩

/-- So it is with a record that has an index and data. -/
theorem refusesIncomplete_iff_bothFields :
    ∃ start, ofSettings { Settings.default with deaggregate := true } = .ok start ∧
      start.RefusesIncomplete
        (start.checks.format.encode [0x0a, 0x01, 0x61, 0x1a, 0x04, 0x08, 0x00, 0x1a, 0x00]) := by
  have hformat : ({ Settings.default with deaggregate := true } : Settings).frameFormat =
      .ok .standard := by cbv
  refine ⟨_, ofSettings_of_frameFormat hformat, ((refusesIncomplete_iff _ _).1).2 ?_⟩
  intro payload hframes
  obtain rfl := FrameFormat.encode_injective _ hframes.1
  left
  have hrecord : fieldsAt 1 [0x08, 0x00, 0x1a, 0x00] = .ok [⟨1, .number 0⟩, ⟨3, .octets []⟩] := by
    have hoctets : encodeUInt64 1 0 ++ (encodeDelimited 3 [] ++ []) = [0x08, 0x00, 0x1a, 0x00] := by
      cbv
    rw [fieldsAt_eq_ok_iff, ← hoctets]
    exact Folds.field (takes_collect_number 0 [] (by decide) (by decide))
      (Folds.field (takes_collect _ (by decide) (by decide) (by decide)) (Folds.nil _))
  have hpayload : fieldsAt 0 [0x0a, 0x01, 0x61, 0x1a, 0x04, 0x08, 0x00, 0x1a, 0x00] =
      .ok [⟨1, .octets [0x61]⟩, ⟨3, .octets [0x08, 0x00, 0x1a, 0x00]⟩] := by
    have hoctets : encodeDelimited 1 [0x61] ++
        (encodeDelimited 3 [0x08, 0x00, 0x1a, 0x00] ++ []) =
        [0x0a, 0x01, 0x61, 0x1a, 0x04, 0x08, 0x00, 0x1a, 0x00] := by cbv
    rw [← hoctets]
    exact AggregatedRecord.fieldsAt_keyAndRecord (by decide) (by decide)
  intro fields hfields record hmem
  obtain rfl := Except.ok.inj (hpayload.symm.trans hfields)
  obtain rfl : record = [0x08, 0x00, 0x1a, 0x00] := by simpa using hmem
  refine ⟨⟨_, hrecord, _, List.mem_cons_self, rfl⟩,
    ⟨_, hrecord, _, List.mem_cons_of_mem _ List.mem_cons_self, rfl⟩, fun fields hfields tag hmem => ?_⟩
  obtain rfl := Except.ok.inj (hrecord.symm.trans hfields)
  simp at hmem

/-- A payload may be valid that is not complete. Here the only record has no
fields, and yet it has a user record, of the first partition key and without
data. -/
theorem validateBytes_incomplete :
    ∃ start, ofSettings { Settings.default with deaggregate := true } = .ok start ∧
      (start.validateBytes [0xf3, 0x89, 0x9a, 0xc2, 0x0a, 0x01, 0x61, 0x1a, 0x00, 0xad, 0x0b, 0xe6,
        0xdc, 0x64, 0x03, 0x9e, 0x8a, 0x7e, 0xed, 0xde, 0x83, 0x3e, 0x66, 0x6e, 0x7a]).1 =
          .ok ⟨⟨#["a"], #[], #[.empty]⟩, some [⟨"a", none, []⟩], 5, 25⟩ ∧
      ¬ start.RefusesIncomplete [0xf3, 0x89, 0x9a, 0xc2, 0x0a, 0x01, 0x61, 0x1a, 0x00, 0xad, 0x0b,
        0xe6, 0xdc, 0x64, 0x03, 0x9e, 0x8a, 0x7e, 0xed, 0xde, 0x83, 0x3e, 0x66, 0x6e, 0x7a] := by
  have hfields : fieldsAt 0 [0x0a, 0x01, 0x61, 0x1a, 0x00] =
      .ok [⟨1, .octets [0x61]⟩, ⟨3, .octets []⟩] := by
    have hoctets : encodeDelimited 1 [0x61] ++ (encodeDelimited 3 [] ++ []) =
        [0x0a, 0x01, 0x61, 0x1a, 0x00] := by cbv
    rw [← hoctets]
    exact AggregatedRecord.fieldsAt_keyAndRecord (by decide) (by decide)
  have hincomplete : ¬ AggregatedRecord.Complete [0x0a, 0x01, 0x61, 0x1a, 0x00] :=
    fun hcomplete => not_carries_nil 1 1 (hcomplete _ hfields [] (by simp)).1
  have hdecode : AggregatedRecord.decode [0x0a, 0x01, 0x61, 0x1a, 0x00] =
      .ok ⟨#["a"], #[], #[.empty]⟩ := by
    have hkey : Bytes.toString? [0x61] = some "a" := Bytes.toString?_ofString "a"
    rw [AggregatedRecord.decode_eq_ok_iff, AggregatedRecord.ofOctets?, hfields]
    simp [Except.toOption, AggregatedRecord.ofFields?, valuesOf, Content.text?, Content.octets?, hkey,
      Record.ofOctets?_nil]
  have hformat : ({ Settings.default with deaggregate := true } : Settings).frameFormat =
      .ok .standard := by cbv
  have hraw : [0xf3, 0x89, 0x9a, 0xc2, 0x0a, 0x01, 0x61, 0x1a, 0x00, 0xad, 0x0b, 0xe6, 0xdc, 0x64,
      0x03, 0x9e, 0x8a, 0x7e, 0xed, 0xde, 0x83, 0x3e, 0x66, 0x6e, 0x7a] =
      FrameFormat.standard.encode [0x0a, 0x01, 0x61, 0x1a, 0x00] := by cbv
  have hlength : (FrameFormat.standard.encode [0x0a, 0x01, 0x61, 0x1a, 0x00]).length = 25 :=
    FrameFormat.length_encode_eq _ _
  have hlimit : ∀ limit, Settings.default.maxFrameBytes = some limit →
      (FrameFormat.standard.encode [0x0a, 0x01, 0x61, 0x1a, 0x00]).length ≤ limit.toNat := by
    rintro limit ⟨⟩
    rw [hlength]
    decide
  have hframes : Checks.Frames ⟨.standard, Settings.default.maxFrameBytes, true⟩
      [0x0a, 0x01, 0x61, 0x1a, 0x00] _ := ⟨rfl, hlimit⟩
  have haccepts : Checks.Accepts ⟨.standard, Settings.default.maxFrameBytes, true⟩
      [0x0a, 0x01, 0x61, 0x1a, 0x00]
      ⟨⟨#["a"], #[], #[.empty]⟩, some [⟨"a", none, []⟩], 5, 25⟩ :=
    ⟨hlimit, hdecode, ⟨[⟨"a", none, []⟩], by cbv, rfl⟩, rfl, hlength.symm⟩
  have hvalid := Checks.examine_eq_ok_iff.2 ⟨_, rfl, haccepts⟩
  rw [hraw]
  exact ⟨_, ofSettings_of_frameFormat hformat, hvalid, fun hrefuses =>
    hincomplete ((hrefuses _ hframes).1 _ hvalid)⟩

end Validator

end AggregatedRecords
