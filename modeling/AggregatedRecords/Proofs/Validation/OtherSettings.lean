import AggregatedRecords.Proofs.Validation.EntryPoints
/-!
# Validation — under other settings

A limit refuses octets before anything else is looked at
(`Checks.examine_of_limit_lt`), and makes no difference to any others
(`Checks.examine_unlimited`). User records are looked for behind everything
else, in the message that an input validates to without them
(`Checks.examine_resolving`). So settings of the same envelope that differ in one
of the two agree but for just that (`Validator.limit_and_userRecords`).
-/

namespace AggregatedRecords

theorem eq_ok_of_toOption {ε α : Type} {result : Except ε α} {a : α}
    (h : result.toOption = some a) : result = .ok a := by
  cases result with
  | error e => cases h
  | ok b => exact congrArg Except.ok (Option.some.inj h)

/-! ## Octets -/

/-- What an input validates to once its user records are wanted too. -/
def Validated.resolved (validated : Validated) : Except ValidationError Validated :=
  (validated.record.deaggregate.mapError .inconsistent).map fun users =>
    { validated with userRecords := some users }

namespace Checks

variable {format : FrameFormat} {limit : Option UInt64} {raw : Bytes}

/-- Octets beyond the limit are refused, whatever they are. -/
theorem examine_of_limit_lt {checks : Checks} {limit : UInt64}
    (hlimit : checks.maxFrameBytes = some limit) (hlong : limit.toNat < raw.length) :
    (checks.examine raw).result = .error (.tooLarge raw.length limit.toNat) := by
  have hrefused : (checks.requireLength raw.length).result =
      .error (.tooLarge raw.length limit.toNat) := by
    simp [requireLength, hlimit, Attempt.require, Nat.not_le.2 hlong]
  rw [examine, Attempt.result_bind, hrefused]
  rfl

/-- User records have a result of their own, if they are wanted. -/
theorem result_resolve (checks : Checks) (record : AggregatedRecord) :
    (checks.resolve record).result =
      if checks.deaggregate then (record.deaggregate.mapError .inconsistent).map some
      else .ok none := by
  rw [resolve]
  cases checks.deaggregate with
  | false => rfl
  | true => cases record.deaggregate <;> rfl

/-- An examination goes through limit, frame, payload and user records. -/
theorem result_examine (checks : Checks) (raw : Bytes) :
    (checks.examine raw).result =
      (checks.requireLength raw.length).result.bind fun _ =>
        ((checks.format.parse raw).mapError .frame).bind fun view =>
          ((AggregatedRecord.decode view.payload).mapError .undecodable).bind fun record =>
            (checks.resolve record).result.map fun userRecords =>
              ⟨record, userRecords, view.payload.length, view.length⟩ := by
  simp only [examine, Attempt.result_bind, Attempt.stage, Attempt.note, Attempt.pure_eq]
  rfl

/-- **A limit that is kept makes no difference.** -/
theorem examine_unlimited {deaggregate : Bool}
    (h : ∀ most, limit = some most → raw.length ≤ most.toNat) :
    (examine ⟨format, limit, deaggregate⟩ raw).result =
      (examine ⟨format, none, deaggregate⟩ raw).result := by
  have hkept : (requireLength ⟨format, limit, deaggregate⟩ raw.length).result = .ok () :=
    requireLength_eq_ok_iff.2 h
  rw [result_examine, result_examine, hkept]
  rfl

/-- **User records are looked for in what is validated without them.** -/
theorem examine_resolving :
    (examine ⟨format, limit, true⟩ raw).result =
      (examine ⟨format, limit, false⟩ raw).result.bind Validated.resolved := by
  have hlimit : requireLength ⟨format, limit, true⟩ raw.length =
      requireLength ⟨format, limit, false⟩ raw.length := rfl
  rw [result_examine, result_examine, hlimit]
  cases (requireLength ⟨format, limit, false⟩ raw.length).result with
  | error e => rfl
  | ok u =>
    cases format.parse raw with
    | error e => rfl
    | ok view =>
      simp only [Except.mapError, Except.bind]
      cases AggregatedRecord.decode view.payload with
      | error e => rfl
      | ok record =>
        simp only [result_resolve, if_true, Bool.false_eq_true, if_false, Except.map,
          Validated.resolved]
        cases record.deaggregate <;> rfl

end Checks

namespace Validator

/-! ## Calls -/

section Calls

variable {checks other : Checks} {c : Call} {raw : Bytes}

/-- A call whose octets are refused is refused. -/
theorem examined_of_refused (hraw : c.octets? = some raw) {e : ValidationError}
    (h : (checks.examine raw).result = .error e) : c.examined checks = .error e := by
  cases c with
  | validate text =>
    rw [Call.octets?] at hraw
    rw [Call.examined, examineText_of_decodeText checks (eq_ok_of_toOption hraw), h]
    rfl
  | validateBytes octets =>
    obtain rfl := Option.some.inj hraw
    rw [Call.examined, h]
    rfl
  | validateAndRender text render =>
    rw [Call.octets?] at hraw
    rw [Call.examined, Checks.result_examineAndRender,
      examineText_of_decodeText checks (eq_ok_of_toOption hraw), h]
    rfl

/-- A text is examined alike under checks that examine its octets alike, -/
theorem examineText_congr (text : String)
    (h : ∀ raw, (Base64.decodeText text).toOption = some raw →
      (checks.examine raw).result = (other.examine raw).result) :
    (checks.examineText text).result = (other.examineText text).result := by
  rw [Checks.result_examineText, Checks.result_examineText]
  cases hdecode : Base64.decodeText text with
  | error e => rfl
  | ok raw => exact h raw (by rw [hdecode]; rfl)

/-- and so is the input of any call. -/
theorem examined_congr
    (h : ∀ raw, c.octets? = some raw → (checks.examine raw).result = (other.examine raw).result) :
    c.examined checks = c.examined other := by
  cases c with
  | validate text => rw [Call.examined, Call.examined, examineText_congr text h]
  | validateBytes raw => rw [Call.examined, Call.examined, h raw rfl]
  | validateAndRender text render =>
    rw [Call.examined, Call.examined, Checks.result_examineAndRender,
      Checks.result_examineAndRender, examineText_congr text h]

end Calls

/-- **How a result changes** when user records are wanted. An error stays what
it is, and a success is one with user records, or an error of its keys. -/
structure Resolves (plain full : Except ValidationError Validated) : Prop where
  refused : ∀ e, plain = .error e → full = .error e
  resolved : ∀ validated users, plain = .ok validated →
    validated.record.deaggregate = .ok users →
      full = .ok { validated with userRecords := some users }
  inconsistent : ∀ validated e, plain = .ok validated →
    validated.record.deaggregate = .error e → full = .error (.inconsistent e)

theorem resolves_bind (plain : Except ValidationError Validated) :
    Resolves plain (plain.bind Validated.resolved) where
  refused e h := by rw [h]; rfl
  resolved validated users h husers := by
    rw [h, Except.bind, Validated.resolved, husers]
    rfl
  inconsistent validated e h he := by
    rw [h, Except.bind, Validated.resolved, he]
    rfl

/-- The limit of settings is at most that of other ones. No limit is above
all. -/
def LimitAtMost (x y : Settings) : Prop :=
  ∀ limit, y.maxFrameBytes = some limit → ∃ lower, x.maxFrameBytes = some lower ∧ lower ≤ limit

theorem limitAtMost_of_unlimited {x y : Settings} (h : y.maxFrameBytes = none) :
    LimitAtMost x y := by
  intro limit hlimit
  simp [h] at hlimit

variable {x y : Settings} {format : FrameFormat}

/-- **Settings of one envelope agree** but for what they differ in. If that is the
limit, no limit being above all, octets beyond the lower one are refused under
it with their length and the limit, and every other input has the same result
under both. If that is whether user records are wanted, an error is the same
error, and a success is the same with the user records of its message, or the
error of its keys. -/
theorem limit_and_userRecords (hx : x.frameFormat = .ok format) (hy : y.frameFormat = .ok format) :
    ∃ start other, ofSettings x = .ok start ∧ ofSettings y = .ok other ∧
      ∀ v w : Validator, v.checks = start.checks → w.checks = other.checks →
        (x.deaggregate = y.deaggregate → LimitAtMost x y → ∀ c : Call,
          (∀ raw limit, c.octets? = some raw → x.maxFrameBytes = some limit →
            limit.toNat < raw.length →
              (v.call c).1 = .error (.tooLarge raw.length limit.toNat)) ∧
          ((∀ raw limit, c.octets? = some raw → x.maxFrameBytes = some limit →
            raw.length ≤ limit.toNat) → (v.call c).1 = (w.call c).1)) ∧
        (x.maxFrameBytes = y.maxFrameBytes → x.deaggregate = false → y.deaggregate = true →
          (∀ text, Resolves (v.validate text).1 (w.validate text).1) ∧
          ∀ raw, Resolves (v.validateBytes raw).1 (w.validateBytes raw).1) := by
  refine ⟨_, _, ofSettings_of_frameFormat hx, ofSettings_of_frameFormat hy, ?_⟩
  rintro ⟨checks, counts, times⟩ ⟨checks', counts', times'⟩ rfl rfl
  constructor
  · intro hsame hlower c
    simp only [call_fst]
    refine ⟨fun raw limit hraw hlimit hlong => ?_, fun hkept => ?_⟩
    · rw [examined_of_refused hraw (Checks.examine_of_limit_lt hlimit hlong)]
      rfl
    · refine congrArg _ (examined_congr fun raw hraw => ?_)
      have habove : ∀ most, y.maxFrameBytes = some most → raw.length ≤ most.toNat := by
        intro most hmost
        obtain ⟨lower, hlimit, hle⟩ := hlower most hmost
        exact (hkept raw lower hraw hlimit).trans (UInt64.le_iff_toNat_le.1 hle)
      rw [hsame, Checks.examine_unlimited fun most => hkept raw most hraw,
        Checks.examine_unlimited habove]
  · intro hlimit hplain hfull
    simp only [validate_fst, validateBytes_fst, hlimit, hplain, hfull, Checks.result_examineText,
      Checks.examine_resolving]
    refine ⟨fun text => ?_, fun raw => resolves_bind _⟩
    cases (Base64.decodeText text).mapError ValidationError.invalidEncoding with
    | error e => exact resolves_bind (.error e)
    | ok raw => exact resolves_bind _

/-- So it is with octets one too many for a limit, and with a record whose only
index dangles. -/
theorem limit_and_userRecords_dangling :
    ∃ limited plain full, ofSettings ⟨"F3:89:9a:c2", .md5, some 30, false⟩ = .ok limited ∧
      ofSettings ⟨"F3:89:9a:c2", .md5, none, false⟩ = .ok plain ∧
      ofSettings ⟨"F3:89:9a:c2", .md5, none, true⟩ = .ok full ∧
      (limited.call (.validateBytes (List.replicate 31 0))).1 = .error (.tooLarge 31 30) ∧
      (limited.call (.validateBytes (List.replicate 30 0))).1 =
        (plain.call (.validateBytes (List.replicate 30 0))).1 ∧
      ∃ raw validated, (plain.validateBytes raw).1 = .ok validated ∧
        (full.validateBytes raw).1 = .error (.inconsistent ⟨.partitionKey, 0, 7, 0⟩) := by
  have hlimited : (Settings.mk "F3:89:9a:c2" .md5 (some 30) false).frameFormat = .ok .standard := by
    cbv
  have hplain : (Settings.mk "F3:89:9a:c2" .md5 none false).frameFormat = .ok .standard := by
    cbv
  have hfull : (Settings.mk "F3:89:9a:c2" .md5 none true).frameFormat = .ok .standard := by
    cbv
  obtain ⟨limited, plain, hstart, hother, hlimit⟩ := limit_and_userRecords hlimited hplain
  obtain ⟨plain', full, hother', hlast, husers⟩ := limit_and_userRecords hplain hfull
  obtain rfl : plain = plain' := Except.ok.inj (hother.symm.trans hother')
  refine ⟨limited, plain, full, hstart, hother, hlast, ?_, ?_, ?_⟩
  · obtain ⟨hrefused, -⟩ := (hlimit limited plain rfl rfl).1 rfl
      (limitAtMost_of_unlimited rfl) (.validateBytes (List.replicate 31 0))
    exact hrefused _ 30 rfl rfl (by decide)
  · obtain ⟨-, hsame⟩ := (hlimit limited plain rfl rfl).1 rfl
      (limitAtMost_of_unlimited rfl) (.validateBytes (List.replicate 30 0))
    refine hsame ?_
    intro raw limit hraw hlimit
    obtain rfl : List.replicate 30 0 = raw := Option.some.inj hraw
    obtain rfl : 30 = limit := Option.some.inj hlimit
    decide
  · obtain rfl : plain = ⟨⟨.standard, none, false⟩, .zero, .empty⟩ :=
      Except.ok.inj (hother.symm.trans (ofSettings_of_frameFormat hplain))
    have hdecode : AggregatedRecord.decode
        (AggregatedRecord.encode ⟨#[], #[], #[⟨7, none, [1], #[]⟩]⟩) =
          .ok ⟨#[], #[], #[⟨7, none, [1], #[]⟩]⟩ := by
      refine AggregatedRecord.decode_encode ?_
      have hlength : (AggregatedRecord.encode ⟨#[], #[], #[⟨7, none, [1], #[]⟩]⟩).length = 7 := by
        cbv
      rw [hlength]
      decide
    have haccepts : Checks.Accepts ⟨.standard, none, false⟩
        (AggregatedRecord.encode ⟨#[], #[], #[⟨7, none, [1], #[]⟩]⟩)
        ⟨⟨#[], #[], #[⟨7, none, [1], #[]⟩]⟩, none, _, _⟩ := ⟨by simp, hdecode, rfl, rfl, rfl⟩
    have hvalid := Checks.examine_eq_ok_iff.2 ⟨_, rfl, haccepts⟩
    obtain ⟨-, hresolves⟩ := (husers _ full rfl rfl).2 rfl rfl rfl
    exact ⟨_, _, hvalid, (hresolves _).inconsistent _ _ hvalid rfl⟩

end Validator

end AggregatedRecords
