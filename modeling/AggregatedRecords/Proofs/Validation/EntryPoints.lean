import AggregatedRecords.Proofs.Validation.History
/-!
# Validation — the three entry points

A text is examined as the octets that it is the Base64 of
(`Checks.result_examineText`), and rendering comes behind all that a text is
examined for (`Checks.result_examineAndRender`). So it makes no difference to
results and counts which entry point an input comes in by, but for what the
renderer has to say (`Validator.entryPoints_agree`).
-/

namespace AggregatedRecords

/-! ## Results -/

namespace Checks

variable (checks : Checks) {α : Type}

/-- **A text is examined as its octets are**, if it has any. -/
theorem result_examineText (text : String) :
    (checks.examineText text).result =
      ((Base64.decodeText text).mapError .invalidEncoding).bind fun raw =>
        (checks.examine raw).result := by
  rw [examineText, Attempt.result_bind, Attempt.stage]

/-- **What a text validates to is rendered**, and nothing else is. -/
theorem result_examineAndRender (text : String)
    (render : Validated → Except ValidationError α) :
    (checks.examineAndRender text render).result =
      (checks.examineText text).result.bind fun validated =>
        (render validated).map fun a => (validated, a) := by
  rw [examineAndRender, Attempt.result_bind]
  congr 1
  funext validated
  rw [Attempt.result_bind, Attempt.stage]
  cases render validated <;> rfl

end Checks

namespace Validator

/-! ## Inputs -/

namespace Call

/-- The text that a call is about, if it is about one. -/
def text? : Call → Option String
  | validate text => some text
  | validateBytes _ => none
  | validateAndRender text _ => some text

/-- The octets that a call is about. A text that is no Base64 has none. -/
def octets? : Call → Option Bytes
  | validate text => (Base64.decodeText text).toOption
  | validateBytes raw => some raw
  | validateAndRender text _ => (Base64.decodeText text).toOption

end Call

variable {α : Type} {v : Validator} {text : String} {raw : Bytes}

/-! ## From one entry point to another -/

/-- A text that is Base64 has the result of its octets. -/
theorem examineText_of_decodeText (checks : Checks) (h : Base64.decodeText text = .ok raw) :
    (checks.examineText text).result = (checks.examine raw).result := by
  rw [Checks.result_examineText, h]
  rfl

theorem counts_validate (v : Validator) (text : String) :
    (v.validate text).2.counts = v.counts + Counts.ofResult (v.checks.examineText text).result := by
  simp only [validate, counts_account, Except.map_id, id_eq]

theorem counts_validateBytes (v : Validator) (raw : Bytes) :
    (v.validateBytes raw).2.counts = v.counts + Counts.ofResult (v.checks.examine raw).result := by
  simp only [validateBytes, counts_account, Except.map_id, id_eq]

/-- **A text that does not validate is not rendered.** All is as if there were
no renderer, the stages that were started as well. -/
theorem validateAndRender_of_error {e : ValidationError} (h : (v.validate text).1 = .error e)
    (render : Validated → Except ValidationError α) :
    v.validateAndRender text render = (.error e, (v.validate text).2) := by
  have hresult : (v.checks.examineText text).result = .error e := (validate_fst v text).symm.trans h
  have hrefused : v.checks.examineAndRender text render =
      ⟨.error e, (v.checks.examineText text).stages, (v.checks.examineText text).events⟩ :=
    Attempt.bind_of_error hresult
  simp only [validateAndRender, validate, account, hrefused, hresult]
  rfl

/-- A text that validates is rendered, and what comes of it is handed back. -/
theorem validateAndRender_of_ok {validated : Validated} (h : (v.validate text).1 = .ok validated)
    (render : Validated → Except ValidationError α) :
    (v.validateAndRender text render).1 = render validated ∧
      (v.validateAndRender text render).2.counts =
        v.counts + Counts.ofResult ((render validated).map fun _ => validated) := by
  have hresult : (v.checks.examineText text).result = .ok validated :=
    (validate_fst v text).symm.trans h
  simp only [validateAndRender, counts_account, Checks.result_examineAndRender, hresult,
    Except.bind]
  cases render validated <;> exact ⟨rfl, rfl⟩

/-- **The entry points agree.** A text that is Base64 validates as its octets
do, with the same counts. Where it does not validate, the same is handed back if
it was to be rendered, whatever the renderer, and the validator is left the
same. Where it validates, what its renderer gives is handed back. Then the
counts are the same if that is a result; if it is an error, there is one failure
of its kind more than before, and nothing else has changed. -/
theorem entryPoints_agree (v : Validator) (text : String) :
    (∀ raw, Base64.decodeText text = .ok raw →
      (v.validate text).1 = (v.validateBytes raw).1 ∧
      (v.validate text).2.counts = (v.validateBytes raw).2.counts) ∧
    ∀ {α : Type} (render : Validated → Except ValidationError α),
      (∀ e, (v.validate text).1 = .error e →
        v.validateAndRender text render = (.error e, (v.validate text).2)) ∧
      ∀ validated, (v.validate text).1 = .ok validated →
        (v.validateAndRender text render).1 = render validated ∧
        (∀ a, render validated = .ok a →
          (v.validateAndRender text render).2.counts = (v.validate text).2.counts) ∧
        ∀ e, render validated = .error e →
          (∀ kind, (v.validateAndRender text render).2.counts.failed kind =
            v.counts.failed kind + if .ofName e.kind = kind then 1 else 0) ∧
          (v.validateAndRender text render).2.counts.framesOk = v.counts.framesOk ∧
          (v.validateAndRender text render).2.counts.bytesPayload = v.counts.bytesPayload ∧
          (v.validateAndRender text render).2.counts.bytesOverhead = v.counts.bytesOverhead ∧
          (v.validateAndRender text render).2.counts.userRecords = v.counts.userRecords := by
  refine ⟨fun raw hraw => ?_, fun render => ⟨fun e he => validateAndRender_of_error he render, ?_⟩⟩
  · have hsame := examineText_of_decodeText v.checks hraw
    rw [validate_fst, validateBytes_fst, counts_validate, counts_validateBytes, hsame]
    exact ⟨rfl, rfl⟩
  · intro validated hok
    obtain ⟨hresult, hcounts⟩ := validateAndRender_of_ok hok render
    have htext : (v.checks.examineText text).result = .ok validated :=
      (validate_fst v text).symm.trans hok
    refine ⟨hresult, fun a ha => ?_, fun e he => ?_⟩
    · rw [hcounts, ha, counts_validate, htext]
      rfl
    · have hfailure : (v.validateAndRender text render).2.counts = v.counts.addFailure e := by
        rw [hcounts, he, Counts.addFailure_eq]
        rfl
      rw [hfailure]
      exact ⟨Counts.failed_addFailure v.counts e, Counts.totals_addFailure v.counts e⟩

end Validator

end AggregatedRecords
