import AggregatedRecords.Proofs.Statistics.Counts
import AggregatedRecords.Proofs.Validation.Acceptance
/-!
# Validation — histories of calls

The calls of a validator are its three entry points, with any texts, octets and
renderers. What a call hands back depends on the checks alone
(`Validator.call_fst`), and the counts grow by what the call comes to
(`Validator.counts_call`). So the outcomes of many calls are those of each call
by itself (`Validator.run_fst`), and the counts are a sum over the calls
(`Validator.counts_run`).
-/

namespace AggregatedRecords

namespace Counts

/-- What an input adds to the counts, by what it validates to. -/
def ofResult : Except ValidationError Validated → Counts
  | .error e => Counts.zero.addFailure e
  | .ok r =>
    Counts.zero.addOk r.payloadLength (r.frameLength - r.payloadLength) r.record.records.size

end Counts

namespace Validator

/-- A call on a validator. Each renderer may give results of its own type. -/
inductive Call where
  | validate (text : String)
  | validateBytes (raw : Bytes)
  | validateAndRender {α : Type} (text : String) (render : Validated → Except ValidationError α)

/-- What a call hands back where it succeeds. -/
abbrev Call.Output : Call → Type
  | .validate _ => Validated
  | .validateBytes _ => Validated
  | @Call.validateAndRender α _ _ => α

/-- A call together with what it handed back. -/
structure Outcome where
  call : Call
  result : Except ValidationError call.Output

/-- Makes a call. -/
def call (v : Validator) : (c : Call) → Except ValidationError c.Output × Validator
  | .validate text => v.validate text
  | .validateBytes raw => v.validateBytes raw
  | .validateAndRender text render => v.validateAndRender text render

/-- Makes calls one after the other. -/
def run (v : Validator) : List Call → List Outcome × Validator
  | [] => ([], v)
  | c :: calls =>
    let (result, v) := v.call c
    let (outcomes, v) := v.run calls
    (⟨c, result⟩ :: outcomes, v)

/-! ## A call by itself -/

/-- What becomes of the input of a call, together with what the call hands
back. -/
def Call.examined (checks : Checks) : (c : Call) → Except ValidationError (Validated × c.Output)
  | .validate text => (checks.examineText text).result.map fun r => (r, r)
  | .validateBytes raw => (checks.examine raw).result.map fun r => (r, r)
  | .validateAndRender text render => (checks.examineAndRender text render).result

/-- The outcome of a call on a validator with given checks. -/
def Call.outcome (checks : Checks) (c : Call) : Outcome := ⟨c, (c.examined checks).map Prod.snd⟩

/-- What a call adds to the counts of a validator with given checks. -/
def Call.counts (checks : Checks) (c : Call) : Counts :=
  .ofResult ((c.examined checks).map Prod.fst)

variable {α : Type}

/-- **What is taken into account** of an attempt is added to the counts. -/
theorem counts_account (v : Validator) (attempt : Attempt α) (validated : α → Validated) :
    (v.account attempt validated).counts =
      v.counts + Counts.ofResult (attempt.result.map validated) := by
  unfold account
  cases attempt.result with
  | error e => exact Counts.addFailure_eq v.counts e
  | ok a => exact Counts.addOk_eq v.counts _ _ _

/-- **What a call hands back depends on the checks alone.** -/
theorem call_fst (v : Validator) (c : Call) :
    (v.call c).1 = (c.examined v.checks).map Prod.snd := by
  cases c with
  | validate text =>
    simp only [call, validate, Call.examined]
    cases (v.checks.examineText text).result <;> rfl
  | validateBytes raw =>
    simp only [call, validateBytes, Call.examined]
    cases (v.checks.examine raw).result <;> rfl
  | validateAndRender text render => simp only [call, validateAndRender, Call.examined]

theorem checks_account (v : Validator) (attempt : Attempt α) (validated : α → Validated) :
    (v.account attempt validated).checks = v.checks := by
  rw [account]

/-- A call leaves the checks as they are. -/
theorem checks_call (v : Validator) (c : Call) : (v.call c).2.checks = v.checks := by
  cases c with
  | validate text => simp only [call, validate, checks_account]
  | validateBytes raw => simp only [call, validateBytes, checks_account]
  | validateAndRender text render => simp only [call, validateAndRender, checks_account]

/-- **A call adds to the counts** what it comes to by itself. -/
theorem counts_call (v : Validator) (c : Call) :
    (v.call c).2.counts = v.counts + c.counts v.checks := by
  unfold Call.counts
  cases c with
  | validate text =>
    simp only [call, validate, counts_account, Call.examined]
    cases (v.checks.examineText text).result <;> rfl
  | validateBytes raw =>
    simp only [call, validateBytes, counts_account, Call.examined]
    cases (v.checks.examine raw).result <;> rfl
  | validateAndRender text render =>
    simp only [call, validateAndRender, counts_account, Call.examined]

/-! ## Many calls -/

/-- Usable settings make a validator of their format, which has counted
nothing. -/
theorem exists_ofSettings {settings : Settings} {format : FrameFormat}
    (h : settings.frameFormat = .ok format) :
    ∃ start, ofSettings settings = .ok start ∧ start.counts = 0 ∧ start.checks.format = format :=
  ⟨_, ofSettings_of_frameFormat h, rfl, rfl⟩

/-- Each call of many has the outcome that it has by itself. -/
theorem run_fst (v : Validator) (calls : List Call) :
    (v.run calls).1 = calls.map (Call.outcome v.checks) := by
  induction calls generalizing v with
  | nil => rfl
  | cons c calls ih =>
    simp only [run, List.map_cons, ih, checks_call, call_fst, Call.outcome]

/-- **The counts of many calls are the sum** of what each adds by itself. -/
theorem counts_run (v : Validator) (calls : List Call) :
    (v.run calls).2.counts = v.counts + (calls.map (Call.counts v.checks)).sum := by
  induction calls generalizing v with
  | nil => exact (add_zero v.counts).symm
  | cons c calls ih =>
    simp only [run, List.map_cons, List.sum_cons, ih, checks_call, counts_call, add_assoc]

end Validator

end AggregatedRecords
