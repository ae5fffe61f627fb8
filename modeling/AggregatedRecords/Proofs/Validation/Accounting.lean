import AggregatedRecords.Proofs.Validation.History
import Mathlib
/-!
# Validation — every input is accounted for once

What a call adds to the counts is one input: a frame that validated, with its
lengths and records, or one failure under the kind of its error
(`Validator.total_counts`, `Validator.failed_counts`). As the counts of many
calls are a sum over the calls, they can be read off the outcomes
(`Validator.accounted_run`).

Failures without a count of their own come from renderers only: everything that
an examination fails with has one (`Checks.failsCounted_examine`).
-/

namespace AggregatedRecords

/-! ## Errors of examinations -/

namespace Attempt

variable {α β : Type} {ε : Type}

/-- A bind fails with the error of its first attempt, or with that of its
second. -/
theorem bind_eq_error_iff {first : Attempt α} {next : α → Attempt β} {e : ValidationError} :
    (first >>= next).result = .error e ↔
      first.result = .error e ∨ ∃ a, first.result = .ok a ∧ (next a).result = .error e := by
  rw [result_bind]
  cases first.result with
  | error cause => simp [Except.bind]
  | ok a => simp [Except.bind]

/-- An attempt that fails only with errors that have a count of their own. -/
def FailsCounted (attempt : Attempt α) : Prop :=
  ∀ e, attempt.result = .error e → FailureKind.ofName e.kind ≠ .other

theorem failsCounted_pure (a : α) : (pure a : Attempt α).FailsCounted := by
  intro e h
  cases h

theorem FailsCounted.bind {first : Attempt α} {next : α → Attempt β} (hfirst : first.FailsCounted)
    (hnext : ∀ a, (next a).FailsCounted) : (first >>= next).FailsCounted := by
  intro e h
  rcases bind_eq_error_iff.1 h with hresult | ⟨a, -, hresult⟩
  · exact hfirst e hresult
  · exact hnext a e hresult

theorem failsCounted_note (event : Event) : (note event).FailsCounted := by
  intro e h
  cases h

theorem failsCounted_require {condition : Bool} {e : ValidationError}
    (h : FailureKind.ofName e.kind ≠ .other) : (require condition e).FailsCounted := by
  intro cause hcause
  unfold require at hcause
  cases condition with
  | false =>
    obtain rfl := Except.error.inj hcause
    exact h
  | true => cases hcause

/-- A stage fails with what its errors become. -/
theorem failsCounted_stage {stage : Stage} {result : Except ε α} {cause : ε → ValidationError}
    (h : ∀ e, result = .error e → FailureKind.ofName (cause e).kind ≠ .other) :
    (Attempt.stage stage (result.mapError cause)).FailsCounted := by
  intro e herror
  unfold Attempt.stage at herror
  cases result with
  | error inner =>
    obtain rfl := Except.error.inj herror
    exact h inner rfl
  | ok a => cases herror

end Attempt

/-- A frame that is opened is never asked for another digest size. -/
theorem FrameFormat.ofName_kind_of_parse {format : FrameFormat} {raw : Bytes} {cause : FrameError}
    (h : format.parse raw = .error cause) : FailureKind.ofName cause.kind ≠ .other := by
  rw [FrameFormat.parse] at h
  split at h
  · obtain rfl := Except.error.inj h
    intro hkind
    cases hkind
  · split at h
    · obtain rfl := Except.error.inj h
      intro hkind
      cases hkind
    · split at h
      · obtain rfl := Except.error.inj h
        intro hkind
        cases hkind
      · cases h

namespace Checks

variable (checks : Checks)

theorem failsCounted_requireLength (length : Nat) :
    (checks.requireLength length).FailsCounted := by
  unfold requireLength
  cases checks.maxFrameBytes with
  | none => exact Attempt.failsCounted_pure ()
  | some limit =>
    refine Attempt.failsCounted_require fun hkind => ?_
    cases hkind

theorem failsCounted_resolve (record : AggregatedRecord) :
    (checks.resolve record).FailsCounted := by
  unfold resolve
  cases checks.deaggregate with
  | false => exact Attempt.failsCounted_pure none
  | true =>
    refine Attempt.FailsCounted.bind (Attempt.failsCounted_stage fun e _ => ?_) fun users =>
      Attempt.failsCounted_pure (some users)
    intro hkind
    cases hkind

/-- **Every error of an examination has a count of its own.** -/
theorem failsCounted_examine (raw : Bytes) : (checks.examine raw).FailsCounted := by
  refine (checks.failsCounted_requireLength _).bind fun _ => ?_
  refine (Attempt.failsCounted_stage fun e he => ?_).bind fun view => ?_
  · exact FrameFormat.ofName_kind_of_parse he
  · refine (Attempt.failsCounted_note _).bind fun _ => ?_
    refine (Attempt.failsCounted_stage fun e _ hkind => by cases hkind).bind fun record => ?_
    refine (Attempt.failsCounted_note _).bind fun _ => ?_
    exact (checks.failsCounted_resolve record).bind fun users => Attempt.failsCounted_pure _

/-- And so it is with a text. -/
theorem failsCounted_examineText (text : String) : (checks.examineText text).FailsCounted := by
  refine (Attempt.failsCounted_stage fun e _ hkind => ?_).bind fun raw =>
    checks.failsCounted_examine raw
  cases hkind

/-! ## Lengths of what is accepted -/

variable {checks : Checks} {raw : Bytes} {text : String} {validated : Validated}

/-- Around an accepted payload there is what the format puts there. -/
theorem Accepts.overhead {payload : Bytes} (h : checks.Accepts payload validated) :
    validated.frameLength - validated.payloadLength = checks.format.overhead := by
  rw [h.frameLength, h.payloadLength, FrameFormat.length_encode]
  omega

theorem overhead_of_examine (h : (checks.examine raw).result = .ok validated) :
    validated.frameLength - validated.payloadLength = checks.format.overhead := by
  obtain ⟨payload, -, haccepts⟩ := examine_eq_ok_iff.1 h
  exact haccepts.overhead

theorem overhead_of_examineText (h : (checks.examineText text).result = .ok validated) :
    validated.frameLength - validated.payloadLength = checks.format.overhead := by
  obtain ⟨payload, -, haccepts⟩ := examineText_eq_ok_iff.1 h
  exact haccepts.overhead

section Rendered

variable {α : Type} {render : Validated → Except ValidationError α}

/-- What is rendered is what the text validates to. -/
theorem examineText_of_examineAndRender {a : α}
    (h : (checks.examineAndRender text render).result = .ok (validated, a)) :
    (checks.examineText text).result = .ok validated := by
  obtain ⟨r, htext, hrest⟩ := Attempt.bind_eq_ok_iff.1 h
  obtain ⟨rendered, -, hpair⟩ := Attempt.bind_eq_ok_iff.1 hrest
  obtain ⟨rfl, -⟩ := Prod.mk.inj (Except.ok.inj hpair)
  exact htext

/-- What fails has failed before it was rendered, or in being rendered. -/
theorem examineAndRender_eq_error_iff {e : ValidationError} :
    (checks.examineAndRender text render).result = .error e ↔
      (checks.examineText text).result = .error e ∨
        ∃ r, (checks.examineText text).result = .ok r ∧ render r = .error e := by
  rw [examineAndRender, Attempt.bind_eq_error_iff]
  refine or_congr_right (exists_congr fun r => and_congr_right fun _ => ?_)
  rw [Attempt.bind_eq_error_iff]
  constructor
  · rintro (hrender | ⟨a, -, hpair⟩)
    · exact hrender
    · cases hpair
  · exact Or.inl

end Rendered

end Checks

namespace Validator

/-! ## Results that were mapped -/

section Results

variable {ε α β : Type}

/-- A result in two places has come from one. -/
theorem eq_ok_of_map_eq_ok {result : Except ε α} {x y : α}
    (h : result.map (fun r => (r, r)) = .ok (x, y)) : result = .ok x ∧ y = x := by
  cases result with
  | error e => cases h
  | ok r =>
    obtain ⟨rfl, rfl⟩ := Prod.mk.inj (Except.ok.inj h)
    exact ⟨rfl, rfl⟩

theorem eq_error_of_map_eq_error {result : Except ε α} {f : α → β} {e : ε}
    (h : result.map f = .error e) : result = .error e := by
  cases result with
  | error cause => exact congrArg Except.error (Except.error.inj h)
  | ok r => cases h

end Results

/-! ## What a call comes to -/

/-- The kind that the failure of a call is counted under. -/
def Outcome.failure? (o : Outcome) : Option FailureKind :=
  match o.result with
  | .error e => some (.ofName e.kind)
  | .ok _ => none

/-- What a call that succeeded validated: what it handed back or, where that
was rendered, what its text validates to. -/
def Outcome.validated? (checks : Checks) : Outcome → Option Validated
  | ⟨_, .error _⟩ => none
  | ⟨.validate _, .ok validated⟩ => some validated
  | ⟨.validateBytes _, .ok validated⟩ => some validated
  | ⟨.validateAndRender text _, .ok _⟩ => (checks.examineText text).result.toOption

/-- Whether the renderer of a call fails on what the text validates to. -/
def Call.RendererFails (checks : Checks) : Call → Prop
  | .validateAndRender text render =>
    ∃ validated e, (checks.examineText text).result = .ok validated ∧ render validated = .error e
  | _ => False

section Examined

variable {checks : Checks} {c : Call} {validated : Validated} {output : c.Output}

/-- **A call that succeeded** validated what its input was examined to. -/
theorem validated?_outcome (h : c.examined checks = .ok (validated, output)) :
    (c.outcome checks).validated? checks = some validated := by
  rw [Call.outcome, h]
  cases c with
  | validate text =>
    rw [Call.examined] at h
    obtain ⟨-, rfl⟩ := eq_ok_of_map_eq_ok h
    rfl
  | validateBytes raw =>
    rw [Call.examined] at h
    obtain ⟨-, rfl⟩ := eq_ok_of_map_eq_ok h
    rfl
  | validateAndRender text render =>
    have htext := Checks.examineText_of_examineAndRender h
    simp only [Except.map, Outcome.validated?, htext]
    rfl

theorem overhead_of_examined (h : c.examined checks = .ok (validated, output)) :
    validated.frameLength - validated.payloadLength = checks.format.overhead := by
  cases c with
  | validate text =>
    rw [Call.examined] at h
    exact Checks.overhead_of_examineText (eq_ok_of_map_eq_ok h).1
  | validateBytes raw =>
    rw [Call.examined] at h
    exact Checks.overhead_of_examine (eq_ok_of_map_eq_ok h).1
  | validateAndRender text render =>
    exact Checks.overhead_of_examineText (Checks.examineText_of_examineAndRender h)

/-- **Only renderers fail** with errors that have no count of their own. -/
theorem kind_of_examined {e : ValidationError} (h : c.examined checks = .error e)
    (hrenderer : ¬ c.RendererFails checks) : FailureKind.ofName e.kind ≠ .other := by
  cases c with
  | validate text =>
    rw [Call.examined] at h
    exact checks.failsCounted_examineText text e (eq_error_of_map_eq_error h)
  | validateBytes raw =>
    rw [Call.examined] at h
    exact checks.failsCounted_examine raw e (eq_error_of_map_eq_error h)
  | validateAndRender text render =>
    rcases Checks.examineAndRender_eq_error_iff.1 h with htext | ⟨r, htext, hrender⟩
    · exact checks.failsCounted_examineText text e htext
    · exact absurd ⟨r, e, htext, hrender⟩ hrenderer

end Examined

/-! ## What a call adds to the counts -/

section Added

variable (checks : Checks) (c : Call)

/-- **What a call comes to.** It fails, and is counted as a failure; or it
succeeds, and is counted as a frame with the lengths and records of what it
validated. -/
theorem outcome_cases :
    (∃ e, (c.outcome checks).result = .error e ∧ (c.outcome checks).validated? checks = none ∧
      c.counts checks = Counts.zero.addFailure e) ∨
    ∃ r output, (c.outcome checks).result = .ok output ∧
      (c.outcome checks).validated? checks = some r ∧
      c.counts checks = Counts.zero.addOk r.payloadLength checks.format.overhead
        r.record.records.size := by
  cases h : c.examined checks with
  | error e =>
    left
    rw [Call.outcome, Call.counts, h]
    exact ⟨e, rfl, rfl, rfl⟩
  | ok examined =>
    right
    obtain ⟨r, output⟩ := examined
    have hvalidated := validated?_outcome h
    rw [Call.outcome, h] at hvalidated
    rw [Call.outcome, Call.counts, h, ← overhead_of_examined h]
    exact ⟨r, output, rfl, hvalidated, rfl⟩

/-- **Every call is one input.** -/
theorem total_counts : (c.counts checks).total = 1 := by
  rcases outcome_cases checks c with ⟨e, -, -, h⟩ | ⟨r, output, -, -, h⟩
  · rw [h, Counts.total_addFailure]
  · rw [h]
    rfl

/-- **Nothing that succeeds is left out** of what was validated. -/
theorem isSome_validated?_outcome :
    ((c.outcome checks).validated? checks).isSome = (c.outcome checks).result.isOk := by
  rcases outcome_cases checks c with
    ⟨e, hresult, hvalidated, -⟩ | ⟨r, output, hresult, hvalidated, -⟩
  · rw [hresult, hvalidated]
    rfl
  · rw [hresult, hvalidated]
    rfl

/-- **A call that fails is one failure** of its kind, and of no other. -/
theorem failed_counts (kind : FailureKind) :
    (c.counts checks).failed kind =
      if (c.outcome checks).failure? = some kind then 1 else 0 := by
  rcases outcome_cases checks c with ⟨e, hresult, -, h⟩ | ⟨r, output, hresult, -, h⟩
  · have hkind : (c.outcome checks).failure? = some (.ofName e.kind) := by
      rw [Outcome.failure?, hresult]
    rw [h, Counts.failed_addFailure, Counts.failed_zero, Nat.zero_add]
    simp only [hkind, Option.some.injEq]
  · have hkind : (c.outcome checks).failure? = none := by
      rw [Outcome.failure?, hresult]
    rw [h, Counts.failed_addOk, Counts.failed_zero]
    simp [hkind]

/-- **Whatever is counted of frames** is counted of what a call validated, if it
succeeded. -/
theorem validated_counts (count : Counts → Nat) (measure : Validated → Nat)
    (hfailure : ∀ e, count (Counts.zero.addFailure e) = 0)
    (hok : ∀ r, count (Counts.zero.addOk r.payloadLength checks.format.overhead
      r.record.records.size) = measure r) :
    count (c.counts checks) = ((c.outcome checks).validated? checks).elim 0 measure := by
  rcases outcome_cases checks c with ⟨e, -, hvalidated, h⟩ | ⟨r, output, -, hvalidated, h⟩
  · rw [h, hvalidated, hfailure, Option.elim_none]
  · rw [h, hvalidated, hok, Option.elim_some]

end Added

/-! ## Many calls -/

/-- As many calls validated something as succeeded. -/
theorem length_validated_run (start : Validator) (calls : List Call) :
    ((start.run calls).1.filterMap (Outcome.validated? start.checks)).length =
      (start.run calls).1.countP fun o => o.result.isOk := by
  rw [run_fst, List.filterMap_map, List.length_filterMap_eq_countP, List.countP_map]
  simp only [Function.comp_def, isSome_validated?_outcome]

section Run

variable {start : Validator} (hstart : start.counts = 0) (calls : List Call)
include hstart

/-- **A count of many calls is a sum** of what each call adds to it. -/
theorem count_run (count : Counts → Nat) (hzero : count 0 = 0)
    (hadd : ∀ x y, count (x + y) = count x + count y) :
    count (start.run calls).2.counts =
      (calls.map fun c => count (c.counts start.checks)).sum := by
  rw [counts_run, hstart, zero_add, Counts.map_sum hzero hadd, List.map_map]
  rfl

theorem total_run : (start.run calls).2.counts.total = calls.length := by
  rw [count_run hstart calls Counts.total rfl Counts.total_add]
  simp only [total_counts, List.map_const', List.sum_replicate, smul_eq_mul, mul_one]

theorem failed_run (kind : FailureKind) :
    (start.run calls).2.counts.failed kind =
      (start.run calls).1.countP fun o => o.failure? = some kind := by
  rw [count_run hstart calls (Counts.failed · kind) (Counts.failed_zero kind) fun x y =>
    Counts.failed_add x y kind, run_fst, List.countP_map, ← sum_map_ite_eq_countP]
  simp only [failed_counts, Function.comp_apply, decide_eq_true_eq]

/-- **Whatever is counted of frames** is summed over what was validated. -/
theorem validated_run (count : Counts → Nat) (measure : Validated → Nat) (hzero : count 0 = 0)
    (hadd : ∀ x y, count (x + y) = count x + count y)
    (hfailure : ∀ e, count (Counts.zero.addFailure e) = 0)
    (hok : ∀ r, count (Counts.zero.addOk r.payloadLength start.checks.format.overhead
      r.record.records.size) = measure r) :
    count (start.run calls).2.counts =
      (((start.run calls).1.filterMap (Outcome.validated? start.checks)).map measure).sum := by
  rw [count_run hstart calls count hzero hadd, run_fst, List.filterMap_map,
    ← sum_map_elim_eq_sum_filterMap]
  have hcounts c := validated_counts start.checks c count measure hfailure hok
  simp only [hcounts, Function.comp_apply]

theorem framesOk_run :
    (start.run calls).2.counts.framesOk =
      ((start.run calls).1.filterMap (Outcome.validated? start.checks)).length := by
  rw [validated_run hstart calls Counts.framesOk (fun _ => 1) rfl (fun _ _ => rfl)
    (fun e => (Counts.totals_addFailure .zero e).1) fun _ => rfl]
  simp only [List.map_const', List.sum_replicate, smul_eq_mul, mul_one]

theorem bytesPayload_run :
    (start.run calls).2.counts.bytesPayload =
      (((start.run calls).1.filterMap (Outcome.validated? start.checks)).map
        Validated.payloadLength).sum :=
  validated_run hstart calls Counts.bytesPayload Validated.payloadLength rfl (fun _ _ => rfl)
    (fun e => (Counts.totals_addFailure .zero e).2.1) fun _ => Nat.zero_add _

theorem bytesOverhead_run :
    (start.run calls).2.counts.bytesOverhead =
      (start.run calls).2.counts.framesOk * start.checks.format.overhead := by
  rw [validated_run hstart calls Counts.bytesOverhead (fun _ => start.checks.format.overhead) rfl
    (fun _ _ => rfl) (fun e => (Counts.totals_addFailure .zero e).2.2.1) fun _ => Nat.zero_add _,
    framesOk_run hstart calls]
  simp only [List.map_const', List.sum_replicate, smul_eq_mul]

theorem userRecords_run :
    (start.run calls).2.counts.userRecords =
      (((start.run calls).1.filterMap (Outcome.validated? start.checks)).map fun r =>
        r.record.records.size).sum :=
  validated_run hstart calls Counts.userRecords (fun r => r.record.records.size) rfl
    (fun _ _ => rfl) (fun e => (Counts.totals_addFailure .zero e).2.2.2) fun _ => Nat.zero_add _

/-- **Without a renderer that fails**, every failure has a kind of its own. -/
theorem otherFailures_run (h : ∀ c ∈ calls, ¬ c.RendererFails start.checks) :
    (start.run calls).2.counts.otherFailures = 0 := by
  have hfailed := failed_run hstart calls .other
  rw [run_fst, List.countP_eq_zero.2] at hfailed
  · exact hfailed
  · intro o ho
    obtain ⟨c, hc, rfl⟩ := List.mem_map.1 ho
    rw [decide_eq_true_eq, Outcome.failure?, Call.outcome]
    cases hexamined : c.examined start.checks with
    | error e => exact fun hkind => kind_of_examined hexamined (h c hc) (Option.some.inj hkind)
    | ok r =>
      intro hkind
      cases hkind

end Run

/-- **A call that fails adds one** to the count of its error's kind, and changes
no other. -/
theorem counts_call_of_error {v : Validator} {c : Call} {e : ValidationError}
    (h : (v.call c).1 = .error e) : (v.call c).2.counts = v.counts.addFailure e := by
  rw [counts_call, Counts.addFailure_eq]
  rw [call_fst] at h
  rw [Call.counts, eq_error_of_map_eq_error h]
  rfl

variable {settings : Settings} {format : FrameFormat}

/-- **Every input is accounted for exactly once.** After any calls, all inputs
are as many as the calls, and frames as many as the calls that succeeded. The
failures of a kind are as many as the calls that failed with it, each of which
added one to the count of its kind and changed no other. Lengths and records are
summed over the calls that succeeded, and around each of them is what the format
puts there. Without a renderer that fails, every failure has a kind of its
own. -/
theorem accounted_run (h : settings.frameFormat = .ok format) :
    ∃ start, ofSettings settings = .ok start ∧
      ∀ calls outcomes v, start.run calls = (outcomes, v) →
        v.counts.total = calls.length ∧
        v.counts.framesOk = outcomes.countP (fun o => o.result.isOk) ∧
        v.counts.framesOk = (outcomes.filterMap (Outcome.validated? start.checks)).length ∧
        (∀ kind, v.counts.failed kind = outcomes.countP fun o => o.failure? = some kind) ∧
        (∀ c e, (v.call c).1 = .error e →
          (∀ kind, (v.call c).2.counts.failed kind =
            v.counts.failed kind + if .ofName e.kind = kind then 1 else 0) ∧
          (v.call c).2.counts.framesOk = v.counts.framesOk ∧
          (v.call c).2.counts.bytesPayload = v.counts.bytesPayload ∧
          (v.call c).2.counts.bytesOverhead = v.counts.bytesOverhead ∧
          (v.call c).2.counts.userRecords = v.counts.userRecords) ∧
        v.counts.bytesPayload =
          ((outcomes.filterMap (Outcome.validated? start.checks)).map
            Validated.payloadLength).sum ∧
        v.counts.bytesOverhead = v.counts.framesOk * format.overhead ∧
        v.counts.userRecords =
          ((outcomes.filterMap (Outcome.validated? start.checks)).map fun r =>
            r.record.records.size).sum ∧
        ((∀ c ∈ calls, ¬ c.RendererFails start.checks) → v.counts.otherFailures = 0) := by
  obtain ⟨start, hstart, hzero, rfl⟩ := exists_ofSettings h
  refine ⟨start, hstart, ?_⟩
  rintro calls outcomes v hrun
  obtain rfl : (start.run calls).1 = outcomes := by rw [hrun]
  obtain rfl : (start.run calls).2 = v := by rw [hrun]
  have hframes := framesOk_run hzero calls
  refine ⟨total_run hzero calls, hframes.trans (length_validated_run start calls), hframes,
    failed_run hzero calls, ?_, bytesPayload_run hzero calls, bytesOverhead_run hzero calls,
    userRecords_run hzero calls, otherFailures_run hzero calls⟩
  intro c e herror
  rw [counts_call_of_error herror]
  exact ⟨Counts.failed_addFailure _ e, Counts.totals_addFailure _ e⟩

/-- So it is of a text that validates, one that is no Base64, octets that are
too few, and the first text once more with a renderer that objects. -/
theorem accounted_run_mixed :
    ∃ start, ofSettings ⟨"F3:89:9a:c2", .md5, some 30, true⟩ = .ok start ∧
      ∃ calls outcomes v,
        calls = [.validate "84mawgoBYRoFCAAaAQG0OyFZlExiujCc4fOxzzTi", .validate "=",
          .validateBytes [0xf3], .validateAndRender "84mawgoBYRoFCAAaAQG0OyFZlExiujCc4fOxzzTi"
            fun _ => (.error (.config .emptyMagic) : Except ValidationError Unit)] ∧
        start.run calls = (outcomes, v) ∧
        v.counts.total = 4 ∧ v.counts.framesOk = 1 ∧ v.counts.bytesOverhead = 20 ∧
        v.counts.otherFailures = 1 := by
  have hformat : (Settings.mk "F3:89:9a:c2" .md5 (some 30) true).frameFormat = .ok .standard := by
    cbv
  have hlength : (AggregatedRecord.encode ⟨#["a"], #[], #[⟨0, none, [1], #[]⟩]⟩).length = 10 := by
    cbv
  have hvalid : (Checks.examineText ⟨.standard, some 30, true⟩
      "84mawgoBYRoFCAAaAQG0OyFZlExiujCc4fOxzzTi").result =
        .ok ⟨⟨#["a"], #[], #[⟨0, none, [1], #[]⟩]⟩, some [⟨"a", none, [1]⟩], 10, 30⟩ := by
    refine Checks.examineText_eq_ok_iff.2
      ⟨AggregatedRecord.encode ⟨#["a"], #[], #[⟨0, none, [1], #[]⟩]⟩, by cbv, ?_, ?_, ?_, ?_, ?_⟩
    · rintro limit ⟨⟩
      rw [FrameFormat.length_encode, hlength]
      decide
    · refine AggregatedRecord.decode_encode ?_
      rw [hlength]
      decide
    · exact ⟨[⟨"a", none, [1]⟩], by cbv, rfl⟩
    · exact hlength.symm
    · rw [FrameFormat.length_encode, hlength]
      rfl
  -- the renderer is asked, as its text validates, and objects
  have hrendered : (Checks.examineAndRender ⟨.standard, some 30, true⟩
      "84mawgoBYRoFCAAaAQG0OyFZlExiujCc4fOxzzTi"
      fun _ => (.error (.config .emptyMagic) : Except ValidationError Unit)).result =
        .error (.config .emptyMagic) :=
    Checks.examineAndRender_eq_error_iff.2 (Or.inr ⟨_, hvalid, rfl⟩)
  obtain ⟨tail, htail, htailKind⟩ : ∃ e,
      (Checks.examineText ⟨.standard, some 30, true⟩ "=").result = .error e ∧
        FailureKind.ofName e.kind = .invalidEncoding := ⟨_, by cbv, by cbv⟩
  obtain ⟨short, hshort, hshortKind⟩ : ∃ e,
      (Checks.examine ⟨.standard, some 30, true⟩ [0xf3]).result = .error e ∧
        FailureKind.ofName e.kind = .malformed := ⟨_, by cbv, by cbv⟩
  obtain ⟨start, hstart, h⟩ := accounted_run hformat
  have hchecks : ⟨.standard, some 30, true⟩ = start.checks :=
    congrArg checks (Except.ok.inj ((ofSettings_of_frameFormat hformat).symm.trans hstart))
  obtain ⟨calls, hcalls⟩ : ∃ calls : List Call,
      calls = [.validate "84mawgoBYRoFCAAaAQG0OyFZlExiujCc4fOxzzTi", .validate "=",
        .validateBytes [0xf3], .validateAndRender "84mawgoBYRoFCAAaAQG0OyFZlExiujCc4fOxzzTi"
          fun _ => (.error (.config .emptyMagic) : Except ValidationError Unit)] := ⟨_, rfl⟩
  obtain ⟨htotal, hframes, -, hfailed, -, -, hoverhead, -⟩ := h calls _ _ rfl
  have hother := hfailed .other
  rw [run_fst, ← hchecks] at hframes hother
  have hone : (start.run calls).2.counts.framesOk = 1 := by
    rw [hframes, hcalls]
    simp [Call.outcome, Call.examined, hvalid, htail, hshort, hrendered, Except.map, Except.isOk,
      Except.toBool]
  refine ⟨start, hstart, calls, _, _, hcalls, rfl, ?_, hone, ?_, ?_⟩
  · rw [htotal, hcalls]
    rfl
  · rw [hoverhead, hone]
    rfl
  · refine hother.trans ?_
    rw [hcalls]
    simp [Call.outcome, Call.examined, hvalid, htail, hshort, hrendered, Except.map,
      Outcome.failure?, htailKind, hshortKind]
    decide

end Validator

end AggregatedRecords
