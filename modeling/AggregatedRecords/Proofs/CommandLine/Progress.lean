import AggregatedRecords.CommandLine.Run
import AggregatedRecords.Proofs.Bytes
import AggregatedRecords.Proofs.Validation.Accounting
/-!
# Command line — inputs one after the other

Where nothing is set for log lines, an input does no more to a run than its
call does to the validator: what it is rendered as is printed, or its failure is
reported (`process_eq`). What many inputs do follows by induction
(`processAll_spec`), and the lines of a file are gone through as just those
inputs that they have (`processLines_append`).
-/

namespace AggregatedRecords

namespace CommandLine

/-! ## Log lines -/

/-- Where nothing is set, warnings and errors are shown. -/
theorem shows_warnings (line : LogLine) :
    LogFilter.warnings.shows line = decide (line.level.rank ≤ LogLevel.warn.rank) := by
  simp [LogFilter.shows, LogFilter.warnings, Directive.ofLevel, Directive.appliesTo,
    LogFilter.stronger]

/-- Nothing is shown of what is noted below warnings. -/
theorem shown_warnings {lines : List LogLine}
    (h : ∀ line ∈ lines, LogLevel.warn.rank < line.level.rank) :
    LogFilter.warnings.shown lines = "" := by
  have hfilter : lines.filter LogFilter.warnings.shows = [] := by
    rw [List.filter_eq_nil_iff]
    intro line hline
    rw [shows_warnings, decide_eq_true_iff]
    exact Nat.not_le.2 (h line hline)
  rw [LogFilter.shown, hfilter]
  rfl

/-- What is noted of an input is below warnings. -/
theorem shown_events (events : List Event) :
    LogFilter.warnings.shown (events.map LogLine.ofEvent) = "" := by
  refine shown_warnings fun line hline => ?_
  obtain ⟨event, -, rfl⟩ := List.mem_map.1 hline
  cases event <;> exact (by decide : LogLevel.warn.rank < LogLevel.debug.rank)

/-! ## One input -/

/-- How inputs are reported in a format where nothing is set for log lines. -/
def Style.quiet (format : OutputFormat) : Style := ⟨format, .warnings⟩

/-- The call that an input is validated by. -/
def inputCall (format : OutputFormat) (text : String) : Validator.Call :=
  .validateAndRender text fun v => (.ok (v.render format) : Except ValidationError String)

/-- That is what an input is taken into account as. -/
theorem call_inputCall (v : Validator) (format : OutputFormat) (text : String) :
    (v.call (inputCall format text)).2 =
      v.account (v.checks.examineAndRender text fun r => .ok (r.render format)) Prod.fst := by
  simp only [Validator.call, inputCall, Validator.validateAndRender]

/-- What an input is rendered as, by the checks it is held to. -/
def rendered (checks : Checks) (format : OutputFormat) (text : String) :
    Except ValidationError String :=
  (checks.examineAndRender text fun v => .ok (v.render format)).result.map Prod.snd

/-- And that is what its call gives of it. -/
theorem validateAndRender_eq_rendered (v : Validator) (format : OutputFormat) (text : String) :
    (v.validateAndRender text fun r => .ok (r.render format)).1 =
      rendered v.checks format text := by
  simp only [Validator.validateAndRender, rendered]

/-- What is printed of an input. -/
def printed (format : OutputFormat) : Except ValidationError String → String
  | .ok text => (Style.quiet format).printed text
  | .error _ => ""

/-- What is reported of an input. -/
def reported (line? : Option Nat) : Except ValidationError String → String
  | .ok _ => ""
  | .error e => failureLine line? e

/-- **What one input does to a run.** -/
theorem process_eq (format : OutputFormat) (p : Progress) (line? : Option Nat) (text : String) :
    p.process (.quiet format) line? text =
      ⟨(p.validator.call (inputCall format text)).2,
        p.out ++ printed format (rendered p.validator.checks format text),
        p.err ++ reported line? (rendered p.validator.checks format text),
        p.allOk && (rendered p.validator.checks format text).isOk⟩ := by
  have hshown := shown_events
    (p.validator.checks.examineAndRender text fun v => .ok (v.render format)).log
  unfold Progress.process rendered
  simp only [Style.quiet, hshown, String.append_empty, call_inputCall]
  cases hresult :
      (p.validator.checks.examineAndRender text fun v => .ok (v.render format)).result with
  | error e =>
    simp only [Except.map, printed, reported, String.append_empty]
    rewrite [Except.isOk, Except.toBool, Bool.and_false]
    rfl
  | ok pair =>
    simp only [Except.map, printed, reported, String.append_empty]
    rewrite [Except.isOk, Except.toBool, Bool.and_true]
    rfl

/-! ## Many inputs -/

/-- The inputs among lines that are texts, with their numbers from one number
on: the lines that are not blank. -/
def inputsFrom (number : Nat) (texts : List String) : List (String × Nat) :=
  (texts.zipIdx number).filter fun input => !(Text.trim input.1.toList).isEmpty

/-- Validates inputs and reports them, each with its number. -/
def Progress.processAll (style : Style) (p : Progress) (inputs : List (String × Nat)) : Progress :=
  inputs.foldl (fun p input => p.process style (some input.2) input.1) p

theorem Progress.processAll_cons (style : Style) (p : Progress) (input : String × Nat)
    (inputs : List (String × Nat)) :
    p.processAll style (input :: inputs) =
      (p.process style (some input.2) input.1).processAll style inputs := by
  rw [processAll, List.foldl_cons, processAll]

/-- **Lines that are texts are gone through** up to where there are none. -/
theorem processLines_append (style : Style) (p : Progress) (number : Nat) (texts : List String)
    (left : List Bytes) :
    p.processLines style number (texts.map Bytes.ofString ++ left) =
      (p.processAll style (inputsFrom number texts)).processLines style (number + texts.length)
        left := by
  induction texts generalizing p number with
  | nil => rfl
  | cons text texts ih =>
    have hnumber : number + (text :: texts).length = number + 1 + texts.length := by
      rw [List.length_cons]
      omega
    simp only [List.map_cons, List.cons_append, Progress.processLines, Bytes.toString?_ofString]
    rw [ih, hnumber, inputsFrom, inputsFrom, List.zipIdx_cons, List.filter_cons]
    -- a blank line is no input, and leaves the run where it is
    by_cases hblank : (Text.trim text.toList).isEmpty = true
    · simp only [hblank, Bool.not_true, if_true, if_false, Bool.false_eq_true]
    · simp only [hblank, Bool.not_false, if_true, if_false, Bool.false_eq_true,
        Progress.processAll_cons]

/-- The calls that inputs are validated by. -/
def inputCalls (format : OutputFormat) (inputs : List (String × Nat)) : List Validator.Call :=
  inputs.map fun input => inputCall format input.1

/-- **What many inputs do to a run** is what each does by itself, one after the
other. -/
theorem processAll_spec (format : OutputFormat) (p : Progress) (inputs : List (String × Nat)) :
    p.processAll (.quiet format) inputs =
      ⟨(p.validator.run (inputCalls format inputs)).2,
        p.out ++ String.join (inputs.map fun input =>
          printed format (rendered p.validator.checks format input.1)),
        p.err ++ String.join (inputs.map fun input =>
          reported (some input.2) (rendered p.validator.checks format input.1)),
        p.allOk && inputs.all fun input =>
          (rendered p.validator.checks format input.1).isOk⟩ := by
  induction inputs generalizing p with
  | nil => simp [Progress.processAll, inputCalls, Validator.run]
  | cons input inputs ih =>
    rw [Progress.processAll_cons, ih, process_eq]
    simp only [Validator.checks_call, inputCalls, List.map_cons, Validator.run, String.join_cons,
      List.all_cons, String.append_assoc, Bool.and_assoc]

/-! ## Counts -/

/-- An input that fails is one failure. -/
theorem failures_inputCall (checks : Checks) (format : OutputFormat) (text : String) :
    ((inputCall format text).counts checks).failures =
      if !(rendered checks format text).isOk then 1 else 0 := by
  have hresult : ((inputCall format text).outcome checks).result = rendered checks format text := by
    simp only [Validator.Call.outcome, inputCall, Validator.Call.examined, rendered]
  have htotal := Validator.total_counts checks (inputCall format text)
  rcases Validator.outcome_cases checks (inputCall format text) with
    ⟨e, herror, -, hcounts⟩ | ⟨r, output, hok, -, hcounts⟩
  · rw [hresult] at herror
    rw [Counts.total, hcounts, (Counts.totals_addFailure .zero e).1, ← hcounts] at htotal
    rw [herror]
    exact (Nat.zero_add _).symm.trans htotal
  · rw [hresult] at hok
    rw [hcounts, hok]
    rfl

/-- **The counts of a run** that begins with nothing counted. -/
theorem counts_processAll (format : OutputFormat) {p : Progress} (hstart : p.validator.counts = 0)
    (inputs : List (String × Nat)) :
    (p.processAll (.quiet format) inputs).validator.counts.total = inputs.length ∧
      (p.processAll (.quiet format) inputs).validator.counts.failures =
        inputs.countP fun input => !(rendered p.validator.checks format input.1).isOk := by
  rw [processAll_spec]
  refine ⟨(Validator.total_run hstart _).trans (by simp [inputCalls]), ?_⟩
  rw [Validator.count_run hstart _ Counts.failures rfl Counts.failures_add, inputCalls, List.map_map,
    ← sum_map_ite_eq_countP]
  simp only [Function.comp_def, failures_inputCall]

end CommandLine

end AggregatedRecords
