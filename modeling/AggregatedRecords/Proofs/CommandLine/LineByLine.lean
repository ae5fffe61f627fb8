import AggregatedRecords.Proofs.CommandLine.Lines
import AggregatedRecords.Proofs.CommandLine.Progress
import AggregatedRecords.Statistics.Snapshot
/-!
# Command line — a file is run line by line

A run over a file keeps one validator through all of its lines, and goes on
after a line that fails. Still each line is reported as it would be by a run on
it alone, but for the number of the line in the report of a failure
(`runWith_lineByLine`). A line that is no text ends the run, after all that was
reported before it.
-/

namespace AggregatedRecords

namespace CommandLine

/-! ## What a run comes to -/

/-- The validator that a run begins with. -/
def Options.validator (options : Options) (surroundings : Surroundings) :
    Except RunError Validator :=
  match options.settings surroundings with
  | .error e => .error (.loading e)
  | .ok settings => (Validator.ofSettings settings).mapError .building

/-- A source whose octets are run line by line. -/
inductive Provides (surroundings : Surroundings) : Source → Bytes → Prop where
  | file {path : String} {octets : Bytes} (h : surroundings.file path = .ok octets) :
      Provides surroundings (.file path) octets
  | standardInput {octets : Bytes} (h : surroundings.standardInput = .ok octets) :
      Provides surroundings .standardInput octets

/-- The number of the first line that is no text, if there is one. -/
def unreadableLine? (texts : List String) (left : List Bytes) : Option Nat :=
  if left.isEmpty then none else some (texts.length + 1)

/-- What is reported of a line that is no text. -/
def readingFailure (line : Nat) : String :=
  "error: reading line " ++ toString line ++ ": " ++ notText ++ "\n"

/-- A report of a failure with the number of a line after its kind, which ends
at the first bracket. -/
def withLine (line : Nat) (report : String) : String :=
  let beforeBracket := report.toList.takeWhile (· ≠ ']')
  match report.toList.dropWhile (· ≠ ']') with
  | [] => report
  | bracket :: rest =>
    String.ofList beforeBracket ++ bracket.toString ++ s!" line {line}" ++ String.ofList rest

/-- A report on a single input: either the input is printed and nothing else is
said of it, or nothing is printed and its failure is reported. -/
def Report.IsSingle (report : Report) : Prop :=
  report.status = 0 ∧ report.err = "" ∨
    report.status = 1 ∧ report.out = "" ∧ ∃ e : ValidationError,
      report.err = "error[" ++ e.kind ++ "]: " ++ e.message ++ "\n"

/-- **A report put together** from reports on single inputs, each with the
number of its line, and from the number of a line that is no text. -/
structure Report.IsComposed (report : Report) (alone : String → Report)
    (inputs : List (String × Nat)) (unreadable? : Option Nat) (stats : Bool) : Prop where
  single : ∀ input ∈ inputs, (alone input.1).IsSingle
  /-- What is printed of each input is printed, in order. -/
  out : report.out = String.join (inputs.map fun input => (alone input.1).out)
  /-- Each failure is reported with its line, and last the line that ended the
  run, if one did. -/
  err : report.err =
    String.join (inputs.map fun input => withLine input.2 (alone input.1).err) ++
      unreadable?.elim "" readingFailure
  status : report.status = 0 ↔ unreadable? = none ∧ ∀ input ∈ inputs, (alone input.1).status = 0
  isSome_statistics : report.statistics?.isSome = (stats && unreadable?.isNone)
  /-- The summary counts the inputs, and those of them that failed. -/
  statistics : ∀ counts times, report.statistics? = some (counts, times) → ∀ elapsed,
    (Snapshot.of counts elapsed times).totalInputs = inputs.length ∧
      (Snapshot.of counts elapsed times).failures =
        inputs.countP fun input => (alone input.1).status ≠ 0

/-- No kind of error has a bracket in its name. -/
theorem bracket_notMem_kind (e : ValidationError) : ']' ∉ e.kind.toList := by
  cases e with
  | frame cause => cases cause <;> simp [ValidationError.kind, FrameError.kind]
  | _ => simp [ValidationError.kind]

theorem failureLine_eq (line? : Option Nat) (e : ValidationError) :
    failureLine line? e =
      "error[" ++ e.kind ++ "]" ++ line?.elim "" (fun line => s!" line {line}") ++ ": " ++
        e.message ++ "\n" := rfl

/-- The number of a line is put in where a failure has it. -/
theorem withLine_failureLine (line : Nat) (e : ValidationError) :
    withLine line (failureLine none e) = failureLine (some line) e := by
  have hlist : (failureLine none e).toList =
      ("error[" ++ e.kind).toList ++ ']' :: (": " ++ e.message ++ "\n").toList := by
    simp [failureLine_eq]
  have hbefore : ∀ c ∈ ("error[" ++ e.kind).toList, decide (c ≠ ']') = true := by
    intro c hc
    rw [decide_eq_true_iff]
    rintro rfl
    rw [String.toList_append, List.mem_append] at hc
    rcases hc with hc | hc
    · exact absurd hc (by decide)
    · exact bracket_notMem_kind e hc
  rw [withLine, hlist, List.takeWhile_append_of_pos hbefore, List.dropWhile_append_of_pos hbefore,
    failureLine_eq (some line), ← String.toList_inj]
  simp

section Runs

variable {options : Options} {surroundings : Surroundings} {v : Validator} {source : Source}

/-- The progress of a run that has done nothing yet. -/
def Progress.start (v : Validator) : Progress := ⟨v, "", "", true⟩

/-- The format that options ask for. -/
def Options.outputFormat (options : Options) : OutputFormat := options.format.getD .default

/-- The report of a run over a source that came to an end or was ended. -/
def Report.ofProgress (filter : LogFilter) (stats : Bool) : Progress × Option RunError → Report
  | (p, some e) => .ofError p.out p.err e
  | (p, none) => {
    status := if p.allOk then 0 else 1
    out := p.out
    err := p.err ++ filter.shown [.finished p.validator.counts.total p.validator.counts.failures]
    statistics? := if stats then some (p.validator.counts, p.validator.times) else none }

/-- **A run is its validator taken through its source.** Without a validator it
ends before the source is looked at. -/
theorem runWith_eq :
    runWith options source surroundings =
      match options.validator surroundings with
      | .error e => .ofError "" "" e
      | .ok v =>
        let filter := LogFilter.ofSetting surroundings.logSetting?
        .ofProgress filter options.stats <|
          processSource ⟨options.outputFormat, filter⟩ (.start v) surroundings source := by
  rw [runWith, Options.validator]
  cases options.settings surroundings with
  | error e => rfl
  | ok settings =>
    dsimp only
    cases Validator.ofSettings settings with
    | error e => rfl
    | ok v =>
      dsimp only [Except.mapError]
      rw [Progress.start, Options.outputFormat]
      split
      · rename_i hsource
        rw [hsource, Report.ofProgress]
      · rename_i hsource
        rw [hsource, Report.ofProgress]

/-- A validator has counted nothing when a run begins. -/
theorem counts_validator (h : options.validator surroundings = .ok v) : v.counts = 0 := by
  rw [Options.validator] at h
  cases hsettings : options.settings surroundings with
  | error e =>
    rw [hsettings] at h
    cases h
  | ok settings =>
    rw [hsettings] at h
    dsimp only [Validator.ofSettings] at h
    cases hchecks : Checks.ofSettings settings with
    | error e =>
      rw [hchecks] at h
      cases h
    | ok checks =>
      rw [hchecks] at h
      obtain rfl := Except.ok.inj h
      rfl

/-- Where nothing is set, no log lines are shown of a run that came to an end. -/
theorem ofProgress_none (stats : Bool) (p : Progress) :
    Report.ofProgress .warnings stats (p, none) =
      ⟨if p.allOk then 0 else 1, p.out, p.err,
        if stats then some (p.validator.counts, p.validator.times) else none⟩ := by
  have hfinished : LogFilter.warnings.shown
      [.finished p.validator.counts.total p.validator.counts.failures] = "" := by
    refine shown_warnings fun line hline => ?_
    rw [List.mem_singleton.1 hline]
    exact (by decide : LogLevel.warn.rank < LogLevel.info.rank)
  rw [Report.ofProgress, hfinished, String.append_empty]

/-- **The report on a single input.** -/
theorem runWith_inline (hlog : surroundings.logSetting? = none)
    (h : options.validator surroundings = .ok v) (text : String) :
    let result := rendered v.checks options.outputFormat text
    let report := runWith options (.inline text) surroundings
    report.status = (if result.isOk then 0 else 1) ∧
      report.out = printed options.outputFormat result ∧ report.err = reported none result := by
  rw [runWith_eq, h, hlog]
  dsimp only
  have hprocess := process_eq options.outputFormat (.start v) none text
  have hsource : processSource ⟨options.outputFormat, LogFilter.ofSetting none⟩ (.start v)
      surroundings (.inline text) =
        ((Progress.start v).process (.quiet options.outputFormat) none text, none) := rfl
  rw [hsource, hprocess]
  rw [show LogFilter.ofSetting none = LogFilter.warnings from rfl, ofProgress_none]
  simp [Progress.start]

/-- A run on a single input reports just that. -/
theorem isSingle_inline (hlog : surroundings.logSetting? = none)
    (h : options.validator surroundings = .ok v) (text : String) :
    (runWith options (.inline text) surroundings).IsSingle := by
  obtain ⟨hstatus, hout, herr⟩ := runWith_inline hlog h text
  unfold Report.IsSingle
  rw [hstatus, hout, herr]
  cases rendered v.checks options.outputFormat text with
  | ok text => exact Or.inl ⟨rfl, rfl⟩
  | error e =>
    refine Or.inr ⟨rfl, rfl, e, ?_⟩
    rw [reported, failureLine_eq]
    simp [String.append_assoc]

/-- A line is reported as its text alone, with its number. -/
theorem reported_some (line : Nat) (result : Except ValidationError String) :
    reported (some line) result = withLine line (reported none result) := by
  cases result with
  | ok text => rfl
  | error e => exact (withLine_failureLine line e).symm

/-- A source that gives octets is gone through line by line. -/
theorem processSource_of_provides {octets : Bytes} {texts : List String} {left : List Bytes}
    (style : Style) (p : Progress) (hsource : Provides surroundings source octets)
    (hread : Readable octets texts left) :
    processSource style p surroundings source =
      (p.processAll style (inputsFrom 1 texts), (unreadableLine? texts left).map
        fun line => .reading line notText) := by
  have hlines : processSource style p surroundings source =
      p.processLines style 1 (texts.map Bytes.ofString ++ left) := by
    rw [← hread.lines.linesOf_eq]
    cases hsource with
    | file h => simp only [processSource, h]
    | standardInput h => simp only [processSource, h]
  rw [hlines, processLines_append]
  cases left with
  | nil => rfl
  | cons line left =>
    simp only [Progress.processLines, hread.unreadable line rfl, unreadableLine?,
      List.isEmpty_cons, Bool.false_eq_true, if_false, Option.map_some, Nat.add_comm 1]

/-- What ends a run at a line that is no text. -/
theorem ofError_reading (line : Nat) :
    "error: " ++ ((RunError.reading line notText).message ++ "\n") = readingFailure line := by
  have hmessage : (RunError.reading line notText).message =
      "reading line " ++ toString line ++ ": " ++ notText := rfl
  rw [hmessage]
  unfold readingFailure
  apply String.toList_inj.1
  simp

/-- A run that has come as far as its inputs take it is put together from
them. -/
theorem isComposed_ofProgress {p : Progress} {alone : String → Report}
    {inputs : List (String × Nat)} (stats : Bool) (unreadable? : Option Nat)
    (hsingle : ∀ text, (alone text).IsSingle)
    (hout : p.out = String.join (inputs.map fun input => (alone input.1).out))
    (herr : p.err = String.join (inputs.map fun input => withLine input.2 (alone input.1).err))
    (hallOk : p.allOk = true ↔ ∀ input ∈ inputs, (alone input.1).status = 0)
    (htotal : p.validator.counts.total = inputs.length)
    (hfailures : p.validator.counts.failures =
      inputs.countP fun input => (alone input.1).status ≠ 0) :
    (Report.ofProgress .warnings stats
      (p, unreadable?.map fun line => .reading line notText)).IsComposed alone inputs unreadable?
        stats := by
  cases unreadable? with
  | none =>
    rw [Option.map_none, ofProgress_none]
    refine ⟨fun input _ => hsingle input.1, hout, ?_, ?_, ?_, ?_⟩
    · rw [herr, Option.elim_none, String.append_empty]
    · rw [← hallOk]
      simp
    · cases stats <;> rfl
    · intro counts times hstatistics elapsed
      cases stats with
      | false => cases hstatistics
      | true =>
        obtain ⟨rfl, rfl⟩ := Prod.mk.inj (Option.some.inj hstatistics)
        exact ⟨htotal, hfailures⟩
  | some line =>
    rw [Option.map_some, Report.ofProgress, Report.ofError]
    refine ⟨fun input _ => hsingle input.1, hout, ?_, ?_, ?_, ?_⟩
    · rw [herr, String.append_assoc, String.append_assoc, ofError_reading]
      rfl
    · simp
    · exact (Bool.and_false _).symm
    · intro counts times hstatistics
      cases hstatistics

/-- **A run over lines is put together** from runs on each input alone. -/
theorem isComposed_of_provides (hlog : surroundings.logSetting? = none)
    (h : options.validator surroundings = .ok v) {octets : Bytes} {texts : List String}
    {left : List Bytes} (hsource : Provides surroundings source octets)
    (hread : Readable octets texts left) :
    (runWith options source surroundings).IsComposed
      (fun text => runWith options (.inline text) surroundings) (inputsFrom 1 texts)
      (unreadableLine? texts left) options.stats := by
  have hrun : runWith options source surroundings = .ofProgress .warnings options.stats
      ((Progress.start v).processAll (.quiet options.outputFormat) (inputsFrom 1 texts),
        (unreadableLine? texts left).map fun line => .reading line notText) := by
    rw [← processSource_of_provides _ _ hsource hread, runWith_eq, h, hlog]
    rfl
  have hinline := runWith_inline hlog h
  have hspec := processAll_spec options.outputFormat (.start v) (inputsFrom 1 texts)
  have hcounts := counts_processAll options.outputFormat (p := .start v) (counts_validator h)
    (inputsFrom 1 texts)
  rw [hrun]
  refine isComposed_ofProgress _ _ (isSingle_inline hlog h) ?_ ?_ ?_ hcounts.1 ?_
  · rw [hspec]
    simp [Progress.start, hinline]
  · rw [hspec]
    simp [Progress.start, hinline, reported_some]
  · rw [hspec]
    simp [Progress.start, hinline]
  · rw [hcounts.2]
    refine List.countP_congr fun input _ => ?_
    simp [Progress.start, hinline]

end Runs

/-- **A file is run line by line.** Unless there is no validator to be made of
the settings, which ends every run alike, a run on one input reports what the
validator makes of it. The report on the lines of a file or of standard input is put
together from such reports: those on the lines that are not blank, up to the first
that is no text. Any octets have lines to be gone through. -/
theorem runWith_lineByLine {options : Options} {surroundings : Surroundings} {source : Source}
    {octets : Bytes} (hlog : surroundings.logSetting? = none)
    (hsource : Provides surroundings source octets) :
    (∀ e, options.validator surroundings = .error e →
      ∀ other, runWith options other surroundings = .ofError "" "" e) ∧
    ∀ v, options.validator surroundings = .ok v →
      (∀ text,
        let result := (v.validateAndRender text fun r => .ok (r.render options.outputFormat)).1
        let report := runWith options (.inline text) surroundings
        report.status = (if result.isOk then 0 else 1) ∧
          report.out = printed options.outputFormat result ∧ report.err = reported none result) ∧
      (∃ texts left, Readable octets texts left) ∧
      ∀ texts left, Readable octets texts left →
        (runWith options source surroundings).IsComposed
          (fun text => runWith options (.inline text) surroundings) (inputsFrom 1 texts)
          (unreadableLine? texts left) options.stats := by
  refine ⟨fun e h other => ?_, fun v h => ⟨fun text => ?_, exists_readable octets,
    fun texts left hread => isComposed_of_provides hlog h hsource hread⟩⟩
  · rw [runWith_eq, h]
  · rw [validateAndRender_eq_rendered]
    exact runWith_inline hlog h text

/-- So it is of four lines, of which the second is blank and the third is no
text. -/
theorem runWith_lineByLine_unreadable :
    let octets : Bytes := [0x3d, 0x0d, 0x0a, 0x20, 0x0a, 0xff, 0x0a, 0x3d]
    let surroundings : Surroundings := {
      arguments := []
      inputSetting? := none
      configSetting? := none
      logSetting? := none
      file := fun _ => .error .missing
      standardInput := .ok octets }
    let report := runWith .empty .standardInput surroundings
    let first := runWith .empty (.inline "=") surroundings
    first.status = 1 ∧ first.out = "" ∧ report.out = first.out ∧
      report.err = withLine 1 first.err ++ readingFailure 3 ∧ report.status ≠ 0 := by
  intro octets surroundings report first
  have hlines : Lines octets (["=", " "].map Bytes.ofString ++ [[0xff], [0x3d]]) :=
    lines_iff.2 (by cbv)
  have hunreadable : Bytes.toString? [0xff] = none := by cbv
  have hread : Readable octets ["=", " "] [[0xff], [0x3d]] := ⟨hlines, by simpa using hunreadable⟩
  obtain ⟨v, hv⟩ : ∃ v, Options.empty.validator surroundings = .ok v := ⟨_, by cbv⟩
  obtain ⟨hinline, -, hcomposed⟩ := (runWith_lineByLine rfl (.standardInput rfl)).2 v hv
  have hinputs : inputsFrom 1 ["=", " "] = [("=", 1)] := by cbv
  have h := hcomposed _ _ hread
  rw [hinputs] at h
  have hresult : (v.validateAndRender "=" fun r =>
      (.ok (r.render Options.empty.outputFormat) : Except ValidationError String)).1 =
        .error (.invalidEncoding (.invalidByte 0 61)) := by
    cbv
  obtain ⟨hstatus, hout, -⟩ := hinline "="
  refine ⟨?_, ?_, ?_, ?_, ?_⟩
  · exact hstatus.trans (by rewrite [hresult]; rfl)
  · exact hout.trans (by rewrite [hresult]; rfl)
  · exact h.out.trans (by simp [first])
  · exact h.err.trans (by simp [first, unreadableLine?])
  · intro hzero
    exact absurd (h.status.1 hzero).1 (by decide)

end CommandLine

end AggregatedRecords
