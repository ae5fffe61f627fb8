import AggregatedRecords.Proofs.CommandLine.LineByLine
import AggregatedRecords.Proofs.Settings.Magic
/-!
# Command line — a magic that is overridden

An option for the magic replaces the magic of a file of settings, but the file is
loaded first, and settings are loaded only with a magic that is usable by itself. So
the magic of the file is not without influence: of two files that differ in nothing
else and are read, the options leave the same settings exactly if the same is wrong
with both magics (`run_overriding`). In particular any two usable magics make no
difference, neither to the settings nor to the run, and an unusable one ends it.

Where the rest of the file is not read, it is at fault for either magic. The magic moves
what is behind it, though, and a message may tell the place of a fault: then the runs
agree in all but the words of this message.
-/

namespace AggregatedRecords

namespace CommandLine

open Json
open Settings (HasMagic magicFault?)

/-- The options of a run. -/
def Surroundings.options (surroundings : Surroundings) : Except Early Options :=
  (Options.empty.read surroundings.arguments).bind (·.withConfig surroundings.configSetting?)

/-- The same surroundings with a text at a path. -/
def Surroundings.holding (surroundings : Surroundings) (path text : String) : Surroundings :=
  { surroundings with
    file := fun other =>
      if other = path then .ok (Bytes.ofString text) else surroundings.file other }

section Overriding

variable {surroundings : Surroundings} {options : Options} {path given : String}
  {front back : List Token} {magic magic' text text' : String} {settings : Settings}

/-! ## Settings -/

/-- The settings of a file that is a text. -/
theorem settings_holding (hconfig : options.config = some path) :
    options.settings (surroundings.holding path text) =
      (Settings.ofJson text surroundings.wording).bind options.override := by
  have hfile : (surroundings.holding path text).file path = .ok (Bytes.ofString text) := if_pos rfl
  have hwording : (surroundings.holding path text).wording = surroundings.wording := rfl
  simp only [Options.settings, hconfig, hfile, hwording, loadFile, Bytes.toString?_ofString]

/-- **A magic that is overridden is gone.** -/
theorem override_withMagic (hgiven : options.magic = some given) (settings : Settings)
    (magic : String) : options.override { settings with magic } = options.override settings := by
  simp only [Options.override, hgiven, Option.getD_some]

/-- Options leave settings with the magic they give, or are at fault for a digest. -/
theorem override_cases (hgiven : options.magic = some given) (settings : Settings) :
    (∃ e, options.override settings = .error (.digest e)) ∨
      ∃ left, options.override settings = .ok left ∧ left.magic = given := by
  unfold Options.override
  dsimp only
  split
  · next e _ => exact .inl ⟨e, rfl⟩
  · exact .inr ⟨_, rfl, by simp [hgiven]⟩

/-- Options are never at fault for a magic. -/
theorem override_ne_config (hgiven : options.magic = some given) (settings : Settings)
    (fault : Misconfiguration) : options.override settings ≠ .error (.config fault) := by
  intro h
  obtain ⟨e, he⟩ | ⟨left, hleft, -⟩ := override_cases hgiven settings
  · cases he.symm.trans h
  · cases hleft.symm.trans h

/-- What options leave of settings that are read from a file: the magic of the file is
looked at first. -/
def Options.leave (options : Options) (settings : Settings) : Except ValidationError Settings :=
  match magicFault? settings.magic with
  | some fault => .error (.config fault)
  | none => options.override settings

/-- The same is left for two magics exactly if they have the same fault. -/
theorem leave_eq_iff (hgiven : options.magic = some given) (settings : Settings)
    (magic magic' : String) :
    options.leave { settings with magic } = options.leave { settings with magic := magic' } ↔
      magicFault? magic = magicFault? magic' := by
  have hnot := override_ne_config hgiven settings
  simp only [Options.leave, override_withMagic hgiven]
  cases magicFault? magic with
  | none =>
    cases magicFault? magic' with
    | none => simp
    | some fault' => simpa using hnot fault'
  | some fault =>
    cases magicFault? magic' with
    | none => simpa using (hnot fault).symm
    | some fault' => simp

/-- Settings that are left have the magic of the option. -/
theorem magic_of_leave (hgiven : options.magic = some given) {before : Settings}
    (h : options.leave before = .ok settings) : settings.magic = given := by
  unfold Options.leave at h
  split at h
  · cases h
  · obtain ⟨e, he⟩ | ⟨left, hleft, hmagic⟩ := override_cases hgiven before
    · cases he.symm.trans h
    · obtain rfl := Except.ok.inj (hleft.symm.trans h)
      exact hmagic

/-- **What is left of a file for any magic in it.** Either the rest of the file is not read,
whichever the magic, or the same settings are read but for the magic. -/
theorem settings_cases (hconfig : options.config = some path) (surroundings : Surroundings)
    (front back : List Token) :
    (∃ e, ∀ magic text, HasMagic front back magic text →
      Decoder.ofText Settings.decoder text = .error e ∧
        options.settings (surroundings.holding path text) =
          .error (.json (e.failure surroundings.wording text))) ∨
    ∃ settings : Settings, ∀ magic text, HasMagic front back magic text →
      Decoder.ofText Settings.decoder text = .ok { settings with magic } ∧
        options.settings (surroundings.holding path text) =
          options.leave { settings with magic } := by
  obtain ⟨read, hread⟩ := Settings.exists_ofText_eq front back
  cases read with
  | error e =>
    refine .inl ⟨e, fun magic text h => ⟨hread magic text h, ?_⟩⟩
    rw [settings_holding hconfig, Settings.ofJson_eq, hread magic text h]
    rfl
  | ok settings =>
    refine .inr ⟨settings, fun magic text h => ⟨hread magic text h, ?_⟩⟩
    rw [settings_holding hconfig, Settings.ofJson_eq, hread magic text h]
    dsimp only [Except.map, Options.leave]
    cases magicFault? magic <;> rfl

/-! ## Runs -/

/-- What is at a path matters to no other source. -/
theorem processSource_holding {source : Source} (hsource : source ≠ .file path) (style : Style)
    (p : Progress) : processSource style p (surroundings.holding path text) source =
      processSource style p surroundings source := by
  cases source with
  | inline text => rfl
  | standardInput => rfl
  | file other =>
    have hne : other ≠ path := fun h => hsource (congrArg Source.file h)
    have hfile : (surroundings.holding path text).file other = surroundings.file other :=
      if_neg hne
    simp only [processSource, hfile]

/-- A run depends on a file of settings only through the settings. -/
theorem runWith_holding {source : Source} (hsource : source ≠ .file path)
    (hsettings : options.settings (surroundings.holding path text) =
      options.settings (surroundings.holding path text')) :
    runWith options source (surroundings.holding path text) =
      runWith options source (surroundings.holding path text') := by
  simp only [runWith_eq, Options.validator, hsettings, processSource_holding hsource]
  rfl

/-- A run without settings ends before its source is looked at. -/
theorem runWith_of_error {e : ValidationError} (h : options.settings surroundings = .error e)
    (source : Source) : runWith options source surroundings = .ofError "" "" (.loading e) := by
  rw [runWith_eq, Options.validator, h]

/-- What is in files matters to no option. -/
theorem options_holding (surroundings : Surroundings) (path text : String) :
    (surroundings.holding path text).options = surroundings.options := rfl

/-- What a run with options is. -/
theorem run_of_options (h : surroundings.options = .ok options) :
    run surroundings =
      if options.isContradictory then
        ⟨2, "", "error: the arguments exclude each other\n", none⟩
      else match options.source? surroundings.inputSetting? with
        | none => ⟨2, "", "error: one of --input, --file or $KPL_INPUT is required\n", none⟩
        | some source => runWith options source surroundings := by
  rw [Surroundings.options] at h
  rewrite [run, h]
  rfl

/-- A run ends with its arguments, whatever is at the path, or it is a run over a source. -/
theorem run_holding_cases (hoptions : surroundings.options = .ok options) (path : String) :
    (∀ text, run (surroundings.holding path text) = run surroundings) ∨
    ∃ source, options.source? surroundings.inputSetting? = some source ∧
      ∀ text, run (surroundings.holding path text) =
        runWith options source (surroundings.holding path text) := by
  have hrun (text : String) :=
    run_of_options ((options_holding surroundings path text).trans hoptions)
  have hinput (text : String) :
      (surroundings.holding path text).inputSetting? = surroundings.inputSetting? := rfl
  by_cases hcontradictory : options.isContradictory = true
  · refine .inl fun text => ?_
    simp only [hrun, run_of_options hoptions, if_pos hcontradictory]
  · cases hsource : options.source? surroundings.inputSetting? with
    | none =>
      refine .inl fun text => ?_
      simp only [hrun, run_of_options hoptions, hinput, hsource]
    | some source =>
      refine .inr ⟨source, rfl, fun text => ?_⟩
      simp only [hrun, if_neg hcontradictory, hinput, hsource]

/-- Runs with the same settings are the same, unless the file is their input too. -/
theorem run_holding (hoptions : surroundings.options = .ok options)
    (hsource : options.source? surroundings.inputSetting? ≠ some (.file path))
    (hsettings : options.settings (surroundings.holding path text) =
      options.settings (surroundings.holding path text')) :
    run (surroundings.holding path text) = run (surroundings.holding path text') := by
  obtain hends | ⟨source, hinput, hrun⟩ := run_holding_cases hoptions path
  · rw [hends, hends]
  · have hne : source ≠ .file path := fun h => hsource (hinput.trans (congrArg some h))
    rw [hrun, hrun, runWith_holding hne hsettings]

/-- Runs that are alike in all but what they print of errors. -/
structure Report.AlikeButForErrors (report report' : Report) : Prop where
  status : report.status = report'.status
  out : report.out = report'.out
  statistics : report.statistics? = report'.statistics?

/-- Runs without settings are alike, whatever their settings are at fault for. -/
theorem run_holding_of_error {e e' : ValidationError}
    (hoptions : surroundings.options = .ok options)
    (h : options.settings (surroundings.holding path text) = .error e)
    (h' : options.settings (surroundings.holding path text') = .error e') :
    (run (surroundings.holding path text)).AlikeButForErrors
      (run (surroundings.holding path text')) := by
  obtain hends | ⟨source, -, hrun⟩ := run_holding_cases hoptions path
  · rw [hends, hends]
    exact ⟨rfl, rfl, rfl⟩
  · rw [hrun, hrun, runWith_of_error h, runWith_of_error h']
    exact ⟨rfl, rfl, rfl⟩

/-- **What an overridden magic still does.** Two files that differ only in the magic
leave the same settings exactly if the same is wrong with both magics, as long as the
rest of the file is read. If they do, the run is the same, unless the file is its
input as well. If the rest is not read, it is at fault for both files, and the runs
differ at most in how this error is told. An unusable magic ends the run, overridden or
not; and any settings that are left have the magic of the option. -/
theorem run_overriding (hoptions : surroundings.options = .ok options)
    (hconfig : options.config = some path) (hgiven : options.magic = some given)
    (h : HasMagic front back magic text) (h' : HasMagic front back magic' text') :
    let read (text : String) := Decoder.ofText Settings.decoder text
    let told (e : Json.Error) (text : String) := e.failure surroundings.wording text
    let left (text : String) := options.settings (surroundings.holding path text)
    (left text = left text' ↔
      (∃ e, read text = .error e ∧ told e text = told e text') ∨
        (∃ settings, read text = .ok settings) ∧ magicFault? magic = magicFault? magic') ∧
    (left text = left text' →
      options.source? surroundings.inputSetting? ≠ some (.file path) →
        run (surroundings.holding path text) = run (surroundings.holding path text')) ∧
    (∀ e, read text = .error e →
      read text' = .error e ∧ left text = .error (.json (told e text)) ∧
        left text' = .error (.json (told e text')) ∧
        (run (surroundings.holding path text)).AlikeButForErrors
          (run (surroundings.holding path text'))) ∧
    (∀ fault settings, magicFault? magic = some fault → read text = .ok settings →
      left text = .error (.config fault) ∧
        ∀ source, runWith options source (surroundings.holding path text) =
          .ofError "" "" (.loading (.config fault))) ∧
    ∀ settings, left text = .ok settings → settings.magic = given := by
  intro read told left
  rcases settings_cases hconfig surroundings front back with ⟨e, hread⟩ | ⟨before, hread⟩
  · obtain ⟨htext, hleft⟩ := hread magic text h
    obtain ⟨htext', hleft'⟩ := hread magic' text' h'
    refine ⟨?_, fun hsame hsource => run_holding hoptions hsource hsame, fun other hother => ?_,
      fun fault settings _ hok => ?_, fun settings hok => ?_⟩
    · simp [left, read, told, htext, hleft, hleft']
    · obtain rfl := Except.error.inj (htext.symm.trans hother)
      exact ⟨htext', hleft, hleft', run_holding_of_error hoptions hleft hleft'⟩
    · cases htext.symm.trans hok
    · cases hleft.symm.trans hok
  · obtain ⟨htext, hleft⟩ := hread magic text h
    obtain ⟨-, hleft'⟩ := hread magic' text' h'
    refine ⟨?_, fun hsame hsource => run_holding hoptions hsource hsame, fun other hother => ?_,
      fun fault settings hfault _ => ?_,
      fun settings hok => magic_of_leave hgiven (hleft.symm.trans hok)⟩
    · simp [left, read, htext, hleft, hleft', leave_eq_iff hgiven]
    · cases htext.symm.trans hother
    · have hrefused : left text = .error (.config fault) :=
        hleft.trans (by simp only [Options.leave, hfault])
      exact ⟨hrefused, runWith_of_error hrefused⟩

end Overriding

/-! ## Runs on empty input -/

/-- Surroundings where empty input is validated by a file of settings, with a magic for
an option. -/
def overridingSurroundings : Surroundings where
  arguments := ["--config", "c.json", "--magic", "f3899ac2", "--file", "-"]
  inputSetting? := none
  configSetting? := none
  logSetting? := none
  file _ := .error .missing
  standardInput := .ok []

/-- The options there. -/
def overridingOptions : Options :=
  { Options.empty with file := some "-", config := some "c.json", magic := some "f3899ac2" }

/-- The text of an object with a magic and nothing else. -/
def bareMagic (magic : String) : String := "\x7b\"magic\":\"" ++ magic ++ "\"\x7d"

theorem options_overridingSurroundings :
    overridingSurroundings.options = .ok overridingOptions := by
  decide +kernel

theorem hasMagic_bareMagic (magic : String)
    (h : Document.ofText? (bareMagic magic) = some (.object [("magic", .string magic)])) :
    HasMagic [.openBrace, .string (some "magic"), .colon] [.closeBrace] magic (bareMagic magic) :=
  @Settings.hasMagic_of_ofText? magic (bareMagic magic) [] [] h

theorem run_overridingSurroundings (text : String) :
    run (overridingSurroundings.holding "c.json" text) =
      runWith overridingOptions .standardInput (overridingSurroundings.holding "c.json" text) := by
  have hcontradictory : overridingOptions.isContradictory = false := rfl
  have hsource : overridingOptions.source?
      (overridingSurroundings.holding "c.json" text).inputSetting? = some .standardInput := rfl
  simp only [run_of_options ((options_holding _ _ _).trans options_overridingSurroundings),
    hcontradictory, hsource, Bool.false_eq_true, if_false]

/-- Two usable magics make no difference. -/
theorem run_overriding_usable :
    overridingSurroundings.options = .ok overridingOptions ∧
    overridingOptions.config = some "c.json" ∧ overridingOptions.magic = some "f3899ac2" ∧
    HasMagic [.openBrace, .string (some "magic"), .colon] [.closeBrace] "cafe"
      (bareMagic "cafe") ∧
    HasMagic [.openBrace, .string (some "magic"), .colon] [.closeBrace] "BE:EF"
      (bareMagic "BE:EF") ∧
    run (overridingSurroundings.holding "c.json" (bareMagic "cafe")) =
      run (overridingSurroundings.holding "c.json" (bareMagic "BE:EF")) := by
  have hcafe := hasMagic_bareMagic "cafe" (by cbv)
  have hbeef := hasMagic_bareMagic "BE:EF" (by cbv)
  have hfault : magicFault? "cafe" = magicFault? "BE:EF" := by cbv
  obtain ⟨hsame, hrun, -⟩ := run_overriding options_overridingSurroundings rfl rfl hcafe hbeef
  exact ⟨options_overridingSurroundings, rfl, rfl, hcafe, hbeef,
    hrun (hsame.2 (.inr ⟨⟨_, by cbv⟩, hfault⟩)) (by decide)⟩

/-- A file whose magic is no byte string ends the run that a file with another magic
leaves to succeed, though the option overrides either. -/
theorem run_unusableMagic :
    HasMagic [.openBrace, .string (some "magic"), .colon] [.closeBrace] "zz" (bareMagic "zz") ∧
    HasMagic [.openBrace, .string (some "magic"), .colon] [.closeBrace] "cafe" (bareMagic "cafe") ∧
    overridingSurroundings.options = .ok overridingOptions ∧
    overridingOptions.magic = some "f3899ac2" ∧
    overridingOptions.settings (overridingSurroundings.holding "c.json" (bareMagic "zz")) =
      .error (.config (.badMagic "zz" (.notDigit 122 0))) ∧
    overridingOptions.settings (overridingSurroundings.holding "c.json" (bareMagic "cafe")) =
      .ok { Settings.default with magic := "f3899ac2" } ∧
    (run (overridingSurroundings.holding "c.json" (bareMagic "zz"))).status = 1 ∧
    (run (overridingSurroundings.holding "c.json" (bareMagic "cafe"))).status = 0 := by
  have hzz : overridingOptions.settings
      (overridingSurroundings.holding "c.json" (bareMagic "zz")) =
        .error (.config (.badMagic "zz" (.notDigit 122 0))) := by cbv
  have hcafe : overridingOptions.settings
      (overridingSurroundings.holding "c.json" (bareMagic "cafe")) =
        .ok { Settings.default with magic := "f3899ac2" } := by cbv
  refine ⟨hasMagic_bareMagic "zz" (by cbv), hasMagic_bareMagic "cafe" (by cbv),
    options_overridingSurroundings, rfl, hzz, hcafe, ?_, ?_⟩
  · rw [run_overridingSurroundings, runWith_eq, Options.validator, hzz]
    rfl
  · rw [run_overridingSurroundings, runWith_eq, Options.validator, hcafe]
    cbv

end CommandLine

end AggregatedRecords
