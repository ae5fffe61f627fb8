import AggregatedRecords.CommandLine.LogFilter
import AggregatedRecords.CommandLine.Options
import AggregatedRecords.Settings.Json
import AggregatedRecords.Validation.Validator
/-!
# Command line — runs

A run reads options and settings, and validates either one text or the lines of
a file or of standard input. What validates is printed; what fails is reported
with its kind, and in a file with the number of its line. A run succeeds when
nothing failed.

All that a run depends on is in its `Surroundings`, and all that it does in its
`Report`. Log lines have no time stamps here, and the text of a report on arguments
that are no use of the program is our own.
-/

namespace AggregatedRecords

namespace CommandLine

/-- Why a file cannot be read. -/
inductive FileError where
  | missing
  | denied
  /-- The path goes on after the name of a file. -/
  | notDirectory
  | directory
  | nameTooLong
  | other (reason : String)
deriving Repr, DecidableEq

/-- The message of a file error. -/
def FileError.message : FileError → String
  | missing => "No such file or directory (os error 2)"
  | denied => "Permission denied (os error 13)"
  | notDirectory => "Not a directory (os error 20)"
  | directory => "Is a directory (os error 21)"
  | nameTooLong => "File name too long (os error 36)"
  | other reason => reason

/-- The message for octets that are no text. -/
def notText : String := "stream did not contain valid UTF-8"

/-- What a run depends on: its arguments, the variables of the environment that
it looks at, what there is to read, and how errors of JSON are worded. -/
structure Surroundings where
  arguments : List String
  inputSetting? : Option String
  configSetting? : Option String
  logSetting? : Option String
  file : String → Except FileError Bytes
  standardInput : Except FileError Bytes
  wording : Json.Wording := .plain

/-- What a run does: its exit status, what it prints, and the account of its
inputs if that was asked for. -/
structure Report where
  status : Nat
  out : String
  err : String
  statistics? : Option (Counts × StageTimes)

/-- Why a run ends before its inputs do. -/
inductive RunError where
  | loading (cause : ValidationError)
  | building (cause : Misconfiguration)
  | opening (path : String) (cause : FileError)
  | reading (line : Nat) (reason : String)

/-- The message of an error, with the causes that the error does not itself
stand for. -/
def causeMessage (e : ValidationError) : String :=
  match e with
  | .io reason => e.message ++ ": " ++ reason
  | .json cause => e.message ++ ": " ++ cause.message
  | _ => e.message

/-- The message of a run error: what was being done, and why it failed. -/
def RunError.message : RunError → String
  | loading cause => "loading configuration: " ++ causeMessage cause
  | building cause => "building validator: " ++ (ValidationError.config cause).message
  | opening path cause => s!"opening {path}: {cause.message}"
  | reading line reason => s!"reading line {line}: {reason}"

/-! ## Settings -/

/-- The settings of a file. -/
def loadFile (wording : Json.Wording) (content : Except FileError Bytes) :
    Except ValidationError Settings :=
  match content with
  | .error e => .error (.io e.message)
  | .ok octets =>
    match Bytes.toString? octets with
    | none => .error (.io notText)
    | some text => Settings.ofJson text wording

/-- The settings that options leave of given ones. -/
def Options.override (options : Options) (settings : Settings) : Except ValidationError Settings :=
  let digest : Except UnknownDigest DigestAlgorithm := match options.digest with
    | none => .ok settings.digest
    | some name => DigestAlgorithm.ofName name
  match digest with
  | .error e => .error (.digest e)
  | .ok digest => .ok {
      magic := options.magic.getD settings.magic
      digest
      maxFrameBytes :=
        if options.noSizeLimit then none else options.maxFrameBytes.or settings.maxFrameBytes
      deaggregate := options.deaggregate || settings.deaggregate }

/-- The settings of a run. Those of a file have to be usable by themselves. -/
def Options.settings (options : Options) (surroundings : Surroundings) :
    Except ValidationError Settings :=
  match options.config with
  | none => options.override .default
  | some path =>
    (loadFile surroundings.wording (surroundings.file path)).bind options.override

/-! ## Inputs -/

/-- How far a run has come: its validator, what it has printed, and whether
nothing failed. -/
structure Progress where
  validator : Validator
  out : String
  err : String
  allOk : Bool

/-- How inputs are reported: in which format, and which log lines are shown. -/
structure Style where
  format : OutputFormat
  filter : LogFilter

/-- What an input that validates is printed as. JSON has no line break of its
own at its end. -/
def Style.printed (style : Style) (rendered : String) : String :=
  match style.format with
  | .text => rendered
  | .json => rendered ++ "\n"

/-- The line for an input that fails. -/
def failureLine (line? : Option Nat) (e : ValidationError) : String :=
  let place := line?.elim "" fun line => s!" line {line}"
  s!"error[{e.kind}]{place}: {e.message}\n"

namespace Progress

/-- Validates an input and reports it. -/
def process (style : Style) (p : Progress) (line? : Option Nat) (text : String) : Progress :=
  let attempt := p.validator.checks.examineAndRender text fun v => .ok (v.render style.format)
  let validator := p.validator.account attempt Prod.fst
  let err := p.err ++ style.filter.shown (attempt.log.map LogLine.ofEvent)
  match attempt.result with
  | .ok (_, rendered) => ⟨validator, p.out ++ style.printed rendered, err, p.allOk⟩
  | .error e => ⟨validator, p.out, err ++ failureLine line? e, false⟩

/-- Validates the lines of a file from one number on, up to the first that is
no text. Blank lines are counted but not validated. -/
def processLines (style : Style) (p : Progress) (number : Nat) :
    (lines : List Bytes) → Progress × Option RunError
  | [] => (p, none)
  | line :: lines =>
    match Bytes.toString? line with
    | none => (p, some (.reading number notText))
    | some text =>
      let next :=
        if (Text.trim text.toList).isEmpty then p else p.process style (some number) text
      next.processLines style (number + 1) lines

end Progress

/-- Adds a line, held in reverse, without the carriage return at its end. -/
def addLine (lines : List Bytes) (reversed : Bytes) : List Bytes :=
  (match reversed with
    | 13 :: rest => rest.reverse
    | _ => reversed.reverse) :: lines

/-- The lines of `linesOf`, behind lines and a beginning of a line held in
reverse. -/
def linesOnto (lines : List Bytes) (reversed : Bytes) : Bytes → List Bytes
  | [] => (if reversed.isEmpty then lines else reversed.reverse :: lines).reverse
  | x :: octets =>
    if x = 10 then linesOnto (addLine lines reversed) [] octets
    else linesOnto lines (x :: reversed) octets

/-- The lines of a file. A line ends with a line feed, before which a carriage
return is dropped; the last line need not end. -/
def linesOf (octets : Bytes) : List Bytes := linesOnto [] [] octets

/-- Validates the inputs of a source. -/
def processSource (style : Style) (p : Progress) (surroundings : Surroundings) :
    Source → Progress × Option RunError
  | .inline text => (p.process style none text, none)
  | .standardInput =>
    match surroundings.standardInput with
    | .ok octets => p.processLines style 1 (linesOf octets)
    | .error e => (p, some (.reading 1 e.message))
  | .file path =>
    match surroundings.file path with
    | .ok octets => p.processLines style 1 (linesOf octets)
    | .error .directory => (p, some (.reading 1 FileError.directory.message))
    | .error e => (p, some (.opening path e))

/-! ## Runs -/

/-- The report of a run that an error ends. -/
def Report.ofError (out err : String) (e : RunError) : Report :=
  ⟨1, out, err ++ "error: " ++ e.message ++ "\n", none⟩

/-- Runs with options and a source. -/
def runWith (options : Options) (source : Source) (surroundings : Surroundings) : Report :=
  match options.settings surroundings with
  | .error e => .ofError "" "" (.loading e)
  | .ok settings =>
    match Validator.ofSettings settings with
    | .error e => .ofError "" "" (.building e)
    | .ok validator =>
      let style : Style :=
        ⟨options.format.getD .default, LogFilter.ofSetting surroundings.logSetting?⟩
      match processSource style ⟨validator, "", "", true⟩ surroundings source with
      | (p, some e) => .ofError p.out p.err e
      | (p, none) =>
        let counts := p.validator.counts
        { status := if p.allOk then 0 else 1
          out := p.out
          err := p.err ++ style.filter.shown [.finished counts.total counts.failures]
          statistics? :=
            if options.stats then some (counts, p.validator.times) else none }

/-- The text that help is answered with. -/
def helpText : String :=
  String.join <| [
    "Decodes a base64 encoded kinesis record\n",
    "\n",
    "Usage: kpl-agg-validate [OPTIONS]\n",
    "\n",
    "Options:\n",
    "      --input <INPUT>                      Base64 encoded aggregated record",
    " [env: KPL_INPUT when neither --input nor --file is given]\n",
    "      --file <FILE>                        File with one base64 record per line",
    " (\"-\" reads stdin)\n",
    "      --format <FORMAT>                    [default: text]",
    " [possible values: text, json]\n",
    "      --deaggregate                        Print the user records instead of the raw message\n",
    "      --config <CONFIG>                    JSON config file; flags below override it",
    " [env: KPL_CONFIG=]\n",
    "      --magic <MAGIC>                      Expected magic prefix, hex\n",
    "      --digest <DIGEST>                    Digest algorithm name\n",
    "      --max-frame-bytes <MAX_FRAME_BYTES>  Reject decoded frames larger than this many bytes\n",
    "      --no-size-limit                      Disable the frame size limit\n",
    "      --stats                              Print a telemetry snapshot as JSON on stderr",
    " when done\n",
    "  -h, --help                               Print help\n"]

/-- The report of a run that ends with its arguments. -/
def Report.ofEarly : Early → Report
  | .help => ⟨0, helpText, "", none⟩
  | .misuse argument => ⟨2, "", s!"error: unexpected argument '{argument}'\n", none⟩

/-- Runs the command line. -/
def run (surroundings : Surroundings) : Report :=
  match (Options.empty.read surroundings.arguments).bind (·.withConfig surroundings.configSetting?) with
  | .error early => .ofEarly early
  | .ok options =>
    if options.isContradictory then
      ⟨2, "", "error: the arguments exclude each other\n", none⟩
    else match options.source? surroundings.inputSetting? with
      | none =>
        ⟨2, "", "error: one of --input, --file or $KPL_INPUT is required\n", none⟩
      | some source => runWith options source surroundings

end CommandLine

end AggregatedRecords
