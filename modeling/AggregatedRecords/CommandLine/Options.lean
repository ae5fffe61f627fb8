import AggregatedRecords.Decimal.Word
import AggregatedRecords.Rendering.Validated
/-!
# Command line — options

Options are read from left to right. An option with a value takes it from after
an equals sign or from the next argument, which must not look like an option
itself. Each option may be given once, and some exclude each other. Asking for
help ends the reading.
-/

namespace AggregatedRecords

namespace CommandLine

/-- The options as far as they are given. -/
structure Options where
  input : Option String
  file : Option String
  format : Option OutputFormat
  deaggregate : Bool
  config : Option String
  magic : Option String
  digest : Option String
  maxFrameBytes : Option UInt64
  noSizeLimit : Bool
  stats : Bool
deriving Repr, DecidableEq

/-- No options. -/
def Options.empty : Options :=
  ⟨none, none, none, false, none, none, none, none, false, false⟩

/-- Where inputs come from. -/
inductive Source where
  | inline (text : String)
  | file (path : String)
  | standardInput
deriving Repr, DecidableEq

/-- How reading arguments may end early. -/
inductive Early where
  /-- Help was asked for. -/
  | help
  /-- The arguments are no use of the program. -/
  | misuse (argument : String)
deriving Repr, DecidableEq

namespace Options

/-- Stores the value of an option that takes one and was not given before. -/
def setValue (options : Options) (name value : String) : Option Options :=
  match name with
  | "input" => if options.input.isSome then none else some { options with input := some value }
  | "file" =>
    if options.file.isSome || value.isEmpty then none else some { options with file := some value }
  | "format" =>
    if options.format.isSome then none
    else if value = OutputFormat.text.name then some { options with format := some .text }
    else if value = OutputFormat.json.name then some { options with format := some .json }
    else none
  | "config" =>
    if options.config.isSome || value.isEmpty then none
    else some { options with config := some value }
  | "magic" => if options.magic.isSome then none else some { options with magic := some value }
  | "digest" => if options.digest.isSome then none else some { options with digest := some value }
  | "max-frame-bytes" =>
    if options.maxFrameBytes.isSome then none
    else (Decimal.word? value.toList).map fun n => { options with maxFrameBytes := some n }
  | _ => none

/-- Sets an option that takes no value and was not given before. -/
def setFlag (options : Options) (name : String) : Option Options :=
  match name with
  | "deaggregate" => if options.deaggregate then none else some { options with deaggregate := true }
  | "no-size-limit" => if options.noSizeLimit then none else some { options with noSizeLimit := true }
  | "stats" => if options.stats then none else some { options with stats := true }
  | _ => none

/-- The options that take a value. -/
def valueNames : List String :=
  ["input", "file", "format", "config", "magic", "digest", "max-frame-bytes"]

/-- Whether an argument cannot be the value of the option before it. A lone
hyphen can. -/
def looksLikeOption (argument : String) : Bool :=
  argument.toList.head? = some '-' && argument ≠ "-"

/-- An argument that starts with two hyphens: the name after them, and the
value after an equals sign. -/
def splitLong (argument : List Char) : String × Option String :=
  let name := argument.takeWhile (· ≠ '=')
  let value := match argument.dropWhile (· ≠ '=') with
    | [] => none
    | _ :: value => some (String.ofList value)
  (String.ofList name, value)

/-- Reads arguments into options. -/
def read (options : Options) : (arguments : List String) → Except Early Options
  | [] => .ok options
  | argument :: arguments =>
    let misuse : Except Early Options := .error (.misuse argument)
    match argument.toList with
    | ['-', '-'] => if arguments.isEmpty then .ok options else misuse
    | '-' :: 'h' :: _ => .error .help
    | '-' :: '-' :: long =>
      match splitLong long with
      | ("help", none) => .error .help
      | (name, some value) =>
        match options.setValue name value with
        | some options => options.read arguments
        | none => misuse
      | (name, none) =>
        if valueNames.contains name then
          match arguments with
          | [] => misuse
          | value :: arguments =>
            if looksLikeOption value then misuse
            else match options.setValue name value with
              | some options => options.read arguments
              | none => misuse
        else match options.setFlag name with
          | some options => options.read arguments
          | none => misuse
    | _ => misuse

/-- Whether options are given that exclude each other. -/
def isContradictory (options : Options) : Bool :=
  options.input.isSome && options.file.isSome ||
    options.maxFrameBytes.isSome && options.noSizeLimit

/-- The path of the settings: what was given, or else what the environment
gives, which must not be empty. -/
def withConfig (options : Options) (setting? : Option String) : Except Early Options :=
  match options.config, setting? with
  | none, some path =>
    if path.isEmpty then .error (.misuse path) else .ok { options with config := some path }
  | _, _ => .ok options

/-- Where the inputs come from: what was given, or else a text that the
environment gives. -/
def source? (options : Options) (setting? : Option String) : Option Source :=
  match options.input, options.file with
  | some text, _ => some (.inline text)
  | none, some path => some (if path = "-" then .standardInput else .file path)
  | none, none => setting?.map .inline

end Options

end CommandLine

end AggregatedRecords
