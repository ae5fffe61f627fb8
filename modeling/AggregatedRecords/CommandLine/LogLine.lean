import AggregatedRecords.Decimal.Word
import AggregatedRecords.Text.Lowered
import AggregatedRecords.Validation.Attempt
/-!
# Command line — log lines

What is noted of inputs and of a run is logged. A log line has a level, a
target, which says what part of the program notes it, a message and fields.
-/

namespace AggregatedRecords

namespace CommandLine

/-- The levels of log lines, the gravest first, after the one of no lines. -/
inductive LogLevel where
  | off
  | error
  | warn
  | info
  | debug
  | trace
deriving Repr, DecidableEq

namespace LogLevel

/-- The rank of a level: a line is shown up to the rank of its directive. -/
def rank : LogLevel → Nat
  | off => 0
  | error => 1
  | warn => 2
  | info => 3
  | debug => 4
  | trace => 5

/-- The name of a level in log lines, in five columns. -/
def label : LogLevel → String
  | off => "  OFF"
  | error => "ERROR"
  | warn => " WARN"
  | info => " INFO"
  | debug => "DEBUG"
  | trace => "TRACE"

/-- All levels. -/
def all : List LogLevel := [off, error, warn, info, debug, trace]

/-- The level of a name in any case of its letters. -/
def ofName? (name : String) : Option LogLevel :=
  match Text.lowered name with
  | "off" => some off
  | "error" => some error
  | "warn" => some warn
  | "info" => some info
  | "debug" => some debug
  | "trace" => some trace
  | _ => none

/-- The level of a rank or of a name. -/
def ofText? (text : List Char) : Option LogLevel :=
  match Decimal.word? text with
  | some rank => all.find? fun level => level.rank = rank.toNat
  | none => ofName? (String.ofList text)

end LogLevel

/-- A log line. The values of its fields are as they are shown. -/
structure LogLine where
  level : LogLevel
  target : String
  message : String
  fields : List (String × String)
deriving Repr, DecidableEq

namespace LogLine

/-- A log line as it is shown. -/
def text (line : LogLine) : String :=
  let fields := line.fields.map fun (name, value) => s!" {name}={value}"
  line.level.label ++ " " ++ line.target ++ ": " ++ line.message ++ String.join fields ++ "\n"

/-- The names of the fields of a line, of which its message is one. -/
def fieldNames (line : LogLine) : List String := "message" :: line.fields.map Prod.fst

/-- The target of what is noted of inputs. -/
def validationTarget : String := "kpl_core::validate"

/-- The target of what is noted of a run. -/
def runTarget : String := "kpl_agg_validate"

/-- The line for an event. -/
def ofEvent (event : Event) : LogLine :=
  let (message, fields) := match event with
    | .frameVerified length payload =>
      ("frame verified", [("len", toString length), ("payload", toString payload)])
    | .payloadDecoded records keys =>
      ("payload decoded", [("records", toString records), ("keys", toString keys)])
    | .failed e => ("validation failed", [("kind", "\"" ++ e.kind ++ "\""), ("error", e.message)])
  ⟨.debug, validationTarget, message, fields⟩

/-- The line at the end of a run. -/
def finished (inputs failures : Nat) : LogLine :=
  ⟨.info, runTarget, "validation finished",
    [("inputs", toString inputs), ("failures", toString failures)]⟩

end LogLine

end CommandLine

end AggregatedRecords
