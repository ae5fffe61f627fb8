import AggregatedRecords.CommandLine.Run
import AggregatedRecords.Statistics.Snapshot
/-!
# Command line — the program

Reads what a run depends on, runs it, and does what its report says. Times are
measured here and nowhere else.
-/

namespace AggregatedRecords

open CommandLine

/-- The number of an error of the system, whose sign may be inverted. -/
def errorNumber (code : UInt32) : UInt32 := if code < 0x80000000 then code else 0 - code

/-- The file error of an error of the system. -/
def fileError : IO.Error → FileError
  | .noFileOrDirectory .. => .missing
  | .permissionDenied .. => .denied
  | .inappropriateType _ code _ => if errorNumber code = 20 then .notDirectory else .directory
  | .invalidArgument _ code details =>
    if errorNumber code = 36 then .nameTooLong else .other details
  | e => .other (toString e)

/-- The octets of a file. -/
def readOctets (path : String) : IO (Except FileError Bytes) := do
  try
    return .ok (← IO.FS.readBinFile path).data.toList
  catch e =>
    return .error (fileError e)

/-- The octets of standard input. -/
def readInput : IO (Except FileError Bytes) := do
  try
    return .ok (← (← IO.getStdin).readBinToEnd).data.toList
  catch e =>
    return .error (fileError e)

/-- Reads the files that arguments name, and standard input if they do. -/
def surroundingsOf (arguments : List String) : IO Surroundings := do
  let inputSetting? ← IO.getEnv "KPL_INPUT"
  let configSetting? ← IO.getEnv "KPL_CONFIG"
  let logSetting? ← IO.getEnv "RUST_LOG"
  let options? := (Options.empty.read arguments).bind (·.withConfig configSetting?)
  let options := options?.toOption.getD .empty
  let source? := options.source? inputSetting?
  let paths := options.config.toList ++ match source? with
    | some (.file path) => [path]
    | _ => []
  let contents ← paths.mapM fun path => return (path, ← readOctets path)
  let standardInput ← if source? = some .standardInput then readInput else pure (.ok [])
  return {
    arguments
    inputSetting?
    configSetting?
    logSetting?
    file := fun path => (contents.lookup path).getD (.error .missing)
    standardInput }

/-- The duration of some nanoseconds. -/
def durationOfNanos (nanos : Nat) : Duration :=
  (Duration.ofParts? (nanos / nanosPerSecond) (nanos % nanosPerSecond)).getD .zero

end AggregatedRecords

open AggregatedRecords in
/-- The program. -/
def main (arguments : List String) : IO UInt32 := do
  let start ← IO.monoNanosNow
  let report := CommandLine.run (← surroundingsOf arguments)
  IO.print report.out
  IO.eprint report.err
  let stop ← IO.monoNanosNow
  if let some (counts, times) := report.statistics? then
    IO.eprintln (Snapshot.of counts (durationOfNanos (stop - start)) times).render
  return UInt32.ofNat report.status
