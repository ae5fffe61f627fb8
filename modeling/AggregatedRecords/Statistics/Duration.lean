/-!
# Statistics — durations and the stages they are charged to

A duration is whole seconds, of which there are below `2 ^ 64`, and the
nanoseconds beyond them. Sums carry nanoseconds over and may have more seconds
than fit; then there is no sum.

`StageTimes` has a duration for every stage that was started at least once.
-/

namespace AggregatedRecords

/-- The number of nanoseconds in a second. -/
def nanosPerSecond : Nat := 1000000000

/-- A span of time. -/
structure Duration where
  seconds : Nat
  nanos : Nat
  seconds_lt : seconds < UInt64.size
  nanos_lt : nanos < nanosPerSecond
deriving Repr, DecidableEq

namespace Duration

/-- No time at all. -/
def zero : Duration := ⟨0, 0, by decide, by decide⟩

/-- The duration of some seconds and nanoseconds, where they fit. -/
def ofParts? (seconds nanos : Nat) : Option Duration :=
  if h : seconds < UInt64.size ∧ nanos < nanosPerSecond then some ⟨seconds, nanos, h.1, h.2⟩ else none

/-- The sum of two durations: a second is carried over where the nanoseconds
make one. -/
def add? (x y : Duration) : Option Duration :=
  let nanos := x.nanos + y.nanos
  if nanos < nanosPerSecond then ofParts? (x.seconds + y.seconds) nanos
  else ofParts? (x.seconds + y.seconds + 1) (nanos - nanosPerSecond)

/-- Takes one more duration into sums of seconds and of nanoseconds, if the
seconds fit. -/
def accumulate? (sums : Nat × Nat) (x : Duration) : Option (Nat × Nat) :=
  if sums.1 + x.seconds < UInt64.size then some (sums.1 + x.seconds, sums.2 + x.nanos) else none

/-- The sum of durations: seconds and nanoseconds are summed apart, and what
the nanoseconds make is carried over at the end. -/
def sum? (durations : List Duration) : Option Duration := do
  let (seconds, nanos) ← durations.foldlM accumulate? (0, 0)
  ofParts? (seconds + nanos / nanosPerSecond) (nanos % nanosPerSecond)

/-- Whether a duration is no longer than another. -/
def isAtMost (x y : Duration) : Bool :=
  x.seconds < y.seconds || (x.seconds = y.seconds && x.nanos ≤ y.nanos)

/-- A duration in seconds, as a floating point number. -/
def toSeconds (x : Duration) : Float :=
  (UInt64.ofNat x.seconds).toFloat + (UInt64.ofNat x.nanos).toFloat / 1e9

end Duration

/-- The stages of a validation. -/
inductive Stage where
  | base64
  | frame
  | parse
  | deaggregate
  | render
deriving Repr, DecidableEq

namespace Stage

/-- The name of a stage. -/
def name : Stage → String
  | base64 => "base64"
  | frame => "frame"
  | parse => "parse"
  | deaggregate => "deaggregate"
  | render => "render"

/-- The stages in the order they are run. -/
def all : List Stage := [base64, frame, parse, deaggregate, render]

end Stage

/-- The time charged to each stage, for the stages that have any entry. -/
structure StageTimes where
  base64 : Option Duration
  frame : Option Duration
  parse : Option Duration
  deaggregate : Option Duration
  render : Option Duration
deriving Repr, DecidableEq

namespace StageTimes

/-- No entries. -/
def empty : StageTimes := ⟨none, none, none, none, none⟩

/-- The entry of a stage. -/
def timeOf? (times : StageTimes) : Stage → Option Duration
  | .base64 => times.base64
  | .frame => times.frame
  | .parse => times.parse
  | .deaggregate => times.deaggregate
  | .render => times.render

/-- The times with the entry of a stage replaced. -/
def set (times : StageTimes) (stage : Stage) (time : Duration) : StageTimes :=
  match stage with
  | .base64 => { times with base64 := some time }
  | .frame => { times with frame := some time }
  | .parse => { times with parse := some time }
  | .deaggregate => { times with deaggregate := some time }
  | .render => { times with render := some time }

/-- The time charged to a stage. -/
def get (times : StageTimes) (stage : Stage) : Duration := (times.timeOf? stage).getD .zero

/-- Charges a time to a stage, if the sum fits. -/
def add? (times : StageTimes) (stage : Stage) (time : Duration) : Option StageTimes :=
  ((times.get stage).add? time).map (times.set stage)

/-- Makes sure that a stage has an entry. -/
def start (times : StageTimes) (stage : Stage) : StageTimes := times.set stage (times.get stage)

/-- The stages with an entry and their times. -/
def entries (times : StageTimes) : List (Stage × Duration) :=
  Stage.all.filterMap fun stage => (times.timeOf? stage).map fun time => (stage, time)

/-- The time charged to all stages, if it fits. -/
def total? (times : StageTimes) : Option Duration :=
  Duration.sum? (times.entries.map Prod.snd)

/-- Charges all the times of another account too, if the sums fit. -/
def merge? (times other : StageTimes) : Option StageTimes :=
  other.entries.foldlM (fun times (stage, time) => times.add? stage time) times

/-- The time charged to a stage in microseconds. -/
def microseconds (times : StageTimes) (stage : Stage) : Float :=
  (times.get stage).toSeconds * 1000000.0

/-- The entry of a stage after one is replaced. -/
theorem timeOf?_set (times : StageTimes) (stage other : Stage) (time : Duration) :
    (times.set stage time).timeOf? other =
      if other = stage then some time else times.timeOf? other := by
  cases stage <;> cases other <;> rfl

end StageTimes

end AggregatedRecords
