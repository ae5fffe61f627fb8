import AggregatedRecords.Json.Value
import AggregatedRecords.Statistics.Counts
import AggregatedRecords.Statistics.Duration
/-!
# Statistics — the summary of a run

A snapshot has the counts of a run and its times, with two rates that follow
from them. It is sane when no more than all inputs failed and the stages took no
longer than the run.
-/

namespace AggregatedRecords

open Json

/-- The summary of a run. -/
structure Snapshot where
  counts : Counts
  totalInputs : Nat
  failures : Nat
  failureRate : Float
  /-- Octets of payload a second. -/
  throughput : Float
  elapsed : Duration
  stageTimes : StageTimes

namespace Snapshot

/-- A number of at most 64 bits as a floating point number. -/
def toFloat (n : Nat) : Float := (UInt64.ofNat n).toFloat

/-- The summary of a run with the given counts and times. A rate over nothing
is zero. -/
def of (counts : Counts) (elapsed : Duration) (stageTimes : StageTimes) : Snapshot where
  counts := counts
  totalInputs := counts.total
  failures := counts.failures
  failureRate :=
    if 0 < counts.total then toFloat counts.failures / toFloat counts.total else 0.0
  throughput :=
    if 0.0 < elapsed.toSeconds then toFloat counts.bytesPayload / elapsed.toSeconds else 0.0
  elapsed := elapsed
  stageTimes := stageTimes

/-- Whether no input failed. -/
def allOk (snapshot : Snapshot) : Bool := snapshot.failures = 0

/-- Whether a summary is sane, unless the times of the stages have no sum. -/
def isSane? (snapshot : Snapshot) : Option Bool :=
  if snapshot.failureRate ≤ 1.0 then
    snapshot.stageTimes.total?.map fun total => total.isAtMost snapshot.elapsed
  else some false

/-- The JSON form of a duration. -/
def durationJson (duration : Duration) : Value :=
  .object [("secs", .natural duration.seconds), ("nanos", .natural duration.nanos)]

/-- The JSON form of a summary. -/
def toJson (snapshot : Snapshot) : Value :=
  .object [
    ("counters", .object (snapshot.counts.named.map fun (name, n) => (name, .natural n))),
    ("total_inputs", .natural snapshot.totalInputs),
    ("failures", .natural snapshot.failures),
    ("failure_rate", .float snapshot.failureRate),
    ("throughput_payload_bytes_per_sec", .float snapshot.throughput),
    ("elapsed", durationJson snapshot.elapsed),
    ("stage_times", .object [
      ("times", .object (snapshot.stageTimes.entries.map fun (stage, time) =>
        (stage.name, durationJson time)))])]

/-- A summary as a text. -/
def render (snapshot : Snapshot) : String := snapshot.toJson.render .indented

end Snapshot

end AggregatedRecords
