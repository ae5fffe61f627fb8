import AggregatedRecords.Record.Wire
import AggregatedRecords.Rendering.Validated
import AggregatedRecords.Settings.Basic
import AggregatedRecords.Statistics.Counts
import AggregatedRecords.Validation.Attempt
/-!
# Validation — inputs through all stages

An input is a text in Base64 or the octets of a frame. `Checks` says what it is
held to, and examines one input without regard to any other: the limit, the
frame, its payload and, where user records are wanted, the keys. The first
stage that fails ends the examination.

A `Validator` examines inputs one after the other and keeps account of them:
how they came out, and which stages were started.
-/

namespace AggregatedRecords

/-- What an input is held to. -/
structure Checks where
  format : FrameFormat
  maxFrameBytes : Option UInt64
  deaggregate : Bool
deriving Repr, DecidableEq

namespace Checks

/-- The checks that settings stand for. -/
def ofSettings (settings : Settings) : Except Misconfiguration Checks :=
  settings.frameFormat.map fun format => ⟨format, settings.maxFrameBytes, settings.deaggregate⟩

/-- Requires a length to be within the limit. -/
def requireLength (checks : Checks) (length : Nat) : Attempt Unit :=
  match checks.maxFrameBytes with
  | none => pure ()
  | some limit => .require (length ≤ limit.toNat) (.tooLarge length limit.toNat)

/-- The user records of a message, if they are wanted. -/
def resolve (checks : Checks) (record : AggregatedRecord) : Attempt (Option (List UserRecord)) :=
  if checks.deaggregate then
    some <$> Attempt.stage .deaggregate (record.deaggregate.mapError .inconsistent)
  else pure none

/-- Examines the octets of a frame. -/
def examine (checks : Checks) (raw : Bytes) : Attempt Validated := do
  checks.requireLength raw.length
  let view ← Attempt.stage .frame ((checks.format.parse raw).mapError .frame)
  Attempt.note (.frameVerified raw.length view.payload.length)
  let record ← Attempt.stage .parse ((AggregatedRecord.decode view.payload).mapError .undecodable)
  Attempt.note (.payloadDecoded record.records.size record.partitionKeyTable.size)
  let userRecords ← checks.resolve record
  return ⟨record, userRecords, view.payload.length, view.length⟩

/-- Examines a text in Base64. -/
def examineText (checks : Checks) (text : String) : Attempt Validated := do
  let raw ← Attempt.stage .base64 ((Base64.decodeText text).mapError .invalidEncoding)
  checks.examine raw

/-- Examines a text in Base64 and renders what it gives. -/
def examineAndRender {α : Type} (checks : Checks) (text : String)
    (render : Validated → Except ValidationError α) : Attempt (Validated × α) := do
  let validated ← checks.examineText text
  let rendered ← Attempt.stage .render (render validated)
  return (validated, rendered)

end Checks

/-- Checks, and the account of the inputs they were applied to. -/
structure Validator where
  checks : Checks
  counts : Counts
  times : StageTimes
deriving Repr, DecidableEq

namespace Validator

variable {α : Type}

/-- The validator of some settings, before the first input. -/
def ofSettings (settings : Settings) : Except Misconfiguration Validator :=
  (Checks.ofSettings settings).map fun checks => ⟨checks, .zero, .empty⟩

/-- Takes an input into account, by what became of it. -/
def account (v : Validator) (attempt : Attempt α) (validated : α → Validated) : Validator where
  checks := v.checks
  counts :=
    match attempt.result with
    | .error e => v.counts.addFailure e
    | .ok a =>
      let r := validated a
      v.counts.addOk r.payloadLength (r.frameLength - r.payloadLength) r.record.records.size
  times := attempt.stages.foldl StageTimes.start v.times

/-- Validates a text in Base64. -/
def validate (v : Validator) (text : String) : Except ValidationError Validated × Validator :=
  let attempt := v.checks.examineText text
  (attempt.result, v.account attempt id)

/-- Validates the octets of a frame. -/
def validateBytes (v : Validator) (raw : Bytes) : Except ValidationError Validated × Validator :=
  let attempt := v.checks.examine raw
  (attempt.result, v.account attempt id)

/-- Validates a text in Base64 and renders what it gives. The input counts as
valid only if it is rendered too. -/
def validateAndRender (v : Validator) (text : String)
    (render : Validated → Except ValidationError α) : Except ValidationError α × Validator :=
  let attempt := v.checks.examineAndRender text render
  (attempt.result.map Prod.snd, v.account attempt Prod.fst)

end Validator

end AggregatedRecords
