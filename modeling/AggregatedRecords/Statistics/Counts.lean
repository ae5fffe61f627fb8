import AggregatedRecords.Validation.Error
/-!
# Statistics — counts of inputs

Every input is counted once: under `framesOk` when it validates, and otherwise
under the kind of its error. What validates adds to three totals besides.
Counts of several workers are merged field by field.
-/

namespace AggregatedRecords

/-- How many inputs came out how, and totals over those that validated. -/
structure Counts where
  framesOk : Nat
  framesMalformed : Nat
  framesBadMagic : Nat
  framesChecksumMismatch : Nat
  inputsInvalidEncoding : Nat
  inputsTooLarge : Nat
  payloadsUndecodable : Nat
  recordsInvalid : Nat
  otherFailures : Nat
  bytesPayload : Nat
  bytesOverhead : Nat
  userRecords : Nat
deriving Repr, DecidableEq

namespace Counts

/-- Nothing counted yet. -/
def zero : Counts := ⟨0, 0, 0, 0, 0, 0, 0, 0, 0, 0, 0, 0⟩

/-- Counts a frame that validated. -/
def addOk (counts : Counts) (payload overhead records : Nat) : Counts :=
  { counts with
    framesOk := counts.framesOk + 1
    bytesPayload := counts.bytesPayload + payload
    bytesOverhead := counts.bytesOverhead + overhead
    userRecords := counts.userRecords + records }

/-- Counts an input that failed. -/
def addFailure (counts : Counts) : ValidationError → Counts
  | .frame (.malformed ..) => { counts with framesMalformed := counts.framesMalformed + 1 }
  | .frame (.badMagic ..) => { counts with framesBadMagic := counts.framesBadMagic + 1 }
  | .frame (.checksumMismatch _) =>
    { counts with framesChecksumMismatch := counts.framesChecksumMismatch + 1 }
  | .invalidEncoding _ =>
    { counts with inputsInvalidEncoding := counts.inputsInvalidEncoding + 1 }
  | .tooLarge .. => { counts with inputsTooLarge := counts.inputsTooLarge + 1 }
  | .undecodable _ => { counts with payloadsUndecodable := counts.payloadsUndecodable + 1 }
  | .inconsistent _ => { counts with recordsInvalid := counts.recordsInvalid + 1 }
  | _ => { counts with otherFailures := counts.otherFailures + 1 }

/-- The number of inputs that failed. -/
def failures (counts : Counts) : Nat :=
  counts.framesMalformed + counts.framesBadMagic + counts.framesChecksumMismatch +
    counts.inputsInvalidEncoding + counts.inputsTooLarge + counts.payloadsUndecodable +
    counts.recordsInvalid + counts.otherFailures

/-- The number of inputs. -/
def total (counts : Counts) : Nat := counts.framesOk + counts.failures

/-- The counts of two workers together. -/
def merge (x y : Counts) : Counts where
  framesOk := x.framesOk + y.framesOk
  framesMalformed := x.framesMalformed + y.framesMalformed
  framesBadMagic := x.framesBadMagic + y.framesBadMagic
  framesChecksumMismatch := x.framesChecksumMismatch + y.framesChecksumMismatch
  inputsInvalidEncoding := x.inputsInvalidEncoding + y.inputsInvalidEncoding
  inputsTooLarge := x.inputsTooLarge + y.inputsTooLarge
  payloadsUndecodable := x.payloadsUndecodable + y.payloadsUndecodable
  recordsInvalid := x.recordsInvalid + y.recordsInvalid
  otherFailures := x.otherFailures + y.otherFailures
  bytesPayload := x.bytesPayload + y.bytesPayload
  bytesOverhead := x.bytesOverhead + y.bytesOverhead
  userRecords := x.userRecords + y.userRecords

instance : Add Counts := ⟨merge⟩

/-- The counts with their names, in the order they are shown. -/
def named (counts : Counts) : List (String × Nat) := [
  ("frames_ok", counts.framesOk),
  ("frames_malformed", counts.framesMalformed),
  ("frames_bad_magic", counts.framesBadMagic),
  ("frames_checksum_mismatch", counts.framesChecksumMismatch),
  ("inputs_invalid_encoding", counts.inputsInvalidEncoding),
  ("inputs_too_large", counts.inputsTooLarge),
  ("payloads_undecodable", counts.payloadsUndecodable),
  ("records_invalid", counts.recordsInvalid),
  ("other_failures", counts.otherFailures),
  ("bytes_payload", counts.bytesPayload),
  ("bytes_overhead", counts.bytesOverhead),
  ("user_records", counts.userRecords)]

end Counts

end AggregatedRecords
