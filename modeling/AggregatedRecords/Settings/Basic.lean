import AggregatedRecords.Validation.Error
/-!
# Settings — what a validation is held to

Settings give the envelope by the text of its magic and its digest algorithm,
the most octets a frame may have, and whether user records are wanted. They are
usable when the magic is a byte string that is not empty.
-/

namespace AggregatedRecords

/-- The settings of a validation. -/
structure Settings where
  /-- The magic in hexadecimal. -/
  magic : String
  digest : DigestAlgorithm
  /-- The most octets of a frame, if they are limited. -/
  maxFrameBytes : Option UInt64
  /-- Whether records are resolved against the tables of keys. -/
  deaggregate : Bool
deriving Repr, DecidableEq

namespace Settings

/-- The most octets that a record of a stream may have. -/
def maxRecordBytes : UInt64 := 1048576

/-- The settings where nothing else is said. -/
def default : Settings where
  magic := Hex.encode FrameFormat.standardMagic
  digest := .md5
  maxFrameBytes := some maxRecordBytes
  deaggregate := false

/-- The envelope that settings describe. -/
def frameFormat (settings : Settings) : Except Misconfiguration FrameFormat :=
  match Hex.ofText settings.magic with
  | .error cause => .error (.badMagic settings.magic cause)
  | .ok magic => if magic.isEmpty then .error .emptyMagic else .ok ⟨magic, settings.digest⟩

end Settings

end AggregatedRecords
