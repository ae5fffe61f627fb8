import AggregatedRecords.Digest
/-!
# Frame — the envelope around a payload

A frame is a magic, a payload and the digest of the payload, one after the
other without a length: whoever reads it knows the magic and the algorithm, and
cuts the frame from both ends. `FrameFormat.encode` writes a frame,
`FrameFormat.parse` checks one in the order length, magic, digest, and
`FrameFormat.sniff` looks at length and magic only.
-/

namespace AggregatedRecords

/-- What surrounds a payload: the magic in front of it, and the algorithm of
the digest behind it. -/
structure FrameFormat where
  magic : Bytes
  algorithm : DigestAlgorithm
deriving Repr, DecidableEq

/-- A frame cut into its parts. -/
structure FrameView where
  magic : Bytes
  payload : Bytes
  digest : Bytes
deriving Repr, DecidableEq

/-- The length of the frame that a view is of. -/
def FrameView.length (view : FrameView) : Nat :=
  view.magic.length + view.payload.length + view.digest.length

/-- Why octets are no frame of a format. -/
inductive FrameError where
  /-- There are fewer octets than the parts around the payload need. -/
  | malformed (length required : Nat)
  /-- The octets do not start with the magic. -/
  | badMagic (expected actual : Bytes)
  /-- The digest at the end is not the payload's. -/
  | checksumMismatch (mismatch : DigestMismatch)
  /-- A digest size was asked for that the algorithm does not have. -/
  | digestSizeMismatch (algorithm : DigestAlgorithm) (asked : Nat)
deriving Repr, DecidableEq

namespace FrameError

/-- The name of an error in counts and listings. -/
def kind : FrameError → String
  | malformed .. => "malformed_frame"
  | badMagic .. => "bad_magic"
  | checksumMismatch _ => "checksum_mismatch"
  | digestSizeMismatch .. => "digest_size_mismatch"

/-- The message of an error. -/
def message : FrameError → String
  | malformed length required => s!"malformed frame: {length} bytes, need at least {required}"
  | badMagic expected actual =>
    s!"bad magic: expected {Hex.shown expected}, got {Hex.shown actual}"
  | checksumMismatch mismatch =>
    s!"checksum mismatch: expected {Hex.shown mismatch.expected}, got {Hex.shown mismatch.actual}"
  | digestSizeMismatch algorithm asked =>
    s!"digest size mismatch: {algorithm.name} produces {algorithm.size} bytes, caller asked for {asked}"

end FrameError

namespace FrameFormat

/-- The magic of aggregated records. -/
def standardMagic : Bytes := [0xf3, 0x89, 0x9a, 0xc2]

/-- The format of aggregated records unless another one is configured. -/
def standard : FrameFormat := ⟨standardMagic, .md5⟩

variable (format : FrameFormat)

/-- The octets around a payload, which is also the length of the shortest
frame. -/
def overhead : Nat := format.magic.length + format.algorithm.size

/-- The frame of a payload. The digest covers the payload alone. -/
def encode (payload : Bytes) : Bytes :=
  format.magic ++ (payload ++ format.algorithm.digest payload)

/-- The octets cut from both ends, by the lengths of magic and digest. -/
def split (raw : Bytes) : FrameView where
  magic := raw.take format.magic.length
  payload := (raw.drop format.magic.length).take (raw.length - format.overhead)
  digest := raw.drop (raw.length - format.algorithm.size)

/-- The view of a frame, or the first check it fails. -/
def parse (raw : Bytes) : Except FrameError FrameView :=
  let view := format.split raw
  if raw.length < format.overhead then .error (.malformed raw.length format.overhead)
  else if view.magic ≠ format.magic then .error (.badMagic format.magic view.magic)
  else match format.algorithm.verify view.payload view.digest with
    | .error mismatch => .error (.checksumMismatch mismatch)
    | .ok () => .ok view

/-- Whether octets look like a frame: long enough, and with the magic in
front. -/
def sniff (raw : Bytes) : Bool :=
  format.overhead ≤ raw.length && format.magic.isPrefixOf raw

/-- The payload of a frame with a given magic. The digest size is checked
before the octets are looked at. -/
def payloadOf (raw magic : Bytes) (digestSize : Nat) : Except FrameError Bytes :=
  if digestSize ≠ DigestAlgorithm.md5.size then .error (.digestSizeMismatch .md5 digestSize)
  else (parse ⟨magic, .md5⟩ raw).map FrameView.payload

/-- The payload of a frame of the standard format. -/
def standardPayloadOf (raw : Bytes) : Except FrameError Bytes :=
  (standard.parse raw).map FrameView.payload

end FrameFormat

end AggregatedRecords
