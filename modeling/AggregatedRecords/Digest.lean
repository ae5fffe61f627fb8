import AggregatedRecords.Hex
import AggregatedRecords.Md5
import AggregatedRecords.Text.Lowered
/-!
# Digest — algorithms, and the check of a carried digest

A frame names the algorithm of its digest by a number on the wire and by a name
in a configuration. There is one algorithm today; a digest only detects
corruption.
-/

namespace AggregatedRecords

/-- The algorithms a frame may end with the digest of. -/
inductive DigestAlgorithm where
  | md5
deriving Repr, DecidableEq

/-- A name or number that is no algorithm's. -/
inductive UnknownDigest where
  /-- A number without an algorithm. -/
  | number (id : UInt16)
  /-- A name without an algorithm, in lower case. -/
  | name (name : String)
deriving Repr, DecidableEq

/-- The message of an unknown algorithm, with a number as four hexadecimal
digits. -/
def UnknownDigest.message : UnknownDigest → String
  | .number id =>
    "unknown digest algorithm: 0x" ++
      Hex.encode [UInt8.ofNat (id.toNat / 256), UInt8.ofNat (id.toNat % 256)]
  | .name text => "unknown digest algorithm name: " ++ text

/-- A digest that is not the one carried with the data. -/
structure DigestMismatch where
  expected : Bytes
  actual : Bytes
deriving Repr, DecidableEq

/-- The message of a mismatch. -/
def DigestMismatch.message (e : DigestMismatch) : String :=
  s!"digest mismatch: expected {Hex.shown e.expected}, got {Hex.shown e.actual}"

namespace DigestAlgorithm

/-- The number of octets of a digest. -/
def size : DigestAlgorithm → Nat
  | md5 => 16

/-- The name of an algorithm. -/
def name : DigestAlgorithm → String
  | md5 => "md5"

/-- The number of an algorithm. -/
def id : DigestAlgorithm → UInt16
  | md5 => 1

/-- The algorithm of a name, in any case of its letters. -/
def ofName (name : String) : Except UnknownDigest DigestAlgorithm :=
  let lowered := Text.lowered name
  if lowered = md5.name then .ok md5 else .error (.name lowered)

/-- The algorithm of a number. -/
def ofId (id : UInt16) : Except UnknownDigest DigestAlgorithm :=
  if id = md5.id then .ok md5 else .error (.number id)

/-- The digest of data. -/
def digest : DigestAlgorithm → Bytes → Bytes
  | md5, data => Md5.digest data

/-- Compares the digest of data with the one it carries. -/
def verify (algorithm : DigestAlgorithm) (data carried : Bytes) : Except DigestMismatch Unit :=
  let computed := algorithm.digest data
  if computed = carried then .ok () else .error ⟨computed, carried⟩

end DigestAlgorithm

end AggregatedRecords
