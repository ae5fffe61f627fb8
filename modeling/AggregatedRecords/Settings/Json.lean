import AggregatedRecords.Json.Decoder
import AggregatedRecords.Settings.Basic
/-!
# Settings — as JSON

Settings are written as an object of all their fields. They are read from an
object, where any field may be missing and unknown ones are passed over, or
from an array of the fields in order, which may end early. Settings that are
read are usable.
-/

namespace AggregatedRecords

open Json

/-- The JSON form of settings. -/
def Settings.toJson (settings : Settings) : Value :=
  .object [
    ("magic", .string settings.magic),
    ("digest", .string settings.digest.name),
    ("max_frame_bytes", settings.maxFrameBytes.elim .null fun limit => .natural limit.toNat),
    ("deaggregate", .bool settings.deaggregate)]

/-- Takes the name of a digest algorithm. -/
def DigestAlgorithm.ofToken (token : Token) : Except Json.Error DigestAlgorithm :=
  match token.name with
  | .error e => .error e
  | .ok name =>
    if name = md5.name then .ok md5 else .error (.mismatch (.unknownVariant name md5.name))

/-- Takes a digest algorithm: its name, or an object with its name and null. -/
def DigestAlgorithm.decoder : Decoder DigestAlgorithm := do
  match ← Decoder.peek with
  | .openBrace =>
    Decoder.punctuation .openBrace
    let algorithm ← Decoder.one ofToken
    Decoder.punctuation .colon
    Decoder.one Token.unit
    Decoder.punctuation .closeBrace
    return algorithm
  | _ => Decoder.one ofToken

namespace Settings

/-- The fields of settings as far as they are given. -/
structure Given where
  magic : Option String
  digest : Option DigestAlgorithm
  maxFrameBytes : Option (Option UInt64)
  deaggregate : Option Bool
deriving Repr, DecidableEq

/-- Nothing given. -/
def Given.nothing : Given := ⟨none, none, none, none⟩

/-- The settings with the default for what is not given. -/
def Given.complete (given : Given) : Settings where
  magic := given.magic.getD default.magic
  digest := given.digest.getD default.digest
  maxFrameBytes := given.maxFrameBytes.getD default.maxFrameBytes
  deaggregate := given.deaggregate.getD default.deaggregate

/-- Takes a limit, which null lifts. -/
def limitDecoder : Decoder (Option UInt64) := Decoder.one (Token.optional Token.uint64)

/-- Takes the value of a member. -/
def member (name : String) (given : Given) : Decoder Given :=
  match name with
  | "magic" => do
    let magic ← Decoder.field name given.magic.isSome (Decoder.one Token.text)
    return { given with magic := some magic }
  | "digest" => do
    let digest ← Decoder.field name given.digest.isSome DigestAlgorithm.decoder
    return { given with digest := some digest }
  | "max_frame_bytes" => do
    let limit ← Decoder.field name given.maxFrameBytes.isSome limitDecoder
    return { given with maxFrameBytes := some limit }
  | "deaggregate" => do
    let deaggregate ← Decoder.field name given.deaggregate.isSome (Decoder.one Token.boolean)
    return { given with deaggregate := some deaggregate }
  | _ => do
    Decoder.unknownField
    return given

/-- Takes the fields in order. -/
def fields : Decoder Given := do
  let magic ← Decoder.item? true (Decoder.one Token.text)
  let digest ← Decoder.item? false DigestAlgorithm.decoder
  let maxFrameBytes ← Decoder.item? false limitDecoder
  let deaggregate ← Decoder.item? false (Decoder.one Token.boolean)
  return ⟨magic, digest, maxFrameBytes, deaggregate⟩

/-- Takes settings. -/
def decoder : Decoder Settings :=
  Given.complete <$> Decoder.record "ValidateConfig" (Decoder.members member .nothing) fields

/-- The settings that a JSON text gives, if they are usable. -/
def ofJson (text : String) (wording : Wording := .plain) : Except ValidationError Settings :=
  match Decoder.ofText decoder text with
  | .error e => .error (.json (e.failure wording text))
  | .ok settings =>
    match settings.frameFormat with
    | .error e => .error (.config e)
    | .ok _ => .ok settings

end Settings

end AggregatedRecords
