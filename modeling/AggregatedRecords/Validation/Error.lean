import AggregatedRecords.Base64
import AggregatedRecords.Deaggregation
import AggregatedRecords.Frame
import AggregatedRecords.Json.Error
import AggregatedRecords.Wire.Failure
/-!
# Validation — errors

Every stage of a validation has errors of its own; this file joins them. An
error has a kind, by which it is counted and listed, and a message.
-/

namespace AggregatedRecords

/-- What is wrong with a setting. -/
inductive Misconfiguration where
  /-- A magic is no byte string in hexadecimal. -/
  | badMagic (magic : String) (cause : Hex.Error)
  | emptyMagic
  /-- No output format has the name, given in lower case. -/
  | unknownOutputFormat (name : String)
  /-- Anything a renderer has to object to. -/
  | other (reason : String)
deriving Repr, DecidableEq

/-- The message of a misconfiguration. -/
def Misconfiguration.message : Misconfiguration → String
  | badMagic magic cause => "magic " ++ Text.quoted magic ++ ": " ++ cause.message
  | emptyMagic => "magic must not be empty"
  | unknownOutputFormat name => "unknown output format: " ++ name
  | other reason => reason

/-- Why an input does not validate, or why it cannot be validated at all. -/
inductive ValidationError where
  /-- A text is no Base64. -/
  | invalidEncoding (cause : Base64.Error)
  /-- The decoded octets are more than the limit. -/
  | tooLarge (length limit : Nat)
  /-- The octets are no frame. -/
  | frame (cause : FrameError)
  /-- The payload is no message. -/
  | undecodable (cause : Wire.Failure)
  /-- The message refers to keys that it does not have. -/
  | inconsistent (cause : DanglingIndex)
  | digest (cause : UnknownDigest)
  | config (cause : Misconfiguration)
  | io (reason : String)
  /-- A text gives no settings. -/
  | json (cause : Json.Failure)

namespace ValidationError

/-- The name of an error in counts and listings. -/
def kind : ValidationError → String
  | invalidEncoding _ => "invalid_encoding"
  | tooLarge .. => "too_large"
  | frame cause => cause.kind
  | undecodable _ => "deserialization_error"
  | inconsistent _ => "invalid_record"
  | digest _ => "digest"
  | config _ => "config"
  | io _ => "io"
  | json _ => "json"

/-- The message of an error. -/
def message : ValidationError → String
  | invalidEncoding cause => "invalid base64 encoding: " ++ cause.message
  | tooLarge length limit => s!"input too large: {length} bytes exceeds limit of {limit}"
  | frame cause => cause.message
  | undecodable cause => "payload is not a valid aggregated record: " ++ cause.message
  | inconsistent cause => cause.message
  | digest cause => cause.message
  | config cause => "config error: " ++ cause.message
  | io reason => "I/O error: " ++ reason
  | json cause => "serialization error: " ++ cause.message

/-- The error of the envelope, if it is one. -/
def asFrame? : ValidationError → Option FrameError
  | frame cause => some cause
  | _ => none

end ValidationError

end AggregatedRecords
