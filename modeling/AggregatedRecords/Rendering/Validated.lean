import AggregatedRecords.Rendering.Json
import AggregatedRecords.Rendering.Text
import AggregatedRecords.Text.Lowered
import AggregatedRecords.Validation.Error
/-!
# Rendering — of what a validation gives

A validated input is shown as its user records when they were asked for, and as
its message otherwise.
-/

namespace AggregatedRecords

/-- What a validation gives: the message, the user records if they were asked
for, and the lengths of payload and frame. -/
structure Validated where
  record : AggregatedRecord
  userRecords : Option (List UserRecord)
  payloadLength : Nat
  frameLength : Nat
deriving Repr, DecidableEq

/-- The forms a validated input is shown in. -/
inductive OutputFormat where
  | text
  | json
deriving Repr, DecidableEq

namespace OutputFormat

/-- The name of a format. -/
def name : OutputFormat → String
  | text => "text"
  | json => "json"

/-- The format where none is named. -/
def default : OutputFormat := text

/-- The format of a name, in any case of its letters. -/
def ofName (name : String) : Except Misconfiguration OutputFormat :=
  let lowered := Text.lowered name
  if lowered = text.name then .ok text
  else if lowered = json.name then .ok json
  else .error (.unknownOutputFormat lowered)

end OutputFormat

/-- A validated input in a format. -/
def Validated.render (format : OutputFormat) (v : Validated) : String :=
  match v.userRecords, format with
  | some records, .text => Rendering.usersText records
  | some records, .json => Rendering.usersJson records
  | none, .text => Rendering.text v.record
  | none, .json => Rendering.json v.record

end AggregatedRecords
