import AggregatedRecords.Json.Token
import AggregatedRecords.Json.Value
import AggregatedRecords.Text.Quoted
/-!
# JSON — why a text does not give a value

A text fails to be JSON, or it is JSON that does not match the type read from
it. The message of a mismatch says what was found and what was wanted. The rest of a
message is worded by the reader of JSON, whose `Wording` is a parameter.
-/

namespace AggregatedRecords

namespace Json

/-- What a value turned out to be. -/
inductive Found where
  | null
  | bool (b : Bool)
  | number (n : Number)
  | string (s : String)
  | sequence
  | map

/-- What a value should have been. -/
inductive Wanted where
  | text
  | boolean
  | size
  | octet
  | unit
  | sequence
  | record (name : String)
deriving Repr, DecidableEq

/-- A number in messages. -/
def Number.message : Number → String
  | .natural n => s!"integer `{n}`"
  | .negative n => s!"integer `-{n}`"
  | .float x =>
    let text := (floatText? x).getD "null"
    s!"floating point `{text}`"

/-- What was found, in messages. -/
def Found.message : Found → String
  | null => "null"
  | bool b => s!"boolean `{b}`"
  | number n => n.message
  | string s => "string " ++ Text.quoted s
  | sequence => "sequence"
  | map => "map"

/-- What was wanted, in messages. -/
def Wanted.message : Wanted → String
  | text => "a string"
  | boolean => "a boolean"
  | size => "usize"
  | octet => "u8"
  | unit => "unit"
  | sequence => "a sequence"
  | record name => "struct " ++ name

/-- How JSON does not match a type. -/
inductive Mismatch where
  | duplicateField (name : String)
  | missingField (name : String)
  | unknownVariant (found wanted : String)
  /-- An array for a record of a given number of fields is too short. -/
  | invalidLength (length : Nat) (wanted : Wanted) (fields : Nat)
  | invalidType (found : Found) (wanted : Wanted)
  /-- A number of the right kind is out of range. -/
  | invalidValue (found : Found) (wanted : Wanted)

/-- The message of a mismatch. -/
def Mismatch.message : Mismatch → String
  | duplicateField name => s!"duplicate field `{name}`"
  | missingField name => s!"missing field `{name}`"
  | unknownVariant found wanted => s!"unknown variant `{found}`, expected `{wanted}`"
  | invalidLength length wanted fields =>
    s!"invalid length {length}, expected {wanted.message} with {fields} elements"
  | invalidType found wanted => s!"invalid type: {found.message}, expected {wanted.message}"
  | invalidValue found wanted => s!"invalid value: {found.message}, expected {wanted.message}"

/-- Why a text does not give a value. -/
inductive Error where
  | fault (fault : Fault)
  | mismatch (mismatch : Mismatch)

/-- The name of a kind of error. -/
def Error.category : Error → String
  | fault .syntactic => "syntax"
  | fault .early => "eof"
  | mismatch _ => "data"

/-! ## Messages

What does not match is told in the same words everywhere. What a fault of a text is
called is up to the reader of JSON, and so are the line and the column at which an
error is met, so these are left open here. -/

/-- **How a reader of JSON words its errors.** It has words for the faults of a text,
and a line and a column for every error. None of this decides what is read. -/
structure Wording where
  fault : String → Fault → String
  place? : String → Error → Option (Nat × Nat)

/-- The words of no reader in particular: what kind a fault is of, and no place. -/
def Wording.plain : Wording where
  fault _ fault := (Error.fault fault).category
  place? _ _ := none

/-- The place of an error in a text, in messages. -/
def Wording.place (wording : Wording) (text : String) (e : Error) : String :=
  (wording.place? text e).elim "" fun place => s!" at line {place.1} column {place.2}"

/-- An error together with its message. -/
structure Failure where
  error : Error
  message : String

instance : Coe Failure Error := ⟨Failure.error⟩

/-- A fault in some words, or else by its kind. -/
def Failure.fault (fault : Fault) (words : String := (Error.fault fault).category) : Failure :=
  ⟨.fault fault, words⟩

/-- A mismatch at some place, if that is known. -/
def Failure.mismatch (mismatch : Mismatch) (place : String := "") : Failure :=
  ⟨.mismatch mismatch, mismatch.message ++ place⟩

/-- An error of a text as a reader words it. -/
def Error.failure (wording : Wording) (text : String) (e : Error) : Failure :=
  match e with
  | fault f => .fault f (wording.fault text f ++ wording.place text e)
  | mismatch m => .mismatch m (wording.place text e)

end Json

end AggregatedRecords
