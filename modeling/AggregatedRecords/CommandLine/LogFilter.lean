import AggregatedRecords.CommandLine.LogLine
import AggregatedRecords.Decimal.Number
import AggregatedRecords.Pattern.Basic
/-!
# Command line — the filter of log lines

A filter says which log lines are shown. It consists of directives, each with a
level for the lines whose target begins in some way and which have some field;
of those that apply to a line the most specific one decides. It is given by a
text of directives between commas, as in `info,kpl_core=debug`; a text that
cannot be read stands for warnings and errors.
-/

namespace AggregatedRecords

namespace CommandLine

/-- The level up to which lines are shown. -/
structure Directive where
  /-- How the target of a line begins. -/
  target : List Char
  /-- The field that a line has, if one is asked for. -/
  field? : Option (List Char)
  /-- Whether only lines within some span are meant. There are no spans. -/
  isScoped : Bool
  level : LogLevel
deriving Repr, DecidableEq

namespace Directive

/-- A directive for the lines of all targets. -/
def ofLevel (level : LogLevel) : Directive := ⟨[], none, false, level⟩

/-- Whether a directive applies to a line with a target and with fields. -/
def appliesTo (directive : Directive) (target : List Char) (fields : List String) : Bool :=
  !directive.isScoped && directive.target.isPrefixOf target &&
    directive.field?.all fun field => fields.contains (String.ofList field)

/-- Whether a directive gives way to a later one that applies to the same line.
The longer target is the more specific one, and of two targets that are as long
the one with a field. The greater one of two fields decides, and the later one
of two directives for the same lines. -/
def givesWayTo (earlier later : Directive) : Bool :=
  if earlier.target.length = later.target.length then
    match earlier.field?, later.field? with
    | none, _ => true
    | some _, none => false
    | some field, some field' => !decide (field' < field)
  else earlier.target.length < later.target.length

/-! ## Texts of directives

A directive is a level, or a target with a level after an equals sign; a target
alone shows all levels. Between them there may be a span in brackets and in it
a field in braces, which may have a value: `target[span{field=value}]=level`.

Where the parts of a directive begin and end is found in its text without the
blanks at both ends, but the parts are taken from the same places of the text
itself. So blanks behind it belong to its last part, and blanks in front of it
shift all parts. -/

/-- A place of a text: the character by which the parts are told, and the one
that belongs to the part. -/
structure Place where
  mark : Char
  kept : Char

/-- The places of a text up to the blanks at its end, as many as it has without
the blanks in front. -/
def places (text : List Char) : List Place :=
  List.zipWith Place.mk (Text.trim text) text

/-- What a text has after its places. -/
def overhang (text : List Char) : List Char := text.drop (Text.trim text).length

/-- The part before the first place whose mark ends it, and the places from
there on. -/
def part (ends : Char → Bool) (places : List Place) : List Char × List Place :=
  ((places.takeWhile fun place => !ends place.mark).map Place.kept,
    places.dropWhile fun place => !ends place.mark)

/-- Whether a target may begin with a character. -/
def isInitial (c : Char) : Bool := c = '-' || c = ':' || c = '_' || Text.isAlphanumeric c

/-- Sets the level that a text gives, which without any text is the last. -/
def withLevel (directive : Directive) (text : List Char) : Option Directive :=
  if text.isEmpty then some { directive with level := .trace }
  else (LogLevel.ofText? text).map fun level => { directive with level }

/-- Reads what follows a span. -/
def readEnd (directive : Directive) (overhang : List Char) : List Place → Option Directive
  | [] => directive.withLevel []
  | place :: places =>
    if place.mark = '=' then directive.withLevel (places.map Place.kept ++ overhang) else none

/-- Whether a text may be the value of a field. It may be a pattern; so is every
number but those with a plus sign, which are values as well. -/
def isFieldValue : List Char → Bool
  | '+' :: number => Decimal.isNumber number
  | text => Pattern.isPattern text

/-- The name of a field, and its value if it has one: what stands after the
first equals sign, up to the next. -/
def splitField (field : List Char) : List Char × Option (List Char) :=
  (field.takeWhile (· ≠ '='),
    match field.dropWhile (· ≠ '=') with
    | [] => none
    | _ :: value => some (value.takeWhile (· ≠ '=')))

/-- Reads a field, after the brace that opens it. A field with a value is for
spans only. -/
def readField (directive : Directive) (overhang : List Char) (places : List Place) :
    Option Directive :=
  match part (· = '\x7d') places with
  | ([], _) => none
  | (field, _ :: close :: places) =>
    let (name, value?) := splitField field
    if close.mark = ']' && value?.all isFieldValue then
      let directive := { directive with
        field? := some name
        isScoped := directive.isScoped || value?.isSome }
      directive.readEnd overhang places
    else none
  | _ => none

/-- Reads a span, after the bracket that opens it. A field may stand in it
without a name. -/
def readSpan (target overhang : List Char) (places : List Place) : Option Directive :=
  match part (fun c => c = ']' || c = '\x7b') places with
  | (_, []) => none
  | (name, place :: places) =>
    let directive : Directive := ⟨target, none, true, .trace⟩
    if place.mark = ']' then directive.readEnd overhang places
    else { directive with isScoped := !name.isEmpty }.readField overhang places

/-- The directive that a level or a target is by itself. -/
def ofWord (text : List Char) : Directive :=
  match LogLevel.ofText? text with
  | some level => .ofLevel level
  | none => ⟨text, none, false, .trace⟩

/-- The directive that a text gives. -/
def ofText? (text : List Char) : Option Directive :=
  match places text with
  | [] => none
  | first :: rest =>
    if first.mark = '[' then readSpan [] (overhang text) rest
    else if !isInitial first.mark then none
    else match part (fun c => c = '=' || c = '[') (first :: rest) with
      | (_, []) => some (ofWord text)
      | (target, place :: places) =>
        if place.mark = '[' then readSpan target (overhang text) places
        else withLevel ⟨target, none, false, .trace⟩ (places.map Place.kept ++ overhang text)

end Directive

/-- The directives for log lines. -/
abbrev LogFilter := List Directive

namespace LogFilter

/-- Warnings and errors. -/
def warnings : LogFilter := [.ofLevel .warn]

/-- Errors alone. -/
def errors : LogFilter := [.ofLevel .error]

/-- The pieces of a text between commas. -/
def pieces (text : List Char) : List (List Char) :=
  (text.splitOn ',').filter fun piece => !piece.isEmpty

/-- The filter that a text gives. -/
def ofText (text : String) : LogFilter :=
  match (pieces text.toList).mapM Directive.ofText? with
  | none => warnings
  | some [] => errors
  | some directives => directives

/-- The filter of the environment. -/
def ofSetting (setting? : Option String) : LogFilter := setting?.elim warnings ofText

/-- The directive that decides, of the one that has decided so far and a later
one. -/
def stronger (best : Option Directive) (later : Directive) : Option Directive :=
  match best with
  | none => some later
  | some earlier => some (if earlier.givesWayTo later then later else earlier)

/-- Whether a line is shown. -/
def shows (filter : LogFilter) (line : LogLine) : Bool :=
  let target := line.target.toList
  let matching := filter.filter fun directive => directive.appliesTo target line.fieldNames
  match matching.foldl stronger none with
  | none => false
  | some directive => line.level.rank ≤ directive.level.rank

/-- The text of the lines that are shown. -/
def shown (filter : LogFilter) (lines : List LogLine) : String :=
  String.join ((lines.filter filter.shows).map LogLine.text)

end LogFilter

end CommandLine

end AggregatedRecords
