import AggregatedRecords.Pattern.Bracket
import AggregatedRecords.Text.Alphanumeric
/-!
# Pattern — the texts that are patterns

A pattern consists of alternatives between bars, and each of these of parts:
items, brackets, groups in parentheses, and parts that are repeated. Nothing is
matched here; it is only told which texts are patterns (`isPattern`).

There are no repetitions with a count, as a pattern stands between braces and
so has no closing one.
-/

namespace AggregatedRecords

namespace Pattern

/-- How deep a pattern may go. -/
def maxHeight : Nat := 250

/-- A part of a pattern. Letters that set the mode cannot be repeated. -/
structure Part where
  height : Nat
  isRepeatable : Bool

/-- A group that is open: the heights of the alternatives before the last bar,
and the parts after it, both held in reverse. -/
structure Group where
  alternatives : List Nat
  parts : List Part

namespace Group

/-- The group without parts. -/
def empty : Group := ⟨[], []⟩

/-- With one more part. -/
def add (group : Group) (part : Part) : Group := { group with parts := part :: group.parts }

/-- The height of the parts after the last bar. -/
def lastHeight (group : Group) : Nat := joinedHeight (group.parts.map Part.height)

/-- After a bar. -/
def alternate (group : Group) : Group := ⟨group.lastHeight :: group.alternatives, []⟩

/-- The height of a group. -/
def height (group : Group) : Nat := joinedHeight (group.lastHeight :: group.alternatives)

end Group

/-- How far a pattern has been read: the mode, the names of groups so far, the
innermost group that is open, and those around it with the mode of each. -/
structure State where
  mode : Mode
  names : List (List Char)
  group : Group
  around : List (Mode × Group)

namespace State

/-- Before the first part. -/
def initial : State := ⟨.initial, [], .empty, []⟩

/-- With one more part. -/
def add (state : State) (part : Part) : State := { state with group := state.group.add part }

/-- Within a new group. -/
def enter (state : State) (mode : Mode) : State :=
  { state with mode, group := .empty, around := (state.mode, state.group) :: state.around }

/-- Takes an item of which it is known that it may be a part. -/
def addItem (state : State) (item : Item) : Reader State := do
  Reader.require (item.isAllowed state.mode)
  return state.add ⟨0, true⟩

/-- Repeats the last part. A question mark behind a repetition belongs to it. -/
def repeatLast (state : State) : Reader State := do
  match state.group.parts with
  | [] => Consumer.fail ()
  | part :: parts =>
    Reader.require part.isRepeatable
    let _ ← Reader.accept ['?']
    let group := { state.group with parts := ⟨part.height + 1, true⟩ :: parts }
    return { state with group }

/-- Whether a text may be the name of a group. -/
def isName : List Char → Bool
  | [] => false
  | c :: rest =>
    (c = '_' || Text.isAlphabetic c) &&
      rest.all fun c => ['_', '.', '[', ']'].contains c || Text.isAlphanumeric c

/-- Reads the name of a group, which no other has, and enters the group. -/
def enterNamed (state : State) : Reader State := do
  let name ← Reader.upTo (· = '>')
  Reader.require (← Reader.accept ['>'])
  Reader.require (isName name && !state.names.contains name)
  return { state with names := name :: state.names }.enter state.mode

/-- Reads letters that set the mode, for a group or for what is left of the
innermost one. -/
def setMode (state : State) : Reader State := do
  let setting ← Reader.upTo fun c => c = ':' || c = ')'
  Reader.require (Mode.isSetting setting)
  let mode := state.mode.change setting
  if ← Reader.accept [':'] then return state.enter mode
  else
    Reader.require (← Reader.accept [')'])
    Reader.require (!setting.isEmpty)
    return { state.add ⟨0, false⟩ with mode }

/-- Reads what follows an opening parenthesis. -/
def openGroup (state : State) : Reader State := do
  state.mode.space
  if ← Reader.acceptAny [['?', 'P', '<'], ['?', '<']] then state.enterNamed
  else if ← Reader.accept ['?'] then state.setMode
  else return state.enter state.mode

/-- Leaves the innermost group, which becomes a part of the one around it. -/
def closeGroup (state : State) : Reader State := do
  match state.around with
  | [] => Consumer.fail ()
  | (mode, group) :: around =>
    return ⟨mode, state.names, group.add ⟨state.group.height + 1, true⟩, around⟩

/-- One round of a pattern. At its end no group may be open, and its height is
given. -/
def round (state : State) : Reader (State ⊕ Nat) := do
  state.mode.space
  match ← Reader.next? with
  | none =>
    Reader.require state.around.isEmpty
    return .inr state.group.height
  | some c =>
    Sum.inl <$> match c with
      | '(' => state.openGroup
      | ')' => state.closeGroup
      | '|' => return { state with group := state.group.alternate }
      | '[' => return state.add ⟨← Bracket.read state.mode, true⟩
      | '*' => state.repeatLast
      | '+' => state.repeatLast
      | '?' => state.repeatLast
      | '\x7b' => Consumer.fail ()
      | '\\' => do state.addItem (← Item.escape state.mode)
      | '^' => state.addItem .anchor
      | '$' => state.addItem .anchor
      | '.' => do
        Reader.require state.mode.isUnicode
        return state.add ⟨0, true⟩
      | c => state.addItem (.character c false)

end State

/-- Whether a text is a pattern. -/
def isPattern (text : List Char) : Bool :=
  match (Consumer.iterate () State.round .initial).run text with
  | .ok (height, _) => height ≤ maxHeight
  | .error _ => false

end Pattern

end AggregatedRecords
