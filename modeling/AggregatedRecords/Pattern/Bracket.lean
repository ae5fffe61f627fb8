import AggregatedRecords.Pattern.Item
/-!
# Pattern — characters between brackets

Brackets hold items, ranges of characters, named classes and further brackets,
and all of these may be combined by operators of two equal characters. The
height of brackets says how deep they go.
-/

namespace AggregatedRecords

namespace Pattern

/-- The height of things side by side: one more than the highest, unless there
is at most one. -/
def joinedHeight : List Nat → Nat
  | [] => 0
  | [height] => height
  | heights => heights.foldl max 0 + 1

/-- Brackets that are open: whether a circumflex negates them, the height of
what stands before the last operator, and those of the items after it. -/
structure Bracket where
  isNegated : Bool
  left? : Option Nat
  items : List Nat

namespace Bracket

/-- With one more item. -/
def add (bracket : Bracket) (height : Nat) : Bracket :=
  { bracket with items := height :: bracket.items }

/-- The height of what is in brackets. -/
def height (bracket : Bracket) : Nat :=
  let right := joinedHeight bracket.items
  match bracket.left? with
  | none => right
  | some left => max left right + 1

/-- After an operator. -/
def operate (bracket : Bracket) : Bracket := ⟨bracket.isNegated, some bracket.height, []⟩

/-- The names of classes. -/
def classNames : List String :=
  ["alnum", "alpha", "ascii", "blank", "cntrl", "digit", "graph", "lower", "print", "punct",
    "space", "upper", "word", "xdigit"]

/-- The operators: both, one without the other, and one of the two. -/
def operators : List (List Char) := [['&', '&'], ['-', '-'], ['~', '~']]

/-- Reads a named class after its first bracket, and says whether it is
negated. -/
def namedClass : Reader Bool := do
  Reader.require (← Reader.accept [':'])
  let isNegated ← Reader.accept ['^']
  let name ← Reader.upTo (· = ':')
  Reader.require (classNames.contains (String.ofList name))
  Reader.require (← Reader.accept [':', ']'])
  return isNegated

/-- Takes an item of which it is known that it may stand between brackets. -/
def addItem (mode : Mode) (item : Item) (bracket : Bracket) : Reader Bracket := do
  Reader.require (item.isAllowedInBrackets mode)
  return bracket.add 0

/-- One round of the hyphens in front. -/
def hyphen (mode : Mode) (bracket : Bracket) : Reader (Bracket ⊕ Bracket) := do
  if ← Reader.accept ['-'] then
    mode.space
    return .inl (← bracket.addItem mode (.character '-' false))
  else return .inr bracket

/-- Reads what is special at the beginning of brackets: a circumflex, and then
hyphens or else a closing bracket that stand for themselves. -/
def opening (mode : Mode) : Reader Bracket := do
  mode.space
  let isNegated ← Reader.accept ['^']
  mode.space
  let bracket ← Consumer.iterate () (hyphen mode) ⟨isNegated, none, []⟩
  if bracket.items.isEmpty then
    if ← Reader.accept [']'] then bracket.addItem mode (.character ']' false)
    else return bracket
  else return bracket

/-- Reads an item. -/
def item (mode : Mode) : Reader Item := do
  match ← Reader.next with
  | '\\' => Item.escape mode
  | c => return .character c false

/-- Whether a hyphen with the rest of a pattern makes a range. It does not
before the closing bracket or another hyphen. -/
def isRange (mode : Mode) : (text : List Char) → Bool
  | '-' :: rest =>
    let following :=
      if mode.isSpaced then
        match rest.dropWhile Text.isBlank with
        | '#' :: rest => rest.dropWhile Text.isBlank
        | rest => rest
      else rest
    following.head? ≠ some ']' && following.head? ≠ some '-'
  | _ => false

/-- Reads an item or a range of characters. -/
def range (mode : Mode) (bracket : Bracket) : Reader Bracket := do
  let first ← item mode
  mode.space
  if isRange mode (← Consumer.input) then
    let _ ← Reader.next
    mode.space
    let last ← item mode
    match first, last with
    | .character low _, .character high _ =>
      Reader.require (low.toNat ≤ high.toNat && first.isAllowedInBrackets mode)
      bracket.addItem mode last
    | _, _ => Consumer.fail ()
  else bracket.addItem mode first

/-- Brackets that are closed: an item of those around them, or the height of
all. Brackets of ASCII are not negated, as they would match what is no text.
Those of all scripts may be, wherever they stand: if the case is ignored they
hold no character of their own, so they match either nothing or everything,
and that is the same in both cases. -/
def close (mode : Mode) (bracket : Bracket) (around : List Bracket) :
    Reader ((Bracket × List Bracket) ⊕ Nat) := do
  Reader.require (!bracket.isNegated || mode.isUnicode)
  match around with
  | [] => return .inr (bracket.height + 1)
  | outer :: around => return .inl (outer.add (bracket.height + 1), around)

/-- One round of what is in brackets: the innermost that are open, and those
around them. -/
def round (mode : Mode) : Bracket × List Bracket → Reader ((Bracket × List Bracket) ⊕ Nat)
  | (bracket, around) => do
    mode.space
    if ← Reader.accept ['['] then
      match ← namedClass.attempt with
      | some isNegated =>
        Reader.require (if mode.isUnicode then !mode.ignoresCase else !isNegated)
        return .inl (bracket.add 0, around)
      | none => return .inl (← opening mode, bracket :: around)
    else if ← Reader.accept [']'] then bracket.close mode around
    else if ← Reader.acceptAny operators then return .inl (bracket.operate, around)
    else return .inl (← bracket.range mode, around)

/-- Reads brackets after the first one, and gives their height. -/
def read (mode : Mode) : Reader Nat := do
  Consumer.iterate () (round mode) (← opening mode, [])

end Bracket

end Pattern

end AggregatedRecords
