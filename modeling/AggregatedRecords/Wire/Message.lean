import AggregatedRecords.Wire.Field
/-!
# Wire — messages

A message is its fields, in any order and any number. Reading one folds a
*step*, which takes one field's value into the message so far, over the fields
until it comes to where the message stops; a field may then have gone beyond
that point, which is an error of the message around it.

How deep messages and groups are nested is counted down from `depthLimit`.
-/

namespace AggregatedRecords

namespace Wire

/-- How many levels of messages and groups there may be. -/
def depthLimit : Nat := 100

/-! ## Fields that are skipped -/

/-- The rounds of `Reader.group`. -/
def runGroup (skipField : Key → Reader Unit) (number : Nat) (u : Unread) :
    Except Failure (Unit × Unread) :=
  match _ : Key.read.run u with
  | .error e => .error e
  | .ok (key, rest) =>
    if key.wireType = .endGroup then
      if key.number = number then .ok ((), rest) else .error ⟨[], .unexpectedEndGroup⟩
    else
      match _ : (skipField key).run rest with
      | .error e => .error e
      | .ok ((), rest') => runGroup skipField number rest'
termination_by u.size
decreasing_by exact Nat.lt_of_le_of_lt (Consumer.shrinks _ ‹_›) (Key.read_lt ‹_›)

theorem runGroup_shrinks {skipField : Key → Reader Unit} {number : Nat} {u rest : Unread} {a : Unit}
    (h : runGroup skipField number u = .ok (a, rest)) : rest.size ≤ u.size := by
  fun_induction runGroup skipField number u with
  | case1 => simp at h
  | case2 u key rest' hkey =>
    simp only [Except.ok.injEq, Prod.mk.injEq] at h
    exact h.2 ▸ Nat.le_of_lt (Key.read_lt hkey)
  | case3 => simp at h
  | case4 => simp at h
  | case5 u key r hkey _ r' hfield ih =>
    exact Nat.le_trans (ih h)
      (Nat.le_trans (Consumer.shrinks _ hfield) (Nat.le_of_lt (Key.read_lt hkey)))

/-- Skips the fields of a group, through the end of the group with its
number. -/
def Reader.group (skipField : Key → Reader Unit) (number : Nat) : Reader Unit where
  run := runGroup skipField number
  shrinks := runGroup_shrinks

/-- Skips the value of a field that is not known. -/
def skipField : (depth : Nat) → Key → Reader Unit
  | 0, _ => .fail .recursionLimit
  | depth + 1, key =>
    match key.wireType with
    | .varint => do
      let _ ← Varint.read
      pure ()
    | .fixed64 => Reader.skip 8
    | .lengthDelimited => do
      let length ← Varint.read
      Reader.skip length
    | .startGroup => Reader.group (fun inner => skipField depth inner) key.number
    | .endGroup => .fail .unexpectedEndGroup
    | .fixed32 => Reader.skip 4

/-! ## Fields that are taken in -/

variable {α : Type}

/-- The rounds of `Reader.fields`. -/
def runFields (step : Key → α → Reader α) (stop : Nat) (message : α) (u : Unread) :
    Except Failure (α × Unread) :=
  if u.size ≤ stop then .ok (message, u)
  else
    match _ : Key.read.run u with
    | .error e => .error e
    | .ok (key, rest) =>
      match _ : (step key message).run rest with
      | .error e => .error e
      | .ok (message', rest') => runFields step stop message' rest'
termination_by u.size
decreasing_by exact Nat.lt_of_le_of_lt (Consumer.shrinks _ ‹_›) (Key.read_lt ‹_›)

theorem runFields_shrinks {step : Key → α → Reader α} {stop : Nat} {message a : α}
    {u rest : Unread} (h : runFields step stop message u = .ok (a, rest)) :
    rest.size ≤ u.size := by
  fun_induction runFields step stop message u with
  | case1 => simp_all
  | case2 => simp at h
  | case3 => simp at h
  | case4 message u _ key r hkey message' r' hfield ih =>
    exact Nat.le_trans (ih h)
      (Nat.le_trans (Consumer.shrinks _ hfield) (Nat.le_of_lt (Key.read_lt hkey)))

/-- Takes fields into a message while more than `stop` octets are unread. -/
def Reader.fields (step : Key → α → Reader α) (stop : Nat) (message : α) : Reader α where
  run := runFields step stop message
  shrinks := runFields_shrinks

/-- Reads an embedded message: its length, and its fields from nothing on. The
step takes the depth that is left for the fields. -/
def readEmbedded (step : (depth : Nat) → Key → α → Reader α) (empty : α) (depth : Nat) (key : Key) :
    Reader α := do
  key.expect .lengthDelimited
  if depth = 0 then
    Reader.fail .recursionLimit
  else
    let length ← Varint.read
    let unread ← Consumer.input
    if unread.size < length then
      Reader.fail .underflow
    else
      let stop := unread.size - length
      let message ← Reader.fields (step (depth - 1)) stop empty
      let unread ← Consumer.input
      if unread.size = stop then pure message else Reader.fail .lengthExceeded

/-- The message whose fields the octets are. -/
def decode (step : (depth : Nat) → Key → α → Reader α) (empty : α) (b : Bytes) :
    Except Failure α :=
  ((Reader.fields (step depthLimit) 0 empty).run (.ofBytes b)).map Prod.fst

end Wire

end AggregatedRecords
