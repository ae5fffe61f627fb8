import AggregatedRecords.Consumer
import AggregatedRecords.Hex
import AggregatedRecords.Text.Blank
/-!
# Pattern — single characters, and what stands for one

A pattern is a regular expression for the values of fields. Its smallest parts
are characters, and escapes, which begin with a backslash. What a part may be
depends on the *mode* at its place, which letters in parentheses set.

The cases and the classes of the letters of all scripts are not known here, nor
where their words begin and end. So unless a pattern is restricted to ASCII
there are no parts that would need them, and where it is restricted a part may
only match what is text.
-/

namespace AggregatedRecords

namespace Pattern

/-- A way to read a part off the front of a pattern. -/
abbrev Reader (α : Type) := Consumer Unit (List Char) α

/-! ## Characters -/

namespace Reader

/-- Fails unless a condition holds. -/
def require (condition : Bool) : Reader Unit := if condition then pure () else Consumer.fail ()

/-- Takes the next character, if there is one. -/
def next? : Reader (Option Char) where
  run
    | [] => .ok (none, [])
    | c :: rest => .ok (some c, rest)
  shrinks {s a rest} h := by
    match s with
    | [] =>
      cases h
      exact Nat.le_refl _
    | c :: cs =>
      cases h
      exact Nat.le_succ _

/-- Takes the next character, which must be there. -/
def next : Reader Char := do
  match ← next? with
  | some c => return c
  | none => Consumer.fail ()

/-- Takes the first of some texts that comes next, and says whether one did. -/
def acceptAny (texts : List (List Char)) : Reader Bool where
  run s :=
    match texts.find? fun text => text.isPrefixOf s with
    | some text => .ok (true, s.drop text.length)
    | none => .ok (false, s)
  shrinks {s a rest} h := by
    split at h
    · cases h
      simp [Sized.size]
    · cases h
      exact Nat.le_refl _

/-- Takes a text if it comes next, and says whether it did. -/
def accept (text : List Char) : Reader Bool := acceptAny [text]

/-- Takes the characters up to the first that ends them. -/
def upTo (ends : Char → Bool) : Reader (List Char) where
  run s := .ok (s.takeWhile fun c => !ends c, s.dropWhile fun c => !ends c)
  shrinks {s a rest} h := by
    cases h
    exact (List.dropWhile_sublist _).length_le

end Reader

/-! ## Modes -/

/-- How a pattern is read at a place. -/
structure Mode where
  /-- Letters stand for both of their cases. -/
  ignoresCase : Bool
  /-- Characters are those of all scripts, not of ASCII alone. -/
  isUnicode : Bool
  /-- Blanks between the parts mean nothing, nor does what follows a number
  sign on its line. -/
  isSpaced : Bool
deriving Repr, DecidableEq

namespace Mode

/-- The mode at the beginning of a pattern. -/
def initial : Mode := ⟨false, true, false⟩

/-- The letters that set something, of which three matter here. -/
def letters : List Char := ['i', 'm', 's', 'U', 'u', 'R', 'x']

/-- Whether a text is some letters, each once, of which those behind a hyphen
are unset. -/
def isSetting (text : List Char) : Bool :=
  text.all (fun c => c = '-' || letters.contains c) && decide text.Nodup &&
    text.getLast? ≠ some '-'

/-- The mode with letters set and unset. -/
def change (mode : Mode) (text : List Char) : Mode :=
  let on := text.takeWhile (· ≠ '-')
  let state (letter : Char) (before : Bool) : Bool :=
    if text.contains letter then on.contains letter else before
  ⟨state 'i' mode.ignoresCase, state 'u' mode.isUnicode, state 'x' mode.isSpaced⟩

/-- Drops blanks and comments, of which one may be open. -/
def dropSpace (inComment : Bool) : List Char → List Char
  | [] => []
  | c :: rest =>
    if inComment then dropSpace (c ≠ '\n') rest
    else if Text.isBlank c then dropSpace false rest
    else if c = '#' then dropSpace true rest
    else c :: rest

theorem length_dropSpace_le (inComment : Bool) (s : List Char) :
    (dropSpace inComment s).length ≤ s.length := by
  fun_induction dropSpace inComment s <;> simp_all <;> omega

/-- Takes what means nothing between two parts. -/
def space (mode : Mode) : Reader Unit where
  run s := .ok ((), if mode.isSpaced then dropSpace false s else s)
  shrinks {s a rest} h := by
    cases h
    split
    · exact length_dropSpace_le _ _
    · exact Nat.le_refl _

end Mode

/-! ## Items -/

/-- What a character or an escape stands for. -/
inductive Item where
  /-- A character, which may be given as an octet. -/
  | character (c : Char) (isOctet : Bool)
  /-- The digits, the blanks or the letters of words, or all but those. -/
  | letterClass (isNegated : Bool)
  /-- The beginning or the end of a word, or any other place. -/
  | wordBoundary
  /-- The beginning or the end of the text. -/
  | anchor
deriving Repr, DecidableEq

namespace Item

/-- Whether an item may be a part of a pattern. -/
def isAllowed (mode : Mode) : Item → Bool
  | character c isOctet =>
    if mode.isUnicode then !mode.ignoresCase else !isOctet || c.toNat < 0x80
  | letterClass isNegated => !mode.isUnicode && !isNegated
  | wordBoundary => !mode.isUnicode
  | anchor => true

/-- Whether an item may stand between brackets. -/
def isAllowedInBrackets (mode : Mode) : Item → Bool
  | character c _ => if mode.isUnicode then !mode.ignoresCase else c.toNat < 0x80
  | letterClass isNegated => !mode.isUnicode && !isNegated
  | wordBoundary => false
  | anchor => false

/-- Reads hexadecimal digits behind ones of a given value. -/
def hexDigits (mode : Mode) (value : Nat) : (count : Nat) → Reader Nat
  | 0 => pure value
  | count + 1 => do
    mode.space
    match Hex.valueOf? (← Reader.next) with
    | some digit => hexDigits mode (value * 16 + digit) count
    | none => Consumer.fail ()

/-- Reads a character given by its code point. -/
def codePoint (mode : Mode) (count : Nat) (isOctet : Bool) : Reader Item := do
  let code ← hexDigits mode 0 count
  Reader.require (decide code.isValidChar)
  return character (Char.ofNat code) isOctet

/-- The character of a letter after a backslash. -/
def control? : Char → Option Char
  | 'a' => some '\x07'
  | 'f' => some '\x0c'
  | 't' => some '\t'
  | 'n' => some '\n'
  | 'r' => some '\r'
  | 'v' => some '\x0b'
  | _ => none

/-- Reads an escape, after its backslash. A character of ASCII stands for
itself unless it is a letter, a digit or an angle bracket. -/
def escape (mode : Mode) : Reader Item := do
  let c ← Reader.next
  match c with
  | 'x' => codePoint mode 2 true
  | 'u' => codePoint mode 4 false
  | 'U' => codePoint mode 8 false
  | 'A' => return anchor
  | 'z' => return anchor
  | c =>
    if ['d', 's', 'w'].contains c then return letterClass false
    else if ['D', 'S', 'W'].contains c then return letterClass true
    else if ['b', 'B', '<', '>'].contains c then return wordBoundary
    else match control? c with
      | some control => return character control false
      | none =>
        Reader.require (c.toNat < 0x80 && !c.isAlphanum)
        return character c false

end Item

end Pattern

end AggregatedRecords
