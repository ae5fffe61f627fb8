import AggregatedRecords.Hex
import AggregatedRecords.Json.Numeral
/-!
# JSON — tokens of a text

Readers of JSON work on tokens. The tokens of a text go up to the first place
where no token can be made out; there a *broken* token says what was begun and
how it fails. Whether that matters is for the reader to see, which may fail
before it comes there.

A value that is passed over is held to less than one that is taken: a text may
have halves of surrogate pairs, and a number may be out of range. So a token
keeps what the strict reading would have failed for.
-/

namespace AggregatedRecords

namespace Json

/-- How a text fails to be JSON: something stands where it may not, or the text
ends too early. -/
inductive Fault where
  | syntactic
  | early
deriving Repr, DecidableEq

/-- The parts of a text. -/
inductive Token where
  | openBrace
  | closeBrace
  | openBracket
  | closeBracket
  | colon
  | comma
  | null
  | bool (b : Bool)
  | number (numeral : Numeral)
  /-- A text between quotes, or nothing where half of a surrogate pair stands
  alone in it. -/
  | string (s : Option String)
  /-- A text between quotes that fails, when it is taken and when it is passed
  over. -/
  | brokenString (taken passed : Fault)
  /-- Anything else that fails. -/
  | broken (taken passed : Fault)
deriving Repr, DecidableEq

namespace Token

/-! ## Texts between quotes -/

/-- The code unit of four hexadecimal digits. -/
def codeUnit? (digits : List Char) : Option Nat :=
  (digits.mapM Hex.valueOf?).map fun values => values.foldl (fun sum value => sum * 16 + value) 0

/-- The character of a letter after a backslash. -/
def escaped? : Char → Option Char
  | '"' => some '"'
  | '\\' => some '\\'
  | '/' => some '/'
  | 'b' => some '\x08'
  | 'f' => some '\x0c'
  | 'n' => some '\n'
  | 'r' => some '\r'
  | 't' => some '\t'
  | _ => none

/-- A text between quotes as far as it has been read: its characters in
reverse, whether half of a surrogate pair stands alone in it, and the first
half of a pair that may be about to be completed. -/
structure Partial where
  reversed : List Char
  isSplit : Bool
  high : Option Nat

namespace Partial

/-- The text before its first character. -/
def empty : Partial := ⟨[], false, none⟩

/-- Whether half of a pair stands alone if nothing completes the last one. -/
def isTorn (p : Partial) : Bool := p.isSplit || p.high.isSome

/-- Takes in a character. -/
def push (p : Partial) (c : Char) : Partial := ⟨c :: p.reversed, p.isTorn, none⟩

/-- Takes in a code unit: a character, or half of a surrogate pair. -/
def pushUnit (p : Partial) (unit : Nat) : Partial :=
  if 0xd800 ≤ unit ∧ unit < 0xdc00 then ⟨p.reversed, p.isTorn, some unit⟩
  else if 0xdc00 ≤ unit ∧ unit < 0xe000 then
    match p.high with
    | some high =>
      let code := 0x10000 + (high - 0xd800) * 0x400 + (unit - 0xdc00)
      ⟨Char.ofNat code :: p.reversed, p.isSplit, none⟩
    | none => ⟨p.reversed, true, none⟩
  else p.push (Char.ofNat unit)

/-- The token of a text that ends. -/
def close (p : Partial) : Token :=
  .string (if p.isTorn then none else some (String.ofList p.reversed.reverse))

/-- The token of a text that fails. -/
def fail (p : Partial) (fault : Fault) : Token :=
  .brokenString (if p.isSplit then .syntactic else fault) fault

end Partial

/-- Reads a text after its opening quote: its token, and what follows it. -/
def readString (p : Partial) : List Char → Token × List Char
  | [] => (p.fail .early, [])
  | '"' :: rest => (p.close, rest)
  | '\\' :: 'u' :: a :: b :: c :: d :: rest =>
    match codeUnit? [a, b, c, d] with
    | some unit => readString (p.pushUnit unit) rest
    | none => (p.fail .syntactic, [])
  | '\\' :: 'u' :: rest =>
    -- four octets are looked at, if there are as many
    (p.fail (if (String.ofList rest).utf8ByteSize < 4 then .early else .syntactic), [])
  | '\\' :: c :: rest =>
    match escaped? c with
    | some c' => readString (p.push c') rest
    | none => (p.fail .syntactic, [])
  | ['\\'] => (p.fail .early, [])
  | c :: rest => if c.toNat < 0x20 then (p.fail .syntactic, []) else readString (p.push c) rest

/-- What follows a text is shorter than what is read. -/
theorem length_readString_le (p : Partial) (text : List Char) :
    (readString p text).2.length ≤ text.length := by
  fun_induction readString p text <;> simp_all <;> omega

/-! ## Numbers -/

/-- The values of the digits in front of a text. -/
def digits (text : List Char) : List Nat :=
  (text.takeWhile Char.isDigit).map fun c => c.toNat - 48

/-- What follows the digits in front of a text. -/
def afterDigits (text : List Char) : List Char := text.dropWhile Char.isDigit

/-- A number that fails in front of a text: where the text ends it could have
gone on, unless it is passed over. -/
def failNumber (text : List Char) : Token × List Char :=
  (.broken (if text.isEmpty then .early else .syntactic) .syntactic, [])

@[simp] theorem failNumber_snd (text : List Char) : (failNumber text).2 = [] := rfl

/-- The greatest exponent that is held. Any greater one does the same to a
number of as many digits as a text can have. -/
def maxExponent : Nat := 0x80000000

/-- Reads the digits of an exponent after its sign. -/
def readExponent (numeral : Numeral) (isNegative : Bool) (text : List Char) : Token × List Char :=
  if (digits text).isEmpty then failNumber text
  else
    let size : Nat := (digits text).foldl (fun sum digit => min (sum * 10 + digit) maxExponent) 0
    (.number { numeral with exponent := some (if isNegative then -size else size) },
      afterDigits text)

/-- Reads an exponent, which may have a sign. -/
def readSigned (numeral : Numeral) : List Char → Token × List Char
  | '-' :: rest => readExponent numeral true rest
  | '+' :: rest => readExponent numeral false rest
  | text => readExponent numeral false text

/-- Reads the exponent of a number if there is one. -/
def readExponent? (numeral : Numeral) : List Char → Token × List Char
  | 'e' :: rest => readSigned numeral rest
  | 'E' :: rest => readSigned numeral rest
  | text => (.number numeral, text)

/-- Reads the fraction of a number, after the point. -/
def readFraction (numeral : Numeral) (text : List Char) : Token × List Char :=
  if (digits text).isEmpty then failNumber text
  else readExponent? { numeral with fraction := some (digits text) } (afterDigits text)

/-- Reads a number after its sign. Its first digit is zero only if it is the
only one before the point. -/
def readNumber (isNegative : Bool) (text : List Char) : Token × List Char :=
  let whole := digits text
  let numeral : Numeral := ⟨isNegative, whole, none, none⟩
  if whole.isEmpty then failNumber text
  else if whole.head? = some 0 ∧ 1 < whole.length then (.broken .syntactic .syntactic, [])
  else match afterDigits text with
    | '.' :: rest => readFraction numeral rest
    | rest => readExponent? numeral rest

theorem length_afterDigits_le (text : List Char) : (afterDigits text).length ≤ text.length :=
  (List.dropWhile_sublist _).length_le

theorem length_readExponent_le (numeral : Numeral) (isNegative : Bool) (text : List Char) :
    (readExponent numeral isNegative text).2.length ≤ text.length := by
  unfold readExponent
  split
  · simp
  · exact length_afterDigits_le text

theorem length_readSigned_le (numeral : Numeral) (text : List Char) :
    (readSigned numeral text).2.length ≤ text.length := by
  unfold readSigned
  split
  · exact Nat.le_succ_of_le (length_readExponent_le _ _ _)
  · exact Nat.le_succ_of_le (length_readExponent_le _ _ _)
  · exact length_readExponent_le _ _ _

theorem length_readExponent?_le (numeral : Numeral) (text : List Char) :
    (readExponent? numeral text).2.length ≤ text.length := by
  unfold readExponent?
  split
  · exact Nat.le_succ_of_le (length_readSigned_le _ _)
  · exact Nat.le_succ_of_le (length_readSigned_le _ _)
  · exact Nat.le_refl _

theorem length_readFraction_le (numeral : Numeral) (text : List Char) :
    (readFraction numeral text).2.length ≤ text.length := by
  unfold readFraction
  split
  · simp
  · exact Nat.le_trans (length_readExponent?_le _ _) (length_afterDigits_le _)

/-- What follows a number is no longer than what follows its first digits. -/
theorem length_readNumber_le (isNegative : Bool) (text : List Char) :
    (readNumber isNegative text).2.length ≤ (afterDigits text).length := by
  simp only [readNumber]
  split
  · simp
  · split
    · simp
    · split
      · rename_i rest h
        rw [h]
        exact Nat.le_succ_of_le (length_readFraction_le _ _)
      · exact length_readExponent?_le _ _

/-! ## All tokens -/

/-- Reads a word after its first letter. -/
def readWord (token : Token) : (letters : List Char) → List Char → Token × List Char
  | [], text => (token, text)
  | _ :: _, [] => (.broken .early .early, [])
  | letter :: letters, c :: text =>
    if c = letter then readWord token letters text else (.broken .syntactic .syntactic, [])

theorem length_readWord_le (token : Token) (letters text : List Char) :
    (readWord token letters text).2.length ≤ text.length := by
  fun_induction readWord token letters text <;> simp_all
  omega

/-- Reads a token from its first character on. -/
def read (c : Char) (text : List Char) : Token × List Char :=
  match c with
  | '\x7b' => (openBrace, text)
  | '\x7d' => (closeBrace, text)
  | '[' => (openBracket, text)
  | ']' => (closeBracket, text)
  | ':' => (colon, text)
  | ',' => (comma, text)
  | '"' => readString .empty text
  | 'n' => readWord null ['u', 'l', 'l'] text
  | 't' => readWord (bool true) ['r', 'u', 'e'] text
  | 'f' => readWord (bool false) ['a', 'l', 's', 'e'] text
  | '-' => readNumber true text
  | c =>
    if c.isDigit then readNumber false (c :: text) else (broken .syntactic .syntactic, [])

/-- What follows a token is no longer than what follows its first character. -/
theorem length_read_le (c : Char) (text : List Char) :
    (read c text).2.length ≤ text.length := by
  unfold read
  split
  any_goals exact Nat.le_refl _
  any_goals exact length_readWord_le _ _ _
  · exact length_readString_le _ _
  · exact Nat.le_trans (length_readNumber_le _ _) (length_afterDigits_le _)
  · split
    · rename_i h
      refine Nat.le_trans (length_readNumber_le _ _) ?_
      simp only [afterDigits, List.dropWhile_cons, h, if_true]
      exact length_afterDigits_le text
    · simp

/-- The blanks between tokens. -/
def isBlank (c : Char) : Bool := c = ' ' || c = '\n' || c = '\t' || c = '\r'

/-- The tokens of a text, behind tokens read already and held in reverse. -/
def ofTextOnto (reversed : List Token) : List Char → List Token
  | [] => reversed.reverse
  | c :: text =>
    if isBlank c then ofTextOnto reversed text
    else ofTextOnto ((read c text).1 :: reversed) (read c text).2
termination_by text => text.length
decreasing_by
  · simp
  · exact Nat.lt_succ_of_le (length_read_le c text)

/-- The tokens of a text. -/
def ofText (s : String) : List Token := ofTextOnto [] s.toList

end Token

end Json

end AggregatedRecords
