import AggregatedRecords.Text.Escaped
import Mathlib.Tactic.SplitIfs
/-!
# Text — escaped octets are read back

The escapes have different lengths and nothing stands between them, and yet
what is escaped can be read in one way only: an escape begins with a backslash
and says after its first letter or digit how long it is (`unescape?_escape`).
Escaped octets are printable ASCII (`isPrintable_of_mem_escape`), so an escape
never ends a line.
-/

namespace AggregatedRecords

namespace Text

/-! ## Reading -/

/-- The octet of a letter after a backslash. -/
def letter? : Char → Option UInt8
  | 'n' => some 10
  | 'r' => some 13
  | 't' => some 9
  | '"' => some 34
  | '\'' => some 39
  | '\\' => some 92
  | _ => none

/-- The value of an octal digit. -/
def octalValue? (c : Char) : Option Nat :=
  if '0' ≤ c ∧ c ≤ '7' then some (c.toNat - 48) else none

/-- The octet of three octal digits. -/
def octal? (first second third : Char) : Option UInt8 := do
  let high ← octalValue? first
  let middle ← octalValue? second
  let low ← octalValue? third
  let n := high * 64 + middle * 8 + low
  if n < 256 then some (UInt8.ofNat n) else none

/-- Whether a character is printable ASCII. -/
def isPrintable (c : Char) : Bool := ' ' ≤ c && c ≤ '~'

/-- Whether a character stands for itself between quotes. -/
def isPlain (c : Char) : Bool := isPrintable c && c ≠ '"' && c ≠ '\\'

/-- The octets of an escaped text. After a backslash there is a letter or there
are exactly three octal digits, and any other character stands for itself. -/
def unescape? : List Char → Option Bytes
  | [] => some []
  | c :: rest =>
    if c = '\\' then
      match rest with
      | [] => none
      | d :: rest =>
        match letter? d with
        | some x => (unescape? rest).map (x :: ·)
        | none =>
          match rest with
          | e :: f :: rest =>
            match octal? d e f with
            | some x => (unescape? rest).map (x :: ·)
            | none => none
          | _ => none
    else if isPlain c then (unescape? rest).map (UInt8.ofNat c.toNat :: ·)
    else none

/-! ## One octet -/

variable {rest : List Char}

theorem unescape?_letter {c : Char} {x : UInt8} (h : letter? c = some x) :
    unescape? ('\\' :: c :: rest) = (unescape? rest).map (x :: ·) := by
  simp [unescape?.eq_def ('\\' :: _), h]

theorem unescape?_octal {c d e : Char} {x : UInt8} (hletter : letter? c = none)
    (h : octal? c d e = some x) :
    unescape? ('\\' :: c :: d :: e :: rest) = (unescape? rest).map (x :: ·) := by
  simp [unescape?.eq_def ('\\' :: _), hletter, h]

theorem unescape?_plain {c : Char} (h : isPlain c = true) :
    unescape? (c :: rest) = (unescape? rest).map (UInt8.ofNat c.toNat :: ·) := by
  have hne : c ≠ '\\' := by
    rintro rfl
    simp [isPlain] at h
  simp [unescape?.eq_def (c :: _), hne, h]

/-- An octal digit has its value, and is none of the letters. -/
theorem octalDigit_spec : ∀ n < 8,
    octalValue? (octalDigit n) = some n ∧ letter? (octalDigit n) = none ∧
      isPrintable (octalDigit n) = true := by decide

/-- An octet is its three octal digits. -/
theorem octal?_octalDigit (x : UInt8) :
    octal? (octalDigit (x.toNat / 64)) (octalDigit (x.toNat / 8 % 8)) (octalDigit (x.toNat % 8)) =
      some x := by
  have hx := x.toNat_lt
  obtain ⟨hhigh, -⟩ := octalDigit_spec (x.toNat / 64) (by omega)
  obtain ⟨hmiddle, -⟩ := octalDigit_spec (x.toNat / 8 % 8) (by omega)
  obtain ⟨hlow, -⟩ := octalDigit_spec (x.toNat % 8) (by omega)
  have hsum : x.toNat / 64 * 64 + x.toNat / 8 % 8 * 8 + x.toNat % 8 = x.toNat := by omega
  simp only [octal?, hhigh, hmiddle, hlow, Option.bind_eq_bind, Option.bind_some, hsum]
  rw [if_pos hx, UInt8.ofNat_toNat]

/-- Printable ASCII stands for itself, but for the double quote and the
backslash. -/
theorem isPlain_ofNat : ∀ n < 127, 32 ≤ n → n ≠ 34 → n ≠ 92 →
    isPlain (Char.ofNat n) = true ∧ (Char.ofNat n).toNat = n := by decide

/-- The forms of an escaped octet: a letter after a backslash, a character that
stands for itself, or three octal digits after a backslash. -/
theorem escapeOctet_cases (x : UInt8) :
    (∃ c, escapeOctet x = ['\\', c] ∧ letter? c = some x ∧ isPrintable c = true) ∨
      (∃ c, escapeOctet x = [c] ∧ isPlain c = true ∧ UInt8.ofNat c.toNat = x) ∨
      escapeOctet x = ['\\', octalDigit (x.toNat / 64), octalDigit (x.toNat / 8 % 8),
        octalDigit (x.toNat % 8)] := by
  rw [escapeOctet]
  split_ifs with hn hr ht hdouble hsingle hbackslash hprintable
  · exact Or.inl ⟨'n', rfl, hn ▸ rfl, rfl⟩
  · exact Or.inl ⟨'r', rfl, hr ▸ rfl, rfl⟩
  · exact Or.inl ⟨'t', rfl, ht ▸ rfl, rfl⟩
  · exact Or.inl ⟨'"', rfl, hdouble ▸ rfl, rfl⟩
  · exact Or.inl ⟨'\'', rfl, hsingle ▸ rfl, rfl⟩
  · exact Or.inl ⟨'\\', rfl, hbackslash ▸ rfl, rfl⟩
  · simp only [UInt8.le_iff_toNat_le, ← UInt8.toNat_inj] at hprintable hdouble hbackslash
    obtain ⟨hplain, htoNat⟩ := isPlain_ofNat x.toNat (Nat.lt_succ_of_le hprintable.2)
      hprintable.1 hdouble hbackslash
    exact Or.inr (Or.inl ⟨_, rfl, hplain, by rw [htoNat, UInt8.ofNat_toNat]⟩)
  · exact Or.inr (Or.inr rfl)

/-- **An escaped octet is read first**, whatever follows it. -/
theorem unescape?_escapeOctet (x : UInt8) :
    unescape? (escapeOctet x ++ rest) = (unescape? rest).map (x :: ·) := by
  obtain ⟨c, hescape, hletter, -⟩ | ⟨c, hescape, hplain, rfl⟩ | hescape := escapeOctet_cases x
  · rw [hescape]
    exact unescape?_letter hletter
  · rw [hescape]
    exact unescape?_plain hplain
  · have hx := x.toNat_lt
    obtain ⟨-, hletter, -⟩ := octalDigit_spec (x.toNat / 64) (by omega)
    rw [hescape]
    exact unescape?_octal hletter (octal?_octalDigit x)

theorem isPrintable_of_mem_escapeOctet {x : UInt8} {c : Char} (h : c ∈ escapeOctet x) :
    isPrintable c = true := by
  obtain ⟨d, hescape, -, hd⟩ | ⟨d, hescape, hd, -⟩ | hescape := escapeOctet_cases x
  · rw [hescape] at h
    obtain rfl | rfl : c = '\\' ∨ c = d := by simpa using h
    · rfl
    · exact hd
  · obtain rfl : c = d := by simpa [hescape] using h
    simp only [isPlain, Bool.and_eq_true] at hd
    exact hd.1.1
  · have hx := x.toNat_lt
    have hdigits {n : Nat} (hn : n < 8) := (octalDigit_spec n hn).2.2
    simp only [hescape, List.mem_cons, List.not_mem_nil, or_false] at h
    obtain rfl | rfl | rfl | rfl := h
    · rfl
    all_goals exact hdigits (by omega)

/-! ## Octets -/

/-- **Escaped octets are read back**, whatever they are. -/
@[simp] theorem unescape?_escape (b : Bytes) : unescape? (escape b) = some b := by
  induction b with
  | nil => rfl
  | cons x b ih =>
    change unescape? (escapeOctet x ++ escape b) = _
    rw [unescape?_escapeOctet, ih, Option.map_some]

/-- Different octets are escaped differently. -/
theorem escape_injective {b b' : Bytes} (h : escape b = escape b') : b = b' := by
  have hread := congrArg unescape? h
  rw [unescape?_escape, unescape?_escape] at hread
  exact Option.some.inj hread

/-- An octal escape has three digits, whatever follows it. -/
example : unescape? ['\\', '0', '0', '1', '7'] = some [0x01, 0x37] := by decide

/-- **Escaped octets are printable ASCII.** -/
theorem isPrintable_of_mem_escape {b : Bytes} {c : Char} (h : c ∈ escape b) :
    isPrintable c = true := by
  obtain ⟨x, -, hc⟩ := List.mem_flatMap.1 h
  exact isPrintable_of_mem_escapeOctet hc

/-- No other character is among escaped octets. -/
theorem notMem_escape {b : Bytes} {c : Char} (hc : isPrintable c = false) : c ∉ escape b := by
  intro hmem
  rw [isPrintable_of_mem_escape hmem] at hc
  cases hc

end Text

end AggregatedRecords
