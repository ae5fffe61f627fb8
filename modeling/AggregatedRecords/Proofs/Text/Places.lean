import AggregatedRecords.Proofs.Text.Escaped
/-!
# Text — places within escapes

Whoever looks for the quote that closes a text reads character by character and
keeps in mind whether an escape is under way. `Text.Place` is what has to be kept in
mind. An escape that is read to its end leads back to where it began
(`Text.run_escapeOctet`), so there is none under way after any octets
(`Text.run_escape`). A double quote is met only behind the backslash of its escape
(`Text.quote_in_escape`), so none of them closes the text
(`Text.escape_readBack`).
-/

namespace AggregatedRecords

namespace Text

/-- A place in an escaped text. -/
inductive Place where
  /-- In front of a character or of an escape. -/
  | outside
  /-- Behind the backslash of an escape. -/
  | behindBackslash
  /-- Behind the first octal digit of an escape. -/
  | behindFirstDigit
  /-- Behind the second octal digit of an escape. -/
  | behindSecondDigit
deriving Repr, DecidableEq

namespace Place

/-- The place behind a character, if the character may come next. A double quote
outside of an escape may not. -/
def step : Place → Char → Option Place
  | outside, c =>
    if c = '\\' then some behindBackslash else if isPlain c then some outside else none
  | behindBackslash, c =>
    if (letter? c).isSome then some outside
    else if (octalValue? c).isSome then some behindFirstDigit
    else none
  | behindFirstDigit, c => if (octalValue? c).isSome then some behindSecondDigit else none
  | behindSecondDigit, c => if (octalValue? c).isSome then some outside else none

/-- The place behind characters, if each of them may come next. -/
def run (place : Place) (s : List Char) : Option Place := s.foldlM step place

theorem run_append (place : Place) (s t : List Char) :
    place.run (s ++ t) = (place.run s).bind (·.run t) := List.foldlM_append

/-- A double quote may come next only behind a backslash. -/
theorem eq_behindBackslash_of_step {place next : Place} (h : place.step '"' = some next) :
    place = behindBackslash := by
  cases place with
  | behindBackslash => rfl
  | outside | behindFirstDigit | behindSecondDigit => cases h

end Place

/-- An octal digit has a value. -/
theorem isSome_octalValue? {n : Nat} (h : n < 8) :
    (octalValue? (octalDigit n)).isSome = true := by
  rw [(octalDigit_spec n h).1]
  rfl

/-- **An escaped octet leads back outside.** -/
theorem run_escapeOctet (x : UInt8) : Place.outside.run (escapeOctet x) = some .outside := by
  obtain ⟨c, hescape, hletter, -⟩ | ⟨c, hescape, hplain, -⟩ | hescape := escapeOctet_cases x
  · simp [hescape, Place.run, Place.step, hletter]
  · have hne : c ≠ '\\' := by
      rintro rfl
      cases hplain
    simp [hescape, Place.run, Place.step, hplain, hne]
  · have hx := x.toNat_lt
    have hhigh : x.toNat / 64 < 8 := by omega
    have hmiddle : x.toNat / 8 % 8 < 8 := by omega
    have hlow : x.toNat % 8 < 8 := by omega
    simp [hescape, Place.run, Place.step, (octalDigit_spec _ hhigh).2.1,
      isSome_octalValue? hhigh, isSome_octalValue? hmiddle, isSome_octalValue? hlow]

/-- **Escaped octets do not end within an escape.** -/
theorem run_escape (b : Bytes) : Place.outside.run (escape b) = some .outside := by
  induction b with
  | nil => rfl
  | cons x b ih =>
    change Place.outside.run (escapeOctet x ++ escape b) = _
    rw [Place.run_append, run_escapeOctet, Option.bind_some, ih]

/-- **A double quote is the second character of an escape.** -/
theorem quote_in_escape {b : Bytes} {front back : List Char}
    (h : escape b = front ++ '"' :: back) : Place.outside.run front = some .behindBackslash := by
  have hrun := run_escape b
  rw [h, Place.run_append, Option.bind_eq_some_iff] at hrun
  obtain ⟨place, hfront, hquote⟩ := hrun
  have hstep : (place.step '"').bind (·.run back) = some .outside := hquote
  obtain ⟨next, hnext, -⟩ := Option.bind_eq_some_iff.1 hstep
  rw [hfront, Place.eq_behindBackslash_of_step hnext]

/-- Escaped octets in front of a text are read as they are. -/
theorem unescape?_escape_append (b : Bytes) (rest : List Char) :
    unescape? (escape b ++ rest) = (unescape? rest).map (b ++ ·) := by
  induction b with
  | nil => simp [escape]
  | cons x b ih =>
    change unescape? ((escapeOctet x ++ escape b) ++ rest) = _
    rw [List.append_assoc, unescape?_escapeOctet, ih, Option.map_map]
    rfl

/-- **Octets are escaped reversibly, and safely between quotes.** Whatever they are,
they are escaped to printable ASCII, in which a double quote is always the second
character of an escape and which does not end within an escape. They are read back
as they were, also in front of other characters, be these digits. -/
theorem escape_readBack (b : Bytes) :
    (∀ c ∈ escape b, 0x20 ≤ c.toNat ∧ c.toNat ≤ 0x7e) ∧
    (∀ front back, escape b = front ++ '"' :: back →
      Place.outside.run front = some .behindBackslash) ∧
    Place.outside.run (escape b) = some .outside ∧
    unescape? (escape b) = some b ∧
    ∀ rest, unescape? (escape b ++ rest) = (unescape? rest).map (b ++ ·) := by
  refine ⟨fun c hc => ?_, fun front back => quote_in_escape, run_escape b, unescape?_escape b,
    unescape?_escape_append b⟩
  have hprintable := isPrintable_of_mem_escape hc
  simp only [isPrintable, Bool.and_eq_true, decide_eq_true_eq] at hprintable
  exact hprintable

end Text

end AggregatedRecords
