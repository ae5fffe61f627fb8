import AggregatedRecords.Proofs.Base64.Bits
import AggregatedRecords.Proofs.Base64.RoundTrip
import AggregatedRecords.Proofs.Validation.EntryPoints
/-!
# Base64 — the standard, bit by bit

The standard speaks of no groups of octets. It takes the octets as a string of
bits, cuts it into groups of six and gives each a symbol of the alphabet, the
missing bits of the last group being zero; equals signs fill the symbols up to
whole fours (`standardForm`). That is what is written
(`toList_encodeText`), group by group, and hence all that is read:
a text of any other form, blanks around it aside, is refused by every validator
(`decodeText_exactly_standardForm`).
-/

namespace AggregatedRecords

namespace Base64

/-! ## The form -/

/-- The symbols of the alphabet, by their values. -/
def alphabet : List Char :=
  "ABCDEFGHIJKLMNOPQRSTUVWXYZabcdefghijklmnopqrstuvwxyz0123456789+/".toList

/-- The value of a group of bits, which is filled up to six by zeros. -/
def valueOf (group : List Nat) : Nat := numberOf (group ++ List.replicate (6 - group.length) 0)

/-- The symbols of octets, one for every six bits. -/
def symbolsOf (b : Bytes) : List Char :=
  (groupsOf 6 (bitsOf b)).map fun group => alphabet.getD (valueOf group) '='

/-- Symbols filled up with equals signs to whole fours. -/
def fill (symbols : List Char) : List Char :=
  symbols ++ List.replicate ((4 - symbols.length % 4) % 4) '='

/-- **The standard form of octets.** -/
def standardForm (b : Bytes) : List Char := fill (symbolsOf b)

/-! ## Bits -/

variable {chunk b : Bytes} {n : Nat}

/-- Bits that are fewer than six are the high ones of their value. -/
theorem valueOf_bits (k n : Nat) : valueOf (bits k n) = n % 2 ^ k * 2 ^ (6 - k) := by
  rw [valueOf, length_bits, numberOf_zeros, numberOf_bits]

/-! ## What is written -/

/-- **The sextets of a group are its bits**, six at a time. -/
theorem map_valueOf_bitsOf (h : chunk.length ≤ 3) :
    (groupsOf 6 (bitsOf chunk)).map valueOf = sextets chunk := by
  -- what is left of one octet and what is taken of the next are six bits
  have hsplit (x : UInt8) : bits 8 x.toNat = bits 6 (x.toNat / 4) ++ bits 2 x.toNat := bits_add 6 2 _
  have hjoin (x y : UInt8) : bits 2 x.toNat ++ bits 8 y.toNat =
      bits 6 (x.toNat * 16 + y.toNat / 16) ++ bits 4 y.toNat := by
    have hy := y.toNat_lt
    rw [bits_add 4 4 y.toNat, ← List.append_assoc, bits_append 2 x.toNat (by omega)]
    rfl
  have hjoin' (y z : UInt8) : bits 4 y.toNat ++ bits 8 z.toNat =
      bits 6 (y.toNat * 4 + z.toNat / 64) ++ bits 6 z.toNat := by
    have hz := z.toNat_lt
    rw [bits_add 2 6 z.toNat, ← List.append_assoc, bits_append 4 y.toNat (by omega)]
    rfl
  have hfirst (n : Nat) (l : List Nat) := groupsOf_bits (by decide : 0 < 6) n l
  match chunk with
  | [] => simp [bitsOf, sextets]
  | [x] =>
    have hx := x.toNat_lt
    have hbits : bitsOf [x] = bits 6 (x.toNat / 4) ++ bits 2 x.toNat := by
      rw [← hsplit, bitsOf, List.flatMap_singleton]
    rw [hbits, hfirst, groupsOf_of_length_le (List.ne_nil_of_length_pos (by simp)) (by simp)]
    simp only [List.map_cons, List.map_nil, valueOf_bits, sextets, List.cons.injEq, and_true]
    omega
  | [x, y] =>
    have hx := x.toNat_lt
    have hy := y.toNat_lt
    have hbits : bitsOf [x, y] = bits 6 (x.toNat / 4) ++
        (bits 6 (x.toNat * 16 + y.toNat / 16) ++ bits 4 y.toNat) := by
      rw [← hjoin, ← List.append_assoc, ← hsplit, bitsOf, List.flatMap_cons, List.flatMap_singleton]
    rw [hbits, hfirst, hfirst,
      groupsOf_of_length_le (List.ne_nil_of_length_pos (by simp)) (by simp)]
    simp only [List.map_cons, List.map_nil, valueOf_bits, sextets, List.cons.injEq, and_true]
    omega
  | [x, y, z] =>
    have hx := x.toNat_lt
    have hy := y.toNat_lt
    have hz := z.toNat_lt
    have hbits : bitsOf [x, y, z] = bits 6 (x.toNat / 4) ++
        (bits 6 (x.toNat * 16 + y.toNat / 16) ++
          (bits 6 (y.toNat * 4 + z.toNat / 64) ++ (bits 6 z.toNat ++ []))) := by
      rw [List.append_nil, ← hjoin', ← List.append_assoc (bits 6 _) (bits 4 _), ← hjoin,
        ← List.append_assoc, ← List.append_assoc, ← hsplit]
      simp [bitsOf]
    rw [hbits, hfirst, hfirst, hfirst, hfirst, groupsOf_nil]
    simp only [List.map_cons, List.map_nil, valueOf_bits, sextets, List.cons.injEq, and_true]
    omega

/-- Every value below 64 has its symbol of the alphabet. -/
theorem alphabet_getD {n : Nat} (h : n < 64) :
    alphabet.getD n '=' = Char.ofNat (symbol n).toNat := by
  revert n
  decide

/-- A group is written in its symbols. -/
theorem symbolsOf_group (h : chunk.length ≤ 3) :
    symbolsOf chunk = (sextets chunk).map fun n => Char.ofNat (symbol n).toNat := by
  have hvalues := map_valueOf_bitsOf h
  have hsymbols : symbolsOf chunk = (sextets chunk).map fun n => alphabet.getD n '=' := by
    rw [symbolsOf, ← hvalues, List.map_map]
    rfl
  rw [hsymbols]
  exact List.map_congr_left fun n hn => alphabet_getD (lt_of_mem_sextets hn)

/-- **Three octets in front are four symbols in front.** -/
theorem symbolsOf_append (h : chunk.length = 3) (rest : Bytes) :
    symbolsOf (chunk ++ rest) = symbolsOf chunk ++ symbolsOf rest := by
  have hbits : 6 ∣ (bitsOf chunk).length := by
    rw [length_bitsOf, h]
    decide
  rw [symbolsOf, bitsOf, List.flatMap_append, ← bitsOf, groupsOf_append_of_dvd (by decide) hbits,
    List.map_append]
  rfl

/-- A group is filled up by its padding. -/
theorem standardForm_group (h : chunk.length ≤ 3) :
    standardForm chunk = (encodeGroup chunk).map fun x => Char.ofNat x.toNat := by
  have hlength (hsome : chunk ≠ []) : (symbolsOf chunk).length = chunk.length + 1 := by
    rw [symbolsOf_group h, List.length_map, length_sextets hsome h]
  by_cases hsome : chunk = []
  · subst hsome
    simp [standardForm, fill, symbolsOf, bitsOf, encodeGroup]
  · have hpadding : (4 - (chunk.length + 1) % 4) % 4 = 3 - chunk.length := by
      omega
    rw [standardForm, fill, hlength hsome, hpadding, encodeGroup_eq hsome, List.map_append,
      List.map_map, symbolsOf_group h, padding, List.map_replicate]
    rfl

/-- And three octets in front leave the padding as it is. -/
theorem standardForm_append (h : chunk.length = 3) (rest : Bytes) :
    standardForm (chunk ++ rest) = symbolsOf chunk ++ standardForm rest := by
  have hsome : chunk ≠ [] := List.ne_nil_of_length_pos (by omega)
  have hlength : (symbolsOf chunk).length = 4 := by
    rw [symbolsOf_group (Nat.le_of_eq h), List.length_map, length_sextets hsome (by omega), h]
  rw [standardForm, symbolsOf_append h, fill, List.length_append, hlength, Nat.add_mod_left,
    List.append_assoc]
  rfl

/-- **What is written is the standard form.** -/
theorem toList_encodeText (b : Bytes) : (encodeText b).toList = standardForm b := by
  rw [encodeText, String.toList_ofList]
  induction b using groups_induction (show 0 < 3 by decide) with
  | last g hlength =>
    by_cases hsome : g = []
    · subst hsome
      simp [standardForm, fill, symbolsOf, bitsOf]
    · rw [encode_of_length_le hsome hlength, standardForm_group hlength]
  | full g rest hg hrest ih =>
    have hsome : g ≠ [] := List.ne_nil_of_length_pos (by omega)
    have hpadding : padding g = [] := by
      simp [padding, hg]
    rw [encode_append hg, List.map_append, ih, standardForm_append hg,
      encodeGroup_eq hsome, hpadding, List.append_nil, List.map_map, symbolsOf_group (Nat.le_of_eq hg)]
    rfl

/-! ## What is read -/

/-- **The standard form is read, and nothing else.** A text holds octets when,
blanks around it aside, it is their standard form. Any other text is at fault,
for which every validator refuses it. -/
theorem decodeText_exactly_standardForm (text : String) :
    (∀ b, decodeText text = .ok b ↔ Text.trim text.toList = standardForm b) ∧
    ((∀ b, Text.trim text.toList ≠ standardForm b) ↔
      ∃ cause, decodeText text = .error cause ∧
        ∀ v : Validator, (v.validate text).1 = .error (.invalidEncoding cause)) := by
  have hread (b : Bytes) : decodeText text = .ok b ↔ Text.trim text.toList = standardForm b := by
    rw [decodeText_eq_ok_iff, ← toList_encodeText, String.ext_iff, String.toList_ofList]
  refine ⟨hread, ?_⟩
  simp only [ne_eq, ← hread]
  constructor
  · intro hother
    cases hdecode : decodeText text with
    | ok b => exact absurd hdecode (hother b)
    | error cause =>
      refine ⟨cause, rfl, fun v => ?_⟩
      rw [Validator.validate_fst, Checks.result_examineText, hdecode]
      rfl
  · rintro ⟨cause, hcause, -⟩ b hb
    rw [hcause] at hb
    cases hb

/-- Two octets have one form, and not one with other bits at its end. -/
example : decodeText "TWE=" = .ok [77, 97] ∧ decodeText "TWF=" = .error (.invalidLastSymbol 2 70) :=
  ⟨by cbv, by cbv⟩

end Base64

end AggregatedRecords
