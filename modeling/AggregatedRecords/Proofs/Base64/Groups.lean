import AggregatedRecords.Base64
import AggregatedRecords.Proofs.Bytes
import Mathlib.Tactic.SplitIfs
/-!
# Base64 — one group

A group of up to three octets is written as *sextets*, values below 64, and
filled up with padding (`encodeGroup_eq`). Octets and sextets determine each
other (`decodeGroup_sextets`, `sextets_decodeGroup`), sextets without spare
bits that is, and so do sextets and symbols (`value?_eq_some_iff`).
-/

namespace AggregatedRecords

namespace Base64

variable {chunk s : Bytes} {values : List Nat} {n : Nat} {x : UInt8}

/-! ## Symbols and their values -/

/-- Every value below 64 has a symbol of its own. -/
theorem value?_symbol (h : n < 64) : value? (symbol n) = some n := by
  revert n
  decide

/-- **A symbol and its value** determine each other. -/
theorem value?_eq_some_iff : value? x = some n ↔ n < 64 ∧ symbol n = x := by
  constructor
  · intro h
    have hx := x.toNat_lt
    simp only [value?, Bool.and_eq_true, decide_eq_true_eq] at h
    have hcode : n < 64 ∧ (symbol n).toNat = x.toNat := by
      simp only [symbol, UInt8.toNat_ofNat']
      split_ifs at h <;> cases h <;> split_ifs <;> omega
    exact ⟨hcode.1, UInt8.toNat_inj.1 hcode.2⟩
  · rintro ⟨hn, rfl⟩
    exact value?_symbol hn

theorem isSymbol_symbol (h : n < 64) : isSymbol (symbol n) = true := by
  rw [isSymbol, value?_symbol h]
  rfl

/-- Padding is no symbol. -/
theorem ne_pad_of_isSymbol (h : isSymbol x = true) : x ≠ pad := by
  rintro rfl
  cases h

/-- Symbols and padding are ASCII. -/
theorem lt_of_isSymbol (h : isSymbol x = true) : x.toNat < 128 := by
  rw [isSymbol, value?] at h
  split_ifs at h <;> simp_all <;> omega

/-- Symbols are no blanks. -/
theorem not_isBlank_symbol (h : n < 64) : Text.isBlank (Char.ofNat (symbol n).toNat) = false := by
  revert n
  decide

theorem lt_of_mem_values (h : n ∈ s.filterMap value?) : n < 64 := by
  obtain ⟨x, -, hx⟩ := List.mem_filterMap.1 h
  exact (value?_eq_some_iff.1 hx).1

/-- The values of symbols are those they were written from. -/
theorem values_map_symbol (h : ∀ n ∈ values, n < 64) :
    (values.map symbol).filterMap value? = values := by
  induction values with
  | nil => rfl
  | cons n values ih =>
    have hn := value?_symbol (h n List.mem_cons_self)
    rw [List.map_cons, List.filterMap_cons_some hn,
      ih fun m hm => h m (List.mem_cons_of_mem _ hm)]

/-- Symbols are written from their values. -/
theorem map_symbol_values (h : ∀ x ∈ s, isSymbol x = true) :
    (s.filterMap value?).map symbol = s := by
  induction s with
  | nil => rfl
  | cons x s ih =>
    obtain ⟨n, hn⟩ := Option.isSome_iff_exists.1 (h x List.mem_cons_self)
    rw [List.filterMap_cons_some hn, List.map_cons, (value?_eq_some_iff.1 hn).2,
      ih fun y hy => h y (List.mem_cons_of_mem _ hy)]

/-! ## Octets and sextets -/

/-- The values of the symbols that up to three octets are written in. -/
def sextets : Bytes → List Nat
  | [] => []
  | [x] => [x.toNat / 4, x.toNat % 4 * 16]
  | [x, y] => [x.toNat / 4, x.toNat % 4 * 16 + y.toNat / 16, y.toNat % 16 * 4]
  | x :: y :: z :: _ =>
    [x.toNat / 4, x.toNat % 4 * 16 + y.toNat / 16, y.toNat % 16 * 4 + z.toNat / 64, z.toNat % 64]

/-- The padding behind the symbols of a group. -/
def padding (chunk : Bytes) : Bytes := List.replicate (3 - chunk.length) pad

/-- **A group is its sextets and padding.** -/
theorem encodeGroup_eq (h : chunk ≠ []) :
    encodeGroup chunk = (sextets chunk).map symbol ++ padding chunk := by
  match chunk with
  | [x] => rfl
  | [x, y] => rfl
  | x :: y :: z :: rest =>
    have hfull : padding (x :: y :: z :: rest) = [] := by
      simp [padding]
    rw [hfull, List.append_nil]
    rfl

theorem length_sextets (h : chunk ≠ []) (hlength : chunk.length ≤ 3) :
    (sextets chunk).length = chunk.length + 1 := by
  match chunk with
  | [x] => rfl
  | [x, y] => rfl
  | [x, y, z] => rfl

theorem lt_of_mem_sextets (h : n ∈ sextets chunk) : n < 64 := by
  match chunk with
  | [x] =>
    have hx := x.toNat_lt
    simp only [sextets, List.mem_cons, List.not_mem_nil, or_false] at h
    omega
  | [x, y] =>
    have hx := x.toNat_lt
    have hy := y.toNat_lt
    simp only [sextets, List.mem_cons, List.not_mem_nil, or_false] at h
    omega
  | x :: y :: z :: _ =>
    have hx := x.toNat_lt
    have hy := y.toNat_lt
    have hz := z.toNat_lt
    simp only [sextets, List.mem_cons, List.not_mem_nil, or_false] at h
    omega

/-- Sextets of octets have no spare bits. -/
theorem hasSpareBits_sextets (chunk : Bytes) : hasSpareBits (sextets chunk) = false := by
  match chunk with
  | [] => rfl
  | [x] => simp [sextets, hasSpareBits]
  | [x, y] => simp [sextets, hasSpareBits]
  | x :: y :: z :: _ => rfl

/-- Four values leave no bit over. -/
theorem hasSpareBits_of_length (h : values.length = 4) : hasSpareBits values = false := by
  match values with
  | [a, b, c, d] => rfl

/-- An octet is put together from its bits. -/
theorem ofNat_eq_of_toNat_eq (h : n = x.toNat) : UInt8.ofNat n = x := by
  rw [h, UInt8.ofNat_toNat]

/-- **Octets are read back from their sextets.** -/
theorem decodeGroup_sextets (h : chunk.length ≤ 3) : decodeGroup (sextets chunk) = chunk := by
  match chunk with
  | [] => rfl
  | [x] =>
    have hx : UInt8.ofNat (x.toNat / 4 * 4 + x.toNat % 4 * 16 / 16) = x :=
      ofNat_eq_of_toNat_eq (by omega)
    simp only [sextets, decodeGroup, hx]
  | [x, y] =>
    have hlt := y.toNat_lt
    have hx : UInt8.ofNat (x.toNat / 4 * 4 + (x.toNat % 4 * 16 + y.toNat / 16) / 16) = x :=
      ofNat_eq_of_toNat_eq (by omega)
    have hy : UInt8.ofNat ((x.toNat % 4 * 16 + y.toNat / 16) % 16 * 16 +
        y.toNat % 16 * 4 / 4) = y :=
      ofNat_eq_of_toNat_eq (by omega)
    simp only [sextets, decodeGroup, hx, hy]
  | [x, y, z] =>
    have hlt := y.toNat_lt
    have hlt' := z.toNat_lt
    have hx : UInt8.ofNat (x.toNat / 4 * 4 + (x.toNat % 4 * 16 + y.toNat / 16) / 16) = x :=
      ofNat_eq_of_toNat_eq (by omega)
    have hy : UInt8.ofNat ((x.toNat % 4 * 16 + y.toNat / 16) % 16 * 16 +
        (y.toNat % 16 * 4 + z.toNat / 64) / 4) = y :=
      ofNat_eq_of_toNat_eq (by omega)
    have hz : UInt8.ofNat ((y.toNat % 16 * 4 + z.toNat / 64) % 4 * 64 + z.toNat % 64) = z :=
      ofNat_eq_of_toNat_eq (by omega)
    simp only [sextets, decodeGroup, hx, hy, hz]

theorem length_decodeGroup (hmin : 2 ≤ values.length) (hmax : values.length ≤ 4) :
    (decodeGroup values).length + 1 = values.length := by
  match values with
  | [a, b] => rfl
  | [a, b, c] => rfl
  | [a, b, c, d] => rfl

theorem toNat_ofNat_of_lt (h : n < 256) : (UInt8.ofNat n).toNat = n := by
  rw [UInt8.toNat_ofNat']
  omega

/-- **Sextets without spare bits** are those of the octets they are read as. -/
theorem sextets_decodeGroup (hmin : 2 ≤ values.length) (hmax : values.length ≤ 4)
    (h : ∀ n ∈ values, n < 64) (hspare : hasSpareBits values = false) :
    sextets (decodeGroup values) = values := by
  match values with
  | [a, b] =>
    have ha := h a (by simp)
    have hb := h b (by simp)
    simp only [hasSpareBits, bne_eq_false_iff_eq] at hspare
    simp only [decodeGroup, sextets, toNat_ofNat_of_lt (show a * 4 + b / 16 < 256 by omega),
      List.cons.injEq, and_true]
    omega
  | [a, b, c] =>
    have ha := h a (by simp)
    have hb := h b (by simp)
    have hc := h c (by simp)
    simp only [hasSpareBits, bne_eq_false_iff_eq] at hspare
    simp only [decodeGroup, sextets, toNat_ofNat_of_lt (show a * 4 + b / 16 < 256 by omega),
      toNat_ofNat_of_lt (show b % 16 * 16 + c / 4 < 256 by omega), List.cons.injEq, and_true]
    omega
  | [a, b, c, d] =>
    have ha := h a (by simp)
    have hb := h b (by simp)
    have hc := h c (by simp)
    have hd := h d (by simp)
    simp only [decodeGroup, sextets, toNat_ofNat_of_lt (show a * 4 + b / 16 < 256 by omega),
      toNat_ofNat_of_lt (show b % 16 * 16 + c / 4 < 256 by omega),
      toNat_ofNat_of_lt (show c % 4 * 64 + d < 256 by omega), List.cons.injEq, and_true]
    omega

/-! ## Octets and symbols -/

/-- The values in a group are its sextets. -/
theorem values_encodeGroup (h : chunk ≠ []) :
    (encodeGroup chunk).filterMap value? = sextets chunk := by
  have hpadding : (padding chunk).filterMap value? = [] := by
    rw [padding, List.filterMap_replicate_of_none rfl]
  rw [encodeGroup_eq h, List.filterMap_append, hpadding, List.append_nil,
    values_map_symbol fun n hn => lt_of_mem_sextets hn]

/-- **Symbols without spare bits** make, with padding, the group of the octets
they are read as, one octet fewer than there are symbols. -/
theorem encodeGroup_decodeGroup (hmin : 2 ≤ s.length) (hmax : s.length ≤ 4)
    (h : ∀ x ∈ s, isSymbol x = true) (hspare : hasSpareBits (s.filterMap value?) = false) :
    (decodeGroup (s.filterMap value?)).length + 1 = s.length ∧
      encodeGroup (decodeGroup (s.filterMap value?)) = s ++ List.replicate (4 - s.length) pad := by
  have hsymbols := map_symbol_values h
  have hvalues : (s.filterMap value?).length = s.length := by
    rw [← List.length_map symbol, hsymbols]
  rw [← hvalues] at hmin hmax
  have hlength := length_decodeGroup hmin hmax
  have hsextets := sextets_decodeGroup hmin hmax (fun n hn => lt_of_mem_values hn) hspare
  have hchunk : decodeGroup (s.filterMap value?) ≠ [] := by
    refine List.ne_nil_of_length_pos ?_
    omega
  have hrest : 3 - (decodeGroup (s.filterMap value?)).length = 4 - s.length := by
    omega
  refine ⟨hlength.trans hvalues, ?_⟩
  rw [encodeGroup_eq hchunk, hsextets, hsymbols, padding, hrest]

end Base64

end AggregatedRecords
