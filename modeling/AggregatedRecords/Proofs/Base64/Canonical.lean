import AggregatedRecords.Proofs.Base64.Groups
/-!
# Base64 — texts without faults

A text in which no fault is found is `Canonical`: whole groups of symbols, the
last of them filled up with padding (`fault?_eq_none_iff`). A full group in
front of a text changes nothing of that (`canonical_append`), and a canonical
text of one group is the group of some octets (`Canonical.exists_encodeGroup`).
-/

namespace AggregatedRecords

namespace Base64

variable {text rest g chunk : Bytes}

/-! ## Texts without faults -/

/-- What a text without faults is like. -/
structure Canonical (text : Bytes) : Prop where
  body : ∀ x ∈ body text, isSymbol x = true
  symbols : ∀ x ∈ tailSymbols text, isSymbol x = true
  padding : ∀ x ∈ tailPadding text, x = pad
  enough : text ≠ [] → 2 ≤ (tailSymbols text).length
  whole : (tail text).length % 4 = 0
  spare : hasSpareBits ((tailSymbols text).filterMap value?) = false

theorem bodyFault?_eq_none_iff :
    bodyFault? text = none ↔ ∀ x ∈ body text, isSymbol x = true := by
  rw [bodyFault?, Option.map_eq_none_iff, Bytes.firstOutside_eq_none]

theorem symbolFault?_eq_none_iff :
    symbolFault? text = none ↔ ∀ x ∈ tailSymbols text, isSymbol x = true := by
  rw [symbolFault?, Option.map_eq_none_iff, Bytes.firstOutside_eq_none]

theorem paddingFault?_eq_none_iff :
    paddingFault? text = none ↔
      (tailPadding text ≠ [] → 2 ≤ (tailSymbols text).length) ∧
        ∀ x ∈ tailPadding text, x = pad := by
  have hall : (tailPadding text).any (· != pad) = true ↔ ¬ ∀ x ∈ tailPadding text, x = pad := by
    simp
  rw [paddingFault?, ite_eq_right_iff]
  simp only [reduceCtorEq, imp_false, hall, ne_eq, not_and, not_or, Classical.not_not, Nat.not_lt]
  constructor
  · intro h
    refine ⟨fun hsome => (h hsome).1, fun x hx => ?_⟩
    exact (h (List.ne_nil_of_mem hx)).2 x hx
  · rintro ⟨henough, hpad⟩ hsome
    exact ⟨henough hsome, hpad⟩

theorem lengthFault?_eq_none_iff :
    lengthFault? text = none ↔
      (text ≠ [] → 2 ≤ (tailSymbols text).length) ∧ (tail text).length % 4 = 0 := by
  rw [lengthFault?]
  split
  · next h =>
    simp only [reduceCtorEq, false_iff, not_and]
    intro henough
    have := henough h.1
    omega
  · next h =>
    have henough : text ≠ [] → 2 ≤ (tailSymbols text).length := by
      intro hsome
      rcases Nat.lt_or_ge (tailSymbols text).length 2 with hfew | henough
      · exact absurd ⟨hsome, hfew⟩ h
      · exact henough
    rw [ite_eq_right_iff]
    simp only [reduceCtorEq, imp_false, ne_eq, Classical.not_not]
    exact ⟨fun hwhole => ⟨henough, hwhole⟩, And.right⟩

theorem spareFault?_eq_none_iff :
    spareFault? text = none ↔ hasSpareBits ((tailSymbols text).filterMap value?) = false := by
  rw [spareFault?]
  cases hspare : hasSpareBits ((tailSymbols text).filterMap value?) with
  | false => simp
  | true =>
    have hsome : tailSymbols text ≠ [] := by
      intro hnone
      rw [hnone] at hspare
      cases hspare
    simp [hsome]

/-- A straggler is no whole group anyway. -/
theorem straggler?_eq_none (h : (tail text).length % 4 = 0) : straggler? text = none := by
  rw [straggler?]
  split
  · next hone => simp [hone] at h
  · rfl

/-- **No fault is found in canonical texts**, and only in these. -/
theorem fault?_eq_none_iff : fault? text = none ↔ Canonical text := by
  simp only [fault?, Option.orElse_eq_orElse, Option.orElse_eq_or, Option.or_eq_none_iff,
    bodyFault?_eq_none_iff, symbolFault?_eq_none_iff, paddingFault?_eq_none_iff,
    lengthFault?_eq_none_iff, spareFault?_eq_none_iff]
  constructor
  · rintro ⟨-, hbody, hsymbols, ⟨-, hpadding⟩, ⟨henough, hwhole⟩, hspare⟩
    exact ⟨hbody, hsymbols, hpadding, henough, hwhole, hspare⟩
  · rintro ⟨hbody, hsymbols, hpadding, henough, hwhole, hspare⟩
    -- padding is only there in a text that is not empty, and then with enough symbols
    refine ⟨straggler?_eq_none hwhole, hbody, hsymbols, ⟨fun hsome => henough ?_, hpadding⟩,
      ⟨henough, hwhole⟩, hspare⟩
    rintro rfl
    exact hsome rfl

/-! ## Groups in front -/

theorem tailStart_add_four {n : Nat} (h : n ≠ 0) : tailStart (4 + n) = 4 + tailStart n := by
  unfold tailStart
  split <;> split <;> omega

/-- **A full group in front** belongs to the body, and the tail stays as it
is. -/
theorem body_append (hg : g.length = 4) (hrest : rest ≠ []) :
    body (g ++ rest) = g ++ body rest := by
  have hlength : rest.length ≠ 0 := fun h => hrest (List.eq_nil_of_length_eq_zero h)
  rw [body, List.length_append, hg, tailStart_add_four hlength, ← hg, List.take_length_add_append]
  rfl

theorem tail_append (hg : g.length = 4) (hrest : rest ≠ []) : tail (g ++ rest) = tail rest := by
  have hlength : rest.length ≠ 0 := fun h => hrest (List.eq_nil_of_length_eq_zero h)
  rw [tail, List.length_append, hg, tailStart_add_four hlength, ← hg, List.drop_length_add_append]
  rfl

/-- **Whether a text is canonical does not depend on a group of symbols in
front.** -/
theorem canonical_append (hg : g.length = 4) (hrest : rest ≠ []) :
    Canonical (g ++ rest) ↔ (∀ x ∈ g, isSymbol x = true) ∧ Canonical rest := by
  have hbody := body_append hg hrest
  have htail := tail_append hg hrest
  have hsymbols : tailSymbols (g ++ rest) = tailSymbols rest := by
    rw [tailSymbols, htail, tailSymbols]
  have hpadding : tailPadding (g ++ rest) = tailPadding rest := by
    rw [tailPadding, htail, tailPadding]
  constructor
  · intro h
    refine ⟨fun x hx => h.body x ?_, fun x hx => h.body x ?_, ?_, ?_, ?_, ?_, ?_⟩
    · rw [hbody]
      exact List.mem_append_left _ hx
    · rw [hbody]
      exact List.mem_append_right _ hx
    · exact hsymbols ▸ h.symbols
    · exact hpadding ▸ h.padding
    · exact fun _ => hsymbols ▸ h.enough (List.append_ne_nil_of_right_ne_nil _ hrest)
    · exact htail ▸ h.whole
    · exact hsymbols ▸ h.spare
  · rintro ⟨hfront, h⟩
    refine ⟨?_, hsymbols ▸ h.symbols, hpadding ▸ h.padding, fun _ => hsymbols ▸ h.enough hrest,
      htail ▸ h.whole, hsymbols ▸ h.spare⟩
    rw [hbody]
    intro x hx
    rcases List.mem_append.1 hx with hx | hx
    · exact hfront x hx
    · exact h.body x hx

/-! ## The last group -/

/-- A text of at most one group is its own tail. -/
theorem tail_of_length_le (h : text.length ≤ 4) : tailStart text.length = 0 := by
  unfold tailStart
  split <;> omega

theorem takeWhile_symbols {s p : Bytes} (hs : ∀ x ∈ s, isSymbol x = true) (hp : ∀ x ∈ p, x = pad) :
    (s ++ p).takeWhile (· != pad) = s ∧ (s ++ p).dropWhile (· != pad) = p := by
  have hsymbols : ∀ x ∈ s, (x != pad) = true :=
    fun x hx => bne_iff_ne.2 (ne_pad_of_isSymbol (hs x hx))
  rw [List.takeWhile_append_of_pos hsymbols, List.dropWhile_append_of_pos hsymbols]
  cases p with
  | nil => exact ⟨List.append_nil s, rfl⟩
  | cons x p =>
    obtain rfl := hp x List.mem_cons_self
    exact ⟨List.append_nil s, rfl⟩

/-- **A group of octets is canonical.** -/
theorem canonical_encodeGroup (h : chunk ≠ []) (hlength : chunk.length ≤ 3) :
    Canonical (encodeGroup chunk) := by
  have hsextets := length_sextets h hlength
  have hsize : (encodeGroup chunk).length = 4 := by
    rw [encodeGroup_eq h, List.length_append, List.length_map, hsextets, padding,
      List.length_replicate]
    omega
  have hstart := tail_of_length_le (Nat.le_of_eq hsize)
  have htail : tail (encodeGroup chunk) = encodeGroup chunk := by
    rw [tail, hstart, List.drop_zero]
  have hsymbols : ∀ x ∈ (sextets chunk).map symbol, isSymbol x = true := by
    intro x hx
    obtain ⟨n, hn, rfl⟩ := List.mem_map.1 hx
    exact isSymbol_symbol (lt_of_mem_sextets hn)
  have hpad : ∀ x ∈ padding chunk, x = pad := fun x hx => List.eq_of_mem_replicate hx
  have hbefore : tailSymbols (encodeGroup chunk) = (sextets chunk).map symbol := by
    rw [tailSymbols, htail, encodeGroup_eq h, (takeWhile_symbols hsymbols hpad).1]
  have hafter : tailPadding (encodeGroup chunk) = padding chunk := by
    rw [tailPadding, htail, encodeGroup_eq h, (takeWhile_symbols hsymbols hpad).2]
  refine ⟨?_, hbefore ▸ hsymbols, hafter ▸ hpad, fun _ => ?_, ?_, ?_⟩
  · rw [body, hstart, List.take_zero]
    exact fun x hx => absurd hx List.not_mem_nil
  · rw [hbefore, List.length_map, hsextets]
    have := List.length_pos_iff.2 h
    omega
  · rw [htail, hsize]
  · rw [hbefore, values_map_symbol fun n hn => lt_of_mem_sextets hn]
    exact hasSpareBits_sextets chunk

/-- **A canonical text of one group** is the group of some octets. -/
theorem Canonical.exists_encodeGroup (h : Canonical text) (hsome : text ≠ [])
    (hlength : text.length ≤ 4) :
    ∃ chunk, chunk ≠ [] ∧ chunk.length ≤ 3 ∧ text = encodeGroup chunk := by
  have hstart := tail_of_length_le hlength
  have htail : tail text = text := by
    rw [tail, hstart, List.drop_zero]
  have hwhole := h.whole
  have henough := h.enough hsome
  have hsplit : tailSymbols text ++ tailPadding text = text := by
    rw [tailSymbols, tailPadding, List.takeWhile_append_dropWhile, htail]
  have hpadding : tailPadding text = List.replicate (tailPadding text).length pad :=
    List.eq_replicate_of_mem h.padding
  have hsize : (tailSymbols text).length + (tailPadding text).length = 4 := by
    rw [← List.length_append, hsplit]
    rw [htail] at hwhole
    have := List.length_pos_iff.2 hsome
    omega
  -- symbols and padding are four, so the padding is as long as the group needs
  obtain ⟨hoctets, hgroup⟩ := encodeGroup_decodeGroup henough (by omega) h.symbols h.spare
  have hrest : 4 - (tailSymbols text).length = (tailPadding text).length := by
    omega
  refine ⟨decodeGroup ((tailSymbols text).filterMap value?), List.ne_nil_of_length_pos ?_, ?_, ?_⟩
  · omega
  · omega
  · rw [hgroup, hrest, ← hpadding, hsplit]

end Base64

end AggregatedRecords
