import AggregatedRecords.Proofs.Base64.Canonical
import AggregatedRecords.Proofs.Text.Blank
/-!
# Base64 — exactly the padded forms are read

A text is canonical exactly when it is the padded form of a byte string, by
induction on groups in both directions, and that is the one it is read as
(`decode_eq_ok_iff`). Of a text with blanks around it the same holds of what
trimming leaves (`decodeText_eq_ok_iff`), and no blank stands in a padded form
(`decodeText_blanks`).
-/

namespace AggregatedRecords

namespace Base64

variable {text rest g chunk b : Bytes}

/-! ## Whole texts -/

/-- The octets of a text, group by group, whatever else it is. -/
def octets (text : Bytes) : Bytes := (groupsOf 4 (text.filterMap value?)).flatMap decodeGroup

theorem decode_eq_ok_iff_canonical : decode text = .ok b ↔ Canonical text ∧ octets text = b := by
  rw [decode, ← fault?_eq_none_iff]
  cases h : fault? text with
  | none => simp [octets]
  | some e => simp

@[simp] theorem encode_nil : encode [] = [] := by
  rw [encode, groupsOf_nil, List.flatMap_nil]

@[simp] theorem octets_nil : octets [] = [] := by
  rw [octets, List.filterMap_nil, groupsOf_nil, List.flatMap_nil]

theorem encode_append (h : chunk.length = 3) (b : Bytes) :
    encode (chunk ++ b) = encodeGroup chunk ++ encode b := by
  have hsome : chunk ≠ [] := List.ne_nil_of_length_pos (by omega)
  rw [encode, ← h, groupsOf_append hsome, List.flatMap_cons, h, encode]

theorem encode_of_length_le (h : chunk ≠ []) (hlength : chunk.length ≤ 3) :
    encode chunk = encodeGroup chunk := by
  rw [encode, groupsOf_of_length_le h hlength, List.flatMap_singleton]

theorem octets_append (h : chunk.length = 3) (rest : Bytes) :
    octets (encodeGroup chunk ++ rest) = chunk ++ octets rest := by
  have hsome : chunk ≠ [] := List.ne_nil_of_length_pos (by omega)
  have hlength : (sextets chunk).length = 4 := by
    rw [length_sextets hsome (by omega), h]
  have hsextets : sextets chunk ≠ [] := List.ne_nil_of_length_pos (by omega)
  rw [octets, List.filterMap_append, values_encodeGroup hsome, ← hlength, groupsOf_append hsextets,
    List.flatMap_cons, hlength, decodeGroup_sextets (Nat.le_of_eq h), octets]

theorem octets_encodeGroup (h : chunk ≠ []) (hlength : chunk.length ≤ 3) :
    octets (encodeGroup chunk) = chunk := by
  have hsextets := length_sextets h hlength
  have hsome : sextets chunk ≠ [] := List.ne_nil_of_length_pos (by omega)
  rw [octets, values_encodeGroup h, groupsOf_of_length_le hsome (by omega),
    List.flatMap_singleton, decodeGroup_sextets hlength]

/-- The octets of a padded form are those it was made of. -/
theorem octets_encode (b : Bytes) : octets (encode b) = b := by
  induction b using groups_induction (show 0 < 3 by decide) with
  | last g hlength =>
    by_cases hsome : g = []
    · subst hsome
      rw [encode_nil, octets_nil]
    · rw [encode_of_length_le hsome hlength, octets_encodeGroup hsome hlength]
  | full g rest hg hrest ih => rw [encode_append hg, octets_append hg, ih]

theorem encode_ne_nil (h : b ≠ []) : encode b ≠ [] := by
  intro hnone
  have hoctets := octets_encode b
  rw [hnone] at hoctets
  exact h (hoctets.symm.trans octets_nil)

/-- **The padded form is canonical.** -/
theorem canonical_encode (b : Bytes) : Canonical (encode b) := by
  induction b using groups_induction (show 0 < 3 by decide) with
  | last g hlength =>
    by_cases hsome : g = []
    · subst hsome
      rw [encode_nil, ← fault?_eq_none_iff]
      rfl
    · rw [encode_of_length_le hsome hlength]
      exact canonical_encodeGroup hsome hlength
  | full g rest hg hrest ih =>
    have hsome : g ≠ [] := List.ne_nil_of_length_pos (by omega)
    have hpadding : padding g = [] := by
      simp [padding, hg]
    have hgroup : encodeGroup g = (sextets g).map symbol := by
      rw [encodeGroup_eq hsome, hpadding, List.append_nil]
    have hlength : (encodeGroup g).length = 4 := by
      rw [hgroup, List.length_map, length_sextets hsome (by omega), hg]
    rw [encode_append hg, canonical_append hlength (encode_ne_nil hrest)]
    refine ⟨fun x hx => ?_, ih⟩
    rw [hgroup] at hx
    obtain ⟨n, hn, rfl⟩ := List.mem_map.1 hx
    exact isSymbol_symbol (lt_of_mem_sextets hn)

/-- **A canonical text is the padded form** of something. -/
theorem Canonical.exists_encode (h : Canonical text) : ∃ b, text = encode b := by
  induction text using groups_induction (show 0 < 4 by decide) with
  | last g hlength =>
    by_cases hsome : g = []
    · subst hsome
      exact ⟨[], encode_nil.symm⟩
    · obtain ⟨chunk, hchunk, hle, hgroup⟩ := h.exists_encodeGroup hsome hlength
      exact ⟨chunk, by rw [hgroup, encode_of_length_le hchunk hle]⟩
  | full g rest hg hrest ih =>
    -- the group in front is three octets, and the rest is a padded form by induction
    obtain ⟨hsymbols, hcanonical⟩ := (canonical_append hg hrest).1 h
    obtain ⟨b, hb⟩ := ih hcanonical
    have hvalues : (g.filterMap value?).length = 4 := by
      rw [← List.length_map symbol, map_symbol_values hsymbols, hg]
    obtain ⟨hoctets, hgroup⟩ := encodeGroup_decodeGroup (by omega) (Nat.le_of_eq hg) hsymbols
      (hasSpareBits_of_length hvalues)
    refine ⟨decodeGroup (g.filterMap value?) ++ b, ?_⟩
    rw [encode_append (by omega), hgroup, hg, ← hb, Nat.sub_self, List.replicate_zero,
      List.append_nil]

/-- **Exactly the padded form of a byte string is read as it.** -/
theorem decode_eq_ok_iff : decode text = .ok b ↔ text = encode b := by
  rw [decode_eq_ok_iff_canonical]
  constructor
  · rintro ⟨hcanonical, rfl⟩
    obtain ⟨b, rfl⟩ := hcanonical.exists_encode
    rw [octets_encode]
  · rintro rfl
    exact ⟨canonical_encode b, octets_encode b⟩

/-! ## Texts with blanks around them -/

theorem mem_encode {x : UInt8} (h : x ∈ encode b) : isSymbol x = true ∨ x = pad := by
  obtain ⟨g, -, hx⟩ := List.mem_flatMap.1 h
  by_cases hg : g = []
  · subst hg
    cases hx
  · rw [encodeGroup_eq hg] at hx
    rcases List.mem_append.1 hx with hx | hx
    · obtain ⟨n, hn, rfl⟩ := List.mem_map.1 hx
      exact Or.inl (isSymbol_symbol (lt_of_mem_sextets hn))
    · exact Or.inr (List.eq_of_mem_replicate hx)

/-- The octets of a padded form as a text. -/
theorem ofString_encodeText (b : Bytes) : Bytes.ofString (encodeText b) = encode b := by
  refine Bytes.ofString_ofList_map fun x hx => ?_
  rcases mem_encode hx with hsymbol | rfl
  · exact lt_of_isSymbol hsymbol
  · decide

/-- No blank stands in a padded form. -/
theorem not_isBlank_of_mem_encodeText {c : Char} (h : c ∈ (encodeText b).toList) :
    Text.isBlank c = false := by
  rw [encodeText, String.toList_ofList] at h
  obtain ⟨x, hx, rfl⟩ := List.mem_map.1 h
  rcases mem_encode hx with hsymbol | rfl
  · obtain ⟨n, hn⟩ := Option.isSome_iff_exists.1 hsymbol
    obtain ⟨hlt, rfl⟩ := value?_eq_some_iff.1 hn
    exact not_isBlank_symbol hlt
  · decide

/-- **A text is read as a byte string when, blanks around it aside, it is the
padded form of it.** -/
theorem decodeText_eq_ok_iff {s : String} :
    decodeText s = .ok b ↔ String.ofList (Text.trim s.toList) = encodeText b := by
  rw [decodeText, decode_eq_ok_iff, ← ofString_encodeText]
  exact ⟨Bytes.ofString_injective, congrArg Bytes.ofString⟩

/-- **Blanks around a padded form do no harm.** -/
theorem decodeText_blanks {front behind : String}
    (hfront : ∀ c ∈ front.toList, Text.isBlank c = true)
    (hbehind : ∀ c ∈ behind.toList, Text.isBlank c = true) :
    decodeText (front ++ encodeText b ++ behind) = .ok b := by
  rw [decodeText_eq_ok_iff, String.toList_append, String.toList_append,
    Text.trim_blanks hfront hbehind,
    Text.trim_of_not_isBlank fun c hc => not_isBlank_of_mem_encodeText hc, String.ofList_toList]

end Base64

end AggregatedRecords
