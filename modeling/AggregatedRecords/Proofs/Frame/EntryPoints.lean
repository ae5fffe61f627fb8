import AggregatedRecords.Proofs.Frame.Damage
/-!
# Frame — the ways to look at octets

Octets are opened in full, or only their payload is asked for, or they are only
looked at from outside. All that are long enough have the regions of a frame
(`FrameFormat.exists_regions`), and looking at them compares the first region
alone (`FrameFormat.sniff_append`), which is also the first that opening them
finds wrong. So they look like a frame exactly if nothing but the digest can be
wrong (`FrameFormat.entryPoints_of_octets_agree`).
-/

namespace AggregatedRecords

namespace FrameFormat

variable {format : FrameFormat} {raw magic payload digest : Bytes}

/-! ## Regions -/

/-- **Octets that are long enough have the regions of a frame.** -/
theorem exists_regions (h : format.overhead ≤ raw.length) :
    ∃ magic payload digest : Bytes, raw = magic ++ payload ++ digest ∧
      magic.length = format.magic.length ∧ digest.length = 16 := by
  have hsize : format.algorithm.size = 16 := by
    cases format.algorithm
    rfl
  refine ⟨_, _, _, (format.append_split h).symm.trans (List.append_assoc ..).symm, ?_, ?_⟩
  · rw [split, List.length_take]
    simp only [overhead] at h
    omega
  · rw [split, List.length_drop]
    simp only [overhead] at h
    omega

/-- Octets with the regions of a frame are long enough. -/
theorem overhead_le_of_regions (hmagic : magic.length = format.magic.length)
    (hdigest : digest.length = 16) : format.overhead ≤ (magic ++ payload ++ digest).length := by
  obtain ⟨expected, algorithm⟩ := format
  cases algorithm
  simp only [List.length_append, overhead, hmagic, hdigest, DigestAlgorithm.size]
  omega

/-! ## Looking -/

theorem sniff_eq_true_iff :
    format.sniff raw = true ↔ format.overhead ≤ raw.length ∧ format.magic <+: raw := by
  rw [sniff, Bool.and_eq_true, decide_eq_true_eq, List.isPrefixOf_iff_prefix]

/-- **Looking compares the magic alone**, whatever stands behind it. -/
theorem sniff_append (hmagic : magic.length = format.magic.length) (hdigest : digest.length = 16) :
    format.sniff (magic ++ payload ++ digest) = decide (magic = format.magic) := by
  have hlong : format.overhead ≤ (magic ++ payload ++ digest).length :=
    overhead_le_of_regions hmagic hdigest
  have hprefix : format.magic <+: magic ++ payload ++ digest ↔ magic = format.magic := by
    rw [List.append_assoc]
    constructor
    · intro h
      exact ((List.prefix_of_prefix_length_le h (List.prefix_append _ _)
        (Nat.le_of_eq hmagic.symm)).eq_of_length hmagic.symm).symm
    · rintro rfl
      exact List.prefix_append _ _
  rw [Bool.eq_iff_iff, sniff_eq_true_iff, decide_eq_true_eq, hprefix]
  exact and_iff_right hlong

/-- Octets that look like a frame begin with the magic, and there is room for a
digest behind it. -/
theorem sniff_iff_exists : format.sniff raw = true ↔
    ∃ payload digest : Bytes, raw = format.magic ++ payload ++ digest ∧ digest.length = 16 := by
  constructor
  · intro h
    obtain ⟨magic, payload, digest, rfl, hmagic, hdigest⟩ :=
      exists_regions (sniff_eq_true_iff.1 h).1
    rw [sniff_append hmagic hdigest, decide_eq_true_eq] at h
    exact ⟨payload, digest, by rw [h], hdigest⟩
  · rintro ⟨payload, digest, rfl, hdigest⟩
    rw [sniff_append rfl hdigest, decide_eq_true_eq]

/-! ## Opening -/

/-- **What opening octets comes to, by whether they look like a frame.** Those
that do not are too short or have another magic; those that do have a wrong
digest, or they are a frame. -/
theorem sniff_and_parse_cases (format : FrameFormat) (raw : Bytes) :
    (format.sniff raw = false ∧
      (format.parse raw = .error (.malformed raw.length format.overhead) ∨
        ∃ actual, format.parse raw = .error (.badMagic format.magic actual))) ∨
    (format.sniff raw = true ∧
      ((∃ mismatch, format.parse raw = .error (.checksumMismatch mismatch)) ∨
        ∃ view, format.parse raw = .ok view)) := by
  by_cases hshort : raw.length < format.overhead
  · have hsniff : format.sniff raw = false := by
      rw [Bool.eq_false_iff, ne_eq, sniff_eq_true_iff]
      exact fun h => Nat.not_lt.2 h.1 hshort
    exact .inl ⟨hsniff, .inl (by rw [parse, if_pos hshort])⟩
  · obtain ⟨magic, payload, digest, rfl, hmagic, hdigest⟩ := exists_regions (Nat.not_lt.1 hshort)
    rw [sniff_append hmagic hdigest, parse_append hmagic hdigest]
    by_cases hsame : magic = format.magic
    · rw [if_neg (not_not_intro hsame)]
      refine .inr ⟨decide_eq_true hsame, ?_⟩
      by_cases hcarried : Md5.digest payload = digest
      · exact .inr ⟨_, if_neg (not_not_intro hcarried)⟩
      · exact .inl ⟨_, if_pos hcarried⟩
    · rw [if_pos hsame]
      exact .inl ⟨decide_eq_false hsame, .inr ⟨magic, rfl⟩⟩

/-- **All ways to look at octets agree.** They look like a frame exactly if
opening them gives a view or finds a wrong checksum, so never if they are
malformed or have a bad magic. They do so exactly if they begin with the magic
and have at least a digest behind it. Asking for the payload alone gives the
payload or the error of opening them, and before that refuses every digest size
but the one there is, whatever the octets. For the standard format it is asked
for with the standard magic. -/
theorem entryPoints_of_octets_agree :
    (∀ (format : FrameFormat) (raw : Bytes),
      (format.sniff raw = true ↔
        (∃ view, format.parse raw = .ok view) ∨
          ∃ mismatch, format.parse raw = .error (.checksumMismatch mismatch)) ∧
      (format.sniff raw = false ↔
        (∃ length required, format.parse raw = .error (.malformed length required)) ∨
          ∃ expected actual, format.parse raw = .error (.badMagic expected actual)) ∧
      (format.sniff raw = true ↔
        ∃ payload digest : Bytes, raw = format.magic ++ payload ++ digest ∧ digest.length = 16)) ∧
    (∀ (raw magic : Bytes) (digestSize : Nat),
      payloadOf raw magic digestSize =
        if digestSize = 16 then (parse ⟨magic, .md5⟩ raw).map FrameView.payload
        else .error (.digestSizeMismatch .md5 digestSize)) ∧
    ∀ raw : Bytes, standardPayloadOf raw = payloadOf raw standardMagic 16 := by
  refine ⟨fun format raw => ⟨?_, ?_, sniff_iff_exists⟩, fun raw magic digestSize => ?_,
    fun raw => rfl⟩
  · obtain ⟨hsniff, hparse | ⟨_, hparse⟩⟩ | ⟨hsniff, ⟨_, hparse⟩ | ⟨_, hparse⟩⟩ :=
      sniff_and_parse_cases format raw <;> simp [hsniff, hparse]
  · obtain ⟨hsniff, hparse | ⟨_, hparse⟩⟩ | ⟨hsniff, ⟨_, hparse⟩ | ⟨_, hparse⟩⟩ :=
      sniff_and_parse_cases format raw <;> simp [hsniff, hparse]
  · rw [payloadOf]
    exact ite_not ..

end FrameFormat

end AggregatedRecords
