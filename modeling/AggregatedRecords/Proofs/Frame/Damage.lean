import AggregatedRecords.Proofs.Frame
/-!
# Frame — what damage is reported as

Octets of the length of a frame have the regions of a frame: a magic, a payload
and a digest. They are cut just there, whatever is in them
(`FrameFormat.split_append`), and the first region found wrong decides what is
reported (`FrameFormat.parse_append`). So damage to a frame is told apart by the
region that it is in (`FrameFormat.parse_damaged`), unless a payload is replaced
by one with the same digest.
-/

namespace AggregatedRecords

namespace FrameFormat

variable {format : FrameFormat} {magic payload digest : Bytes}

/-- **The first region that is wrong is reported**: the magic, and then the
digest, which is held against the one of the payload that is there. -/
theorem parse_append (hmagic : magic.length = format.magic.length) (hdigest : digest.length = 16) :
    format.parse (magic ++ payload ++ digest) =
      if magic ≠ format.magic then .error (.badMagic format.magic magic)
      else if Md5.digest payload ≠ digest then
        .error (.checksumMismatch ⟨Md5.digest payload, digest⟩)
      else .ok ⟨magic, payload, digest⟩ := by
  obtain ⟨expected, algorithm⟩ := format
  cases algorithm
  have hlong : ¬ (magic ++ payload ++ digest).length < overhead ⟨expected, .md5⟩ := by
    simp only [List.length_append, overhead, hmagic, hdigest, DigestAlgorithm.size]
    omega
  rw [parse, split_append _ hmagic hdigest, if_neg hlong]
  by_cases hsame : magic = expected
  · by_cases hverify : Md5.digest payload = digest
    · simp [hsame, hverify, DigestAlgorithm.verify, DigestAlgorithm.digest]
    · simp [hsame, hverify, DigestAlgorithm.verify, DigestAlgorithm.digest]
  · simp [hsame]

/-- **Damage to a frame is told apart by its region.** Octets as long as the
frame of a payload are cut into three regions of the lengths of its parts. With
another magic they have a bad magic, whatever else differs. With the frame's
magic and payload but another digest, or with its magic and digest but another
payload, they have a wrong checksum, which is reported as the digest of the
payload that is there and the digest that is carried; only a payload with the
same digest is not told apart. Octets that are too short are malformed, whatever
they are. -/
theorem parse_damaged (format : FrameFormat) :
    (∀ payload raw : Bytes, raw.length = (format.encode payload).length →
      ∀ magic' payload' digest' : Bytes, raw = magic' ++ payload' ++ digest' →
        magic'.length = format.magic.length → payload'.length = payload.length →
          (magic' ≠ format.magic →
            format.parse raw = .error (.badMagic format.magic magic')) ∧
          (magic' = format.magic → payload' = payload → digest' ≠ Md5.digest payload →
            format.parse raw = .error (.checksumMismatch ⟨Md5.digest payload, digest'⟩)) ∧
          (magic' = format.magic → digest' = Md5.digest payload → payload' ≠ payload →
            if Md5.digest payload' = Md5.digest payload then
              format.parse raw = .ok ⟨magic', payload', digest'⟩
            else
              format.parse raw =
                .error (.checksumMismatch ⟨Md5.digest payload', Md5.digest payload⟩))) ∧
    ∀ raw : Bytes, raw.length < format.overhead →
      format.parse raw = .error (.malformed raw.length format.overhead) := by
  constructor
  · intro payload raw hlength magic' payload' digest' hraw hmagic hpayload
    subst hraw
    -- what is left for the digest is as long as one
    have hdigest : digest'.length = 16 := by
      simp only [length_encode_eq, List.length_append] at hlength
      omega
    rw [parse_append hmagic hdigest]
    refine ⟨fun hbad => if_pos hbad, fun hgood hsame hwrong => ?_, fun hgood hcarried _ => ?_⟩
    · rw [if_neg (not_not_intro hgood), hsame, if_pos (Ne.symm hwrong)]
    · rw [if_neg (not_not_intro hgood), hcarried]
      by_cases hcollision : Md5.digest payload' = Md5.digest payload
      · rw [if_pos hcollision, if_neg (not_not_intro hcollision)]
      · rw [if_neg hcollision, if_pos hcollision]
  · intro raw hshort
    rw [parse, if_pos hshort]

/-- So it is with a payload of which the last octet was changed. -/
theorem parse_damaged_lastOctet :
    (standardMagic ++ [1, 3] ++ Md5.digest [1, 2]).length = (standard.encode [1, 2]).length ∧
      standard.parse (standardMagic ++ [1, 3] ++ Md5.digest [1, 2]) =
        .error (.checksumMismatch ⟨Md5.digest [1, 3], Md5.digest [1, 2]⟩) := by
  have hlength : (standardMagic ++ [1, 3] ++ Md5.digest [1, 2]).length =
      (standard.encode [1, 2]).length := by
    rw [length_encode_eq, List.length_append, Md5.length_digest]
    rfl
  have hbefore : Md5.digest [1, 2] = [0x0c, 0xb9, 0x88, 0xd0, 0x42, 0xa7, 0xf2, 0x8d,
      0xd5, 0xfe, 0x2b, 0x55, 0xb3, 0xf5, 0xac, 0x7a] := by
    cbv
  have hafter : Md5.digest [1, 3] = [0x70, 0x6a, 0xcf, 0x32, 0x04, 0xa3, 0xd0, 0x94,
      0x94, 0x2c, 0x7b, 0xc4, 0x9e, 0xba, 0x2a, 0xa8] := by
    cbv
  have hdifferent : Md5.digest [1, 3] ≠ Md5.digest [1, 2] := by
    rw [hbefore, hafter]
    decide
  obtain ⟨-, -, hpayload⟩ := (parse_damaged standard).1 [1, 2] _ hlength standardMagic [1, 3]
    (Md5.digest [1, 2]) rfl rfl rfl
  have hparse := hpayload rfl rfl (by decide)
  rw [if_neg hdifferent] at hparse
  exact ⟨hlength, hparse⟩

end FrameFormat

end AggregatedRecords
