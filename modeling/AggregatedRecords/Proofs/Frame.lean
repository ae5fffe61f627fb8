import AggregatedRecords.Frame
/-!
# Frame — what is opened is what was closed

A frame is cut from both ends without a length in it. `FrameFormat.parse`
accepts exactly the octets that `FrameFormat.encode` writes of the payload it
gives (`FrameFormat.parse_eq_ok_iff`), whatever magic or payload look like.

Octets that are too short are refused before they are cut, so that every cut
is within them (`FrameFormat.cut?_of_overhead_le`).
-/

namespace AggregatedRecords

/-! ## Lengths of digests -/

theorem Md5.length_littleEndian : ∀ (n value : Nat), (Md5.littleEndian n value).length = n := by
  intro n
  induction n with
  | zero => exact fun _ => rfl
  | succ n ih =>
    intro value
    rw [Md5.littleEndian, List.length_cons, ih]

/-- The digest of any message has sixteen octets. -/
theorem Md5.length_digest (message : Bytes) : (Md5.digest message).length = 16 := by
  simp [Md5.digest, Md5.Words.octets, Md5.length_littleEndian]

/-- A digest has the size of its algorithm. -/
theorem DigestAlgorithm.length_digest (algorithm : DigestAlgorithm) (data : Bytes) :
    (algorithm.digest data).length = algorithm.size := by
  cases algorithm
  exact Md5.length_digest data

/-- A digest is accepted when it is the one of the data. -/
theorem DigestAlgorithm.verify_eq_ok_iff {algorithm : DigestAlgorithm} {data carried : Bytes} :
    algorithm.verify data carried = .ok () ↔ algorithm.digest data = carried := by
  unfold DigestAlgorithm.verify
  by_cases h : algorithm.digest data = carried
  · simp [h]
  · simp [h]

/-! ## Slices -/

namespace Bytes

/-- The octets from one position up to another one, if both are within the
octets. -/
def slice? (b : Bytes) (start stop : Nat) : Option Bytes :=
  if start ≤ stop ∧ stop ≤ b.length then some ((b.take stop).drop start) else none

theorem slice?_of_le {b : Bytes} {start stop : Nat} (hstart : start ≤ stop)
    (hstop : stop ≤ b.length) : b.slice? start stop = some ((b.take stop).drop start) :=
  if_pos ⟨hstart, hstop⟩

end Bytes

namespace FrameFormat

variable (format : FrameFormat)

/-! ## Cutting from both ends -/

/-- A frame is as long as its payload and what surrounds it. -/
theorem length_encode (payload : Bytes) :
    (format.encode payload).length = format.overhead + payload.length := by
  simp only [encode, overhead, List.length_append, DigestAlgorithm.length_digest]
  omega

/-- A frame is the magic, the payload and the digest of the payload. -/
theorem encode_eq (payload : Bytes) :
    format.encode payload = format.magic ++ payload ++ Md5.digest payload := by
  obtain ⟨magic, algorithm⟩ := format
  cases algorithm
  rw [encode, List.append_assoc]
  rfl

theorem length_encode_eq (payload : Bytes) :
    (format.encode payload).length = format.magic.length + payload.length + 16 := by
  rw [encode_eq, List.length_append, List.length_append, Md5.length_digest]

/-- The view of a frame is as long as the frame. -/
theorem length_view (payload : Bytes) :
    (FrameView.mk format.magic payload (format.algorithm.digest payload)).length =
      (format.encode payload).length := by
  rw [encode, List.length_append, List.length_append, FrameView.length, Nat.add_assoc]

/-- **Octets are cut where their regions meet**, if these are as long as the
parts of a frame. -/
theorem split_append {magic payload digest : Bytes} (hmagic : magic.length = format.magic.length)
    (hdigest : digest.length = format.algorithm.size) :
    format.split (magic ++ payload ++ digest) = ⟨magic, payload, digest⟩ := by
  have hbehind : (magic ++ payload ++ digest).length - format.algorithm.size =
      (magic ++ payload).length := by
    rw [List.length_append, hdigest, Nat.add_sub_cancel]
  have hpayload : (magic ++ payload ++ digest).length - format.overhead = payload.length := by
    simp only [List.length_append, overhead, hmagic, hdigest]
    omega
  simp only [split, hbehind, hpayload, ← hmagic]
  rw [List.drop_left, List.append_assoc, List.take_left, List.drop_left, List.take_left]

/-- **A frame is cut into what it was made of.** -/
theorem split_encode (payload : Bytes) :
    format.split (format.encode payload) =
      ⟨format.magic, payload, format.algorithm.digest payload⟩ := by
  rw [encode, ← List.append_assoc]
  exact format.split_append rfl (format.algorithm.length_digest payload)

/-- **Nothing is lost in cutting** octets that are long enough: the parts one
after the other are the octets. -/
theorem append_split {raw : Bytes} (h : format.overhead ≤ raw.length) :
    (format.split raw).magic ++ ((format.split raw).payload ++ (format.split raw).digest) =
      raw := by
  -- counted from the front, the digest starts where the payload ends
  have hend : format.magic.length + (raw.length - format.overhead) =
      raw.length - format.algorithm.size := by
    simp only [overhead] at h ⊢
    omega
  have hdigest : raw.drop (raw.length - format.algorithm.size) =
      (raw.drop format.magic.length).drop (raw.length - format.overhead) := by
    rw [List.drop_drop, hend]
  simp only [split]
  rw [hdigest, List.take_append_drop, List.take_append_drop]

/-! ## Acceptance -/

/-- A frame is opened to its payload. -/
theorem parse_encode (payload : Bytes) :
    format.parse (format.encode payload) =
      .ok ⟨format.magic, payload, format.algorithm.digest payload⟩ := by
  have hlong : ¬ (format.encode payload).length < format.overhead := by
    rw [length_encode]
    omega
  have hverify := DigestAlgorithm.verify_eq_ok_iff.2 (rfl : format.algorithm.digest payload = _)
  rw [parse, split_encode, if_neg hlong, if_neg (not_not_intro rfl)]
  simp only [hverify]

/-- **Exactly the frames are opened.** Octets are accepted when they are the
frame of the payload in the view, and the view holds its three parts. -/
theorem parse_eq_ok_iff {raw : Bytes} {view : FrameView} :
    format.parse raw = .ok view ↔
      raw = format.encode view.payload ∧
        view = ⟨format.magic, view.payload, format.algorithm.digest view.payload⟩ := by
  constructor
  · intro h
    rw [parse] at h
    by_cases hlong : raw.length < format.overhead
    · simp [hlong] at h
    · by_cases hmagic : (format.split raw).magic = format.magic
      · cases hverify : format.algorithm.verify (format.split raw).payload
            (format.split raw).digest with
        | error e => simp [hlong, hmagic, hverify] at h
        | ok u =>
          -- the digest is the payload's, so the parts are those of its frame
          have hdigest := DigestAlgorithm.verify_eq_ok_iff.1 hverify
          simp only [if_neg hlong, hmagic, ne_eq, not_true_eq_false, if_false, hverify,
            Except.ok.injEq] at h
          subst h
          have hraw := format.append_split (Nat.not_lt.1 hlong)
          rw [hmagic, ← hdigest] at hraw
          refine ⟨hraw.symm, ?_⟩
          rw [hdigest, ← hmagic]
      · simp [hlong, hmagic] at h
  · rintro ⟨rfl, hview⟩
    rw [parse_encode, ← hview]

/-! ## Cuts within the octets -/

/-- The octets cut from both ends, with nothing taken off that is not there and
no cut beyond them. -/
def cut? (raw : Bytes) : Option FrameView := do
  let digestAt ←
    if format.algorithm.size ≤ raw.length then some (raw.length - format.algorithm.size) else none
  let magic ← raw.slice? 0 format.magic.length
  let payload ← raw.slice? format.magic.length digestAt
  let digest ← raw.slice? digestAt raw.length
  return ⟨magic, payload, digest⟩

/-- **Octets that are long enough are cut within their bounds.** -/
theorem cut?_of_overhead_le {raw : Bytes} (h : format.overhead ≤ raw.length) :
    format.cut? raw = some (format.split raw) := by
  simp only [overhead] at h
  have hsize : format.algorithm.size ≤ raw.length := by omega
  have hend : format.magic.length ≤ raw.length - format.algorithm.size := by omega
  have hlength : raw.length - format.algorithm.size - format.magic.length =
      raw.length - format.overhead := by
    simp only [overhead]
    omega
  have hmagic : raw.slice? 0 format.magic.length = some (format.split raw).magic :=
    Bytes.slice?_of_le (Nat.zero_le _) (Nat.le_trans hend (Nat.sub_le _ _))
  have hpayload : raw.slice? format.magic.length (raw.length - format.algorithm.size) =
      some (format.split raw).payload := by
    rw [Bytes.slice?_of_le hend (Nat.sub_le _ _), List.drop_take, hlength]
    rfl
  have hdigest : raw.slice? (raw.length - format.algorithm.size) raw.length =
      some (format.split raw).digest := by
    rw [Bytes.slice?_of_le (Nat.sub_le _ _) (Nat.le_refl _), List.take_length]
    rfl
  rw [cut?, if_pos hsize]
  simp only [Option.bind_eq_bind, Option.bind_some, hmagic, hpayload, hdigest]
  rfl

/-- Octets are cut only where all bounds are within them. -/
theorem parse_eq_malformed_or_cut? (raw : Bytes) :
    format.parse raw = .error (.malformed raw.length format.overhead) ∨
      format.cut? raw = some (format.split raw) := by
  by_cases h : raw.length < format.overhead
  · left
    rw [parse, if_pos h]
  · right
    exact format.cut?_of_overhead_le (Nat.not_lt.1 h)

/-! ## Both directions -/

theorem encode_injective : Function.Injective format.encode := by
  intro payload other h
  have hsplit := congrArg format.split h
  rw [split_encode, split_encode] at hsplit
  exact congrArg FrameView.payload hsplit

/-- The parts of a view that was accepted make up the octets. -/
theorem append_of_parse_eq_ok {raw : Bytes} {view : FrameView}
    (h : format.parse raw = .ok view) :
    view.magic ++ view.payload ++ view.digest = raw ∧ view.length = raw.length := by
  obtain ⟨hraw, hview⟩ := (parse_eq_ok_iff format).1 h
  rw [hraw, hview]
  exact ⟨by rw [encode, List.append_assoc], format.length_view view.payload⟩

/-- **Opening and closing a frame are inverse to each other.** -/
theorem parse_encode_inverse (format : FrameFormat) :
    (∀ raw view, format.parse raw = .ok view ↔
      raw = format.encode view.payload ∧ view.magic = format.magic ∧
        view.digest = format.algorithm.digest view.payload) ∧
    (∀ raw payload,
      (∃ view, format.parse raw = .ok view ∧ view.payload = payload) ↔
        raw = format.encode payload) ∧
    (∀ raw view, format.parse raw = .ok view →
      view.magic ++ view.payload ++ view.digest = raw ∧ view.length = raw.length) ∧
    Function.Injective format.encode ∧
    (∀ payload, (format.encode payload).length = format.overhead + payload.length) ∧
    ∀ raw, format.parse raw = .error (.malformed raw.length format.overhead) ∨
      format.cut? raw = some (format.split raw) := by
  refine ⟨fun raw view => ?_, fun raw payload => ?_, fun raw view => format.append_of_parse_eq_ok,
    format.encode_injective, format.length_encode, format.parse_eq_malformed_or_cut?⟩
  · obtain ⟨magic, payload, digest⟩ := view
    rw [parse_eq_ok_iff, FrameView.mk.injEq]
    simp
  · constructor
    · rintro ⟨view, hparse, rfl⟩
      exact ((parse_eq_ok_iff format).1 hparse).1
    · rintro rfl
      exact ⟨_, format.parse_encode payload, rfl⟩

end FrameFormat

end AggregatedRecords
