import AggregatedRecords.Proofs.Bytes
import AggregatedRecords.Proofs.Record.Length
import AggregatedRecords.Proofs.Wire.Reads
/-!
# Wire — what is read is paid for

What a reader gives takes up room when it is written again, and the octets that
were read pay for it, each at the same price. `Pays` says so of a reader: a
weight before and a weight after, and in between no more is gained than the
octets taken are worth. It is closed under sequencing (`Pays.bind`), so a
message is paid for once its fields are (`pays_fields`).

An embedded message may be longer than what it was read from, as fields that
were missing are written. What it has to be paid more for is the price of one
more for each octet (`pays_readEmbedded`).
-/

namespace AggregatedRecords

namespace Wire

variable {α β : Type} {price before : Nat}

/-- **A reader pays for what it gives**: from a weight before to one after, it
gains no more than the octets that it takes are worth at a price. -/
def Pays (price before : Nat) (r : Reader α) (after : α → Nat) : Prop :=
  ∀ u a rest, r.run u = .ok (a, rest) → after a + price * rest.size ≤ before + price * u.size

theorem pays_pure {a : α} {after : α → Nat} (h : after a ≤ before) :
    Pays price before (pure a) after := by
  intro u b rest hrun
  cases hrun
  exact Nat.add_le_add_right h _

theorem pays_fail (cause : Cause) (after : α → Nat) :
    Pays price before (Reader.fail cause) after := by
  intro u a rest h
  cases h

/-- Octets that are only taken leave the weight as it was. -/
theorem pays_unchanged (price before : Nat) (r : Reader α) :
    Pays price before r fun _ => before := by
  intro u a rest h
  have hle : rest.size ≤ u.size := r.shrinks h
  exact Nat.add_le_add_left (Nat.mul_le_mul_left price hle) _

namespace Pays

variable {r : Reader α} {after : α → Nat}

/-- **Readers in sequence pay one after the other.** -/
theorem bind {next : α → Reader β} {last : β → Nat} (h : Pays price before r after)
    (hnext : ∀ a, Pays price (after a) (next a) last) : Pays price before (r >>= next) last := by
  intro u b rest hrun
  obtain ⟨a, mid, hfirst, hrest⟩ := Consumer.run_bind_eq_ok_iff.1 hrun
  exact Nat.le_trans (hnext a mid b rest hrest) (h u a mid hfirst)

/-- The member a value belongs to has no price. -/
theorem within (member : Member) (h : Pays price before r after) :
    Pays price before (r.within member) after :=
  fun u a rest hrun => h u a rest (Reader.run_within_eq_ok_iff.1 hrun)

/-- What is paid for at the lowest price is so at any higher one. -/
theorem at_price (h : Pays 1 before r after) (hprice : 1 ≤ price) :
    Pays price before r after := by
  intro u a rest hrun
  obtain ⟨more, rfl⟩ := Nat.exists_eq_add_of_le hprice
  have hone := h u a rest hrun
  have hle : rest.size ≤ u.size := r.shrinks hrun
  have hmore := Nat.mul_le_mul_left more hle
  simp only [Nat.add_mul]
  omega

/-- **A value that is put somewhere** weighs there what it weighs by itself,
beside all that was there. -/
theorem put {more : Nat} (h : Pays price more r after) {f : α → β} {weight : β → Nat}
    (hf : ∀ a, weight (f a) + more ≤ before + after a) :
    Pays price before (r >>= fun a => pure (f a)) weight := by
  intro u b rest hrun
  obtain ⟨a, mid, hfirst, hput⟩ := Consumer.run_bind_eq_ok_iff.1 hrun
  cases hput
  have hpaid := h u a rest hfirst
  have hweight := hf a
  omega

end Pays

/-! ## Numbers and values -/

/-- Seven bits take up one octet. -/
theorem Varint.encodedLength_of_lt {n : Nat} (h : n < 128) : Varint.encodedLength n = 1 := by
  have hlog : n.log2 < 7 := by
    rcases Nat.eq_zero_or_pos n with rfl | hpos
    · simp
    · exact (Nat.log2_lt (by omega)).2 h
  rw [Varint.encodedLength, Nat.div_eq_of_lt hlog]

/-- And seven bits in front of a number one more at most. -/
theorem Varint.encodedLength_add_le (high : Nat) {low : Nat} (h : low < 128) :
    Varint.encodedLength (low + 128 * high) ≤ 1 + Varint.encodedLength high := by
  rcases Nat.eq_zero_or_pos high with rfl | hpos
  · rw [Varint.encodedLength_of_lt (by omega)]
    exact Nat.le_add_right _ _
  · have hlog := log2_div_128 (show 128 ≤ low + 128 * high by omega)
    rw [show (low + 128 * high) / 128 = high by omega] at hlog
    simp only [Varint.encodedLength, hlog]
    omega

/-- A number of up to four and twice another one takes up no more than that one
does, and as many octets again as it counts. -/
theorem Varint.encodedLength_le_add {m n : Nat} (h : m ≤ 4 + 2 * n) :
    Varint.encodedLength m ≤ Varint.encodedLength n + n := by
  rcases Nat.eq_zero_or_pos n with rfl | hpos
  · exact Nat.le_of_eq (Varint.encodedLength_of_lt (by omega))
  · have hwide := Varint.encodedLength_mono (show m ≤ 0 + 128 * n by omega)
    have hgrown := Varint.encodedLength_add_le n (show 0 < 128 by decide)
    omega

/-- **A number takes up no more than it was read from**, as its shortest form is
written. -/
theorem pays_readGroups (groups : Nat) :
    Pays 1 0 (Varint.readGroups groups) Varint.encodedLength := by
  induction groups with
  | zero => exact pays_fail _ _
  | succ groups ih =>
    have hoctet : Pays 1 0 Reader.octet fun _ => 1 := by
      intro u x rest h
      have hlt := Reader.octet_lt h
      change 1 + 1 * rest.size ≤ 0 + 1 * u.size
      omega
    refine hoctet.bind fun x => ?_
    split
    · next hsmall =>
      split
      · exact pays_fail _ _
      · exact pays_pure (Nat.le_of_eq
          (Varint.encodedLength_of_lt (UInt8.lt_iff_toNat_lt.1 hsmall)))
    · refine ih.put fun high => ?_
      exact Varint.encodedLength_add_le high (Nat.mod_lt _ (by decide))

theorem pays_readUInt64 (key : Key) :
    Pays 1 0 (readUInt64 key) fun value => Varint.encodedLength value.toNat := by
  refine (pays_unchanged 1 0 (key.expect .varint)).bind fun _ => ?_
  refine (pays_readGroups _).put fun n => ?_
  rw [Nat.add_zero, Nat.zero_add]
  refine Varint.encodedLength_mono ?_
  exact Nat.mod_le n _

/-- What a value takes up after its key. -/
def valueLength (length : Nat) : Nat := Varint.encodedLength length + length

theorem delimitedLength_eq (length : Nat) : delimitedLength length = 1 + valueLength length :=
  Nat.add_assoc _ _ _

theorem pays_take (n : Nat) :
    Pays 1 (Varint.encodedLength n) (Reader.take n) fun b => valueLength b.length := by
  intro u b rest h
  simp only [Reader.take] at h
  split at h
  · cases h
  · next hsize =>
    cases h
    have hlength : (u.octets.take n).length = n := by
      rw [List.length_take, ← u.size_eq]
      omega
    simp only [hlength, valueLength, Unread.drop]
    omega

theorem pays_readDelimited (key : Key) :
    Pays 1 0 (readDelimited key) fun b => valueLength b.length :=
  (pays_unchanged 1 0 (key.expect .lengthDelimited)).bind fun _ =>
    (pays_readGroups _).bind pays_take

theorem pays_readString (key : Key) :
    Pays 1 0 (readString key) fun s => valueLength s.utf8ByteSize := by
  refine (pays_readDelimited key).bind fun b => ?_
  split
  · exact pays_fail _ _
  · next s hs =>
    refine pays_pure (Nat.le_of_eq ?_)
    rw [← Bytes.length_ofString, Bytes.ofString_eq_of_toString? hs]

/-! ## Messages -/

/-- **Fields pay for a message** where each step does, the octets of the key
included. -/
theorem pays_fields {step : Key → α → Reader α} {weight : α → Nat}
    (hstep : ∀ key message, Pays price (weight message + price) (step key message) weight)
    (stop : Nat) (message : α) :
    Pays price (weight message) (Reader.fields step stop message) weight := by
  intro u a rest hrun
  change runFields step stop message u = .ok (a, rest) at hrun
  fun_induction runFields step stop message u with
  | case1 =>
    cases hrun
    exact Nat.le_refl _
  | case2 => cases hrun
  | case3 => cases hrun
  | case4 message u _ key u' hkey message' u'' hvalue ih =>
    -- the key takes one octet at least, which the step may spend
    have hkeyPaid := Nat.mul_le_mul_left price (Key.read_lt hkey)
    have hvaluePaid := hstep key message _ _ _ hvalue
    have hrest := ih hrun
    rw [Nat.succ_eq_add_one, Nat.mul_add, Nat.mul_one] at hkeyPaid
    omega

/-- **An embedded message is paid for at a higher price.** Where it weighs up
to twice the price without fields, its octets and its length pay at the price
above for all that is written of it. -/
theorem pays_readEmbedded {step : Nat → Key → α → Reader α} {weight : α → Nat} (empty : α)
    (depth : Nat) (key : Key) (hprice : price = 1 ∨ price = 2) (hempty : weight empty ≤ 2 * price)
    (hstep : ∀ inner message,
      Pays price (weight message + price) (step (depth - 1) inner message) weight) :
    Pays (price + 1) (price + 1) (readEmbedded step empty depth key)
      fun message => delimitedLength (weight message) := by
  intro u message rest hrun
  obtain ⟨length, mid, -, hlength, hfields, hrest⟩ := exists_of_run_readEmbedded hrun
  have hnumber := pays_readGroups _ _ _ _ hlength
  have hweight := pays_fields hstep _ _ _ _ _ hfields
  have hwider : Varint.encodedLength (weight message) ≤ Varint.encodedLength length + length := by
    refine Varint.encodedLength_le_add ?_
    rcases hprice with rfl | rfl <;> omega
  have hone : 1 ≤ Varint.encodedLength length := Nat.le_add_left 1 _
  change delimitedLength (weight message) + (price + 1) * rest.size ≤ _
  rw [delimitedLength]
  rcases hprice with rfl | rfl <;> omega

end Wire

end AggregatedRecords
