import AggregatedRecords.Proofs.Base64.Bits
import AggregatedRecords.Proofs.Md5.Sines
import AggregatedRecords.Proofs.Md5.State
import Mathlib.Tactic.IntervalCases
/-!
# MD5 — the standard, bit by bit

The standard speaks of a string of bits. A one bit and as few zero bits as it
takes fill it up to 448 bits beyond whole blocks of 512 (`Md5.Fills`), and its
length stands in the last 64. The words of a block go through four rounds of
sixteen operations, in an order that each round has of its own
(`Md5.rounds`), and four registers take turns in being changed
(`Md5.standardStep`). The registers are the digest (`Md5.IsStandardDigest`).

Here the octets are filled up instead (`Md5.fills_iff`), groups of bits are
groups of octets (`Md5.groupsOf_bitsOf`), and four words move on by one place
where the registers take turns (`Md5.Agrees`). It comes to the same digest
(`Md5.isStandardDigest_iff`).
-/

namespace AggregatedRecords

namespace Md5

open Base64 (bits bitsOf numberOf length_bitsOf bits_add_mul groupsOf_bits numberOf_bits)

/-! ## The standard -/

/-- The bits of a number as eight octets, the lowest octet first. -/
def lengthBits (n : Nat) : List Nat := (List.range 8).flatMap fun i => bits 8 (n / 256 ^ i)

/-- **Bits fill up a message**: its own bits, a one bit, as few zero bits as it
takes, and the number of its bits. -/
def Fills (message : Bytes) (filled : List Nat) : Prop :=
  ∃ zeros, zeros < 512 ∧ ((bitsOf message).length + 1 + zeros) % 512 = 448 ∧
    filled = bitsOf message ++ (1 :: List.replicate zeros 0) ++ lengthBits (bitsOf message).length

/-- The word of 32 bits, of which the first octet is the low one. -/
def wordOfBits (group : List Nat) : UInt32 :=
  UInt32.ofNat (((groupsOf 8 group).map numberOf).foldr (fun octet word => octet + 256 * word) 0)

/-- A word rotated to the left as a vector of bits. -/
def rotateLeft (x : UInt32) (distance : Nat) : UInt32 := ⟨x.toBitVec.rotateLeft distance⟩

/-- Sixteen operations with one way to mix three words, the words of the block in
their order, and four distances in turn. -/
structure Round where
  mix : UInt32 → UInt32 → UInt32 → UInt32
  words : List Nat
  distances : List Nat

/-- The four rounds. -/
def rounds : List Round :=
  [⟨fun x y z => (x &&& y) ||| (~~~x &&& z),
      [0, 1, 2, 3, 4, 5, 6, 7, 8, 9, 10, 11, 12, 13, 14, 15], [7, 12, 17, 22]⟩,
    ⟨fun x y z => (x &&& z) ||| (y &&& ~~~z),
      [1, 6, 11, 0, 5, 10, 15, 4, 9, 14, 3, 8, 13, 2, 7, 12], [5, 9, 14, 20]⟩,
    ⟨fun x y z => x ^^^ y ^^^ z,
      [5, 8, 11, 14, 1, 4, 7, 10, 13, 0, 3, 6, 9, 12, 15, 2], [4, 11, 16, 23]⟩,
    ⟨fun x y z => y ^^^ (x ||| ~~~z),
      [0, 7, 14, 5, 12, 3, 10, 1, 8, 15, 6, 13, 4, 11, 2, 9], [6, 10, 15, 21]⟩]

/-- The registers A, B, C and D. -/
abbrev Registers := Fin 4 → UInt32

/-- The registers before the first block. -/
def initialRegisters : Registers := ![0x67452301, 0xefcdab89, 0x98badcfe, 0x10325476]

/-- The register that an operation changes: A, D, C, B, and so on again. -/
def turn (i : Nat) : Fin 4 := -Fin.ofNat 4 i

/-- **An operation of a round**, on the register whose turn it is and the three
behind it. -/
noncomputable def standardStep (words : List UInt32) (r : Registers) (i : Nat) : Registers :=
  match rounds[i / 16]? with
  | none => r
  | some round =>
    let a := turn i
    let sum := r a + round.mix (r (a + 1)) (r (a + 2)) (r (a + 3)) +
      words.getD (round.words.getD (i % 16) 0) 0 + sineConstant (i + 1)
    Function.update r a (r (a + 1) + rotateLeft sum (round.distances.getD (i % 4) 0))

/-- The registers after a block of bits: what the operations make of them, and
what they were before. -/
noncomputable def standardCompress (r : Registers) (block : List Nat) : Registers :=
  let words := (groupsOf 32 block).map wordOfBits
  r + (List.range 64).foldl (standardStep words) r

/-- The octets of the registers, the low one of each first. -/
def octetsOf (r : Registers) : Bytes :=
  (List.finRange 4).flatMap fun j => (List.range 4).map fun i => UInt8.ofNat ((r j).toNat / 256 ^ i)

/-- **The standard digest of a message.** -/
def IsStandardDigest (message digest : Bytes) : Prop :=
  ∃ filled, Fills message filled ∧
    digest = octetsOf ((groupsOf 512 filled).foldl standardCompress initialRegisters)

/-! ## Bits and octets -/

variable {message b : Bytes} {n : Nat}

theorem bitsOf_append (b c : Bytes) : bitsOf (b ++ c) = bitsOf b ++ bitsOf c := List.flatMap_append

theorem bitsOf_zeros (k : Nat) : bitsOf (List.replicate k 0) = List.replicate (8 * k) 0 := by
  induction k with
  | zero => rfl
  | succ k ih =>
    rw [List.replicate_succ, bitsOf, List.flatMap_cons, ← bitsOf, ih, Nat.mul_succ, Nat.add_comm,
      ← List.replicate_append_replicate]
    rfl

/-- Bits above those that are asked for do not matter to the octet. -/
theorem bits_mod (n : Nat) : bits 8 (n % 256) = bits 8 n := by
  have hsplit := bits_add_mul 8 (n % 256) (n / 256)
  have hn : n / 256 * 2 ^ 8 + n % 256 = n := by omega
  rw [← hsplit, hn]

theorem littleEndian_eq (n value : Nat) :
    littleEndian n value = (List.range n).map fun i => UInt8.ofNat (value / 256 ^ i) := by
  induction n generalizing value with
  | zero => rfl
  | succ n ih =>
    rw [littleEndian, ih, List.range_succ_eq_map, List.map_cons, List.map_map, Nat.pow_zero,
      Nat.div_one]
    congr 1
    refine List.map_congr_left fun i _ => ?_
    rw [Function.comp_apply, Nat.div_div_eq_div_mul, ← Nat.pow_succ']

theorem bitsOf_littleEndian (n : Nat) : bitsOf (littleEndian 8 n) = lengthBits n := by
  rw [littleEndian_eq, bitsOf, List.flatMap_map, lengthBits]
  congr 1
  funext i
  rw [UInt8.toNat_ofNat', bits_mod]

/-- **The padding fills up a message**, and nothing else does. -/
theorem fills_iff {filled : List Nat} :
    Fills message filled ↔ filled = bitsOf (message ++ padding message.length) := by
  have hzeros : (bitsOf message).length + 1 + (8 * ((119 - message.length % 64) % 64) + 7) =
      (bitsOf message).length + 8 * ((119 - message.length % 64) % 64) + 8 := by
    omega
  have hpadding : bitsOf (padding message.length) =
      1 :: List.replicate (8 * ((119 - message.length % 64) % 64) + 7) 0 ++
        lengthBits (bitsOf message).length := by
    rw [padding, bitsOf, List.flatMap_cons, ← bitsOf, bitsOf_append, bitsOf_zeros,
      bitsOf_littleEndian, length_bitsOf, Nat.mul_comm message.length, Nat.add_comm _ 7,
      ← List.replicate_append_replicate]
    rfl
  rw [bitsOf_append, hpadding, Fills]
  constructor
  · rintro ⟨zeros, hlt, hmod, rfl⟩
    rw [length_bitsOf] at hmod
    obtain rfl : zeros = 8 * ((119 - message.length % 64) % 64) + 7 := by omega
    rw [List.append_assoc]
  · rintro rfl
    refine ⟨_, ?_, ?_, List.append_assoc .. |>.symm⟩
    · omega
    · rw [length_bitsOf]
      omega

/-- **Groups of octets are groups of eight times as many bits.** -/
theorem groupsOf_bitsOf (hn : 0 < n) (b : Bytes) :
    groupsOf (8 * n) (bitsOf b) = (groupsOf n b).map bitsOf := by
  induction b using groups_induction hn with
  | last g hlength =>
    by_cases hg : g = []
    · subst hg
      simp [bitsOf]
    · have hsome : bitsOf g ≠ [] := by
        rw [← List.length_pos_iff, length_bitsOf]
        have hpos := List.length_pos_iff.2 hg
        omega
      rw [groupsOf_of_length_le hg hlength, List.map_singleton, groupsOf_of_length_le hsome]
      rw [length_bitsOf]
      omega
  | full g rest hg hrest ih =>
    have hsome : g ≠ [] := List.ne_nil_of_length_pos (by omega)
    have hlength : (bitsOf g).length = 8 * n := by rw [length_bitsOf, hg]
    have hbits : bitsOf g ≠ [] := List.ne_nil_of_length_pos (by omega)
    rw [bitsOf_append, ← hlength, groupsOf_append hbits, hlength, ih, ← hg, groupsOf_append hsome,
      List.map_cons]

/-! ## Words -/

/-- A word that moves up makes room for an octet. -/
theorem shiftLeft_or (w : UInt32) (x : UInt8) :
    (w <<< 8) ||| x.toUInt32 = w * 256 + x.toUInt32 := by
  have hx : x.toNat < 2 ^ 8 := x.toNat_lt
  have hhigh : w.toNat * 2 ^ 8 % 2 ^ 32 = 2 ^ 8 * (w.toNat % 2 ^ 24) := by omega
  have hor := Nat.two_pow_add_eq_or_of_lt hx (w.toNat % 2 ^ 24)
  have hleft : (w <<< 8).toNat = w.toNat * 2 ^ 8 % 2 ^ 32 := by
    rw [UInt32.toNat_shiftLeft, Nat.shiftLeft_eq]
    rfl
  have hfactor : UInt32.toNat 256 = 256 := rfl
  apply UInt32.toNat_inj.1
  rw [UInt32.toNat_or, hleft, hhigh, UInt8.toNat_toUInt32, ← hor, UInt32.toNat_add,
    UInt32.toNat_mul, UInt8.toNat_toUInt32, hfactor]
  omega

theorem wordOf_eq (g : Bytes) :
    wordOf g =
      UInt32.ofNat ((g.map UInt8.toNat).foldr (fun octet word => octet + 256 * word) 0) := by
  induction g with
  | nil => rfl
  | cons x g ih =>
    have hword : wordOf (x :: g) = (wordOf g <<< 8) ||| x.toUInt32 := rfl
    rw [hword, shiftLeft_or, ih, List.map_cons, List.foldr_cons, UInt32.ofNat_add,
      UInt32.ofNat_mul, UInt32.add_comm, UInt32.mul_comm, UInt32.ofNat_uInt8ToNat]
    rfl

theorem map_numberOf_bitsOf (g : Bytes) :
    (groupsOf 8 (bitsOf g)).map numberOf = g.map UInt8.toNat := by
  induction g with
  | nil => simp [bitsOf]
  | cons x g ih =>
    have hfirst := groupsOf_bits (by decide : 0 < 8) x.toNat (bitsOf g)
    rw [bitsOf, List.flatMap_cons, ← bitsOf, hfirst, List.map_cons, ih, numberOf_bits,
      Nat.mod_eq_of_lt x.toNat_lt, List.map_cons]

/-- **The words of a block of bits** are those of its octets. -/
theorem map_wordOfBits (block : Bytes) :
    (groupsOf 32 (bitsOf block)).map wordOfBits = (groupsOf 4 block).map wordOf := by
  have hgroups : groupsOf 32 (bitsOf block) = (groupsOf 4 block).map bitsOf :=
    groupsOf_bitsOf (by decide : 0 < 4) block
  rw [hgroups, List.map_map]
  refine List.map_congr_left fun g _ => ?_
  rw [wordOf_eq, Function.comp_apply, wordOfBits, map_numberOf_bitsOf]

/-- Two shifts rotate a word. -/
theorem rotateLeft_eq {n : Nat} (x : UInt32) (hpos : 0 < n) (hn : n < 32) :
    rotateLeft x n = rotate x (UInt32.ofNat n) := by
  have hsize : (UInt32.ofNat n).toNat = n := UInt32.toNat_ofNat_of_lt (hn.trans (by decide))
  have hle : UInt32.ofNat n ≤ 32 := UInt32.le_iff_toNat_le.2 (hsize.trans_le hn.le)
  have hleft : ((UInt32.ofNat n).toBitVec % 32).toNat = n := by
    rw [BitVec.toNat_umod, UInt32.toNat_toBitVec, hsize]
    exact Nat.mod_eq_of_lt hn
  have hright : ((32 - UInt32.ofNat n).toBitVec % 32).toNat = 32 - n := by
    rw [BitVec.toNat_umod, UInt32.toNat_toBitVec, UInt32.toNat_sub_of_le _ _ hle, hsize]
    exact Nat.mod_eq_of_lt (Nat.sub_lt (by decide) hpos)
  apply UInt32.toBitVec_inj.1
  rw [rotateLeft, rotate, BitVec.rotateLeft_def, UInt32.toBitVec_or, UInt32.toBitVec_shiftLeft,
    UInt32.toBitVec_shiftRight, BitVec.shiftLeft_eq', BitVec.ushiftRight_eq', hleft, hright,
    Nat.mod_eq_of_lt hn]

/-! ## The rounds -/

/-- **An operation is the one of its round**: it mixes the same way, and reads the
word and rotates by the distance that stand at its place. -/
theorem operation_eq {i : Nat} (hi : i < 64) :
    ∃ round distance, rounds[i / 16]? = some round ∧ (0 < distance ∧ distance < 32) ∧
      round.distances.getD (i % 4) 0 = distance ∧
        ∀ constant, operation constant i =
          ⟨round.words.getD (i % 16) 0, constant, UInt32.ofNat distance, round.mix⟩ := by
  -- The second round has its two halves the other way round.
  have hmix : (fun b c d : UInt32 => (d &&& b) ||| (~~~d &&& c)) =
      fun x y z => (x &&& z) ||| (y &&& ~~~z) := by
    funext b c d
    rw [UInt32.and_comm d, UInt32.and_comm (~~~d)]
  simp only [operation, hmix]
  interval_cases i <;> exact ⟨_, _, rfl, by decide, rfl, fun _ => rfl⟩

/-- **Four words are the registers**, the one whose turn it is first and those
behind it after it. -/
def Agrees (i : Nat) (r : Registers) (w : Words) : Prop :=
  w = ⟨r (turn i), r (turn i + 1), r (turn i + 2), r (turn i + 3)⟩

theorem turn_succ (i : Nat) : turn (i + 1) = turn i + 3 := by
  have hsucc : Fin.ofNat 4 (i + 1) = Fin.ofNat 4 i + 1 := by
    apply Fin.ext
    simp [Fin.val_add]
  rw [turn, turn, hsucc]
  generalize Fin.ofNat 4 i = j
  revert j
  decide

/-- An operation keeps it so, and the next register takes its turn. -/
theorem Agrees.step {i : Nat} {r : Registers} {w : Words} (h : Agrees i r w) (hi : i < 64)
    (words : List UInt32) :
    Agrees (i + 1) (standardStep words r i)
      (Operation.apply words.toArray w (operation (sineConstant (i + 1)) i)) := by
  obtain ⟨round, distance, hround, ⟨hpos, hlt⟩, hdistance, hoperation⟩ := operation_eq hi
  have hword : words.toArray.getD (round.words.getD (i % 16) 0) 0 =
      words.getD (round.words.getD (i % 16) 0) 0 := by
    simp
  have hsum (a b c d : UInt32) : a + b + c + d = a + b + d + c := by
    rw [UInt32.add_assoc, UInt32.add_comm c, ← UInt32.add_assoc]
  have hbehind : ∀ a : Fin 4, a + 3 + 1 = a ∧ a + 3 + 2 = a + 1 ∧ a + 3 + 3 = a + 2 ∧
      a + 3 ≠ a ∧ a + 2 ≠ a ∧ a + 1 ≠ a := by
    decide
  obtain ⟨h1, h2, h3, hd, hc, hb⟩ := hbehind (turn i)
  rw [Agrees, turn_succ, hoperation, h]
  simp only [standardStep, hround, hdistance, Operation.apply, h1, h2, h3, Function.update_self,
    Function.update_of_ne hd, Function.update_of_ne hc, Function.update_of_ne hb,
    rotateLeft_eq _ hpos hlt, hword]
  rw [hsum]

/-- The operations in order. -/
theorem operations_take_succ {k : Nat} (hk : k < 64) :
    operations.take (k + 1) = operations.take k ++ [operation (sineConstant (k + 1)) k] := by
  have hoperation : operations[k]? = some (operation (sineConstant (k + 1)) k) := by
    rw [operations, List.getElem?_map, List.getElem?_zipIdx, getElem?_sines hk]
    simp
  rw [List.take_add_one, hoperation, Option.toList_some]

/-- All of them keep it so. -/
theorem Agrees.run {r : Registers} {w : Words} (h : Agrees 0 r w) (words : List UInt32)
    {k : Nat} (hk : k ≤ 64) :
    Agrees k ((List.range k).foldl (standardStep words) r)
      ((operations.take k).foldl (Operation.apply words.toArray) w) := by
  induction k with
  | zero => exact h
  | succ k ih =>
    rw [List.range_succ, operations_take_succ hk, List.foldl_append, List.foldl_append]
    exact (ih (by omega)).step hk words

/-- **A block** keeps it so. -/
theorem Agrees.compress {r : Registers} {w : Words} (h : Agrees 0 r w) (block : Bytes) :
    Agrees 0 (standardCompress r (bitsOf block)) (compress w block) := by
  have hrun := h.run ((groupsOf 4 block).map wordOf) le_rfl
  have hall : operations.take 64 = operations := List.take_of_length_le (by decide)
  rw [hall] at hrun
  rw [Agrees, Md5.compress, hrun, h, standardCompress, map_wordOfBits]
  rfl

/-- The octets are those of the registers. -/
theorem Agrees.octets_eq {r : Registers} {w : Words} (h : Agrees 0 r w) :
    w.octets = octetsOf r := by
  have hall : List.finRange 4 = [0, 1, 2, 3] := by decide
  have hturns : turn 0 = 0 ∧ turn 0 + 1 = 1 ∧ turn 0 + 2 = 2 ∧ turn 0 + 3 = 3 := by decide
  obtain ⟨h0, h1, h2, h3⟩ := hturns
  rw [h, octetsOf, hall, Words.octets, h1, h2, h3, h0]
  simp only [List.flatMap_cons, List.flatMap_nil, littleEndian_eq]

/-- Blocks one after the other keep it so. -/
theorem Agrees.blocks {r : Registers} {w : Words} (h : Agrees 0 r w) (blocks : List Bytes) :
    Agrees 0 ((blocks.map bitsOf).foldl standardCompress r) (blocks.foldl Md5.compress w) := by
  induction blocks generalizing r w with
  | nil => exact h
  | cons block blocks ih => exact ih (h.compress block)

/-- **The digest of a message is the standard one**, and nothing else is. -/
theorem isStandardDigest_iff {carried : Bytes} :
    IsStandardDigest message carried ↔ carried = digest message := by
  have hgroups : groupsOf 512 (bitsOf (message ++ padding message.length)) =
      (groupsOf 64 (message ++ padding message.length)).map bitsOf :=
    groupsOf_bitsOf (by decide : 0 < 64) _
  have hinitial : Agrees 0 initialRegisters Words.initial := rfl
  have hdigest := (hinitial.blocks (groupsOf 64 (message ++ padding message.length))).octets_eq
  rw [digest, hdigest, ← hgroups]
  constructor
  · rintro ⟨filled, hfills, rfl⟩
    rw [fills_iff.1 hfills]
  · rintro rfl
    exact ⟨_, fills_iff.2 rfl, rfl⟩

/-- **The digest of chunks is the standard one of all their octets**, after any
number of the chunks. It may be asked for at any point, and what is asked for and
taken in later does not depend on it. A carried digest passes exactly if it is
this one. -/
theorem incremental_digest_eq_standard :
    (∀ (chunks : List Bytes) (k : Nat),
      ((chunks.take k).foldl State.append .empty).digest =
        DigestAlgorithm.md5.digest (chunks.take k).flatten) ∧
    (∀ calls : List Call,
      State.empty.run calls = (State.empty.append (Call.taken calls), Call.digests [] calls)) ∧
    (∀ message carried : Bytes,
      IsStandardDigest message carried ↔ carried = DigestAlgorithm.md5.digest message) ∧
    (∀ message : Bytes, (DigestAlgorithm.md5.digest message).length = 16) ∧
    ∀ data carried : Bytes,
      (DigestAlgorithm.md5.verify data carried = .ok () ↔
        carried = DigestAlgorithm.md5.digest data) ∧
      (carried ≠ DigestAlgorithm.md5.digest data →
        DigestAlgorithm.md5.verify data carried =
          .error ⟨DigestAlgorithm.md5.digest data, carried⟩) := by
  refine ⟨fun chunks k => ?_, fun calls => ?_, fun message carried => ?_, fun message => ?_,
    fun data carried => ⟨?_, fun hne => ?_⟩⟩
  · exact (holds_foldl_append (chunks.take k)).digest_eq
  · exact State.run_eq holds_empty calls
  · exact isStandardDigest_iff
  · exact length_digest message
  · rw [DigestAlgorithm.verify_eq_ok_iff, eq_comm]
  · exact if_neg (Ne.symm hne)

end Md5

end AggregatedRecords
