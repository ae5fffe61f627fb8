import AggregatedRecords.Bytes
import Mathlib.Algebra.Ring.Nat
/-!
# Base64 — octets as bits

Octets are a string of bits, the highest bit of each octet first. Bits of two
numbers one after the other are the bits of one (`bits_append`), and bits are
read back as the number that they were taken from (`numberOf_bits`).
-/

namespace AggregatedRecords

namespace Base64

/-- The lowest bits of a number, so many of them, the highest first. -/
def bits : (count n : Nat) → List Nat
  | 0, _ => []
  | count + 1, n => bits count (n / 2) ++ [n % 2]

/-- The bits of octets, one octet after the other. -/
def bitsOf (b : Bytes) : List Nat := b.flatMap fun x => bits 8 x.toNat

/-- The number that bits are, the highest first. -/
def numberOf (group : List Nat) : Nat := group.foldl (fun n bit => 2 * n + bit) 0

variable {j k m n : Nat}

@[simp] theorem length_bits (k n : Nat) : (bits k n).length = k := by
  induction k generalizing n with
  | zero => rfl
  | succ k ih => rw [bits, List.length_append, ih, List.length_singleton]

/-- The high bits of a number come first, and then its low ones. -/
theorem bits_add (j k n : Nat) : bits (j + k) n = bits j (n / 2 ^ k) ++ bits k n := by
  induction k generalizing n with
  | zero => simp [bits]
  | succ k ih =>
    rw [← Nat.add_assoc, bits, bits, ih, Nat.div_div_eq_div_mul, ← Nat.pow_succ',
      List.append_assoc]

/-- Bits above those that are asked for are not seen. -/
theorem bits_add_mul (k m n : Nat) : bits k (n * 2 ^ k + m) = bits k m := by
  induction k generalizing m with
  | zero => rfl
  | succ k ih =>
    have hhalf : (n * 2 ^ k * 2 + m) / 2 = n * 2 ^ k + m / 2 := by omega
    have hlast : (n * 2 ^ k * 2 + m) % 2 = m % 2 := by omega
    rw [bits, bits, Nat.pow_succ, ← Nat.mul_assoc, hhalf, hlast, ih]

/-- **Bits of two numbers are those of one.** -/
theorem bits_append (j n : Nat) (h : m < 2 ^ k) :
    bits j n ++ bits k m = bits (j + k) (n * 2 ^ k + m) := by
  have hhigh : (n * 2 ^ k + m) / 2 ^ k = n := by
    rw [Nat.mul_comm, Nat.mul_add_div (Nat.two_pow_pos k), Nat.div_eq_of_lt h, Nat.add_zero]
  rw [bits_add, hhigh, bits_add_mul]

/-- As many bits as there are in a group are one. -/
theorem groupsOf_bits (hk : 0 < k) (n : Nat) (l : List Nat) :
    groupsOf k (bits k n ++ l) = bits k n :: groupsOf k l := by
  have hsome : bits k n ≠ [] := List.ne_nil_of_length_pos (by rwa [length_bits])
  have hgroups := groupsOf_append hsome l
  rwa [length_bits] at hgroups

/-- Bits are read back as the number that they were taken from. -/
theorem numberOf_bits (k n : Nat) : numberOf (bits k n) = n % 2 ^ k := by
  induction k generalizing n with
  | zero => simp [bits, numberOf, Nat.mod_one]
  | succ k ih =>
    have hnumber : numberOf (bits (k + 1) n) = 2 * numberOf (bits k (n / 2)) + n % 2 := by
      rw [bits, numberOf, List.foldl_append]
      rfl
    rw [hnumber, ih, Nat.pow_succ', Nat.mod_mul, Nat.add_comm]

theorem numberOf_zeros (group : List Nat) (k : Nat) :
    numberOf (group ++ List.replicate k 0) = numberOf group * 2 ^ k := by
  induction k with
  | zero => simp
  | succ k ih =>
    have hnumber : numberOf (group ++ List.replicate (k + 1) 0) =
        2 * numberOf (group ++ List.replicate k 0) := by
      rw [List.replicate_succ', ← List.append_assoc, numberOf, List.foldl_append]
      rfl
    rw [hnumber, ih, Nat.pow_succ']
    exact Nat.mul_left_comm _ _ _

theorem length_bitsOf (b : Bytes) : (bitsOf b).length = 8 * b.length := by
  induction b with
  | nil => rfl
  | cons x b ih =>
    rw [bitsOf, List.flatMap_cons, List.length_append, length_bits, ← bitsOf, ih, List.length_cons]
    omega

end Base64

end AggregatedRecords
