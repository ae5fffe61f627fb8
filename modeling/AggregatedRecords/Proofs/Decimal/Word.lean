import AggregatedRecords.Decimal.Word
/-!
# Decimal — numbers of 64 bits are read back

The digits of a number are read back as that number (`word?_toDigits`).
-/

namespace AggregatedRecords

namespace Decimal

/-- A digit is no more than itself behind a number. -/
theorem addDigit?_digitChar {n digit : Nat} (hdigit : digit < 10)
    (h : n * 10 + digit < UInt64.size) :
    addDigit? n (Nat.digitChar digit) = some (n * 10 + digit) := by
  rw [addDigit?, Nat.toNat_digitChar_sub_48_of_lt_ten hdigit, Nat.isDigit_digitChar,
    decide_eq_true hdigit, Bool.true_and, if_pos (decide_eq_true h)]

/-- The digits of a number lead to it one after the other. -/
theorem foldlM_toDigits (n : Nat) (h : n < UInt64.size) :
    (Nat.toDigits 10 n).foldlM addDigit? 0 = some n := by
  by_cases hsmall : n < 10
  · rw [Nat.toDigits_of_lt_base hsmall]
    have := addDigit?_digitChar (n := 0) hsmall (by omega)
    simpa using this
  · -- the last digit comes behind the digits of a tenth of the number
    have hsum : n / 10 * 10 + n % 10 = n := by omega
    have ih := foldlM_toDigits (n / 10) (by omega)
    have hlast := addDigit?_digitChar (n := n / 10) (Nat.mod_lt n (by decide)) (by omega)
    rw [Nat.toDigits_of_base_le (by decide) (by omega), List.foldlM_append, ih]
    simpa [hsum] using hlast

/-- **A number of 64 bits is read back from its digits.** -/
theorem word?_toDigits (n : UInt64) : word? (Nat.toDigits 10 n.toNat) = some n := by
  have hfold := foldlM_toDigits n.toNat n.toNat_lt
  have hne : Nat.toDigits 10 n.toNat ≠ [] := Nat.toDigits_ne_nil
  -- no digit is a sign, so the digits are the whole text
  have hsign : ∀ rest, Nat.toDigits 10 n.toNat ≠ '+' :: rest := by
    intro rest hcons
    have hmem : '+' ∈ Nat.toDigits 10 n.toNat := hcons ▸ List.mem_cons_self
    have hdigit := Nat.isDigit_of_mem_toDigits (by decide) (by decide) hmem
    exact absurd hdigit (by decide)
  rw [word?.eq_def]
  split
  · exact absurd ‹_› (hsign _)
  · simp [hne, hfold]

end Decimal

end AggregatedRecords
