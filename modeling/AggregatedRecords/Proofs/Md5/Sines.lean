import AggregatedRecords.Md5
import Mathlib.Analysis.Complex.Basic
import Mathlib.Analysis.Complex.Trigonometric
/-!
# MD5 — the constants are sines

The constant of the operation `i` is the integer part of `2 ^ 32 * |sin i|`, with
`i` from 1 on and the sine of a real number. Twenty terms of the exponential
series give `cos 1 + i * sin 1` as a fraction of integers, near enough that its
powers stay near those of the number itself (`Md5.norm_exp_sub_near_le`), and in
integers it is decided that no constant is near enough to a whole number for the
difference to matter (`Md5.isCertain_sines`). So all of them are what they are
said to be (`Md5.getElem?_sines`).
-/

namespace AggregatedRecords

namespace Md5

open Complex

/-- The constant that the sine of a number gives. -/
noncomputable def sineConstant (i : Nat) : UInt32 := UInt32.ofNat ⌊2 ^ 32 * |Real.sin i|⌋₊

/-! ## A fraction near the exponential -/

/-- The numerators of the fraction near `cos 1 + i * sin 1`. -/
def numerators : Int × Int := (65725128248453315, 102360822438075317)

/-- Its denominator, the factorial of nineteen. -/
def denominator : Nat := 121645100408832000

/-- The fraction, as a complex number. -/
noncomputable def near : ℂ :=
  ⟨(numerators.1 : ℝ) / (denominator : ℝ), (numerators.2 : ℝ) / (denominator : ℝ)⟩

/-- The fraction is the first terms of the series. -/
theorem sum_range_eq_near : ∑ m ∈ Finset.range 20, I ^ m / (m.factorial : ℂ) = near := by
  apply Complex.ext
  · simp [Finset.sum_range_succ, Nat.factorial, pow_succ, near, numerators, denominator]
    norm_num
  · simp [Finset.sum_range_succ, Nat.factorial, pow_succ, near, numerators, denominator]
    norm_num

theorem norm_exp_sub_near_le_one : ‖exp I - near‖ ≤ 1 / 2 ^ 60 := by
  have hbound := Complex.exp_bound (x := I) (by rw [norm_I]) (n := 20) (by decide)
  rw [sum_range_eq_near, norm_I] at hbound
  refine hbound.trans ?_
  norm_num [Nat.factorial]

theorem norm_near_le : ‖near‖ ≤ 1 := by
  rw [← sq_le_one_iff₀ (norm_nonneg _), ← Complex.normSq_eq_norm_sq, Complex.normSq_apply]
  norm_num [near, numerators, denominator]

/-- **Powers stay near**: every factor adds no more than its own difference. -/
theorem norm_exp_sub_near_le (n : Nat) : ‖exp I ^ n - near ^ n‖ ≤ n * (1 / 2 ^ 60) := by
  have hexp : ‖exp I‖ = 1 := by simpa using norm_exp_ofReal_mul_I 1
  induction n with
  | zero => simp
  | succ n ih =>
    have hsplit : exp I ^ (n + 1) - near ^ (n + 1) =
        exp I ^ n * (exp I - near) + (exp I ^ n - near ^ n) * near := by
      ring
    have hlast : ‖exp I ^ n * (exp I - near)‖ ≤ 1 / 2 ^ 60 := by
      rw [norm_mul, norm_pow, hexp, one_pow, one_mul]
      exact norm_exp_sub_near_le_one
    have hbefore : ‖(exp I ^ n - near ^ n) * near‖ ≤ n * (1 / 2 ^ 60) := by
      rw [norm_mul]
      exact (mul_le_of_le_one_right (norm_nonneg _) norm_near_le).trans ih
    rw [hsplit, Nat.cast_succ, add_mul, one_mul, add_comm _ (1 / 2 ^ 60 : ℝ)]
    exact (norm_add_le _ _).trans (add_le_add hlast hbefore)

/-! ## In integers -/

/-- The numerators of the powers of the fraction. -/
def powers : Nat → Int × Int
  | 0 => (1, 0)
  | n + 1 =>
    ((powers n).1 * numerators.1 - (powers n).2 * numerators.2,
      (powers n).1 * numerators.2 + (powers n).2 * numerators.1)

theorem near_pow (n : Nat) : near ^ n =
    ⟨((powers n).1 : ℝ) / (denominator : ℝ) ^ n, ((powers n).2 : ℝ) / (denominator : ℝ) ^ n⟩ := by
  have hdenominator : (denominator : ℝ) ≠ 0 := by norm_num [denominator]
  induction n with
  | zero => apply Complex.ext <;> simp [powers]
  | succ n ih =>
    rw [pow_succ, ih, near]
    apply Complex.ext
    · simp only [powers, Complex.mul_re, Int.cast_sub, Int.cast_mul, pow_succ]
      field_simp
    · simp only [powers, Complex.mul_im, Int.cast_add, Int.cast_mul, pow_succ]
      field_simp

/-- A constant is certain if a difference of `2 ^ -10` does not make it another. -/
def isCertain (n constant : Nat) : Bool :=
  let sine := 2 ^ 42 * (powers n).2.natAbs
  let unit := denominator ^ n
  constant * 2 ^ 10 * unit + unit ≤ sine && sine + unit ≤ (constant + 1) * 2 ^ 10 * unit

/-- **All constants are certain.** -/
theorem isCertain_sines : ∀ i < 64, isCertain (i + 1) (sines.getD i 0).toNat = true := by
  decide +kernel

/-! ## The constants -/

/-- A sine is near what the integers say. -/
theorem abs_sin_sub_le (n : Nat) :
    |Real.sin n - (powers n).2 / (denominator : ℝ) ^ n| ≤ n * (1 / 2 ^ 60) := by
  have hpower : exp I ^ n = exp ((n : ℝ) * I) := by
    rw [← Complex.exp_nat_mul]
    simp
  have him : (exp I ^ n - near ^ n).im = Real.sin n - (powers n).2 / (denominator : ℝ) ^ n := by
    rw [Complex.sub_im, hpower, Complex.exp_ofReal_mul_I_im, near_pow]
  rw [← him]
  exact (Complex.abs_im_le_norm _).trans (norm_exp_sub_near_le n)

/-- **What is certain is the integer part.** -/
theorem floor_eq_of_isCertain {n constant : Nat} (hn : n ≤ 64) (h : isCertain n constant = true) :
    ⌊2 ^ 32 * |Real.sin n|⌋₊ = constant := by
  simp only [isCertain, Bool.and_eq_true, decide_eq_true_eq] at h
  obtain ⟨hlow, hhigh⟩ := h
  have hunit : (0 : ℝ) < (denominator : ℝ) ^ n := by
    have hpos : (0 : ℝ) < denominator := by norm_num [denominator]
    positivity
  -- the fraction, with its sign left out
  obtain ⟨q, hq⟩ : ∃ q : ℝ, q = |((powers n).2 : ℝ) / (denominator : ℝ) ^ n| := ⟨_, rfl⟩
  have hmul : ((powers n).2.natAbs : ℝ) = q * (denominator : ℝ) ^ n := by
    rw [hq, abs_div, abs_of_pos hunit, div_mul_cancel₀ _ hunit.ne', Nat.cast_natAbs, Int.cast_abs]
  have hbelow : (constant : ℝ) + 1 / 2 ^ 10 ≤ 2 ^ 32 * q := by
    have hcast : ((constant * 2 ^ 10 * denominator ^ n + denominator ^ n : Nat) : ℝ) ≤
        ((2 ^ 42 * (powers n).2.natAbs : Nat) : ℝ) := Nat.cast_le.2 hlow
    push_cast [hmul] at hcast
    refine le_of_mul_le_mul_right ?_ hunit
    linarith
  have habove : 2 ^ 32 * q + 1 / 2 ^ 10 ≤ (constant : ℝ) + 1 := by
    have hcast : ((2 ^ 42 * (powers n).2.natAbs + denominator ^ n : Nat) : ℝ) ≤
        (((constant + 1) * 2 ^ 10 * denominator ^ n : Nat) : ℝ) := Nat.cast_le.2 hhigh
    push_cast [hmul] at hcast
    refine le_of_mul_le_mul_right ?_ hunit
    linarith
  have hnear : |(|Real.sin n| - q)| ≤ 64 * (1 / 2 ^ 60) := by
    have hn' : (n : ℝ) ≤ 64 := by exact_mod_cast hn
    have hdifference := (abs_abs_sub_abs_le _ _).trans (abs_sin_sub_le n)
    rw [← hq] at hdifference
    exact hdifference.trans (mul_le_mul_of_nonneg_right hn' (by positivity))
  rw [abs_le] at hnear
  rw [Nat.floor_eq_iff (by positivity)]
  constructor <;> linarith

/-- **The constants are sines.** -/
theorem getElem?_sines {i : Nat} (h : i < 64) : sines[i]? = some (sineConstant (i + 1)) := by
  have hlength : i < sines.length := h
  have hfloor := floor_eq_of_isCertain (show i + 1 ≤ 64 by omega) (isCertain_sines i h)
  have hget : sines.getD i 0 = sines[i] := List.getElem_eq_getD .. |>.symm
  rw [List.getElem?_eq_getElem hlength, sineConstant, hfloor, UInt32.ofNat_toNat, hget]

end Md5

end AggregatedRecords
