import AggregatedRecords.Statistics.Duration
import Mathlib.Algebra.BigOperators.Group.List.Basic
import Mathlib.Algebra.Ring.Nat
/-!
# Statistics — durations add up exactly

A duration is a number of nanoseconds below a limit (`Duration.inNanos`), and
its seconds and nanoseconds are the quotient and the remainder of that number.
Sums of durations are sums of these numbers, as long as they are below the
limit: a result `Sums` to a number if it is that number exactly, or if there is
none because the number is beyond what results can hold. Adding two durations
with a carry and summing many with one carry at the end both do so
(`Duration.sums_add?`, `Duration.sums_sum?`), and hence they agree.
-/

namespace AggregatedRecords

/-! ## Sums that may not fit -/

section Sums

variable {α β α' β' : Type*} {exact : α → β} {beyond : β → Prop} {exact' : α' → β'}
  {beyond' : β' → Prop} {result result' : Option α} {sum : β} {sum' : β'}

/-- **A result is exact**: it is the sum, or there is none as the sum is beyond
all results. -/
def Sums (exact : α → β) (beyond : β → Prop) : Option α → β → Prop
  | some a, sum => exact a = sum
  | none, sum => beyond sum

/-- A result that goes into another sum is exact in it, if what is beyond all
results stays beyond them. -/
theorem Sums.bind {f : α → Option α'} (h : Sums exact beyond result sum)
    (hbeyond : beyond sum → beyond' sum') (hf : ∀ a, exact a = sum → Sums exact' beyond' (f a) sum') :
    Sums exact' beyond' (result.bind f) sum' := by
  cases result with
  | none => exact hbeyond h
  | some a => exact hf a h

/-- There is no result exactly if the sum is beyond all of them. -/
theorem Sums.eq_none_iff (h : Sums exact beyond result sum) (hin : ∀ a, ¬ beyond (exact a)) :
    result = none ↔ beyond sum := by
  cases result with
  | none => exact ⟨fun _ => h, fun _ => rfl⟩
  | some a =>
    have hsum : exact a = sum := h
    subst hsum
    exact ⟨fun hnone => absurd hnone (Option.some_ne_none a), fun hbeyond => absurd hbeyond (hin a)⟩

/-- **Exact results of one sum are the same.** -/
theorem Sums.unique (h : Sums exact beyond result sum) (h' : Sums exact beyond result' sum)
    (hin : ∀ a, ¬ beyond (exact a)) (hinjective : Function.Injective exact) : result = result' := by
  cases result with
  | none => exact ((h'.eq_none_iff hin).2 h).symm
  | some a =>
    cases result' with
    | none => exact (h.eq_none_iff hin).2 h'
    | some a' => exact congrArg some (hinjective (Eq.trans h (Eq.symm h')))

end Sums

/-! ## Durations -/

namespace Duration

/-- The nanoseconds of a duration, those of its seconds included. -/
def inNanos (x : Duration) : Nat := x.seconds * nanosPerSecond + x.nanos

theorem inNanos_zero : zero.inNanos = 0 := by
  simp [inNanos, zero]

/-- The nanoseconds of the seconds that do not fit. -/
def limit : Nat := UInt64.size * nanosPerSecond

theorem seconds_eq (x : Duration) : x.seconds = x.inNanos / nanosPerSecond := by
  have hnanos := x.nanos_lt
  simp only [inNanos, nanosPerSecond] at hnanos ⊢
  omega

theorem nanos_eq (x : Duration) : x.nanos = x.inNanos % nanosPerSecond := by
  have hnanos := x.nanos_lt
  simp only [inNanos, nanosPerSecond] at hnanos ⊢
  omega

theorem inNanos_lt (x : Duration) : x.inNanos < limit := by
  have hseconds := x.seconds_lt
  have hnanos := x.nanos_lt
  simp only [inNanos, limit, nanosPerSecond] at hnanos ⊢
  omega

theorem not_limit_le (x : Duration) : ¬ limit ≤ x.inNanos := Nat.not_le.2 x.inNanos_lt

/-- Durations are told apart by their nanoseconds. -/
theorem inNanos_injective : Function.Injective inNanos := by
  intro x y h
  have hseconds : x.seconds = y.seconds := by rw [seconds_eq, seconds_eq, h]
  have hnanos : x.nanos = y.nanos := by rw [nanos_eq, nanos_eq, h]
  cases x
  cases y
  simp_all

/-- **Parts make the duration of their sum**, if they fit. -/
theorem sums_ofParts? {seconds nanos : Nat} (h : nanos < nanosPerSecond) :
    Sums inNanos (limit ≤ ·) (ofParts? seconds nanos) (seconds * nanosPerSecond + nanos) := by
  rw [ofParts?]
  split
  · rfl
  · next hnot =>
    have hseconds : UInt64.size ≤ seconds := by
      simpa [h] using hnot
    exact Nat.le_add_right_of_le (Nat.mul_le_mul_right _ hseconds)

/-- **Two durations add up exactly**, with a second carried over or not. -/
theorem sums_add? (x y : Duration) :
    Sums inNanos (limit ≤ ·) (x.add? y) (x.inNanos + y.inNanos) := by
  have hx := x.nanos_lt
  have hy := y.nanos_lt
  rw [add?]
  split
  · next hcarry =>
    have hsum : x.inNanos + y.inNanos =
        (x.seconds + y.seconds) * nanosPerSecond + (x.nanos + y.nanos) := by
      simp only [inNanos, Nat.add_mul]
      omega
    rw [hsum]
    exact sums_ofParts? hcarry
  · next hcarry =>
    have hsum : x.inNanos + y.inNanos = (x.seconds + y.seconds + 1) * nanosPerSecond +
        (x.nanos + y.nanos - nanosPerSecond) := by
      simp only [inNanos, Nat.add_mul, Nat.one_mul]
      omega
    rw [hsum]
    exact sums_ofParts? (by omega)

/-- The sums of seconds and of nanoseconds so far are taken on by those of the
durations, if the seconds fit. -/
theorem foldlM_accumulate? (durations : List Duration) {seconds : Nat}
    (h : seconds < UInt64.size) (nanos : Nat) :
    durations.foldlM accumulate? (seconds, nanos) =
      if seconds + (durations.map Duration.seconds).sum < UInt64.size then
        some (seconds + (durations.map Duration.seconds).sum,
          nanos + (durations.map Duration.nanos).sum)
      else none := by
  induction durations generalizing seconds nanos with
  | nil => simp [h]
  | cons x durations ih =>
    rw [List.foldlM_cons, accumulate?, List.map_cons, List.sum_cons, List.map_cons, List.sum_cons,
      ← Nat.add_assoc, ← Nat.add_assoc]
    by_cases hfits : seconds + x.seconds < UInt64.size
    · rw [if_pos hfits]
      exact ih hfits _
    · -- what does not fit by now does not fit in the end
      rw [if_neg hfits, if_neg (by omega)]
      rfl

theorem sum_inNanos (durations : List Duration) : (durations.map inNanos).sum =
    (durations.map Duration.seconds).sum * nanosPerSecond + (durations.map Duration.nanos).sum := by
  induction durations with
  | nil => rfl
  | cons x durations ih =>
    simp only [List.map_cons, List.sum_cons, ih, inNanos, Nat.add_mul]
    omega

/-- **Many durations add up exactly**, with the carry at the end. -/
theorem sums_sum? (durations : List Duration) :
    Sums inNanos (limit ≤ ·) (sum? durations) (durations.map inNanos).sum := by
  have hfold := foldlM_accumulate? durations (show 0 < UInt64.size by decide) 0
  rw [Nat.zero_add, Nat.zero_add] at hfold
  rw [sum?, hfold, sum_inNanos]
  split
  · have hsum (seconds nanos : Nat) : seconds * nanosPerSecond + nanos =
        (seconds + nanos / nanosPerSecond) * nanosPerSecond + nanos % nanosPerSecond := by
      rw [Nat.add_mul, Nat.add_assoc, Nat.div_add_mod']
    rw [hsum]
    exact sums_ofParts? (Nat.mod_lt _ (by decide))
  · next hseconds =>
    exact Nat.le_add_right_of_le (Nat.mul_le_mul_right _ (Nat.not_lt.1 hseconds))

/-- **The order makes no difference** to a sum. -/
theorem sum?_perm {durations order : List Duration} (h : order.Perm durations) :
    sum? order = sum? durations := by
  have hsum := sums_sum? order
  rw [(h.map inNanos).sum_eq] at hsum
  exact hsum.unique (sums_sum? durations) not_limit_le inNanos_injective

end Duration

end AggregatedRecords
