import AggregatedRecords.Statistics.Counts
import Mathlib
/-!
# Statistics — counts add up

Under merging, counts are a commutative monoid with the counts of no input as
its zero, so that workers may be merged in any order and grouping, and a single
count is additive (`Counts.map_sum`). What an input adds to the counts does not
depend on what was counted before (`Counts.addOk_eq`, `Counts.addFailure_eq`).

A failure is counted under the kind of its error, where the kind has a count of
its own, and otherwise with all the rest (`Counts.failed_addFailure`).
-/

namespace AggregatedRecords

/-! ## Counting as adding up -/

section Sum

variable {α β : Type*}

theorem sum_map_ite_eq_countP (p : α → Bool) (all : List α) :
    (all.map fun a => if p a then 1 else 0).sum = all.countP p := by
  induction all with
  | nil => rfl
  | cons a all ih => rw [List.map_cons, List.sum_cons, ih, List.countP_cons, Nat.add_comm]

theorem sum_map_elim_eq_sum_filterMap (f : α → Option β) (g : β → Nat) (all : List α) :
    (all.map fun a => (f a).elim 0 g).sum = ((all.filterMap f).map g).sum := by
  induction all with
  | nil => rfl
  | cons a all ih =>
    rw [List.map_cons, List.sum_cons, ih, List.filterMap_cons]
    cases f a with
    | none => exact Nat.zero_add _
    | some b => rw [List.map_cons, List.sum_cons, Option.elim_some]

end Sum

/-! ## Counts as a monoid -/

namespace Counts

instance : Zero Counts := ⟨.zero⟩

theorem merge_eq_add (x y : Counts) : x.merge y = x + y := rfl

theorem merge_assoc (x y z : Counts) : (x.merge y).merge z = x.merge (y.merge z) := by
  simp only [merge, Nat.add_assoc]

theorem merge_comm (x y : Counts) : x.merge y = y.merge x := by
  simp only [merge, Nat.add_comm]

theorem zero_merge (x : Counts) : Counts.zero.merge x = x := by
  simp only [merge, zero, Nat.zero_add]

instance : AddCommMonoid Counts where
  add_assoc := merge_assoc
  zero_add := zero_merge
  add_zero x := (merge_comm x .zero).trans (zero_merge x)
  add_comm := merge_comm
  nsmul := nsmulRec

/-- **A count is additive**, and so it is the sum of what is counted one by
one. -/
theorem map_sum {count : Counts → Nat} (hzero : count 0 = 0)
    (hadd : ∀ x y, count (x + y) = count x + count y) (all : List Counts) :
    count all.sum = (all.map count).sum :=
  map_list_sum (AddMonoidHom.mk ⟨count, hzero⟩ hadd) all

/-! ## What an input adds -/

/-- A frame that validates adds what it adds to no counts. -/
theorem addOk_eq (counts : Counts) (payload overhead records : Nat) :
    counts.addOk payload overhead records =
      counts + Counts.zero.addOk payload overhead records := by
  change _ = counts.merge _
  simp only [addOk, merge, zero, Nat.add_zero, Nat.zero_add]

/-- And so does a failure. -/
theorem addFailure_eq (counts : Counts) (e : ValidationError) :
    counts.addFailure e = counts + Counts.zero.addFailure e := by
  cases e with
  | frame cause => cases cause <;> rfl
  | _ => rfl

end Counts

/-! ## Failures by kind -/

/-- The kinds of failures that have a count each. -/
inductive FailureKind where
  | malformed
  | badMagic
  | checksumMismatch
  | invalidEncoding
  | tooLarge
  | undecodable
  | invalidRecord
  /-- All kinds of errors without a count of their own. -/
  | other
deriving Repr, DecidableEq

/-- The kind that a failure is counted under, by the name of its error's
kind. -/
def FailureKind.ofName : String → FailureKind
  | "malformed_frame" => malformed
  | "bad_magic" => badMagic
  | "checksum_mismatch" => checksumMismatch
  | "invalid_encoding" => invalidEncoding
  | "too_large" => tooLarge
  | "deserialization_error" => undecodable
  | "invalid_record" => invalidRecord
  | _ => other

namespace Counts

/-- The count of failures of a kind. -/
def failed (counts : Counts) : FailureKind → Nat
  | .malformed => counts.framesMalformed
  | .badMagic => counts.framesBadMagic
  | .checksumMismatch => counts.framesChecksumMismatch
  | .invalidEncoding => counts.inputsInvalidEncoding
  | .tooLarge => counts.inputsTooLarge
  | .undecodable => counts.payloadsUndecodable
  | .invalidRecord => counts.recordsInvalid
  | .other => counts.otherFailures

theorem failed_zero (kind : FailureKind) : Counts.zero.failed kind = 0 := by
  cases kind <;> rfl

theorem failed_add (x y : Counts) (kind : FailureKind) :
    (x + y).failed kind = x.failed kind + y.failed kind := by
  cases kind <;> rfl

theorem failed_addOk (counts : Counts) (payload overhead records : Nat) (kind : FailureKind) :
    (counts.addOk payload overhead records).failed kind = counts.failed kind := by
  cases kind <;> rfl

/-- **A failure is counted once**, under the kind of its error. -/
theorem failed_addFailure (counts : Counts) (e : ValidationError) (kind : FailureKind) :
    (counts.addFailure e).failed kind =
      counts.failed kind + if .ofName e.kind = kind then 1 else 0 := by
  cases e with
  | frame cause => cases cause <;> cases kind <;> rfl
  | _ => cases kind <;> rfl

/-- A failure leaves alone what is counted of frames that validate. -/
theorem totals_addFailure (counts : Counts) (e : ValidationError) :
    (counts.addFailure e).framesOk = counts.framesOk ∧
      (counts.addFailure e).bytesPayload = counts.bytesPayload ∧
      (counts.addFailure e).bytesOverhead = counts.bytesOverhead ∧
      (counts.addFailure e).userRecords = counts.userRecords := by
  cases e with
  | frame cause => cases cause <;> exact ⟨rfl, rfl, rfl, rfl⟩
  | _ => exact ⟨rfl, rfl, rfl, rfl⟩

/-- Every failure is one input. -/
theorem total_addFailure (e : ValidationError) : (Counts.zero.addFailure e).total = 1 := by
  cases e with
  | frame cause => cases cause <;> rfl
  | _ => rfl

theorem failures_add (x y : Counts) : (x + y).failures = x.failures + y.failures := by
  change (x.merge y).failures = _
  simp only [failures, merge]
  omega

theorem total_add (x y : Counts) : (x + y).total = x.total + y.total := by
  change (x.merge y).total = _
  simp only [total, failures, merge]
  omega

end Counts

end AggregatedRecords
