import AggregatedRecords.Proofs.Validation.History
import Mathlib
/-!
# Validation — work split over workers

Calls are shared out among validators of the same settings, each of which makes
its calls in an order of its own. As an outcome depends on the checks alone,
every call has the outcome that it has when one validator makes them all. As
counts are a sum over calls, the counts of the workers come to those of that one
validator, in whatever way they are merged (`Validator.run_shares`).
-/

namespace AggregatedRecords

/-! ## Merging -/

/-- A way of merging the counts of workers: in any order and in groups, from
the counts of no input. -/
inductive Merging (n : Nat) where
  | start
  | worker (w : Fin n)
  | merge (x y : Merging n)
  | add (x y : Merging n)

namespace Merging

variable {n : Nat}

/-- The workers whose counts are merged, from left to right. -/
def workers : Merging n → List (Fin n)
  | start => []
  | worker w => [w]
  | merge x y => x.workers ++ y.workers
  | add x y => x.workers ++ y.workers

/-- The counts that come of it. -/
def merged (counts : Fin n → Counts) : Merging n → Counts
  | start => .zero
  | worker w => counts w
  | merge x y => (x.merged counts).merge (y.merged counts)
  | add x y => x.merged counts + y.merged counts

/-- **Order and grouping do not matter**: what comes of it is the sum of the
counts. -/
theorem merged_eq_sum (counts : Fin n → Counts) (merging : Merging n) :
    merging.merged counts = (merging.workers.map counts).sum := by
  induction merging with
  | start => rfl
  | worker w => rw [merged, workers, List.map_singleton, List.sum_singleton]
  | merge x y hx hy => rw [merged, workers, List.map_append, List.sum_append, hx, hy,
      Counts.merge_eq_add]
  | add x y hx hy => rw [merged, workers, List.map_append, List.sum_append, hx, hy]

/-- Where every worker of a list is merged once, the counts of the list are
summed. -/
theorem merged_get {α : Type*} {all : List α} {merging : Merging all.length}
    (h : merging.workers.Perm (List.finRange all.length)) (counts : α → Counts) :
    merging.merged (fun w => counts (all.get w)) = (all.map counts).sum := by
  have hall : (List.finRange all.length).map (fun w => counts (all.get w)) = all.map counts := by
    conv_rhs => rw [← List.map_get_finRange all, List.map_map]
    rfl
  rw [merged_eq_sum, (h.map _).sum_eq, hall]

end Merging

namespace Validator

variable {settings : Settings} {format : FrameFormat}

/-! ## Shares -/

/-- Calls that are shared out among workers are the same calls. -/
theorem perm_shares {calls : List Call} {shares : List (List (Fin calls.length))}
    (h : shares.flatten.Perm (List.finRange calls.length)) :
    (shares.map fun share => share.map calls.get).flatten.Perm calls := by
  have hcalls := h.map calls.get
  rwa [List.map_flatten, List.map_get_finRange] at hcalls

/-- **The counts of all shares** come to those of all calls. -/
theorem sum_counts_shares (checks : Checks) {calls : List Call}
    {shares : List (List (Fin calls.length))}
    (h : shares.flatten.Perm (List.finRange calls.length)) :
    (shares.map fun share => ((share.map calls.get).map (Call.counts checks)).sum).sum =
      (calls.map (Call.counts checks)).sum := by
  have hcounts := ((perm_shares h).map (Call.counts checks)).sum_eq
  rw [List.map_flatten, List.sum_flatten, List.map_map, List.map_map] at hcounts
  exact hcounts

/-- **Splitting the work changes nothing.** However calls are shared out among
validators of the same settings, and in whatever order each of them makes its
calls, a call has the outcome that it has when one validator makes them all.
However the counts of the workers are then merged, they are the counts of that
one validator. -/
theorem run_shares (h : settings.frameFormat = .ok format) (calls : List Call)
    (shares : List (List (Fin calls.length)))
    (hshares : shares.flatten.Perm (List.finRange calls.length)) :
    ∃ start, ofSettings settings = .ok start ∧
      (∀ share ∈ shares, ∀ j : Nat, (start.run (share.map calls.get)).1[j]? =
        share[j]?.bind fun i => (start.run calls).1[i.val]?) ∧
      ∀ merging : Merging shares.length,
        merging.workers.Perm (List.finRange shares.length) →
        merging.merged (fun w => (start.run ((shares.get w).map calls.get)).2.counts) =
          (start.run calls).2.counts := by
  obtain ⟨start, hstart, hcounts, -⟩ := exists_ofSettings h
  refine ⟨start, hstart, fun share _ j => ?_, fun merging hmerging => ?_⟩
  · simp only [run_fst, List.getElem?_map, Option.map_map]
    cases share[j]? with
    | none => rfl
    | some i => simp
  · rw [Merging.merged_get hmerging fun share => (start.run (share.map calls.get)).2.counts]
    simp only [counts_run, hcounts, zero_add]
    exact sum_counts_shares start.checks hshares

/-- So it is with three workers, one of them idle and one going from the last
input to the first, whose counts are merged from the last to the first. -/
theorem run_shares_threeWorkers :
    ∃ start, ofSettings ⟨"F3:89:9a:c2", .md5, some 30, true⟩ = .ok start ∧
      (start.run [.validateBytes [0xf3], .validate "="]).1[1]? =
        (start.run [.validate "=", .validate "84mawgoBYRoFCAAaAQG0OyFZlExiujCc4fOxzzTi",
          .validateBytes [0xf3]]).1[0]? ∧
      (Counts.zero.merge
            (start.run [.validate "84mawgoBYRoFCAAaAQG0OyFZlExiujCc4fOxzzTi"]).2.counts +
          (start.run []).2.counts).merge
          (start.run [.validateBytes [0xf3], .validate "="]).2.counts =
        (start.run [.validate "=", .validate "84mawgoBYRoFCAAaAQG0OyFZlExiujCc4fOxzzTi",
          .validateBytes [0xf3]]).2.counts := by
  have hformat : (Settings.mk "F3:89:9a:c2" .md5 (some 30) true).frameFormat = .ok .standard := by
    cbv
  obtain ⟨start, hstart, hresults, hmerged⟩ := run_shares hformat
    [.validate "=", .validate "84mawgoBYRoFCAAaAQG0OyFZlExiujCc4fOxzzTi", .validateBytes [0xf3]]
    [[2, 0], [], [1]] (by decide)
  exact ⟨start, hstart, hresults [2, 0] List.mem_cons_self 1,
    hmerged (.merge (.add (.merge .start (.worker 2)) (.worker 1)) (.worker 0)) (by decide)⟩

end Validator

end AggregatedRecords
