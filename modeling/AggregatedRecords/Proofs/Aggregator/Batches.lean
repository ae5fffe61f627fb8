import AggregatedRecords.Proofs.Aggregator.History
/-!
# Aggregator — a list cut into batches

Aggregating a list is one loop over an aggregator that is taken from whenever
the next record does not fit. `Aggregator.batches` is the same loop on lists of
records: it says only where the list is cut. Every frame is the one of its
batch (`aggregateAll_eq_map_batches`), no batch is empty
(`Aggregator.ne_nil_of_mem_batches`), and the batches one after the other are
the list (`Aggregator.flatten_batches`).
-/

namespace AggregatedRecords

namespace Aggregator

variable (format : FrameFormat) (maxLength maxRecords : Nat)

/-- The frame of records that were taken in one after the other. -/
def frameOf (records : List UserRecord) : Bytes :=
  format.encode (holding format maxLength maxRecords records).message.encode

/-- **Where a list of records is cut**: a batch ends when the next record is
turned away, which then begins a new one. -/
def batches (pending : List UserRecord) : List UserRecord → List (List UserRecord)
  | [] => if pending.isEmpty then [] else [pending]
  | r :: records =>
    let a := holding format maxLength maxRecords pending
    if a.isFull (a.cost r) then pending :: batches [r] records
    else batches (pending ++ [r]) records

variable {format : FrameFormat} {maxLength maxRecords : Nat}

/-- An aggregator that is full holds something. -/
theorem ne_nil_of_isFull {records : List UserRecord} {added : Nat}
    (h : (holding format maxLength maxRecords records).isFull added = true) : records ≠ [] := by
  rintro rfl
  simp [isFull, isEmpty_holding.2 rfl] at h

/-- An aggregator without records takes any record in. -/
theorem push_holding_nil (r : UserRecord) :
    (holding format maxLength maxRecords []).push r =
      (none, holding format maxLength maxRecords [r]) :=
  rfl

/-- What an aggregator gives of the records it holds: a frame, if there are
any. -/
theorem toList_take_holding (records : List UserRecord) :
    (holding format maxLength maxRecords records).take.1.toList =
      (batches format maxLength maxRecords records []).map
        (frameOf format maxLength maxRecords) := by
  by_cases h : records = []
  · subst h
    rfl
  · have hempty : ¬ records.isEmpty = true := fun hempty => h (List.isEmpty_iff.1 hempty)
    rw [take_holding h, batches, if_neg hempty]
    rfl

/-- **One record of the loop**: it joins those that wait, or their frame is
made and it waits alone. -/
theorem pushOrTake_holding (pending : List UserRecord) (frames : Array Bytes) (r : UserRecord) :
    pushOrTake (holding format maxLength maxRecords pending, frames) r =
      if (holding format maxLength maxRecords pending).isFull
          ((holding format maxLength maxRecords pending).cost r) then
        (holding format maxLength maxRecords [r],
          frames.push (frameOf format maxLength maxRecords pending))
      else (holding format maxLength maxRecords (pending ++ [r]), frames) := by
  rcases push_cases (holding format maxLength maxRecords pending) r with ⟨hfull, h⟩ | ⟨hfull, h⟩
  · simp only [pushOrTake, h, hfull, take_holding (ne_nil_of_isFull hfull), push_holding_nil,
      if_true, Option.toArray_some, Array.push_eq_append, frameOf]
  · simp only [pushOrTake, h, hfull, holding_concat, Bool.false_eq_true, if_false]

/-- **The loop makes the frames of the batches**, after those already made. -/
theorem foldl_pushOrTake (format : FrameFormat) (maxLength maxRecords : Nat)
    (pending : List UserRecord) (frames : Array Bytes) (records : List UserRecord) :
    ((records.foldl pushOrTake (holding format maxLength maxRecords pending, frames)).2.toList ++
        (records.foldl pushOrTake (holding format maxLength maxRecords pending,
          frames)).1.take.1.toList) =
      frames.toList ++ (batches format maxLength maxRecords pending records).map
        (frameOf format maxLength maxRecords) := by
  induction records generalizing pending frames with
  | nil => rw [List.foldl_nil, toList_take_holding]
  | cons r records ih =>
    rw [List.foldl_cons, pushOrTake_holding, batches]
    cases hfull : (holding format maxLength maxRecords pending).isFull
        ((holding format maxLength maxRecords pending).cost r) with
    | true =>
      -- the frame of what waited comes before those of the rest
      simp only [if_true]
      rw [ih, Array.toList_push, List.map_cons, List.append_assoc, List.singleton_append]
    | false =>
      simp only [Bool.false_eq_true, if_false]
      exact ih _ _

/-- **Nothing is lost, doubled or moved** by cutting. -/
theorem flatten_batches (pending records : List UserRecord) :
    (batches format maxLength maxRecords pending records).flatten = pending ++ records := by
  induction records generalizing pending with
  | nil => cases pending <;> simp [batches]
  | cons r records ih =>
    rw [batches]
    split
    · rw [List.flatten_cons, ih, List.singleton_append]
    · rw [ih, List.append_assoc, List.singleton_append]

/-- A batch is never empty. -/
theorem ne_nil_of_mem_batches {pending records part : List UserRecord}
    (h : part ∈ batches format maxLength maxRecords pending records) : part ≠ [] := by
  induction records generalizing pending with
  | nil =>
    cases pending with
    | nil => simp [batches] at h
    | cons r pending =>
      obtain rfl : part = r :: pending := by simpa [batches] using h
      exact List.cons_ne_nil _ _
  | cons r records ih =>
    rw [batches] at h
    split at h
    · next hfull =>
      rcases List.mem_cons.1 h with rfl | h
      · exact ne_nil_of_isFull hfull
      · exact ih h
    · exact ih h

end Aggregator

/-- **Aggregating a list makes one frame of each batch**, in order. -/
theorem aggregateAll_eq_map_batches (records : List UserRecord) (maxLength maxRecords : Nat) :
    aggregateAll records maxLength maxRecords =
      (Aggregator.batches .standard maxLength maxRecords [] records).map
        (Aggregator.frameOf .standard maxLength maxRecords) := by
  have h := Aggregator.foldl_pushOrTake .standard maxLength maxRecords [] #[] records
  simp only [aggregateAll, Array.toList_append, Option.toList_toArray]
  exact h

end AggregatedRecords
