import AggregatedRecords.Proofs.Aggregator.Greedy
/-!
# Aggregator — which records are turned away

No call takes an aggregator beyond its limits (`Aggregator.Pending.call`), so
after any calls the positions of its keys fit 64 bits. Whether a record is then
turned away is decided by the frame that it would be in
(`Aggregator.isSome_push_holding_iff`), although no frame is made for that, and
a record that is turned away leaves nothing behind (`Aggregator.push_run`).
-/

namespace AggregatedRecords

namespace Aggregator

variable {format : FrameFormat} {maxLength maxRecords : Nat} {records : List UserRecord}

/-! ## Limits along a history -/

/-- **No call goes beyond the limits**: what waits after it is a batch within
them, if it was before. -/
theorem Pending.call (hmax : maxRecords < UInt64.size)
    (h : Pending format maxLength maxRecords records) (c : Call) :
    Pending format maxLength maxRecords
      (waitingAfter records ((holding format maxLength maxRecords records).call c).1) := by
  cases c with
  | push r =>
    rcases push_cases (holding format maxLength maxRecords records) r with ⟨-, hpush⟩ | ⟨hfits, hpush⟩
    · simpa only [Aggregator.call, hpush, waitingAfter] using h
    · simpa only [Aggregator.call, hpush, waitingAfter] using h.concat hmax hfits
  | take =>
    by_cases hrecords : records = []
    · subst hrecords
      exact h
    · simp only [Aggregator.call, take_holding hrecords, waitingAfter]
      exact fun hne => absurd rfl hne

/-- The same of any calls. -/
theorem Pending.run (hmax : maxRecords < UInt64.size)
    (h : Pending format maxLength maxRecords records) (calls : List Call) :
    Pending format maxLength maxRecords
      (((holding format maxLength maxRecords records).run calls).1.foldl waitingAfter
        records) := by
  induction calls generalizing records with
  | nil => exact h
  | cons c calls ih =>
    simp only [Aggregator.run, List.foldl_cons, call_holding format maxLength maxRecords records c]
    exact ih (h.call hmax c)

/-- **After any calls what waits is within the limits.** -/
theorem pending_waiting (hmax : maxRecords < UInt64.size) (calls : List Call) :
    Pending format maxLength maxRecords
      (waiting ((empty format maxLength maxRecords).run calls).1) :=
  Pending.run hmax (fun hne => absurd rfl hne) calls

/-! ## One push -/

/-- **The frame with one more record** is the one that would be taken if the
record were let in, whatever is then accounted for it. -/
theorem take_insert_holding (r : UserRecord) (added : Nat) :
    ((holding format maxLength maxRecords records).insert r added).take.1 =
      some (frameOf format maxLength maxRecords (records ++ [r])) := by
  have hrecords : ((holding format maxLength maxRecords records).insert r added).isEmpty = false := by
    simp [isEmpty]
  have hmessage := ((holds_holding format maxLength maxRecords records).insert r added).message_eq
    (holds_holding format maxLength maxRecords (records ++ [r]))
  obtain ⟨hformat, -, -⟩ := settings_holding format maxLength maxRecords records
  rw [take, hrecords, frameOf, ← hmessage, format_insert, hformat]
  rfl

/-- **A record is turned away for its frame**, which would be too long, or for
the number of records, unless there are none. -/
theorem isSome_push_holding_iff {r : UserRecord}
    (h : (holding format maxLength maxRecords (records ++ [r])).Indexable) :
    ((holding format maxLength maxRecords records).push r).1.isSome = true ↔
      (holding format maxLength maxRecords records).isEmpty = false ∧
        (max maxRecords 1 ≤ (holding format maxLength maxRecords records).size ∨
          maxLength < (frameOf format maxLength maxRecords (records ++ [r])).length) := by
  have hempty : (holding format maxLength maxRecords records).isEmpty = false ↔ records ≠ [] := by
    rw [← Bool.not_eq_true, isEmpty_holding]
  have hfull := isFull_holding_iff h
  rw [Exceeds, List.length_append, List.length_singleton, Nat.lt_succ_iff] at hfull
  rw [hempty, size, size_holding, ← hfull]
  rcases push_cases (holding format maxLength maxRecords records) r with ⟨h, hpush⟩ | ⟨h, hpush⟩
  · simp [h, hpush]
  · simp [h, hpush]

/-- **A push decides exactly, and changes all or nothing.** After any calls on
an aggregator with limits of 64 bits, which holds the records accepted since the
last frame: a record is turned away exactly when there are others and these are
as many as are allowed, or the frame with all of them, as it would be taken, is
too long. A record that is turned away is handed back with the aggregator as it
was, and is let in once a frame is taken; and one that is not turned away comes
behind the others. -/
theorem push_run (format : FrameFormat) (maxLength maxRecords : UInt64) (calls : List Call) :
    ∃ outcomes a,
      (empty format maxLength.toNat maxRecords.toNat).run calls = (outcomes, a) ∧
      a.Holds (waiting outcomes) ∧ a.message.deaggregate = .ok (waiting outcomes) ∧
      ∀ r : UserRecord, ∃ frame,
        (∀ added, (a.insert r added).Holds (waiting outcomes ++ [r]) ∧
          (a.insert r added).take.1 = some frame) ∧
        ((a.push r).1.isSome = true ↔ a.isEmpty = false ∧
          (max maxRecords.toNat 1 ≤ a.size ∨ maxLength.toNat < frame.length)) ∧
        (∀ back, (a.push r).1 = some back →
          back = r ∧ (a.push r).2 = a ∧ (a.take.2.push back).1 = none) ∧
        ((a.push r).1 = none →
          (a.push r).2.Holds (waiting outcomes ++ [r]) ∧
            (a.push r).2.message.deaggregate = .ok (waiting outcomes ++ [r])) := by
  refine ⟨_, _, rfl, ?_⟩
  have hmax : maxRecords.toNat < UInt64.size := maxRecords.toNat_lt
  have hpending : Pending format maxLength.toNat maxRecords.toNat (waiting _) :=
    pending_waiting hmax calls
  rw [run_empty]
  generalize waiting _ = records at hpending ⊢
  have hholds := holds_holding format maxLength.toNat maxRecords.toNat records
  have hindexable := hpending.indexable hmax
  have hbefore : (holding format maxLength.toNat maxRecords.toNat records).Indexable :=
    indexable_holding (Nat.le_of_lt (hpending.length_lt hmax))
  refine ⟨hholds, deaggregate_holding hbefore, fun r => ⟨_, fun added => ⟨hholds.insert r added,
    take_insert_holding r added⟩, isSome_push_holding_iff (hindexable r), ?_, ?_⟩⟩
  · intro back hback
    rcases push_cases (holding format maxLength.toNat maxRecords.toNat records) r with
      ⟨-, hpush⟩ | ⟨-, hpush⟩
    · rw [hpush] at hback
      obtain rfl := Option.some.inj hback
      refine ⟨rfl, by rw [hpush], ?_⟩
      rw [take_snd_holding]
      exact congrArg Prod.fst (push_holding_nil r)
    · rw [hpush] at hback
      cases hback
  · intro hnone
    rcases push_cases (holding format maxLength.toNat maxRecords.toNat records) r with
      ⟨-, hpush⟩ | ⟨-, hpush⟩
    · rw [hpush] at hnone
      cases hnone
    · rw [hpush]
      refine ⟨hholds.insert r _, ?_⟩
      rw [← holding_concat]
      exact deaggregate_holding (hindexable r)

end Aggregator

end AggregatedRecords
