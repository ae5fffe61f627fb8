import AggregatedRecords.Aggregator
import Mathlib.Data.List.Induction
/-!
# Aggregator — histories of calls

Calls on an aggregator come in any order: records are pushed, some of them
turned away, and frames are taken. What is left after all of them is the same
as if the records accepted since the last frame had been put into a new
aggregator one after the other (`Aggregator.run_empty`). A property of every
reachable state is therefore one of `Aggregator.holding`, and proved by
induction on the records alone.
-/

namespace AggregatedRecords

namespace Aggregator

variable {format : FrameFormat} {maxLength maxRecords : Nat}

/-- A call on an aggregator. -/
inductive Call where
  | push (r : UserRecord)
  | take
deriving Repr, DecidableEq

/-- A call together with what it handed back. -/
inductive Outcome where
  | push (r : UserRecord) (rejected : Option UserRecord)
  | take (frame : Option Bytes)
deriving Repr, DecidableEq

/-- Makes a call. -/
def call (a : Aggregator) : Call → Outcome × Aggregator
  | .push r =>
    let (rejected, a) := a.push r
    (.push r rejected, a)
  | .take =>
    let (frame, a) := a.take
    (.take frame, a)

/-- Makes calls one after the other. -/
def run (a : Aggregator) : List Call → List Outcome × Aggregator
  | [] => ([], a)
  | c :: calls =>
    let (outcome, a) := a.call c
    let (outcomes, a) := a.run calls
    (outcome :: outcomes, a)

/-- The records that wait for a frame after a call, from those before it. -/
def waitingAfter (waiting : List UserRecord) : Outcome → List UserRecord
  | .push r none => waiting ++ [r]
  | .push _ (some _) => waiting
  | .take none => waiting
  | .take (some _) => []

/-- **The records accepted since the last frame**, in the order of their
calls. -/
def waiting (outcomes : List Outcome) : List UserRecord := outcomes.foldl waitingAfter []

/-- An aggregator that has taken in records one after the other, whatever its
limits. -/
def holding (format : FrameFormat) (maxLength maxRecords : Nat) (records : List UserRecord) :
    Aggregator :=
  records.foldl (fun a r => a.insert r (a.cost r)) (empty format maxLength maxRecords)

/-! ## What one more record changes -/

section Insert

variable (a : Aggregator) (r : UserRecord) (added : Nat)

/-- The record as the message has it, its keys replaced by their positions. -/
def entry : Record where
  partitionKeyIndex := UInt64.ofNat (a.partitionKeys.intern r.partitionKey).1
  explicitHashKeyIndex :=
    r.explicitHashKey.map fun key => UInt64.ofNat (a.explicitHashKeys.intern key).1
  data := r.data
  tags := #[]

@[simp] theorem format_insert : (a.insert r added).format = a.format := rfl

@[simp] theorem maxLength_insert : (a.insert r added).maxLength = a.maxLength := rfl

@[simp] theorem maxRecords_insert : (a.insert r added).maxRecords = a.maxRecords := rfl

@[simp] theorem payloadLength_insert :
    (a.insert r added).payloadLength = a.payloadLength + added := rfl

@[simp] theorem partitionKeys_insert :
    (a.insert r added).partitionKeys = (a.partitionKeys.intern r.partitionKey).2 := rfl

@[simp] theorem explicitHashKeys_insert :
    (a.insert r added).explicitHashKeys =
      r.explicitHashKey.elim a.explicitHashKeys fun key => (a.explicitHashKeys.intern key).2 := by
  unfold insert
  cases r.explicitHashKey <;> rfl

@[simp] theorem records_insert :
    (a.insert r added).records = a.records.push (a.entry r) := by
  unfold insert entry
  cases r.explicitHashKey <;> rfl

end Insert

/-! ## Aggregators that hold given records -/

variable {records : List UserRecord}

theorem holding_concat (r : UserRecord) :
    holding format maxLength maxRecords (records ++ [r]) =
      (holding format maxLength maxRecords records).insert r
        ((holding format maxLength maxRecords records).cost r) := by
  simp [holding]

/-- Format and limits are those it was made with. -/
theorem settings_holding (format : FrameFormat) (maxLength maxRecords : Nat)
    (records : List UserRecord) :
    (holding format maxLength maxRecords records).format = format ∧
      (holding format maxLength maxRecords records).maxLength = maxLength ∧
      (holding format maxLength maxRecords records).maxRecords = max maxRecords 1 := by
  induction records using List.reverseRecOn with
  | nil => exact ⟨rfl, rfl, rfl⟩
  | append_singleton records r ih =>
    rw [holding_concat, format_insert, maxLength_insert, maxRecords_insert]
    exact ih

/-- As many records are buffered as were taken in. -/
theorem size_holding :
    (holding format maxLength maxRecords records).records.size = records.length := by
  induction records using List.reverseRecOn with
  | nil => rfl
  | append_singleton records r ih =>
    rw [holding_concat, records_insert, Array.size_push, ih, List.length_append]
    rfl

theorem isEmpty_holding :
    (holding format maxLength maxRecords records).isEmpty = true ↔ records = [] := by
  rw [isEmpty, Array.isEmpty_iff_size_eq_zero, size_holding, List.length_eq_zero_iff]

/-! ## The calls -/

/-- **A push either changes nothing or takes the record in**, as the limits
decide. -/
theorem push_cases (a : Aggregator) (r : UserRecord) :
    (a.isFull (a.cost r) = true ∧ a.push r = (some r, a)) ∨
      (a.isFull (a.cost r) = false ∧ a.push r = (none, a.insert r (a.cost r))) := by
  cases h : a.isFull (a.cost r) with
  | true => exact Or.inl ⟨rfl, by simp only [push, h, if_true]⟩
  | false => exact Or.inr ⟨rfl, by simp only [push, h, Bool.false_eq_true, if_false]⟩

/-- Taking from an aggregator without records gives nothing. -/
theorem take_holding_nil :
    (holding format maxLength maxRecords []).take =
      (none, holding format maxLength maxRecords []) :=
  rfl

/-- **Taking gives the frame of the message**, and leaves the aggregator as it
was made. -/
theorem take_holding (h : records ≠ []) :
    (holding format maxLength maxRecords records).take =
      (some (format.encode (holding format maxLength maxRecords records).message.encode),
        holding format maxLength maxRecords []) := by
  have hempty : ¬ (holding format maxLength maxRecords records).isEmpty = true :=
    fun hempty => h (isEmpty_holding.1 hempty)
  obtain ⟨hformat, hlength, hrecords⟩ :=
    settings_holding format maxLength maxRecords records
  rw [take, if_neg hempty]
  simp only [hformat, hlength, hrecords]
  rfl

/-- A call on an aggregator that holds given records leaves one that holds
those it then should. -/
theorem call_holding (format : FrameFormat) (maxLength maxRecords : Nat)
    (records : List UserRecord) (c : Call) :
    ((holding format maxLength maxRecords records).call c).2 =
      holding format maxLength maxRecords
        (waitingAfter records ((holding format maxLength maxRecords records).call c).1) := by
  cases c with
  | push r =>
    rcases push_cases (holding format maxLength maxRecords records) r with ⟨-, h⟩ | ⟨-, h⟩
    · simp only [call, h, waitingAfter]
    · simp only [call, h, waitingAfter, holding_concat]
  | take =>
    by_cases hrecords : records = []
    · subst hrecords
      rfl
    · simp only [call, take_holding hrecords, waitingAfter]

/-- The same of any calls. -/
theorem run_holding (records : List UserRecord) (calls : List Call) :
    ((holding format maxLength maxRecords records).run calls).2 =
      holding format maxLength maxRecords
        (((holding format maxLength maxRecords records).run calls).1.foldl waitingAfter
          records) := by
  induction calls generalizing records with
  | nil => rfl
  | cons c calls ih =>
    -- the first call leaves an aggregator of the same kind, so the rest follows from there
    simp only [run, List.foldl_cons, call_holding format maxLength maxRecords records c]
    exact ih _

/-- **After any calls an aggregator holds the records accepted since the last
frame**, and nothing else of its history. -/
theorem run_empty (calls : List Call) :
    ((empty format maxLength maxRecords).run calls).2 =
      holding format maxLength maxRecords
        (waiting ((empty format maxLength maxRecords).run calls).1) :=
  run_holding [] calls

end Aggregator

end AggregatedRecords
