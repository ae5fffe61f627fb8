import AggregatedRecords.Validation.Attempt
import Mathlib
/-!
# Validation — conditions and the attempts that go by them

An input is held to conditions, one after the other. A condition is reached if
all before it hold (`Condition.Reached`), so that of conditions that do not all
hold just one is reached and fails. An attempt follows conditions if it fails
with what is wrong by that one and starts the stages of those that are reached
(`Attempt.Follows`).

Attempts one after the other follow their conditions one after the other
(`Attempt.Follows.bind`). So the conditions of an input are put together as its
examination is.
-/

namespace AggregatedRecords

/-- The error of a result, if it is one. -/
def errorOf? {ε α : Type} : Except ε α → Option ε
  | .error e => some e
  | .ok _ => none

theorem errorOf?_eq_some_iff {ε α : Type} {result : Except ε α} {e : ε} :
    errorOf? result = some e ↔ result = .error e := by
  cases result <;> simp [errorOf?]

/-- A result that is no error is there. -/
theorem exists_eq_ok_iff {ε α : Type} {result : Except ε α} :
    (∃ a, result = .ok a) ↔ ∀ e, result ≠ .error e := by
  cases result <;> simp

/-! ## Conditions -/

/-- What an input may be held to. -/
inductive Condition where
  /-- The text is Base64. -/
  | encoding
  /-- The octets are within the limit. -/
  | size
  /-- The octets are enough for a frame. -/
  | length
  /-- The magic of the format is in front. -/
  | magic
  /-- The digest at the end is that of the payload. -/
  | digest
  /-- The payload is a message. -/
  | payload
  /-- The indices of the records are within the tables of keys. -/
  | keys
  /-- The renderer gives a result. -/
  | rendering
deriving Repr, DecidableEq

namespace Condition

/-- The stage that a condition is looked at in. The limit belongs to none. -/
def stage? : Condition → Option Stage
  | encoding => some .base64
  | size => none
  | length => some .frame
  | magic => some .frame
  | digest => some .frame
  | payload => some .parse
  | keys => some .deaggregate
  | rendering => some .render

/-- **A condition is reached** if all that come before it hold. -/
def Reached (fault? : Condition → Option ValidationError) (conditions : List Condition)
    (k : Condition) : Prop :=
  ∃ before after, conditions = before ++ k :: after ∧ ∀ earlier ∈ before, fault? earlier = none

variable {fault? : Condition → Option ValidationError} {conditions next : List Condition}
  {first k : Condition}

theorem Reached.mem (h : Reached fault? conditions k) : k ∈ conditions := by
  obtain ⟨before, after, rfl, -⟩ := h
  exact List.mem_append_right before List.mem_cons_self

theorem not_reached_nil : ¬ Reached fault? [] k := fun h => List.not_mem_nil h.mem

/-- The first condition is always reached, and the next ones are if it holds. -/
theorem reached_cons :
    Reached fault? (first :: conditions) k ↔
      k = first ∨ fault? first = none ∧ Reached fault? conditions k := by
  constructor
  · rintro ⟨before, after, happend, hbefore⟩
    cases before with
    | nil => exact .inl (List.cons.inj happend).1.symm
    | cons head before =>
      obtain ⟨rfl, rfl⟩ := List.cons.inj happend
      exact .inr ⟨hbefore first List.mem_cons_self, before, after, rfl,
        fun earlier hearlier => hbefore earlier (List.mem_cons_of_mem first hearlier)⟩
  · rintro (rfl | ⟨hfirst, before, after, rfl, hbefore⟩)
    · exact ⟨[], conditions, rfl, fun earlier hearlier => absurd hearlier List.not_mem_nil⟩
    · exact ⟨first :: before, after, rfl, List.forall_mem_cons.2 ⟨hfirst, hbefore⟩⟩

theorem reached_singleton : Reached fault? [first] k ↔ k = first := by
  rw [reached_cons, or_iff_left fun h => not_reached_nil h.2]

/-- Conditions are gone on with if all of them hold. -/
theorem reached_append :
    Reached fault? (conditions ++ next) k ↔
      Reached fault? conditions k ∨
        (∀ c ∈ conditions, fault? c = none) ∧ Reached fault? next k := by
  induction conditions with
  | nil => simp [not_reached_nil]
  | cons first conditions ih =>
    rw [List.cons_append, reached_cons, reached_cons, ih, List.forall_mem_cons, and_or_left,
      or_assoc, and_assoc]

/-- **Of conditions that do not all hold, one that fails is reached.** -/
theorem exists_reached {c : Condition} {e : ValidationError} (hc : c ∈ conditions)
    (he : fault? c = some e) : ∃ k cause, Reached fault? conditions k ∧ fault? k = some cause := by
  induction conditions with
  | nil => exact absurd hc List.not_mem_nil
  | cons first conditions ih =>
    cases hfirst : fault? first with
    | some cause => exact ⟨first, cause, reached_cons.2 (.inl rfl), hfirst⟩
    | none =>
      rcases List.mem_cons.1 hc with rfl | hrest
      · cases hfirst.symm.trans he
      · obtain ⟨k, cause, hk, hcause⟩ := ih hrest
        exact ⟨k, cause, reached_cons.2 (.inr ⟨hfirst, hk⟩), hcause⟩

end Condition

/-! ## Attempts that go by conditions -/

namespace Attempt

open Condition

variable {α β : Type} {fault? : Condition → Option ValidationError}
  {conditions next : List Condition}

/-- **An attempt follows conditions** if it fails with what is wrong by the one
that is reached and fails, and starts the stages of those that are reached. -/
structure Follows (attempt : Attempt α) (fault? : Condition → Option ValidationError)
    (conditions : List Condition) : Prop where
  fails_iff : ∀ e, attempt.result = .error e ↔
    ∃ k, Reached fault? conditions k ∧ fault? k = some e
  starts_iff : ∀ stage, stage ∈ attempt.stages ↔
    ∃ k, Reached fault? conditions k ∧ k.stage? = some stage

/-- **It has a result exactly if all conditions hold.** -/
theorem Follows.exists_ok_iff {attempt : Attempt α} (h : attempt.Follows fault? conditions) :
    (∃ a, attempt.result = .ok a) ↔ ∀ k ∈ conditions, fault? k = none := by
  constructor
  · rintro ⟨a, hok⟩ k hk
    by_contra hfault
    obtain ⟨e, he⟩ := Option.ne_none_iff_exists'.1 hfault
    obtain ⟨reached, cause, hreached, hcause⟩ := exists_reached hk he
    cases hok.symm.trans ((h.fails_iff cause).2 ⟨reached, hreached, hcause⟩)
  · intro hall
    cases hresult : attempt.result with
    | ok a => exact ⟨a, rfl⟩
    | error e =>
      obtain ⟨k, hk, hfault⟩ := (h.fails_iff e).1 hresult
      cases (hall k hk.mem).symm.trans hfault

/-- What is wrong matters for the conditions alone. -/
theorem Follows.congr {other? : Condition → Option ValidationError} {attempt : Attempt α}
    (h : attempt.Follows fault? conditions) (hsame : ∀ k ∈ conditions, other? k = fault? k) :
    attempt.Follows other? conditions := by
  have hreached (k : Condition) : Reached other? conditions k ↔ Reached fault? conditions k := by
    refine exists_congr fun before => exists_congr fun after => and_congr_right ?_
    rintro rfl
    refine forall_congr' fun earlier => forall_congr' fun hearlier => ?_
    rw [hsame earlier (List.mem_append_left _ hearlier)]
  constructor
  · intro e
    rw [h.fails_iff]
    refine exists_congr fun k => ?_
    rw [hreached]
    exact and_congr_right fun hk => by rw [hsame k hk.mem]
  · intro stage
    rw [h.starts_iff]
    simp only [hreached]

theorem follows_pure (a : α) : (pure a : Attempt α).Follows fault? [] where
  fails_iff e := by simp [not_reached_nil]
  starts_iff stage := by simp [not_reached_nil]

theorem follows_note (event : Event) : (note event).Follows fault? [] where
  fails_iff e := by simp [note, not_reached_nil]
  starts_iff stage := by simp [note, not_reached_nil]

/-- **Attempts one after the other** follow their conditions one after the
other. -/
theorem Follows.bind {first : Attempt α} {second : α → Attempt β}
    (hfirst : first.Follows fault? conditions)
    (hsecond : ∀ a, first.result = .ok a → (second a).Follows fault? next) :
    (first >>= second).Follows fault? (conditions ++ next) := by
  cases hresult : first.result with
  | error e =>
    -- the condition that fails is one of the first, so none of the next is reached
    have hfails : ¬ ∀ k ∈ conditions, fault? k = none := by
      rw [← hfirst.exists_ok_iff, hresult]
      rintro ⟨a, ha⟩
      cases ha
    have hreached (k : Condition) :
        Reached fault? (conditions ++ next) k ↔ Reached fault? conditions k := by
      rw [reached_append, or_iff_left fun h => hfails h.1]
    rw [bind_of_error hresult]
    constructor
    · simpa only [hreached, hresult, Except.error.injEq] using hfirst.fails_iff
    · simpa only [hreached] using hfirst.starts_iff
  | ok a =>
    have hhold : ∀ k ∈ conditions, fault? k = none := hfirst.exists_ok_iff.1 ⟨a, hresult⟩
    have hreached (k : Condition) : Reached fault? (conditions ++ next) k ↔
        Reached fault? conditions k ∨ Reached fault? next k := by
      rw [reached_append, and_iff_right hhold]
    constructor
    · intro e
      rw [result_bind, hresult, Except.bind, (hsecond a hresult).fails_iff]
      refine exists_congr fun k => ?_
      rw [hreached, or_and_right, or_iff_right]
      rintro ⟨hk, he⟩
      cases (hhold k hk.mem).symm.trans he
    · intro stage
      rw [stages_bind_of_ok hresult, List.mem_append, hfirst.starts_iff,
        (hsecond a hresult).starts_iff, ← exists_or]
      exact exists_congr fun k => by rw [hreached, or_and_right]

theorem Follows.map {first : Attempt α} (h : first.Follows fault? conditions) (f : α → β) :
    (first >>= fun a => pure (f a)).Follows fault? conditions := by
  have hbind := h.bind fun a _ => follows_pure (f a)
  rwa [List.append_nil] at hbind

/-- A condition outside of every stage. -/
theorem follows_unstaged {attempt : Attempt α} {k : Condition} (hstages : attempt.stages = [])
    (hstage : k.stage? = none) (hfault : fault? k = errorOf? attempt.result) :
    attempt.Follows fault? [k] where
  fails_iff e := by simp only [reached_singleton, exists_eq_left, hfault, errorOf?_eq_some_iff]
  starts_iff stage := by simp [reached_singleton, hstage, hstages]

/-- **A stage follows the conditions that are looked at in it.** The stage is
started as the first of them is always reached. -/
theorem follows_stage {stage : Stage} {result : Except ValidationError α} {k : Condition}
    {rest : List Condition} (hstage : ∀ c ∈ k :: rest, c.stage? = some stage)
    (hfails : ∀ e, result = .error e ↔ ∃ c, Reached fault? (k :: rest) c ∧ fault? c = some e) :
    (Attempt.stage stage result).Follows fault? (k :: rest) where
  fails_iff := hfails
  starts_iff started := by
    simp only [Attempt.stage, List.mem_singleton]
    constructor
    · rintro rfl
      exact ⟨k, reached_cons.2 (.inl rfl), hstage k List.mem_cons_self⟩
    · rintro ⟨c, hreached, hc⟩
      exact Option.some.inj (hc.symm.trans (hstage c hreached.mem))

theorem follows_stage_singleton {stage : Stage} {result : Except ValidationError α}
    {k : Condition} (hstage : k.stage? = some stage) (hfault : fault? k = errorOf? result) :
    (Attempt.stage stage result).Follows fault? [k] := by
  refine follows_stage (fun c hc => List.mem_singleton.1 hc ▸ hstage) fun e => ?_
  simp only [reached_singleton, exists_eq_left, hfault, errorOf?_eq_some_iff]

end Attempt

end AggregatedRecords
