import AggregatedRecords.Statistics.Duration
import AggregatedRecords.Validation.Error
/-!
# Validation — attempts

An attempt is what became of an input: a result, the stages that were started
on the way to it, and what there was to note. Attempts follow one another until
one fails, and what came before a failure stays on record.
-/

namespace AggregatedRecords

/-- What is noted of an input that is validated. -/
inductive Event where
  | frameVerified (length payload : Nat)
  | payloadDecoded (records keys : Nat)
  | failed (error : ValidationError)

/-- A result with the stages that were started and the events noted. -/
structure Attempt (α : Type) where
  result : Except ValidationError α
  stages : List Stage
  events : List Event

namespace Attempt

variable {α β : Type}

/-- Goes on with the result of an attempt, if it has one. -/
def andThen (first : Attempt α) (next : α → Attempt β) : Attempt β :=
  match first.result with
  | .error e => ⟨.error e, first.stages, first.events⟩
  | .ok a =>
    let second := next a
    ⟨second.result, first.stages ++ second.stages, first.events ++ second.events⟩

instance : Monad Attempt where
  pure a := ⟨.ok a, [], []⟩
  bind := andThen

@[simp] theorem pure_eq (a : α) : (pure a : Attempt α) = ⟨.ok a, [], []⟩ := rfl

/-- A bind has the result of its second attempt, if there is one. -/
@[simp] theorem result_bind (first : Attempt α) (next : α → Attempt β) :
    (first >>= next).result = first.result.bind fun a => (next a).result := by
  change (first.andThen next).result = _
  cases h : first.result <;> simp [andThen, h, Except.bind]

/-- An attempt that fails is not gone on with. -/
theorem bind_of_error {first : Attempt α} {next : α → Attempt β} {e : ValidationError}
    (h : first.result = .error e) :
    first >>= next = ⟨.error e, first.stages, first.events⟩ := by
  change first.andThen next = _
  simp [andThen, h]

/-- The stages of a second attempt come after those of the first. -/
theorem stages_bind_of_ok {first : Attempt α} {next : α → Attempt β} {a : α}
    (h : first.result = .ok a) :
    (first >>= next).stages = first.stages ++ (next a).stages := by
  change (first.andThen next).stages = _
  simp [andThen, h]

/-- Requires a condition outside of every stage. -/
def require (condition : Bool) (e : ValidationError) : Attempt Unit :=
  ⟨if condition then .ok () else .error e, [], []⟩

/-- Runs a stage. It is started whether it fails or not. -/
def stage (stage : Stage) (result : Except ValidationError α) : Attempt α := ⟨result, [stage], []⟩

/-- Notes an event. -/
def note (event : Event) : Attempt Unit := ⟨.ok (), [], [event]⟩

/-- All there is to note of an input, its failure at the end. -/
def log (attempt : Attempt α) : List Event :=
  match attempt.result with
  | .ok _ => attempt.events
  | .error e => attempt.events ++ [.failed e]

end Attempt

end AggregatedRecords
