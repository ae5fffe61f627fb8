/-!
# Consumer — computations that take their input off the front

A consumer gives a value and what is left of its input, or fails. It never
gives input back (`Consumer.shrinks`), so a loop that takes something off in
each round comes to an end. Octets on the wire and tokens of a text are both
read this way.
-/

namespace AggregatedRecords

/-- Input of which it is known how much there is. -/
class Sized (σ : Type) where
  size : σ → Nat

instance {α : Type} : Sized (List α) := ⟨List.length⟩

/-- A way to take a value off the front of input, or to fail with an error. -/
structure Consumer (ε σ : Type) [Sized σ] (α : Type) where
  run : σ → Except ε (α × σ)
  shrinks : ∀ {s a rest}, run s = .ok (a, rest) → Sized.size rest ≤ Sized.size s

namespace Consumer

variable {ε σ α β γ : Type} [Sized σ]

/-- Gives a value and takes nothing. -/
def value (a : α) : Consumer ε σ α where
  run s := .ok (a, s)
  shrinks h := by cases h; exact Nat.le_refl _

/-- Fails with an error. -/
def fail (e : ε) : Consumer ε σ α where
  run _ := .error e
  shrinks h := by cases h

/-- Runs one consumer, and then the one its value gives. -/
def andThen (first : Consumer ε σ α) (next : α → Consumer ε σ β) : Consumer ε σ β where
  run s :=
    match first.run s with
    | .error e => .error e
    | .ok (a, rest) => (next a).run rest
  shrinks {s b rest} h := by
    cases hfirst : first.run s with
    | error e => simp [hfirst] at h
    | ok p =>
      simp only [hfirst] at h
      exact Nat.le_trans ((next p.1).shrinks h) (first.shrinks hfirst)

instance : Monad (Consumer ε σ) where
  pure := value
  bind := andThen

@[simp] theorem run_pure (a : α) (s : σ) : (pure a : Consumer ε σ α).run s = .ok (a, s) := rfl

@[simp] theorem run_fail (e : ε) (s : σ) : (fail e : Consumer ε σ α).run s = .error e := rfl

theorem run_bind (first : Consumer ε σ α) (next : α → Consumer ε σ β) (s : σ) :
    (first >>= next).run s =
      match first.run s with
      | .error e => .error e
      | .ok (a, rest) => (next a).run rest := rfl

/-- A bind whose first consumer succeeds goes on with what that left. -/
theorem run_bind_of_ok {first : Consumer ε σ α} {next : α → Consumer ε σ β} {s rest : σ} {a : α}
    (h : first.run s = .ok (a, rest)) : (first >>= next).run s = (next a).run rest := by
  rw [run_bind, h]

/-- A bind succeeds when both of its consumers do, one after the other. -/
theorem run_bind_eq_ok_iff {first : Consumer ε σ α} {next : α → Consumer ε σ β} {s rest : σ}
    {b : β} : (first >>= next).run s = .ok (b, rest) ↔
      ∃ a mid, first.run s = .ok (a, mid) ∧ (next a).run mid = .ok (b, rest) := by
  rw [run_bind]
  cases first.run s with
  | error e => simp
  | ok p =>
    obtain ⟨a, mid⟩ := p
    constructor
    · exact fun h => ⟨a, mid, rfl, h⟩
    · rintro ⟨_, _, ⟨⟩, h⟩
      exact h

/-- Changes the error of a consumer that fails. -/
def mapError (f : ε → ε) (c : Consumer ε σ α) : Consumer ε σ α where
  run s :=
    match c.run s with
    | .error e => .error (f e)
    | .ok result => .ok result
  shrinks {s a rest} h := by
    cases hc : c.run s with
    | error e => simp [hc] at h
    | ok p =>
      simp only [hc, Except.ok.injEq] at h
      exact c.shrinks (h ▸ hc)

/-- Gives the whole input and takes nothing. -/
def input : Consumer ε σ σ where
  run s := .ok (s, s)
  shrinks h := by cases h; exact Nat.le_refl _

/-- Gives nothing and takes nothing where a consumer fails. -/
def attempt (c : Consumer ε σ α) : Consumer ε σ (Option α) where
  run s :=
    match c.run s with
    | .error _ => .ok (none, s)
    | .ok (a, rest) => .ok (some a, rest)
  shrinks {s a rest} h := by
    cases hc : c.run s with
    | error e =>
      simp only [hc, Except.ok.injEq, Prod.mk.injEq] at h
      exact h.2 ▸ Nat.le_refl _
    | ok p =>
      simp only [hc, Except.ok.injEq, Prod.mk.injEq] at h
      exact h.2 ▸ c.shrinks hc

/-- The rounds of `iterate`. -/
def runRounds (stuck : ε) (round : γ → Consumer ε σ (γ ⊕ β)) (state : γ) (s : σ) :
    Except ε (β × σ) :=
  match (round state).run s with
  | .error e => .error e
  | .ok (.inr b, rest) => .ok (b, rest)
  | .ok (.inl next, rest) =>
    if Sized.size rest < Sized.size s then runRounds stuck round next rest else .error stuck
termination_by Sized.size s

theorem runRounds_shrinks {stuck : ε} {round : γ → Consumer ε σ (γ ⊕ β)} {state : γ} {s rest : σ}
    {b : β} (h : runRounds stuck round state s = .ok (b, rest)) :
    Sized.size rest ≤ Sized.size s := by
  fun_induction runRounds stuck round state s with
  | case1 => cases h
  | case2 _ _ _ _ hround =>
    cases h
    exact (round _).shrinks hround
  | case3 _ _ _ _ _ hlt ih => exact Nat.le_trans (ih h) (Nat.le_of_lt hlt)
  | case4 => cases h

/-- Runs rounds from a state on until one gives a result. A round that goes on
has to take something off, or else the loop fails as stuck. -/
def iterate (stuck : ε) (round : γ → Consumer ε σ (γ ⊕ β)) (state : γ) : Consumer ε σ β where
  run := runRounds stuck round state
  shrinks := runRounds_shrinks

end Consumer

end AggregatedRecords
