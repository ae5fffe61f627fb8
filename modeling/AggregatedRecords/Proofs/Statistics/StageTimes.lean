import AggregatedRecords.Proofs.Statistics.Duration
/-!
# Statistics — stage times add up exactly

What is charged to the stages is known exactly as a `Tally`: the nanoseconds of
every stage that is charged at all, with no bound on them. Tallies are a
commutative monoid, and stage times are the tallies in which every stage is
within the limit of durations (`StageTimes.tally_injective`). Charging one time
more adds to the tally or fails as the sum is beyond the limit
(`StageTimes.sums_add?`), and so does merging, in whatever order the entries are
taken (`StageTimes.sums_charge?`). So it comes down to the tally what any
sequence of calls gives (`StageTimes.History.sums_times?`), and all laws of stage
times are those of tallies (`StageTimes.addsUp`).
-/

namespace AggregatedRecords

/-! ## Tallies -/

/-- What is charged to each stage in nanoseconds, for the stages that are charged
anything. -/
@[ext]
structure Tally where
  amount? : Stage → Option Nat

namespace Tally

instance : Zero Tally := ⟨⟨fun _ => none⟩⟩

instance : Add Tally := ⟨fun x y => ⟨fun stage => (x.amount? stage).merge (· + ·) (y.amount? stage)⟩⟩

variable {x y z : Tally} {stage other : Stage} {n : Nat}

@[simp] theorem amount?_zero : (0 : Tally).amount? stage = none := rfl

@[simp] theorem amount?_add :
    (x + y).amount? stage = (x.amount? stage).merge (· + ·) (y.amount? stage) := rfl

instance : AddCommMonoid Tally where
  add_assoc x y z := by
    ext stage
    cases h : x.amount? stage <;> cases h' : y.amount? stage <;> cases h'' : z.amount? stage <;>
      simp [h, h', h'', Nat.add_assoc]
  zero_add x := by
    ext stage
    simp
  add_zero x := by
    ext stage
    simp
  add_comm x y := by
    ext stage
    cases h : x.amount? stage <;> cases h' : y.amount? stage <;> simp [h, h', Nat.add_comm]
  nsmul := nsmulRec

/-- What one stage is charged, as a number. -/
def amount (x : Tally) (stage : Stage) : Nat := (x.amount? stage).getD 0

@[simp] theorem amount_add : (x + y).amount stage = x.amount stage + y.amount stage := by
  rw [amount, amount, amount, amount?_add]
  cases x.amount? stage <;> cases y.amount? stage <;> simp

/-- What all stages are charged. -/
def total (x : Tally) : Nat := (Stage.all.map x.amount).sum

theorem total_add : (x + y).total = x.total + y.total := by
  simp only [total, Stage.all, List.map_cons, List.map_nil, List.sum_cons, List.sum_nil, amount_add]
  omega

theorem amount_le_total (x : Tally) (stage : Stage) : x.amount stage ≤ x.total := by
  simp only [total, Stage.all, List.map_cons, List.map_nil, List.sum_cons, List.sum_nil]
  cases stage <;> omega

/-- Some stage is charged more than a duration can be. -/
def IsBeyond (x : Tally) : Prop := ∃ stage, Duration.limit ≤ x.amount stage

/-- What is beyond the limit stays there. -/
theorem IsBeyond.add (h : x.IsBeyond) (y : Tally) : (x + y).IsBeyond := by
  obtain ⟨stage, hstage⟩ := h
  refine ⟨stage, ?_⟩
  rw [amount_add]
  exact Nat.le_add_right_of_le hstage

/-- The tally of one charge. -/
def single (stage : Stage) (n : Nat) : Tally := ⟨fun s => if s = stage then some n else none⟩

theorem amount_single : (single stage n).amount other = if other = stage then n else 0 := by
  by_cases h : other = stage <;> simp [amount, single, h]

theorem total_single (stage : Stage) (n : Nat) : (single stage n).total = n := by
  cases stage <;> simp [total, Stage.all, amount_single]

/-- The tally of charges. -/
def ofCharges (charges : List (Stage × Duration)) : Tally :=
  (charges.map fun charge => single charge.1 charge.2.inNanos).sum

/-- What a stage is charged is the sum of the charges to it. -/
theorem amount_ofCharges (charges : List (Stage × Duration)) (stage : Stage) :
    (ofCharges charges).amount stage =
      ((charges.filter (·.1 = stage)).map (·.2.inNanos)).sum := by
  induction charges with
  | nil => rfl
  | cons charge charges ih =>
    rw [ofCharges, List.map_cons, List.sum_cons, amount_add, amount_single, ← ofCharges, ih]
    by_cases h : stage = charge.1
    · simp [h]
    · simp [h, Ne.symm h]

theorem total_ofCharges (charges : List (Stage × Duration)) :
    (ofCharges charges).total = (charges.map (·.2.inNanos)).sum := by
  induction charges with
  | nil => rfl
  | cons charge charges ih =>
    rw [ofCharges, List.map_cons, List.sum_cons, total_add, total_single, ← ofCharges, ih,
      List.map_cons, List.sum_cons]

theorem ofCharges_append (charges more : List (Stage × Duration)) :
    ofCharges (charges ++ more) = ofCharges charges + ofCharges more := by
  rw [ofCharges, List.map_append, List.sum_append]
  rfl

theorem ofCharges_singleton (stage : Stage) (time : Duration) :
    ofCharges [(stage, time)] = single stage time.inNanos :=
  add_zero _

theorem ofCharges_perm {charges order : List (Stage × Duration)} (h : order.Perm charges) :
    ofCharges order = ofCharges charges :=
  (h.map _).sum_eq

end Tally

/-! ## Stage times as tallies -/

namespace StageTimes

/-- The tally of stage times. -/
def tally (times : StageTimes) : Tally := ⟨fun stage => (times.timeOf? stage).map Duration.inNanos⟩

theorem amount_tally (times : StageTimes) (stage : Stage) :
    times.tally.amount stage = (times.get stage).inNanos := by
  cases h : times.timeOf? stage <;> simp [Tally.amount, tally, get, h, Duration.inNanos_zero]

/-- **Stage times are told apart by their tallies.** -/
theorem tally_injective : Function.Injective tally := by
  intro x y h
  have hmap := Option.map_injective Duration.inNanos_injective
  have hsame (stage : Stage) : x.timeOf? stage = y.timeOf? stage := by
    have hamount : x.tally.amount? stage = y.tally.amount? stage := by rw [h]
    exact hmap hamount
  obtain ⟨hbase64, hframe⟩ := And.intro (hsame .base64) (hsame .frame)
  obtain ⟨hparse, hdeaggregate⟩ := And.intro (hsame .parse) (hsame .deaggregate)
  have hrender := hsame .render
  cases x
  cases y
  simp_all [timeOf?]

theorem tally_empty : empty.tally = 0 := by
  ext1
  funext stage
  cases stage <;> rfl

/-- All stages are within the limit. -/
theorem not_isBeyond_tally (times : StageTimes) : ¬ times.tally.IsBeyond := by
  rintro ⟨stage, hstage⟩
  rw [amount_tally] at hstage
  exact Duration.not_limit_le _ hstage

/-- **Charging a time adds it to the tally**, if the sum is within the limit. -/
theorem sums_add? (times : StageTimes) (stage : Stage) (time : Duration) :
    Sums tally Tally.IsBeyond (times.add? stage time)
      (times.tally + .single stage time.inNanos) := by
  rw [add?, Option.map_eq_bind]
  refine (Duration.sums_add? (times.get stage) time).bind (fun hbeyond => ⟨stage, ?_⟩)
    fun sum hsum => ?_
  · rwa [Tally.amount_add, amount_tally, Tally.amount_single, if_pos rfl]
  · ext other n
    rw [Tally.amount?_add, Tally.single]
    by_cases h : other = stage
    · subst h
      have hget : sum.inNanos = times.tally.amount other + time.inNanos := by
        rw [hsum, amount_tally]
      cases hother : times.timeOf? other <;>
        simp [tally, timeOf?_set, hget, Tally.amount, hother]
    · simp [tally, timeOf?_set, h]

/-- Charges times one after the other. -/
def charge? (times : StageTimes) (charges : List (Stage × Duration)) : Option StageTimes :=
  charges.foldlM (fun times (stage, time) => times.add? stage time) times

/-- **Charges add up to their tally** on top of what was charged before. -/
theorem sums_charge? (times : StageTimes) (charges : List (Stage × Duration)) :
    Sums tally Tally.IsBeyond (times.charge? charges) (times.tally + .ofCharges charges) := by
  induction charges generalizing times with
  | nil => exact (add_zero times.tally).symm
  | cons charge charges ih =>
    rw [charge?, List.foldlM_cons, Tally.ofCharges, List.map_cons, List.sum_cons, ← add_assoc]
    refine (sums_add? times charge.1 charge.2).bind (fun hbeyond => hbeyond.add _) fun next hnext => ?_
    rw [← hnext]
    exact ih next

/-- What is charged by the entries of some stages is what these are charged. -/
theorem amount?_ofCharges_filterMap (times : StageTimes) (stage : Stage) {stages : List Stage}
    (h : stages.Nodup) :
    (Tally.ofCharges (stages.filterMap fun s => (times.timeOf? s).map fun time => (s, time))).amount?
      stage = if stage ∈ stages then times.tally.amount? stage else none := by
  induction stages with
  | nil => rfl
  | cons s stages ih =>
    obtain ⟨hs, hnodup⟩ := List.nodup_cons.1 h
    have hmore := ih hnodup
    cases htime : times.timeOf? s with
    | none =>
      rw [List.filterMap_cons_none (by simp [htime]), hmore]
      by_cases hsame : stage = s
      · subst hsame
        simp [tally, htime]
      · simp [hsame]
    | some time =>
      rw [List.filterMap_cons_some (by rw [htime, Option.map_some]), Tally.ofCharges, List.map_cons,
        List.sum_cons, Tally.amount?_add, ← Tally.ofCharges, hmore, Tally.single]
      by_cases hsame : stage = s
      · subst hsame
        simp [tally, htime, hs]
      · simp [hsame]

/-- **The entries of stage times make up their tally.** -/
theorem ofCharges_entries (times : StageTimes) : Tally.ofCharges times.entries = times.tally := by
  ext1
  funext stage
  have hall : stage ∈ Stage.all := by cases stage <;> decide
  rw [entries, amount?_ofCharges_filterMap times stage (by decide), if_pos hall]

/-- **Merging adds up tallies**, if all sums are within the limit. -/
theorem sums_merge? (times other : StageTimes) :
    Sums tally Tally.IsBeyond (times.merge? other) (times.tally + other.tally) := by
  rw [← ofCharges_entries other]
  exact sums_charge? times other.entries

/-- Merging takes the entries in any order. -/
theorem charge?_perm (times : StageTimes) {charges order : List (Stage × Duration)}
    (h : order.Perm charges) : times.charge? order = times.charge? charges := by
  have hsum := sums_charge? times order
  rw [Tally.ofCharges_perm h] at hsum
  exact hsum.unique (sums_charge? times charges) not_isBeyond_tally tally_injective

/-- **The times of all stages add up** to what the tally says they do. -/
theorem sums_total? (times : StageTimes) :
    Sums Duration.inNanos (Duration.limit ≤ ·) times.total? times.tally.total := by
  have hsum := Duration.sums_sum? (times.entries.map Prod.snd)
  rw [List.map_map] at hsum
  rw [← ofCharges_entries times, Tally.total_ofCharges]
  exact hsum

/-! ## Laws of merging -/

/-- Stage times with one tally are the same, or there are none of them. -/
theorem eq_of_sums {result other : Option StageTimes} {sum : Tally}
    (h : Sums tally Tally.IsBeyond result sum) (h' : Sums tally Tally.IsBeyond other sum) :
    result = other :=
  h.unique h' not_isBeyond_tally tally_injective

theorem merge?_comm (a b : StageTimes) : a.merge? b = b.merge? a := by
  have hsum := sums_merge? b a
  rw [add_comm] at hsum
  exact eq_of_sums (sums_merge? a b) hsum

theorem sums_bind_merge? {result other : Option StageTimes} {sum sum' : Tally}
    (h : Sums tally Tally.IsBeyond result sum) (h' : Sums tally Tally.IsBeyond other sum') :
    Sums tally Tally.IsBeyond (result.bind fun times => other.bind fun more => times.merge? more)
      (sum + sum') := by
  refine h.bind (fun hbeyond => hbeyond.add sum') fun times htimes => ?_
  refine h'.bind (fun hbeyond => add_comm sum' sum ▸ hbeyond.add sum) fun more hmore => ?_
  rw [← htimes, ← hmore]
  exact sums_merge? times more

theorem merge?_assoc (a b c : StageTimes) :
    ((a.merge? b).bind fun ab => ab.merge? c) = (b.merge? c).bind fun bc => a.merge? bc := by
  have hone (x : StageTimes) : Sums tally Tally.IsBeyond (some x) x.tally := rfl
  have hleft := sums_bind_merge? (sums_merge? a b) (hone c)
  have hright := sums_bind_merge? (hone a) (sums_merge? b c)
  rw [add_assoc] at hleft
  exact eq_of_sums hleft hright

/-- What is beyond the limit at one stage is beyond it in all. -/
theorem limit_le_total {x : Tally} (h : x.IsBeyond) : Duration.limit ≤ x.total := by
  obtain ⟨stage, hstage⟩ := h
  exact Nat.le_trans hstage (x.amount_le_total stage)

/-- **The total of what is merged is the sum of the totals.** -/
theorem total?_merge? (a b : StageTimes) :
    (a.merge? b).bind total? = a.total?.bind fun x => b.total?.bind fun y => x.add? y := by
  have hmerged : Sums Duration.inNanos (Duration.limit ≤ ·) ((a.merge? b).bind total?)
      (a.tally.total + b.tally.total) := by
    rw [← Tally.total_add]
    refine (sums_merge? a b).bind limit_le_total fun merged hmerged => ?_
    rw [← hmerged]
    exact sums_total? merged
  have hapart : Sums Duration.inNanos (Duration.limit ≤ ·)
      (a.total?.bind fun x => b.total?.bind fun y => x.add? y)
      (a.tally.total + b.tally.total) := by
    refine (sums_total? a).bind Nat.le_add_right_of_le fun x hx => ?_
    refine (sums_total? b).bind Nat.le_add_left_of_le fun y hy => ?_
    rw [← hx, ← hy]
    exact Duration.sums_add? x y
  exact hmerged.unique hapart Duration.not_limit_le Duration.inNanos_injective

/-! ## Sequences of calls -/

/-- How stage times come about: from none, by charging a time to a stage, and by
merging in others that came about so. -/
inductive History where
  | empty
  | add (before : History) (stage : Stage) (time : Duration)
  | merge (before other : History)

namespace History

/-- The stage times after the calls, if every sum fits. -/
def times? : History → Option StageTimes
  | empty => some .empty
  | add before stage time => before.times?.bind fun times => times.add? stage time
  | merge before other =>
    before.times?.bind fun times => other.times?.bind fun more => times.merge? more

/-- All that is charged in the calls, directly or through merges. -/
def charges : History → List (Stage × Duration)
  | empty => []
  | add before stage time => before.charges ++ [(stage, time)]
  | merge before other => before.charges ++ other.charges

/-- The nanoseconds charged to a stage. -/
def charged (history : History) (stage : Stage) : Nat :=
  ((history.charges.filter (·.1 = stage)).map (·.2.inNanos)).sum

/-- The nanoseconds charged to all stages. -/
def chargedInAll (history : History) : Nat := (history.charges.map (·.2.inNanos)).sum

/-- **Calls come to the tally of all their charges.** -/
theorem sums_times? (history : History) :
    Sums tally Tally.IsBeyond history.times? (.ofCharges history.charges) := by
  induction history with
  | empty => exact tally_empty
  | add before stage time ih =>
    rw [charges, Tally.ofCharges_append, Tally.ofCharges_singleton]
    refine ih.bind (fun hbeyond => hbeyond.add _) fun times htimes => ?_
    rw [← htimes]
    exact sums_add? times stage time
  | merge before other ihbefore ihother =>
    rw [charges, Tally.ofCharges_append]
    exact sums_bind_merge? ihbefore ihother

theorem isBeyond_iff (history : History) : (Tally.ofCharges history.charges).IsBeyond ↔
    ∃ stage, Duration.limit ≤ history.charged stage := by
  simp only [Tally.IsBeyond, Tally.amount_ofCharges, charged]

/-- **Calls fail exactly if a stage is charged too much.** -/
theorem times?_eq_none_iff (history : History) :
    history.times? = none ↔ ∃ stage, Duration.limit ≤ history.charged stage := by
  rw [history.sums_times?.eq_none_iff not_isBeyond_tally, isBeyond_iff]

theorem tally_of_times? {history : History} {times : StageTimes}
    (h : history.times? = some times) : times.tally = .ofCharges history.charges := by
  have hsum := history.sums_times?
  rw [h] at hsum
  exact hsum

/-- **Stage times account for calls** that they came about by: they hold the exact
sums, in seconds and nanoseconds, and one call more fails, or taking the total
does, exactly if an exact sum does not fit. -/
structure AccountedBy (history : History) (times : StageTimes) : Prop where
  seconds_get : ∀ stage, (times.get stage).seconds = history.charged stage / nanosPerSecond
  nanos_get : ∀ stage, (times.get stage).nanos = history.charged stage % nanosPerSecond
  add?_eq_none_iff : ∀ stage time, times.add? stage time = none ↔
    ∃ s, Duration.limit ≤ (history.add stage time).charged s
  merge?_eq_none_iff : ∀ other more, other.times? = some more →
    (times.merge? more = none ↔ ∃ s, Duration.limit ≤ (history.merge other).charged s)
  total?_eq_none_iff : times.total? = none ↔ Duration.limit ≤ history.chargedInAll
  total_eq : ∀ t, times.total? = some t →
    t.seconds = history.chargedInAll / nanosPerSecond ∧
      t.nanos = history.chargedInAll % nanosPerSecond
  /-- The entries may be summed in any order. -/
  total?_order : ∀ order : List (Stage × Duration), order.Perm times.entries →
    Duration.sum? (order.map Prod.snd) = times.total?

/-- What calls come to is accounted by them. -/
theorem accountedBy_of_times? {history : History} {times : StageTimes}
    (h : history.times? = some times) : history.AccountedBy times := by
  have htally := tally_of_times? h
  have hget (stage : Stage) : (times.get stage).inNanos = history.charged stage := by
    rw [← amount_tally, htally, Tally.amount_ofCharges, charged]
  have htotal : Sums Duration.inNanos (Duration.limit ≤ ·) times.total? history.chargedInAll := by
    rw [chargedInAll, ← Tally.total_ofCharges, ← htally]
    exact sums_total? times
  constructor
  case seconds_get =>
    intro stage
    rw [Duration.seconds_eq, hget]
  case nanos_get =>
    intro stage
    rw [Duration.nanos_eq, hget]
  case add?_eq_none_iff =>
    intro stage time
    rw [← times?_eq_none_iff, times?, h, Option.bind_some]
  case merge?_eq_none_iff =>
    intro other more hmore
    rw [← times?_eq_none_iff, times?, h, hmore, Option.bind_some, Option.bind_some]
  case total?_eq_none_iff => exact htotal.eq_none_iff Duration.not_limit_le
  case total_eq =>
    intro t ht
    rw [ht] at htotal
    have hsum : t.inNanos = history.chargedInAll := htotal
    rw [Duration.seconds_eq, Duration.nanos_eq, hsum]
    exact ⟨rfl, rfl⟩
  case total?_order =>
    intro order horder
    exact Duration.sum?_perm (horder.map Prod.snd)

end History

/-- **Stage times add up exactly, in any order.** Calls fail exactly if all that
is charged to some stage does not fit into a duration, and otherwise the stage
times account for them. Calls with the same charges come to the same, in
whatever order and through whatever merges these are made, and entries may be
merged in any order. Merging is commutative and associative, and the total of
what is merged is the sum of the totals, all of this also where a sum does not
fit. -/
theorem addUp_exactly :
    (∀ history : History,
      (history.times? = none ↔ ∃ stage, Duration.limit ≤ history.charged stage) ∧
      ∀ times, history.times? = some times → history.AccountedBy times) ∧
    (∀ history other : History, history.charges.Perm other.charges →
      history.times? = other.times?) ∧
    ∀ a b c : StageTimes,
      (∀ order : List (Stage × Duration), order.Perm b.entries → a.charge? order = a.merge? b) ∧
      a.merge? b = b.merge? a ∧
      ((a.merge? b).bind fun ab => ab.merge? c) = ((b.merge? c).bind fun bc => a.merge? bc) ∧
      (a.merge? b).bind total? = a.total?.bind fun x => b.total?.bind fun y => x.add? y := by
  refine ⟨fun history => ⟨history.times?_eq_none_iff, fun _ => History.accountedBy_of_times?⟩,
    fun history other h => ?_, fun a b c => ⟨fun order => charge?_perm a, merge?_comm a b,
      merge?_assoc a b c, total?_merge? a b⟩⟩
  have hsum := history.sums_times?
  rw [Tally.ofCharges_perm h] at hsum
  exact eq_of_sums hsum other.sums_times?

end StageTimes

end AggregatedRecords
