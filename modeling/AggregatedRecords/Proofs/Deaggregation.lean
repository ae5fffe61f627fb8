import AggregatedRecords.Deaggregation
import Mathlib.Data.List.Forall2
/-!
# Deaggregation — which user records a message stands for

`AggregatedRecord.StandsFor` says that a record, read against the tables of a
message, is a user record. Deaggregation gives a list of user records exactly
when the records of the message stand for them one by one
(`AggregatedRecord.deaggregate_eq_ok_iff`).

Where some record has an index that its table has no entry for, the first such
record is reported (`AggregatedRecord.deaggregate_eq_error_iff`). Together this
decides every message (`AggregatedRecord.deaggregate_firstFault`).
-/

namespace AggregatedRecords

namespace AggregatedRecord

/-- **What a record stands for**: the keys at its indices, an explicit hash key
exactly where it has an index of one, and its data. -/
structure StandsFor (message : AggregatedRecord) (record : Record) (user : UserRecord) : Prop where
  partitionKey :
    message.partitionKeyTable[record.partitionKeyIndex.toNat]? = some user.partitionKey
  explicitHashKey :
    record.explicitHashKeyIndex.map (fun index => message.explicitHashKeyTable[index.toNat]?) =
      user.explicitHashKey.map some
  data : record.data = user.data

/-- **A record is resolved to what it stands for.** -/
theorem resolve_eq_ok_iff {message : AggregatedRecord} {record : Record} {position : Nat}
    {user : UserRecord} :
    message.resolve record position = .ok user ↔ message.StandsFor record user := by
  obtain ⟨partitionIndex, hashIndex, data, tags⟩ := record
  obtain ⟨partitionKey, hashKey, userData⟩ := user
  have hsplit : message.StandsFor ⟨partitionIndex, hashIndex, data, tags⟩
      ⟨partitionKey, hashKey, userData⟩ ↔
      message.partitionKeyTable[partitionIndex.toNat]? = some partitionKey ∧
        hashIndex.map (fun index => message.explicitHashKeyTable[index.toNat]?) =
          hashKey.map some ∧ data = userData :=
    ⟨fun h => ⟨h.partitionKey, h.explicitHashKey, h.data⟩, fun ⟨h₁, h₂, h₃⟩ => ⟨h₁, h₂, h₃⟩⟩
  rw [hsplit, resolve, lookUp]
  -- the partition key is looked up first, and the hash key only where there is an index
  cases message.partitionKeyTable[partitionIndex.toNat]? with
  | none => simp [bind, Except.bind]
  | some foundKey =>
    cases hashIndex with
    | none => cases hashKey <;> simp [bind, Except.bind, pure, Except.pure]
    | some index =>
      simp only [lookUp, bind, Except.bind]
      cases hlook : message.explicitHashKeyTable[index.toNat]? with
      | none => cases hashKey <;> simp [Functor.map, Except.map, hlook]
      | some foundHash =>
        cases hashKey <;> simp [Functor.map, Except.map, pure, Except.pure, hlook]

/-- Records from a position on are resolved when each of them is. -/
theorem mapM_resolve_eq_ok_iff {message : AggregatedRecord} :
    ∀ {records : List Record} {users : List UserRecord} (position : Nat),
      ((records.zipIdx position).mapM fun (record, position) => message.resolve record position) =
          .ok users ↔
        List.Forall₂ message.StandsFor records users := by
  intro records
  induction records with
  | nil =>
    intro users position
    simp [pure, Except.pure, eq_comm]
  | cons record records ih =>
    intro users position
    rw [List.zipIdx_cons, List.mapM_cons, List.forall₂_cons_left_iff]
    constructor
    · intro h
      cases hfirst : message.resolve record position with
      | error e => simp [hfirst, bind, Except.bind] at h
      | ok user =>
        cases hrest : (records.zipIdx (position + 1)).mapM fun (record, position) =>
            message.resolve record position with
        | error e => simp [hfirst, hrest, bind, Except.bind] at h
        | ok rest =>
          simp only [hfirst, hrest, bind, Except.bind, pure, Except.pure, Except.ok.injEq] at h
          exact ⟨user, rest, resolve_eq_ok_iff.1 hfirst, (ih _).1 hrest, h.symm⟩
    · rintro ⟨user, rest, hfirst, hrest, rfl⟩
      simp only [resolve_eq_ok_iff.2 hfirst, (ih (position + 1)).2 hrest, bind, Except.bind, pure,
        Except.pure]

/-- **Deaggregation gives what the records stand for**, one user record for
each, and fails if one of them stands for none. -/
theorem deaggregate_eq_ok_iff {message : AggregatedRecord} {users : List UserRecord} :
    message.deaggregate = .ok users ↔
      List.Forall₂ message.StandsFor message.records.toList users :=
  mapM_resolve_eq_ok_iff 0

/-! ## The first fault -/

/-- **The tables of a message cover a record** if they have an entry at each of
its indices. -/
structure Covers (message : AggregatedRecord) (record : Record) : Prop where
  partitionKey : record.partitionKeyIndex.toNat < message.partitionKeyTable.size
  explicitHashKey : ∀ index, record.explicitHashKeyIndex = some index →
    index.toNat < message.explicitHashKeyTable.size

/-- **What is wrong with the record at a position.** An explicit hash key is at
fault only where the partition key is not. -/
inductive Fault (message : AggregatedRecord) (record : Record) (position : Nat) :
    DanglingIndex → Prop
  | partitionKey (h : message.partitionKeyTable.size ≤ record.partitionKeyIndex.toNat) :
      message.Fault record position
        ⟨.partitionKey, position, record.partitionKeyIndex, message.partitionKeyTable.size⟩
  | explicitHashKey (index : UInt64)
      (hcovered : record.partitionKeyIndex.toNat < message.partitionKeyTable.size)
      (hindex : record.explicitHashKeyIndex = some index)
      (h : message.explicitHashKeyTable.size ≤ index.toNat) :
      message.Fault record position
        ⟨.explicitHashKey, position, index, message.explicitHashKeyTable.size⟩

/-- **The first fault of a message** is that of a record behind none but covered
ones, whatever comes after it. -/
def FirstFault (message : AggregatedRecord) (e : DanglingIndex) : Prop :=
  ∃ (position : Nat) (record : Record), message.records[position]? = some record ∧
    (∀ i < position, ∀ earlier, message.records[i]? = some earlier → message.Covers earlier) ∧
    message.Fault record position e

variable {message : AggregatedRecord} {record : Record} {position : Nat} {e : DanglingIndex}

theorem covers_or_fault (message : AggregatedRecord) (record : Record) (position : Nat) :
    message.Covers record ∨ ∃ e, message.Fault record position e := by
  rcases Nat.lt_or_ge record.partitionKeyIndex.toNat message.partitionKeyTable.size with
    hcovered | hdangling
  · by_cases h : ∀ index, record.explicitHashKeyIndex = some index →
        index.toNat < message.explicitHashKeyTable.size
    · exact .inl ⟨hcovered, h⟩
    · obtain ⟨index, hfails⟩ := not_forall.1 h
      obtain ⟨hindex, hdangling⟩ := Classical.not_imp.1 hfails
      exact .inr ⟨_, .explicitHashKey index hcovered hindex (Nat.not_lt.1 hdangling)⟩
  · exact .inr ⟨_, .partitionKey hdangling⟩

theorem lookUp_of_lt {kind : KeyKind} {table : Array String} {index : UInt64}
    (h : index.toNat < table.size) : lookUp kind table position index = .ok table[index.toNat] := by
  rw [lookUp, Array.getElem?_eq_getElem h]

theorem lookUp_of_size_le {kind : KeyKind} {table : Array String} {index : UInt64}
    (h : table.size ≤ index.toNat) :
    lookUp kind table position index = .error ⟨kind, position, index, table.size⟩ := by
  rw [lookUp, Array.getElem?_eq_none h]

/-- A record that the tables cover is resolved, -/
theorem Covers.resolve (h : message.Covers record) (position : Nat) :
    ∃ user, message.resolve record position = .ok user := by
  rw [AggregatedRecord.resolve, lookUp_of_lt h.partitionKey]
  cases hindex : record.explicitHashKeyIndex with
  | none => exact ⟨_, rfl⟩
  | some index =>
    simp only [lookUp_of_lt (h.explicitHashKey index hindex)]
    exact ⟨_, rfl⟩

/-- and any other fails with what is wrong with it. -/
theorem Fault.resolve (h : message.Fault record position e) :
    message.resolve record position = .error e := by
  cases h with
  | partitionKey h =>
    rw [AggregatedRecord.resolve, lookUp_of_size_le h]
    rfl
  | explicitHashKey index hcovered hindex h =>
    rw [AggregatedRecord.resolve, lookUp_of_lt hcovered, hindex]
    simp only [lookUp_of_size_le h]
    rfl

theorem resolve_eq_error_iff :
    message.resolve record position = .error e ↔ message.Fault record position e := by
  refine ⟨fun h => ?_, Fault.resolve⟩
  rcases message.covers_or_fault record position with hcovers | ⟨cause, hfault⟩
  · obtain ⟨user, huser⟩ := hcovers.resolve position
    cases h.symm.trans huser
  · rw [hfault.resolve, Except.error.injEq] at h
    exact h ▸ hfault

theorem Covers.not_fault (h : message.Covers record) : ¬ message.Fault record position e := by
  intro hfault
  obtain ⟨user, huser⟩ := h.resolve position
  cases hfault.resolve.symm.trans huser

theorem StandsFor.covers {user : UserRecord} (h : message.StandsFor record user) :
    message.Covers record := by
  refine (message.covers_or_fault record 0).resolve_right ?_
  rintro ⟨e, hfault⟩
  cases hfault.resolve.symm.trans (resolve_eq_ok_iff.2 h)

/-- The tables cover exactly the records that are resolved. -/
theorem exists_resolve_iff :
    (∃ user, message.resolve record position = .ok user) ↔ message.Covers record :=
  ⟨fun ⟨_, huser⟩ => (resolve_eq_ok_iff.1 huser).covers, fun h => h.resolve position⟩

/-- A list fails with its first element, or behind one that does not fail. -/
theorem mapM_cons_eq_error_iff {α β ε : Type} {f : α → Except ε β} {a : α} {rest : List α} {e : ε} :
    (a :: rest).mapM f = .error e ↔
      f a = .error e ∨ (∃ b, f a = .ok b) ∧ rest.mapM f = .error e := by
  rw [List.mapM_cons]
  cases f a with
  | error cause => simp [bind, Except.bind]
  | ok b => cases rest.mapM f <;> simp [bind, Except.bind, pure, Except.pure]

/-- **Records from a position on fail with the first fault among them**: those
before it are covered, whatever there is behind it. -/
theorem mapM_resolve_eq_error_iff {records : List Record} (start : Nat) :
    ((records.zipIdx start).mapM fun (record, position) => message.resolve record position) =
        .error e ↔
      ∃ i record, records[i]? = some record ∧
        (∀ j < i, ∀ earlier, records[j]? = some earlier → message.Covers earlier) ∧
        message.Fault record (start + i) e := by
  induction records generalizing start with
  | nil => simp [pure, Except.pure]
  | cons first records ih =>
    rw [List.zipIdx_cons, mapM_cons_eq_error_iff, ih, resolve_eq_error_iff, exists_resolve_iff]
    have hnext (i : Nat) : start + 1 + i = start + (i + 1) := by omega
    constructor
    · rintro (hfault | ⟨hcovers, i, record, hrecord, hbefore, hfault⟩)
      · exact ⟨0, first, rfl, fun j hj => absurd hj (Nat.not_lt_zero j), hfault⟩
      · refine ⟨i + 1, record, hrecord, ?_, hnext i ▸ hfault⟩
        rintro (_ | j) hj earlier hearlier
        · obtain rfl := Option.some.inj hearlier
          exact hcovers
        · exact hbefore j (Nat.lt_of_succ_lt_succ hj) earlier hearlier
    · rintro ⟨_ | i, record, hrecord, hbefore, hfault⟩
      · obtain rfl := Option.some.inj hrecord
        exact .inl hfault
      · refine .inr ⟨hbefore 0 (Nat.zero_lt_succ i) first rfl, i, record, hrecord, ?_,
          (hnext i).symm ▸ hfault⟩
        exact fun j hj => hbefore (j + 1) (Nat.succ_lt_succ hj)

/-- **What is not resolved is reported by its first fault.** -/
theorem deaggregate_eq_error_iff : message.deaggregate = .error e ↔ message.FirstFault e := by
  rw [deaggregate, mapM_resolve_eq_error_iff, FirstFault]
  simp only [Array.getElem?_toList, Nat.zero_add]

/-- A message is resolved exactly if its tables cover all of its records. -/
theorem exists_deaggregate_iff :
    (∃ users, message.deaggregate = .ok users) ↔
      ∀ record ∈ message.records, message.Covers record := by
  constructor
  · rintro ⟨users, husers⟩ record hrecord
    have hcovers := (deaggregate_eq_ok_iff.1 husers).imp fun _ _ h => And.intro h.covers h
    exact ((List.forall₂_and_left _ _).1 hcovers).1 record (Array.mem_toList_iff.2 hrecord)
  · intro hcovers
    cases hresult : message.deaggregate with
    | ok users => exact ⟨users, rfl⟩
    | error e =>
      obtain ⟨position, record, hrecord, -, hfault⟩ := deaggregate_eq_error_iff.1 hresult
      exact absurd hfault (hcovers record (Array.mem_of_getElem? hrecord)).not_fault

/-- **Every message is resolved as a whole, or its first fault is reported.** It
is resolved exactly if its tables cover all records, and then there is one user
record for each, in order: the keys at its indices, a hash key exactly where it
has an index of one, and its data. Otherwise the error is that of the first
record that is not covered, of its partition key where both indices dangle, with
the position, the index and the size of the table. -/
theorem deaggregate_firstFault (message : AggregatedRecord) :
    ((∃ users, message.deaggregate = .ok users) ↔
      ∀ record ∈ message.records, message.Covers record) ∧
    (∀ users, message.deaggregate = .ok users → users.length = message.records.size ∧
      ∀ (i : Nat) record user, message.records[i]? = some record → users[i]? = some user →
        message.StandsFor record user) ∧
    ∀ e, message.deaggregate = .error e ↔ message.FirstFault e := by
  refine ⟨exists_deaggregate_iff, fun users husers => ?_, fun e => deaggregate_eq_error_iff⟩
  obtain ⟨hlength, hget⟩ := List.forall₂_iff_get.1 (deaggregate_eq_ok_iff.1 husers)
  refine ⟨hlength.symm, fun i record user hrecord huser => ?_⟩
  obtain ⟨hi, rfl⟩ := Array.getElem?_eq_some_iff.1 hrecord
  obtain ⟨hi', rfl⟩ := List.getElem?_eq_some_iff.1 huser
  exact hget i hi hi'

/-- The second record dangles with both of its indices, and the third one too. -/
example : deaggregate ⟨#["a"], #["b"],
    #[⟨0, some 0, [1], #[]⟩, ⟨1, some 2, [], #[]⟩, ⟨0, some 1, [], #[]⟩]⟩ =
      .error ⟨.partitionKey, 1, 1, 1⟩ := by
  rfl

end AggregatedRecord

end AggregatedRecords
