import AggregatedRecords.Proofs.KeyTable
/-!
# Key table — histories of calls

Texts are interned and looked up in any order, and now and then the table is
taken. `KeyTable.Numbers` relates a table to what was handed out since it was last
taken: the texts stand in it in the order in which they were first interned, and at
each index stands the one text that the index was handed out for. A call keeps this
(`KeyTable.Numbers.call`), and so do any number of them (`KeyTable.Numbers.run`).
What a later table says of an earlier index follows from it
(`KeyTable.indices_run`).
-/

namespace AggregatedRecords

namespace KeyTable

/-- A call on a key table. -/
inductive Call where
  | intern (key : String)
  | indexOf (key : String)
  | take
deriving Repr, DecidableEq

/-- A call together with what it handed back. -/
inductive Outcome where
  | intern (key : String) (index : Nat)
  | indexOf (key : String) (index? : Option Nat)
  | take (keys : Array String)
deriving Repr, DecidableEq

/-- Makes a call. -/
def call (table : KeyTable) : Call → Outcome × KeyTable
  | .intern key =>
    let (index, table) := table.intern key
    (.intern key index, table)
  | .indexOf key => (.indexOf key (table.indexOf? key), table)
  | .take =>
    let (keys, table) := table.take
    (.take keys, table)

/-- Makes calls one after the other. -/
def run (table : KeyTable) : List Call → List Outcome × KeyTable
  | [] => ([], table)
  | c :: calls =>
    let (outcome, table) := table.call c
    let (outcomes, table) := table.run calls
    (outcome :: outcomes, table)

/-- The outcomes since a table was last taken, from those before a call. -/
def sinceAfter (since : List Outcome) : Outcome → List Outcome
  | .take _ => []
  | outcome => since ++ [outcome]

/-- **The outcomes since a table was last taken**, in the order of their calls. -/
def sinceTake (outcomes : List Outcome) : List Outcome := outcomes.foldl sinceAfter []

/-- The text that a call interned. -/
def Outcome.interned? : Outcome → Option String
  | .intern key _ => some key
  | _ => none

/-- **What a table holds**, given the outcomes since it was last taken. -/
structure Numbers (table : KeyTable) (since : List Outcome) : Prop where
  keys : table.keys.toList = (since.filterMap Outcome.interned?).eraseDups
  handedOut_iff : ∀ (key : String) (index : Nat),
    Outcome.intern key index ∈ since ↔ table.keys[index]? = some key

variable {table : KeyTable} {since : List Outcome} {key other : String} {index : Nat}

/-! ## One call -/

/-- After a text is interned there stands what stood there before, and the text at
its position. -/
theorem getElem?_intern_iff : (table.intern key).2.keys[index]? = some other ↔
    table.keys[index]? = some other ∨ other = key ∧ index = (table.intern key).1 := by
  constructor
  · intro h
    cases hkey : table.indexOf? key with
    | some position =>
      rw [intern_of_some hkey] at h
      exact Or.inl h
    | none =>
      obtain ⟨hposition, hkeys⟩ := intern_of_none hkey
      rw [hkeys, Array.getElem?_push] at h
      split at h
      · next hsize => exact Or.inr ⟨(Option.some.inj h).symm, hsize.trans hposition.symm⟩
      · exact Or.inl h
  · rintro (h | ⟨rfl, rfl⟩)
    · exact getElem?_intern_of_eq_some h
    · exact getElem?_intern table other

theorem numbers_empty : empty.Numbers [] where
  keys := rfl
  handedOut_iff key index := by simp [empty]

namespace Numbers

/-- **A call keeps what a table holds** in step with what was handed out. -/
theorem call (h : table.Numbers since) (c : Call) :
    (table.call c).2.Numbers (sinceAfter since (table.call c).1) := by
  cases c with
  | intern key =>
    constructor
    · have hkeys := toList_intern h.keys key
      simpa [KeyTable.call, sinceAfter, Outcome.interned?] using hkeys
    · intro other index
      have hbefore := h.handedOut_iff other index
      simp [KeyTable.call, sinceAfter, getElem?_intern_iff, hbefore]
  | indexOf key =>
    constructor
    · simpa [KeyTable.call, sinceAfter, Outcome.interned?, List.filterMap_cons] using h.keys
    · intro other index
      simpa [KeyTable.call, sinceAfter] using h.handedOut_iff other index
  | take => exact numbers_empty

/-- And so do any calls. -/
theorem run (h : table.Numbers since) (calls : List Call) :
    (table.run calls).2.Numbers ((table.run calls).1.foldl sinceAfter since) := by
  induction calls generalizing table since with
  | nil => exact h
  | cons c calls ih => exact ih (h.call c)

/-! ## What follows for a table -/

/-- An index is where its text is found. -/
theorem indexOf?_eq_some_iff (h : table.Numbers since) :
    table.indexOf? key = some index ↔ Outcome.intern key index ∈ since := by
  rw [KeyTable.indexOf?_eq_some_iff, h.handedOut_iff]

/-- A text that was interned keeps its index. -/
theorem intern_eq (h : table.Numbers since) (hmem : Outcome.intern key index ∈ since) :
    table.intern key = (index, table) :=
  intern_of_some (h.indexOf?_eq_some_iff.2 hmem)

/-- **Indices are the same for the same text only.** -/
theorem index_eq_iff (h : table.Numbers since) {index' : Nat}
    (hkey : Outcome.intern key index ∈ since) (hother : Outcome.intern other index' ∈ since) :
    key = other ↔ index = index' := by
  constructor
  · rintro rfl
    have hindex := h.indexOf?_eq_some_iff.2 hkey
    rw [h.indexOf?_eq_some_iff.2 hother] at hindex
    exact (Option.some.inj hindex).symm
  · rintro rfl
    have htext := (h.handedOut_iff key index).1 hkey
    rw [(h.handedOut_iff other index).1 hother] at htext
    exact (Option.some.inj htext).symm

/-- **A new text gets the next index**, and stands at the end of the table. -/
theorem intern_of_notMem (h : table.Numbers since)
    (hnew : ∀ index, Outcome.intern key index ∉ since) :
    (table.intern key).1 = table.size ∧
      (table.intern key).2.keys.toList = table.keys.toList ++ [key] := by
  have hnone : table.indexOf? key = none := by
    rw [Option.eq_none_iff_forall_ne_some]
    exact fun index hindex => hnew index (h.indexOf?_eq_some_iff.1 hindex)
  obtain ⟨hindex, hkeys⟩ := intern_of_none hnone
  exact ⟨hindex, by rw [hkeys, Array.toList_push]⟩

end Numbers

/-! ## Histories -/

/-- What a new table holds after any calls. -/
theorem numbers_run (calls : List Call) :
    (empty.run calls).2.Numbers (sinceTake (empty.run calls).1) :=
  numbers_empty.run calls

/-- **Indices are those of the table that is taken**, whatever was called before.
Since a table was last taken, texts have been numbered in the order in which they
were first interned. An index that was handed out is within the table and is handed
out again for its text, and for no other; a new text gets the next one, which is as
many as there are texts. Looking a text up gives its index if it has one, and changes
nothing. And the table that is taken has no text twice and each text at the index
that was handed out for it, and leaves a table like a new one. -/
theorem indices_run (calls : List Call) :
    ∃ outcomes table, empty.run calls = (outcomes, table) ∧
      table.keys.toList = ((sinceTake outcomes).filterMap Outcome.interned?).eraseDups ∧
      (∀ key index, Outcome.intern key index ∈ sinceTake outcomes →
        index < table.size ∧ table.call (.intern key) = (.intern key index, table) ∧
          ∀ other index', Outcome.intern other index' ∈ sinceTake outcomes →
            (key = other ↔ index = index')) ∧
      (∀ key, (∀ index, Outcome.intern key index ∉ sinceTake outcomes) →
        ∃ grown, table.call (.intern key) = (.intern key table.size, grown) ∧
          grown.size = table.size + 1 ∧ grown.keys.toList = table.keys.toList ++ [key]) ∧
      (∀ key, ∃ index?, table.call (.indexOf key) = (.indexOf key index?, table) ∧
        ∀ index, index? = some index ↔ Outcome.intern key index ∈ sinceTake outcomes) ∧
      ∃ keys, table.call .take = (.take keys, empty) ∧ keys.toList.Nodup ∧
        ∀ key index, Outcome.intern key index ∈ sinceTake outcomes ↔ keys[index]? = some key := by
  have h := numbers_run calls
  refine ⟨_, _, rfl, h.keys, fun key index hmem => ⟨?_, ?_, fun other index' hother =>
    h.index_eq_iff hmem hother⟩, fun key hnew => ?_, fun key => ⟨_, rfl, fun index =>
    h.indexOf?_eq_some_iff⟩, _, rfl, nodup_keys _, h.handedOut_iff⟩
  · exact (Array.getElem?_eq_some_iff.1 ((h.handedOut_iff key index).1 hmem)).1
  · simp only [call, h.intern_eq hmem]
  · obtain ⟨hindex, hkeys⟩ := h.intern_of_notMem hnew
    refine ⟨_, by simp only [call, hindex], ?_, hkeys⟩
    have hlength := congrArg List.length hkeys
    simpa [size] using hlength

/-- So after the table is taken, the first text to be interned has index zero, whatever its
index was before. -/
example : (empty.run [.intern "a", .intern "b", .intern "a", .take, .intern "b"]).1 =
    [.intern "a" 0, .intern "b" 1, .intern "a" 0, .take #["a", "b"], .intern "b" 0] := by cbv

end KeyTable

end AggregatedRecords
