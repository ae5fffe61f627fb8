import AggregatedRecords.Proofs.Bytes
import AggregatedRecords.Proofs.Frame
/-!
# MD5 — the running state is the digest so far

A running state `Holds` the octets that were taken in: whole blocks of them are
compressed, and those behind the last whole block are pending. That stays so
with every octet (`Md5.Holds.push`), so it makes no difference how octets are cut
into chunks. The padding fills the last block, whatever was pending, so the
digest of a state is the digest of the octets that it holds
(`Md5.Holds.digest_eq`), and asking for it changes nothing
(`Md5.State.run_eq`).
-/

namespace AggregatedRecords

namespace Md5

variable {s : State} {message : Bytes}

/-! ## What a state holds -/

/-- **A state holds a message**: its blocks are compressed, and the octets behind
them are pending. -/
def Holds (s : State) (message : Bytes) : Prop :=
  ∃ (blocks : List Bytes) (rest : Bytes), message = blocks.flatten ++ rest ∧
    (∀ block ∈ blocks, block.length = 64) ∧ rest.length < 64 ∧
      s = ⟨blocks.foldl compress .initial, rest.reverse, message.length⟩

theorem holds_empty : Holds .empty [] :=
  ⟨[], [], rfl, by simp, by decide, rfl⟩

theorem length_flatten_blocks {blocks : List Bytes} (h : ∀ block ∈ blocks, block.length = 64) :
    blocks.flatten.length = 64 * blocks.length := by
  induction blocks with
  | nil => rfl
  | cons block blocks ih =>
    rw [List.flatten_cons, List.length_append, h block List.mem_cons_self,
      ih fun b hb => h b (List.mem_cons_of_mem block hb), List.length_cons]
    omega

/-- As many octets are pending as are left of whole blocks. -/
theorem length_mod {blocks : List Bytes} {rest : Bytes}
    (hblocks : ∀ block ∈ blocks, block.length = 64) (hrest : rest.length < 64) :
    (blocks.flatten ++ rest).length % 64 = rest.length := by
  rw [List.length_append, length_flatten_blocks hblocks]
  omega

/-- **One more octet is held**, and fills a block or is pending. -/
theorem Holds.push (h : Holds s message) (x : UInt8) : Holds (s.push x) (message ++ [x]) := by
  obtain ⟨blocks, rest, rfl, hblocks, hrest, rfl⟩ := h
  have hlength := length_mod hblocks hrest
  by_cases hfull : rest.length = 63
  · refine ⟨blocks ++ [rest ++ [x]], [], by simp, ?_, by decide, ?_⟩
    · intro block hblock
      obtain hblock | hblock := List.mem_append.1 hblock
      · exact hblocks block hblock
      · rw [List.mem_singleton.1 hblock, List.length_append, hfull, List.length_singleton]
    · simp only [State.push]
      rw [if_pos (hlength.trans hfull)]
      simp [Nat.add_assoc]
  · refine ⟨blocks, rest ++ [x], by simp, hblocks, ?_, ?_⟩
    · rw [List.length_append, List.length_singleton]
      omega
    · simp only [State.push]
      rw [if_neg (hlength ▸ hfull)]
      simp [Nat.add_assoc]

theorem Holds.append (h : Holds s message) (chunk : Bytes) :
    Holds (s.append chunk) (message ++ chunk) := by
  induction chunk generalizing s message with
  | nil => rwa [List.append_nil]
  | cons x chunk ih =>
    have hmore := ih (h.push x)
    rwa [List.append_assoc, List.singleton_append] at hmore

/-- Chunks are held as the message that they are one after the other. -/
theorem holds_foldl_append (chunks : List Bytes) :
    Holds (chunks.foldl State.append .empty) chunks.flatten := by
  have hfold (chunks : List Bytes) {s : State} {message : Bytes} (h : Holds s message) :
      Holds (chunks.foldl State.append s) (message ++ chunks.flatten) := by
    induction chunks generalizing s message with
    | nil => rwa [List.flatten_nil, List.append_nil]
    | cons chunk chunks ih =>
      have hmore := ih (h.append chunk)
      rwa [List.append_assoc] at hmore
  exact hfold chunks holds_empty

/-! ## The digest -/

/-- The padding fills the last block. -/
theorem length_append_padding (message : Bytes) :
    (message ++ padding message.length).length % 64 = 0 := by
  simp only [padding, List.length_append, List.length_cons, List.length_replicate,
    length_littleEndian]
  omega

/-- **The digest of a state is that of the message it holds.** -/
theorem Holds.digest_eq (h : Holds s message) : s.digest = Md5.digest message := by
  have hlength : s.length = message.length := by
    obtain ⟨_, _, rfl, _, _, rfl⟩ := h
    rfl
  obtain ⟨blocks, rest, hmessage, hblocks, hrest, hstate⟩ := h.append (padding message.length)
  have hnone : rest = [] := by
    have hmod := length_mod hblocks hrest
    rw [← hmessage, length_append_padding] at hmod
    exact List.length_eq_zero_iff.1 hmod.symm
  rw [State.digest, hlength, hstate, Md5.digest, hmessage, hnone, List.append_nil,
    groupsOf_flatten (by decide) hblocks]

/-! ## Sequences of calls -/

/-- What is done with a running state. -/
inductive Call where
  /-- Takes in a chunk of octets. -/
  | update (chunk : Bytes)
  /-- Asks for the digest so far. -/
  | digest

namespace Call

/-- The octets that calls take in, one chunk after the other. -/
def taken : List Call → Bytes
  | [] => []
  | update chunk :: calls => chunk ++ taken calls
  | digest :: calls => taken calls

/-- The digests that calls ask for, each of all octets taken in before. -/
def digests (before : Bytes) : List Call → List Bytes
  | [] => []
  | update chunk :: calls => digests (before ++ chunk) calls
  | digest :: calls => Md5.digest before :: digests before calls

end Call

namespace State

/-- The state after a call, and the digest if the call asks for it. -/
def call (s : State) : Call → State × Option Bytes
  | .update chunk => (s.append chunk, none)
  | .digest => (s, some s.digest)

/-- The state after calls, and the digests that they asked for. -/
def run (s : State) : List Call → State × List Bytes
  | [] => (s, [])
  | call :: calls =>
    let rest := (s.call call).1.run calls
    (rest.1, (s.call call).2.toList ++ rest.2)

/-- **Every digest is that of the octets so far**, and the state at the end is the
one after these octets, whatever was asked for in between. -/
theorem run_eq (h : Holds s message) (calls : List Call) :
    s.run calls = (s.append (Call.taken calls), Call.digests message calls) := by
  induction calls generalizing s message with
  | nil => rfl
  | cons call calls ih =>
    cases call with
    | update chunk =>
      simp only [run, State.call]
      rw [ih (h.append chunk), append_append]
      rfl
    | digest =>
      simp only [run, State.call]
      rw [ih h, h.digest_eq]
      rfl

end State

end Md5

end AggregatedRecords
