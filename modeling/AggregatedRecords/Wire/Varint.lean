import AggregatedRecords.Wire.Reader
/-!
# Wire — varints

A number in groups of seven bits, the lowest group first; the high bit of an
octet says that another one follows. Ten octets hold 64 bits, so the tenth may
be at most one. Reading accepts also forms that are longer than needed.
-/

namespace AggregatedRecords

namespace Wire

namespace Varint

/-- The shortest form of a number. -/
def encode (n : Nat) : Bytes :=
  if n < 128 then [UInt8.ofNat n] else UInt8.ofNat (n % 128 + 128) :: encode (n / 128)
termination_by n

/-- The length of the shortest form: one octet for every seven bits. -/
def encodedLength (n : Nat) : Nat := n.log2 / 7 + 1

/-- The most octets a varint has. -/
def maxLength : Nat := 10

/-- Reads a varint of at most `groups` octets, of which the last possible one
holds a single bit. -/
def readGroups : (groups : Nat) → Reader Nat
  | 0 => .fail .invalidVarint
  | groups + 1 => do
    let x ← Reader.octet
    if x < 128 then
      if groups = 0 ∧ 1 < x then .fail .invalidVarint else pure x.toNat
    else
      let high ← readGroups groups
      pure (x.toNat % 128 + 128 * high)

/-- Reads a varint. -/
def read : Reader Nat := readGroups maxLength

/-- A varint takes up octets. -/
theorem readGroups_lt {groups : Nat} {u rest : Unread} {n : Nat}
    (h : (readGroups groups).run u = .ok (n, rest)) : rest.size < u.size := by
  cases groups with
  | zero => simp [readGroups] at h
  | succ groups =>
    cases hx : Reader.octet.run u with
    | error e => simp [readGroups, Consumer.run_bind, hx] at h
    | ok p =>
      have hlt : p.2.size < u.size := Reader.octet_lt hx
      rw [readGroups, Consumer.run_bind_of_ok hx] at h
      exact Nat.lt_of_le_of_lt (Consumer.shrinks _ h) hlt

/-- A varint that was read is gone. -/
theorem read_lt {u rest : Unread} {n : Nat} (h : read.run u = .ok (n, rest)) :
    rest.size < u.size := readGroups_lt h

end Varint

end Wire

end AggregatedRecords
