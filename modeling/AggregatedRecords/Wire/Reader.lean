import AggregatedRecords.Bytes
import AggregatedRecords.Consumer
import AggregatedRecords.Wire.Failure
/-!
# Wire — readers of octets

A reader consumes octets. The number of unread octets is kept beside them, as
every length on the wire is held against it.
-/

namespace AggregatedRecords

namespace Wire

/-- The octets still to be read, and how many they are. -/
@[ext] structure Unread where
  octets : Bytes
  size : Nat
  size_eq : size = octets.length

namespace Unread

instance : Sized Unread := ⟨Unread.size⟩

/-- A byte string of which nothing has been read. -/
def ofBytes (b : Bytes) : Unread := ⟨b, b.length, rfl⟩

@[simp] theorem octets_ofBytes (b : Bytes) : (ofBytes b).octets = b := rfl

/-- What is left without the first `n` octets. -/
def drop (n : Nat) (u : Unread) : Unread where
  octets := u.octets.drop n
  size := u.size - n
  size_eq := by simp [u.size_eq]

@[simp] theorem octets_drop (n : Nat) (u : Unread) : (u.drop n).octets = u.octets.drop n := rfl

/-- Two rests with the same octets are one. -/
theorem eq_of_octets {u v : Unread} (h : u.octets = v.octets) : u = v :=
  Unread.ext h (by rw [u.size_eq, v.size_eq, h])

end Unread

/-- A way to read a value off the front of octets. -/
abbrev Reader (α : Type) := Consumer Failure Unread α

namespace Reader

variable {α : Type}

/-- Fails for a cause, outside of every member. -/
def fail (cause : Cause) : Reader α := Consumer.fail ⟨[], cause⟩

@[simp] theorem run_fail (cause : Cause) (u : Unread) :
    (fail cause : Reader α).run u = .error ⟨[], cause⟩ := rfl

/-- Takes the failure of a reader to lie within a member. -/
def within (member : Member) (r : Reader α) : Reader α :=
  r.mapError fun e => { e with path := e.path ++ [member] }

/-- The member a value belongs to shows in failures only. -/
theorem run_within_eq_ok_iff {r : Reader α} {member : Member} {u rest : Unread} {a : α} :
    (r.within member).run u = .ok (a, rest) ↔ r.run u = .ok (a, rest) := by
  simp only [within, Consumer.mapError]
  cases r.run u <;> simp

/-- Reads `n` octets. -/
def take (n : Nat) : Reader Bytes where
  run u := if u.size < n then .error ⟨[], .underflow⟩ else .ok (u.octets.take n, u.drop n)
  shrinks {u a rest} h := by
    split at h
    · cases h
    · cases h
      exact Nat.sub_le _ _

/-- Reads `n` octets and drops them. -/
def skip (n : Nat) : Reader Unit where
  run u := if u.size < n then .error ⟨[], .underflow⟩ else .ok ((), u.drop n)
  shrinks {u a rest} h := by
    split at h
    · cases h
    · cases h
      exact Nat.sub_le _ _

/-- Reads one octet of a varint, which must not end here. -/
def octet : Reader UInt8 where
  run u :=
    match u.octets with
    | [] => .error ⟨[], .invalidVarint⟩
    | x :: _ => .ok (x, u.drop 1)
  shrinks {u a rest} h := by
    split at h
    · cases h
    · cases h
      exact Nat.sub_le _ _

/-- An octet that was read is gone. -/
theorem octet_lt {u rest : Unread} {x : UInt8} (h : octet.run u = .ok (x, rest)) :
    rest.size < u.size := by
  cases hu : u.octets with
  | nil => simp [octet, hu] at h
  | cons y ys =>
    simp only [octet, hu, Except.ok.injEq, Prod.mk.injEq] at h
    have hsize := u.size_eq
    rw [← h.2]
    simp only [Unread.drop, hsize, hu, List.length_cons]
    omega

end Reader

end Wire

end AggregatedRecords
