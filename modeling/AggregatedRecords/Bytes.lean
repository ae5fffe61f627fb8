/-!
# Bytes — octets, texts and groups of fixed width

A byte string is a list of octets, the form over which every codec of this
library is stated. This file joins byte strings to texts through UTF-8 and
cuts a list into groups of fixed width, of which a full one in front is cut off
first (`groupsOf_append`).
-/

namespace AggregatedRecords

/-- A string of octets, first octet first. -/
abbrev Bytes := List UInt8

namespace Bytes

/-- The octets of a text in UTF-8. -/
def ofString (s : String) : Bytes := s.toByteArray.data.toList

/-- The text whose UTF-8 form the octets are, if they are one. -/
def toString? (b : Bytes) : Option String := String.fromUTF8? ⟨b.toArray⟩

/-- Every text is read back from its octets. -/
@[simp] theorem toString?_ofString (s : String) : toString? (ofString s) = some s := by
  simp [toString?, ofString, String.fromUTF8?, s.isValidUTF8]
  rfl

/-- A text has as many octets as its UTF-8 form. -/
@[simp] theorem length_ofString (s : String) : (ofString s).length = s.utf8ByteSize := rfl

/-- The first octet outside an alphabet, with its position. -/
def firstOutside (inside : UInt8 → Bool) (b : Bytes) : Option (UInt8 × Nat) :=
  b.zipIdx.find? fun (x, _) => !inside x

/-- Nothing is outside when every octet is inside. -/
theorem firstOutside_eq_none {inside : UInt8 → Bool} {b : Bytes} :
    firstOutside inside b = none ↔ ∀ x ∈ b, inside x = true := by
  simp only [firstOutside, List.find?_eq_none, Bool.not_eq_true', Bool.not_eq_false]
  constructor
  · intro h x hx
    obtain ⟨i, hi, rfl⟩ := List.mem_iff_getElem.1 hx
    exact h (b[i], i) (List.mem_zipIdx_iff_getElem?.2 (by simp [hi]))
  · rintro h ⟨x, i⟩ hx
    exact h x (List.mem_of_getElem? (List.mem_zipIdx_iff_getElem?.1 hx))

end Bytes

variable {α : Type}

/-- The groups of `groupsOf`, in front of groups already cut off and held in
reverse. -/
def groupsOnto (groups : List (List α)) (n : Nat) : List α → List (List α)
  | [] => groups.reverse
  | a :: l => groupsOnto ((a :: l.take (n - 1)) :: groups) n (l.drop (n - 1))
termination_by l => l.length

/-- The list cut into groups of `n` elements from the front; the last group
holds what is left. -/
def groupsOf (n : Nat) (l : List α) : List (List α) := groupsOnto [] n l

@[simp] theorem groupsOf_nil (n : Nat) : groupsOf n ([] : List α) = [] := by
  simp [groupsOf, groupsOnto]

theorem groupsOnto_cons (groups : List (List α)) (n : Nat) (a : α) (l : List α) :
    groupsOnto groups n (a :: l) =
      groupsOnto ((a :: l.take (n - 1)) :: groups) n (l.drop (n - 1)) := by
  rw [groupsOnto]

/-- Groups already cut off stay in front. -/
theorem groupsOnto_eq (groups : List (List α)) (n : Nat) (l : List α) :
    groupsOnto groups n l = groups.reverse ++ groupsOf n l := by
  match l with
  | [] => simp [groupsOnto]
  | a :: l =>
    rw [groupsOf, groupsOnto_cons, groupsOnto_cons, groupsOnto_eq _ n (l.drop (n - 1)),
      groupsOnto_eq [_] n (l.drop (n - 1))]
    simp
termination_by l.length

/-- The first group is the first element and the `n - 1` after it. -/
theorem groupsOf_cons (n : Nat) (a : α) (l : List α) :
    groupsOf n (a :: l) = (a :: l.take (n - 1)) :: groupsOf n (l.drop (n - 1)) := by
  rw [groupsOf, groupsOnto_cons, groupsOnto_eq]
  rfl

/-- A full group in front is the first group. -/
theorem groupsOf_append {x : List α} (hx : x ≠ []) (l : List α) :
    groupsOf x.length (x ++ l) = x :: groupsOf x.length l := by
  obtain ⟨a, t, rfl⟩ := List.exists_cons_of_ne_nil hx
  simp [groupsOf_cons]

end AggregatedRecords
