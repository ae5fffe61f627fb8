import AggregatedRecords.Bytes
/-!
# Bytes — groups and texts

What holds of a last group, and goes on holding when a full group is put in
front, holds of every list (`groups_induction`). Between texts and octets
nothing is lost (`Bytes.ofString_injective`), and a text of ASCII has one octet
for each character (`Bytes.ofString_ofList_map`).
-/

namespace AggregatedRecords

variable {α : Type} {n : Nat}

/-- **Induction on groups.** A list of at most `n` elements is a last group; a
longer one has a full group in front of something. -/
@[elab_as_elim]
theorem groups_induction {motive : List α → Prop} (hn : 0 < n)
    (last : ∀ g : List α, g.length ≤ n → motive g)
    (full : ∀ g rest : List α, g.length = n → rest ≠ [] → motive rest → motive (g ++ rest))
    (l : List α) : motive l := by
  by_cases h : l.length ≤ n
  · exact last l h
  · have hlength : (l.take n).length = n := by
      rw [List.length_take]
      omega
    have hrest : l.drop n ≠ [] := by
      rw [Ne, List.drop_eq_nil_iff]
      exact h
    have ih := groups_induction hn last full (l.drop n)
    have hfull := full (l.take n) (l.drop n) hlength hrest ih
    rwa [List.take_append_drop] at hfull
termination_by l.length
decreasing_by
  rw [List.length_drop]
  omega

/-- A list that fits into one group is that group. -/
theorem groupsOf_of_length_le {l : List α} (hl : l ≠ []) (h : l.length ≤ n) :
    groupsOf n l = [l] := by
  obtain ⟨a, t, rfl⟩ := List.exists_cons_of_ne_nil hl
  rw [List.length_cons] at h
  rw [groupsOf_cons, List.take_of_length_le (by omega), List.drop_of_length_le (by omega),
    groupsOf_nil]

/-- Full groups one after the other are told apart again. -/
theorem groupsOf_flatten (hn : 0 < n) {groups : List (List α)}
    (h : ∀ group ∈ groups, group.length = n) : groupsOf n groups.flatten = groups := by
  induction groups with
  | nil => rw [List.flatten_nil, groupsOf_nil]
  | cons group groups ih =>
    have hgroup := h group List.mem_cons_self
    have hmore := ih fun g hg => h g (List.mem_cons_of_mem group hg)
    have hsome : group ≠ [] := List.ne_nil_of_length_pos (by omega)
    subst hgroup
    rw [List.flatten_cons, groupsOf_append hsome, hmore]

/-- **Full groups in front** are groups of their own. -/
theorem groupsOf_append_of_dvd {x : List α} (hn : 0 < n) (hx : n ∣ x.length)
    (l : List α) : groupsOf n (x ++ l) = groupsOf n x ++ groupsOf n l := by
  induction x using groups_induction hn with
  | last g hlength =>
    by_cases hg : g = []
    · subst hg
      rw [groupsOf_nil, List.nil_append, List.nil_append]
    · have hfull : g.length = n :=
        Nat.le_antisymm hlength (Nat.le_of_dvd (List.length_pos_iff.2 hg) hx)
      rw [← hfull, groupsOf_append hg, groupsOf_of_length_le hg (Nat.le_refl _),
        List.singleton_append]
  | full g rest hg hrest ih =>
    have hsome : g ≠ [] := List.ne_nil_of_length_pos (by omega)
    have hdvd : n ∣ rest.length := by
      rwa [List.length_append, hg, Nat.dvd_add_right (Nat.dvd_refl n)] at hx
    have ih := ih hdvd
    subst hg
    rw [List.append_assoc, groupsOf_append hsome, groupsOf_append hsome, ih, List.cons_append]

namespace Bytes

/-- Different texts have different octets. -/
theorem ofString_injective {s t : String} (h : ofString s = ofString t) : s = t := by
  have hread := congrArg toString? h
  rw [toString?_ofString, toString?_ofString] at hread
  exact Option.some.inj hread

/-- Octets that are read as a text are the octets of that text. -/
theorem ofString_eq_of_toString? {b : Bytes} {s : String} (h : toString? b = some s) :
    ofString s = b := by
  rw [toString?, String.fromUTF8?] at h
  split at h
  · obtain rfl := Option.some.inj h
    rfl
  · cases h

/-- The octets of a text are those of its characters. -/
theorem ofString_ofList (s : List Char) :
    ofString (String.ofList s) = s.flatMap String.utf8EncodeChar := by
  rw [ofString, String.toByteArray_ofList, List.utf8Encode, List.data_toByteArray]

/-- **A character of ASCII has one octet**, its code. -/
theorem utf8EncodeChar_ofNat {n : Nat} (h : n < 128) :
    String.utf8EncodeChar (Char.ofNat n) = [UInt8.ofNat n] := by
  have hvalid : n.isValidChar := Or.inl (by omega)
  have hval : (Char.ofNat n).val.toNat = n := by
    rw [Char.ofNat, dif_pos hvalid]
    rfl
  rw [String.utf8EncodeChar, hval, if_pos (by omega)]

/-- Any other character starts with an octet outside ASCII. -/
theorem exists_utf8EncodeChar {c : Char} (h : 128 ≤ c.toNat) :
    ∃ x rest, String.utf8EncodeChar c = x :: rest ∧ 128 ≤ x.toNat := by
  have hlead {n : Nat} (hlow : 128 ≤ n) (hhigh : n < 256) : 128 ≤ (UInt8.ofNat n).toNat := by
    rwa [UInt8.toNat_ofNat_of_lt' hhigh]
  change 128 ≤ c.val.toNat at h
  simp only [String.utf8EncodeChar]
  rw [if_neg (by omega)]
  split
  · exact ⟨_, _, rfl, hlead (by omega) (by omega)⟩
  · split
    · exact ⟨_, _, rfl, hlead (by omega) (by omega)⟩
    · exact ⟨_, _, rfl, hlead (by omega) (by omega)⟩

/-- Octets below 128 are those of the text that has them as its characters. -/
theorem ofString_ofList_map {b : Bytes} (h : ∀ x ∈ b, x.toNat < 128) :
    ofString (String.ofList (b.map fun x => Char.ofNat x.toNat)) = b := by
  rw [ofString_ofList]
  induction b with
  | nil => rfl
  | cons x b ih =>
    have hx := utf8EncodeChar_ofNat (h x List.mem_cons_self)
    have hrest := ih fun y hy => h y (List.mem_cons_of_mem _ hy)
    rw [List.map_cons, List.flatMap_cons, hx, hrest, UInt8.ofNat_toNat, List.singleton_append]

end Bytes

end AggregatedRecords
