import AggregatedRecords.Proofs.Bytes
import AggregatedRecords.Proofs.Text.Escaped
import AggregatedRecords.Rendering.Text
import Mathlib.Data.List.Forall2
/-!
# Rendering — what a listing of user records tells

Octets are escaped in a listing, so a tab ends what a line shows of the keys and
a newline ends the line, whatever the records hold. The keys are not quoted:
a line shows one text for both of them, their label, which a partition key with
a parenthesis in it may have without a hash key (`usersText_not_injective`). A
listing tells the labels and the data of its records, and no more
(`usersText_eq_iff`), so it tells the keys where no partition key has a blank
and a parenthesis in it (`eq_of_label_eq`).
-/

namespace AggregatedRecords

/-! ## Separators -/

variable {α : Type} {a : α} {rest x y s t : List α}

/-- A separator that occurs in front is the first one. -/
theorem eq_nil_of_separator (ha : a ∉ rest) (hy : ¬ (a :: rest) <:+: y)
    (h : a :: rest ++ s = y ++ (a :: rest ++ t)) : y = [] := by
  cases y with
  | nil => rfl
  | cons c y =>
    obtain ⟨rfl, htail⟩ := List.cons.inj h
    refine absurd ?_ hy
    -- the second separator starts behind the first one, and so not within it
    obtain ⟨z, rfl, -⟩ | ⟨z, hrest, hz⟩ := List.append_eq_append_iff.1 htail
    · exact ⟨[], z, by simp⟩
    · cases z with
      | nil =>
        rw [List.append_nil] at hrest
        exact ⟨[], [], by simp [hrest]⟩
      | cons d z =>
        obtain ⟨rfl, -⟩ := List.cons.inj hz
        exact absurd (by simp [hrest]) ha

/-- **What is in front of the first separator** and what is behind it are
determined. The separator starts with an element that it has only there. -/
theorem append_separator_inj (ha : a ∉ rest) (hx : ¬ (a :: rest) <:+: x)
    (hy : ¬ (a :: rest) <:+: y) (h : x ++ (a :: rest ++ s) = y ++ (a :: rest ++ t)) :
    x = y ∧ s = t := by
  induction x generalizing y with
  | nil =>
    obtain rfl := eq_nil_of_separator ha hy h
    exact ⟨rfl, List.append_cancel_left h⟩
  | cons c x ih =>
    cases y with
    | nil =>
      have hnone := eq_nil_of_separator ha hx h.symm
      cases hnone
    | cons d y =>
      obtain ⟨rfl, htail⟩ := List.cons.inj h
      have hx : ¬ (a :: rest) <:+: x := fun hin => hx (List.infix_cons hin)
      have hy : ¬ (a :: rest) <:+: y := fun hin => hy (List.infix_cons hin)
      obtain ⟨rfl, rfl⟩ := ih hx hy htail
      exact ⟨rfl, rfl⟩

/-- The same of a separator of one element. -/
theorem append_cons_inj_of_notMem (hx : a ∉ x) (hy : a ∉ y) (h : x ++ a :: s = y ++ a :: t) :
    x = y ∧ s = t := by
  have hnone : a ∉ ([] : List α) := List.not_mem_nil
  exact append_separator_inj hnone (fun hin => hx (hin.subset List.mem_cons_self))
    (fun hin => hy (hin.subset List.mem_cons_self)) h

namespace Rendering

/-! ## Lines -/

/-- What a line shows of the keys of a record: the partition key, and behind it
the hash key in parentheses if there is one. -/
def label (r : UserRecord) : String :=
  r.partitionKey ++ r.explicitHashKey.elim "" fun key => " (" ++ key ++ ")"

variable {r other : UserRecord} {xs ys : List UserRecord}

theorem escape_ofString_append (s t : String) :
    Text.escape (Bytes.ofString (s ++ t)) =
      Text.escape (Bytes.ofString s) ++ Text.escape (Bytes.ofString t) := by
  simp [Bytes.ofString, Text.escape]

/-- A line without its end: the label, a tab and the data. -/
def shownLine (r : UserRecord) : List Char :=
  Text.escape (Bytes.ofString (label r)) ++ '\t' :: quotedBytes r.data

theorem userLine_eq (r : UserRecord) : userLine r = shownLine r ++ ['\n'] := by
  obtain ⟨key, hash, data⟩ := r
  cases hash with
  | none => simp [userLine, shownLine, label]
  | some hash =>
    have hopen : Text.escape (Bytes.ofString " (") = [' ', '('] := by decide
    have hclose : Text.escape (Bytes.ofString ")") = [')'] := by decide
    simp [userLine, shownLine, label, escape_ofString_append, hopen, hclose]

/-- A line ends at its first newline. -/
theorem newline_notMem_shownLine (r : UserRecord) : '\n' ∉ shownLine r := by
  have hnewline (b : Bytes) : '\n' ∉ Text.escape b := Text.notMem_escape (by decide)
  simp [shownLine, quotedBytes, hnewline]

/-- **A line tells the label and the data** of its record, and the lines that
follow it are told apart from it. -/
theorem userLine_append_inj {rest rest' : List Char}
    (h : userLine r ++ rest = userLine other ++ rest') :
    label r = label other ∧ r.data = other.data ∧ rest = rest' := by
  have htab (b : Bytes) : '\t' ∉ Text.escape b := Text.notMem_escape (by decide)
  rw [userLine_eq, userLine_eq, List.append_assoc, List.append_assoc, List.singleton_append,
    List.singleton_append] at h
  obtain ⟨hline, hrest⟩ :=
    append_cons_inj_of_notMem (newline_notMem_shownLine r) (newline_notMem_shownLine other) h
  obtain ⟨hlabel, hdata⟩ := append_cons_inj_of_notMem (htab _) (htab _) hline
  have hdata : Text.escape r.data = Text.escape other.data := by simpa [quotedBytes] using hdata
  exact ⟨Bytes.ofString_injective (Text.escape_injective hlabel), Text.escape_injective hdata, hrest⟩

/-! ## Listings -/

theorem toList_usersText (xs : List UserRecord) :
    (usersText xs).toList = xs.flatMap userLine := String.toList_ofList

/-- There is one line for each record. -/
theorem count_newline_usersText (xs : List UserRecord) :
    (usersText xs).toList.count '\n' = xs.length := by
  rw [toList_usersText]
  induction xs with
  | nil => rfl
  | cons r xs ih =>
    rw [List.flatMap_cons, List.count_append, ih, userLine_eq, List.count_append,
      List.count_eq_zero_of_not_mem (newline_notMem_shownLine r), List.length_cons]
    simp [Nat.add_comm]

/-- **A listing tells the labels and the data** of its records, and no more. -/
theorem usersText_eq_iff : usersText xs = usersText ys ↔
    List.Forall₂ (fun r other => label r = label other ∧ r.data = other.data) xs ys := by
  rw [← String.toList_inj, toList_usersText, toList_usersText]
  induction xs generalizing ys with
  | nil => cases ys <;> simp [userLine_eq]
  | cons r xs ih =>
    cases ys with
    | nil => simp [userLine_eq]
    | cons other ys =>
      rw [List.flatMap_cons, List.flatMap_cons, List.forall₂_cons, ← ih]
      constructor
      · intro h
        obtain ⟨hlabel, hdata, hrest⟩ := userLine_append_inj h
        exact ⟨⟨hlabel, hdata⟩, hrest⟩
      · rintro ⟨⟨hlabel, hdata⟩, hrest⟩
        rw [userLine_eq, userLine_eq, shownLine, shownLine, hlabel, hdata, hrest]

/-! ## Keys -/

/-- What separates the keys in a label. -/
def hashMark : List Char := [' ', '(']

/-- A label without a hash key is the partition key. -/
theorem label_of_none {key : String} {data : Bytes} : label ⟨key, none, data⟩ = key := by
  simp [label]

theorem toList_label_of_some {key hash : String} {data : Bytes} :
    (label ⟨key, some hash, data⟩).toList = key.toList ++ (hashMark ++ (hash.toList ++ [')'])) := by
  simp [label, hashMark]

/-- **Where no partition key has the mark in it**, a label tells both keys. -/
theorem eq_of_label_eq (hr : ¬ hashMark <:+: r.partitionKey.toList)
    (hother : ¬ hashMark <:+: other.partitionKey.toList) (hlabel : label r = label other)
    (hdata : r.data = other.data) : r = other := by
  have hmarked (key hash : String) (data : Bytes) :
      hashMark <:+: (label ⟨key, some hash, data⟩).toList := by
    rw [toList_label_of_some]
    exact ⟨_, _, List.append_assoc _ _ _⟩
  obtain ⟨key, hash, data⟩ := r
  obtain ⟨key', hash', data'⟩ := other
  obtain rfl : data = data' := hdata
  cases hash with
  | none =>
    rw [label_of_none] at hlabel
    cases hash' with
    | none =>
      rw [label_of_none] at hlabel
      rw [hlabel]
    | some hash' => exact absurd (hlabel ▸ hmarked key' hash' data) hr
  | some hash =>
    cases hash' with
    | none =>
      rw [label_of_none] at hlabel
      exact absurd (hlabel ▸ hmarked key hash data) hother
    | some hash' =>
      have hkeys := congrArg String.toList hlabel
      rw [toList_label_of_some, toList_label_of_some] at hkeys
      obtain ⟨hfront, hbehind⟩ := append_separator_inj (by decide) hr hother hkeys
      have hkey : key = key' := String.toList_inj.1 hfront
      have hhash : hash = hash' := String.toList_inj.1 (List.append_cancel_right hbehind)
      rw [hkey, hhash]

/-- **What a listing tells.** It has one line for each record, and two listings are
the same exactly when they agree record by record in labels and data. So where
neither of two partition keys has the mark in it the records are the same, and
so are lists in which none has it. -/
theorem usersText_tells_labels (xs ys : List UserRecord) :
    (usersText xs).toList.count '\n' = xs.length ∧
      (usersText xs = usersText ys ↔
        List.Forall₂ (fun r other => label r = label other ∧ r.data = other.data) xs ys) ∧
      (usersText xs = usersText ys →
        List.Forall₂ (fun r other => ¬ hashMark <:+: r.partitionKey.toList →
          ¬ hashMark <:+: other.partitionKey.toList → r = other) xs ys) ∧
      ((∀ r ∈ xs ++ ys, ¬ hashMark <:+: r.partitionKey.toList) →
        usersText xs = usersText ys → xs = ys) := by
  have hrecords : usersText xs = usersText ys →
      List.Forall₂ (fun r other => ¬ hashMark <:+: r.partitionKey.toList →
        ¬ hashMark <:+: other.partitionKey.toList → r = other) xs ys := by
    intro h
    refine (usersText_eq_iff.1 h).imp fun r other hline hr hother => ?_
    exact eq_of_label_eq hr hother hline.1 hline.2
  refine ⟨count_newline_usersText xs, usersText_eq_iff, hrecords, fun hkeys h => ?_⟩
  obtain ⟨hlength, hzip⟩ := List.forall₂_iff_zip.1 (hrecords h)
  have hequal : List.Forall₂ (· = ·) xs ys := by
    refine List.forall₂_iff_zip.2 ⟨hlength, fun hmem => ?_⟩
    obtain ⟨hr, hother⟩ := List.of_mem_zip hmem
    exact hzip hmem (hkeys _ (List.mem_append_left ys hr)) (hkeys _ (List.mem_append_right xs hother))
  rwa [List.forall₂_eq_eq_eq] at hequal

/-- **Keys are not told apart by every listing.** A key that ends in parentheses
looks like a key with a hash key. -/
theorem usersText_not_injective :
    ¬ ∀ xs ys : List UserRecord, usersText xs = usersText ys → xs = ys := by
  intro h
  have hequal := h [⟨"a (b)", none, [120]⟩] [⟨"a", some "b", [120]⟩] (by decide)
  simp at hequal

end Rendering

end AggregatedRecords
