import AggregatedRecords.Text.Blank
import Mathlib.Data.List.DropRight
/-!
# Text — what trimming leaves

Blanks that are put in front of a text or behind it are not seen after trimming
(`trim_blanks`), and a text without blanks is left as it is
(`trim_of_not_isBlank`). Nothing but blanks is taken away (`exists_trim`), so
whoever passes over blanks may trim or not (`filter_trim`).
-/

namespace AggregatedRecords

namespace Text

variable {s w front behind : List Char}

theorem dropWhile_isBlank (h : ∀ c ∈ w, isBlank c = true) : w.dropWhile isBlank = [] := by
  rw [← List.append_nil w, List.dropWhile_append_of_pos h, List.dropWhile_nil]

/-- Blanks in front are dropped. -/
theorem trim_append_left (h : ∀ c ∈ w, isBlank c = true) : trim (w ++ s) = trim s := by
  rw [trim, trim, List.dropWhile_append_of_pos h]

/-- Blanks behind are dropped. -/
theorem trim_append_right (h : ∀ c ∈ w, isBlank c = true) : trim (s ++ w) = trim s := by
  rw [trim, trim, List.dropWhile_append]
  -- When the text itself is blank, the blanks behind it are dropped from the front.
  cases hs : s.dropWhile isBlank with
  | nil => simp [dropWhile_isBlank h]
  | cons c rest =>
    have hreverse : ∀ c ∈ w.reverse, isBlank c = true := fun c hc => h c (List.mem_reverse.1 hc)
    simp only [List.isEmpty_cons, Bool.false_eq_true, if_false]
    rw [List.reverse_append, List.dropWhile_append_of_pos hreverse]

/-- **Blanks around a text are not seen.** -/
theorem trim_blanks (hfront : ∀ c ∈ front, isBlank c = true)
    (hbehind : ∀ c ∈ behind, isBlank c = true) : trim (front ++ s ++ behind) = trim s := by
  rw [trim_append_right hbehind, trim_append_left hfront]

theorem dropWhile_of_not_isBlank (h : ∀ c ∈ s, isBlank c = false) : s.dropWhile isBlank = s := by
  cases s with
  | nil => rfl
  | cons c s => exact List.dropWhile_cons_of_neg (by simp [h c List.mem_cons_self])

/-- A text without blanks is left as it is. -/
theorem trim_of_not_isBlank (h : ∀ c ∈ s, isBlank c = false) : trim s = s := by
  have hreverse : ∀ c ∈ s.reverse, isBlank c = false := fun c hc => h c (List.mem_reverse.1 hc)
  rw [trim, dropWhile_of_not_isBlank h, dropWhile_of_not_isBlank hreverse, List.reverse_reverse]

/-- **Only blanks are taken away**, in front and behind. -/
theorem exists_trim (s : List Char) :
    ∃ front behind, s = front ++ (trim s ++ behind) ∧ (∀ c ∈ front, isBlank c = true) ∧
      ∀ c ∈ behind, isBlank c = true := by
  refine ⟨s.takeWhile isBlank, (s.dropWhile isBlank).rtakeWhile isBlank, ?_,
    fun c hc => List.mem_takeWhile_imp hc, fun c hc => List.mem_rtakeWhile_imp hc⟩
  change s = _ ++ ((s.dropWhile isBlank).rdropWhile isBlank ++ _)
  rw [List.rdropWhile_append_rtakeWhile, List.takeWhile_append_dropWhile]

/-- Behind characters that are no blanks a text is trimmed at its end. -/
theorem trim_append (hfront : front ≠ []) (h : ∀ c ∈ front, isBlank c = false) (s : List Char) :
    trim (front ++ s) = front ++ s.rdropWhile isBlank := by
  obtain ⟨c, rest, rfl⟩ := List.exists_cons_of_ne_nil hfront
  have hstart : (c :: rest ++ s).dropWhile isBlank = c :: rest ++ s :=
    List.dropWhile_cons_of_neg (by simp [h c List.mem_cons_self])
  have hend : (c :: rest).reverse.dropWhile isBlank = (c :: rest).reverse :=
    dropWhile_of_not_isBlank fun d hd => h d (List.mem_reverse.1 hd)
  rw [trim, hstart, List.reverse_append, List.dropWhile_append, hend, List.rdropWhile]
  -- whether all of the text behind is blank or not, the reversed front stays
  split
  · next hblank => simp [List.isEmpty_iff.1 hblank]
  · simp

variable {keep : Char → Bool}

theorem filter_dropWhile_isBlank (h : ∀ c ∈ s, isBlank c = true → keep c = false) :
    (s.dropWhile isBlank).filter keep = s.filter keep := by
  have hnone : (s.takeWhile isBlank).filter keep = [] := by
    refine List.filter_eq_nil_iff.2 fun c hc => ?_
    simp [h c ((List.takeWhile_prefix _).subset hc) (List.mem_takeWhile_imp hc)]
  conv_rhs => rw [← List.takeWhile_append_dropWhile (p := isBlank) (l := s)]
  rw [List.filter_append, hnone, List.nil_append]

theorem filter_rdropWhile_isBlank (h : ∀ c ∈ s, isBlank c = true → keep c = false) :
    (s.rdropWhile isBlank).filter keep = s.filter keep := by
  have hreverse : ∀ c ∈ s.reverse, isBlank c = true → keep c = false :=
    fun c hc => h c (List.mem_reverse.1 hc)
  rw [List.rdropWhile, List.filter_reverse, filter_dropWhile_isBlank hreverse, List.filter_reverse,
    List.reverse_reverse]

/-- **Where blanks are passed over, trimming makes no difference.** -/
theorem filter_trim (h : ∀ c ∈ s, isBlank c = true → keep c = false) :
    (trim s).filter keep = s.filter keep := by
  have hrest : ∀ c ∈ s.dropWhile isBlank, isBlank c = true → keep c = false :=
    fun c hc => h c (List.dropWhile_subset _ hc)
  change ((s.dropWhile isBlank).rdropWhile isBlank).filter keep = _
  rw [filter_rdropWhile_isBlank hrest, filter_dropWhile_isBlank h]

end Text

end AggregatedRecords
