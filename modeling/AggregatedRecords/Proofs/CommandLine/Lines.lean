import AggregatedRecords.CommandLine.Run
import AggregatedRecords.Proofs.Bytes
/-!
# Command line — the lines of a file

`Lines` says what the lines of a file are: each ends with a line feed, or with
a carriage return and a line feed, and the last one may end with the file.
Every file has lines, and `linesOf` gives them (`lines_iff`).

A file is read as texts up to the first line that is none. `Readable` names
the two parts, and every file has them (`exists_readable`).
-/

namespace AggregatedRecords

namespace CommandLine

/-- **The lines of a file**, without what ends them. -/
inductive Lines : Bytes → List Bytes → Prop where
  /-- An empty file has no lines. -/
  | nil : Lines [] []
  /-- The last line may end with the file. -/
  | last {line : Bytes} (hne : line ≠ []) (hline : 10 ∉ line) : Lines line [line]
  /-- A line ends with a line feed. -/
  | lineFeed {line rest : Bytes} {lines : List Bytes} (hline : 10 ∉ line)
      (hreturn : line.getLast? ≠ some 13) (hrest : Lines rest lines) :
      Lines (line ++ 10 :: rest) (line :: lines)
  /-- A carriage return in front of the line feed ends the line as well. -/
  | carriageReturn {line rest : Bytes} {lines : List Bytes} (hline : 10 ∉ line)
      (hrest : Lines rest lines) : Lines (line ++ 13 :: 10 :: rest) (line :: lines)

/-! ## What the lines are -/

/-- Lines that were found before stay in front. -/
theorem linesOnto_eq (lines : List Bytes) (reversed octets : Bytes) :
    linesOnto lines reversed octets = lines.reverse ++ linesOnto [] reversed octets := by
  induction octets generalizing lines reversed with
  | nil =>
    simp only [linesOnto]
    split <;> simp
  | cons x octets ih =>
    simp only [linesOnto]
    split
    · rw [ih (addLine lines reversed), ih (addLine [] reversed)]
      simp [addLine]
    · rw [ih]

/-- Octets before the end of a line are held in reverse. -/
theorem linesOnto_append {line : Bytes} (hline : 10 ∉ line) (lines : List Bytes)
    (reversed rest : Bytes) :
    linesOnto lines reversed (line ++ rest) =
      linesOnto lines (line.reverse ++ reversed) rest := by
  induction line generalizing reversed with
  | nil => rfl
  | cons x line ih =>
    have hx : x ≠ 10 := fun heq => hline (heq ▸ List.mem_cons_self)
    have hrest : 10 ∉ line := fun hmem => hline (List.mem_cons_of_mem _ hmem)
    rw [List.cons_append, linesOnto, if_neg hx, ih hrest]
    simp

/-- **A line is cut off** at its line feed. -/
theorem linesOf_append {line : Bytes} (hline : 10 ∉ line) (rest : Bytes) :
    linesOf (line ++ 10 :: rest) = addLine [] line.reverse ++ linesOf rest := by
  rw [linesOf, linesOnto_append hline, List.append_nil, linesOnto, if_pos rfl, linesOnto_eq,
    ← linesOf]
  rfl

/-- **The lines of a file are those that are found.** -/
theorem Lines.linesOf_eq {octets : Bytes} {lines : List Bytes} (h : Lines octets lines) :
    linesOf octets = lines := by
  induction h with
  | nil => rfl
  | @last line hne hline =>
    have happend := linesOnto_append hline [] [] []
    rw [List.append_nil, List.append_nil] at happend
    rw [linesOf, happend, linesOnto]
    simp [hne]
  | @lineFeed line rest lines hline hreturn _ ih =>
    have hcons : ∀ front, line.reverse ≠ 13 :: front := by
      intro front heq
      have hlast := congrArg List.head? heq
      rw [List.head?_reverse] at hlast
      exact hreturn hlast
    rw [linesOf_append hline, ih, addLine, List.reverse_reverse]
    · rfl
    · exact hcons
  | @carriageReturn line rest lines hline _ ih =>
    have hmem : 10 ∉ line ++ [13] := by simpa using hline
    have hassoc : line ++ 13 :: 10 :: rest = line ++ [13] ++ 10 :: rest := by simp
    rw [hassoc, linesOf_append hmem, ih]
    simp [addLine]

/-- Every file has lines. -/
theorem exists_lines (octets : Bytes) : ∃ lines, Lines octets lines := by
  by_cases hmem : 10 ∈ octets
  · obtain ⟨line, rest, hoctets, hline⟩ := List.eq_append_cons_of_mem hmem
    have hlt : rest.length < octets.length := by
      rw [hoctets, List.length_append, List.length_cons]
      omega
    obtain ⟨lines, hrest⟩ := exists_lines rest
    by_cases hreturn : line.getLast? = some 13
    · obtain ⟨front, rfl⟩ := List.getLast?_eq_some_iff.1 hreturn
      have hfront : 10 ∉ front := fun h => hline (List.mem_append_left _ h)
      refine ⟨front :: lines, ?_⟩
      rw [hoctets, List.append_assoc]
      exact .carriageReturn hfront hrest
    · exact ⟨line :: lines, hoctets ▸ .lineFeed hline hreturn hrest⟩
  · by_cases hne : octets = []
    · exact ⟨[], hne ▸ .nil⟩
    · exact ⟨[octets], .last hne hmem⟩
termination_by octets.length

/-- **What is found is what the lines are.** -/
theorem lines_iff {octets : Bytes} {lines : List Bytes} :
    Lines octets lines ↔ linesOf octets = lines := by
  constructor
  · exact Lines.linesOf_eq
  · rintro rfl
    obtain ⟨lines, h⟩ := exists_lines octets
    rwa [h.linesOf_eq]

/-! ## Lines that are texts -/

/-- **A file up to its first line that is no text.** The texts are its lines
before that one, and what is left begins with it. -/
structure Readable (octets : Bytes) (texts : List String) (left : List Bytes) : Prop where
  lines : Lines octets (texts.map Bytes.ofString ++ left)
  unreadable : ∀ line ∈ left.head?, Bytes.toString? line = none

/-- Every file has its texts. -/
theorem exists_readable (octets : Bytes) : ∃ texts left, Readable octets texts left := by
  have hsplit : ∀ lines : List Bytes, ∃ (texts : List String) (left : List Bytes),
      lines = texts.map Bytes.ofString ++ left ∧
        ∀ line ∈ left.head?, Bytes.toString? line = none := by
    intro lines
    induction lines with
    | nil => exact ⟨[], [], rfl, by simp⟩
    | cons line lines ih =>
      cases htext : Bytes.toString? line with
      | none => exact ⟨[], line :: lines, rfl, by simpa using htext⟩
      | some text =>
        obtain ⟨texts, left, rfl, hleft⟩ := ih
        refine ⟨text :: texts, left, ?_, hleft⟩
        rw [List.map_cons, Bytes.ofString_eq_of_toString? htext, List.cons_append]
  obtain ⟨lines, hlines⟩ := exists_lines octets
  obtain ⟨texts, left, rfl, hleft⟩ := hsplit lines
  exact ⟨texts, left, hlines, hleft⟩

end CommandLine

end AggregatedRecords
