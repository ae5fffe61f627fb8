import AggregatedRecords.KeyTable
import Mathlib.Data.List.Basic
/-!
# Key table — where an interned text stands

Interning a text gives the position at which it then stands
(`KeyTable.getElem?_intern`) and leaves every other text where it stood
(`KeyTable.getElem?_intern_of_eq_some`). So an index that was handed out stays
right while a table only grows.

Seen as lists, tables hold what was interned in the order of its first
appearance (`KeyTable.toList_intern`), and a position is that in the list
(`KeyTable.intern_fst`).
-/

namespace AggregatedRecords

namespace KeyTable

variable {table : KeyTable} {key other : String} {index : Nat}

/-- **An interned text stands at its position.** -/
theorem getElem?_intern (table : KeyTable) (key : String) :
    (table.intern key).2.keys[(table.intern key).1]? = some key := by
  cases h : table.indexOf? key with
  | some index =>
    rw [intern_of_some h]
    exact indexOf?_eq_some_iff.1 h
  | none =>
    obtain ⟨hindex, hkeys⟩ := intern_of_none h
    rw [hindex, hkeys, size, Array.getElem?_push_size]

/-- **Interning moves nothing.** A text that stands at a position stands there
afterwards. -/
theorem getElem?_intern_of_eq_some (h : table.keys[index]? = some other) :
    (table.intern key).2.keys[index]? = some other := by
  cases hkey : table.indexOf? key with
  | some index => rwa [intern_of_some hkey]
  | none =>
    obtain ⟨hlt, -⟩ := Array.getElem?_eq_some_iff.1 h
    rw [(intern_of_none hkey).2, Array.getElem?_push, if_neg (Nat.ne_of_lt hlt)]
    exact h

/-- A position is within the table. -/
theorem intern_lt_size (table : KeyTable) (key : String) :
    (table.intern key).1 < (table.intern key).2.size :=
  (Array.getElem?_eq_some_iff.1 (getElem?_intern table key)).1

/-- A table only grows. -/
theorem size_le_size_intern (table : KeyTable) (key : String) :
    table.size ≤ (table.intern key).2.size := by
  cases h : table.indexOf? key with
  | some index => exact Nat.le_of_eq (by rw [intern_of_some h])
  | none =>
    rw [size, size, (intern_of_none h).2, Array.size_push]
    exact Nat.le_succ _

/-- A table grows by one text at most. -/
theorem size_intern_le (table : KeyTable) (key : String) :
    (table.intern key).2.size ≤ table.size + 1 := by
  cases h : table.indexOf? key with
  | some index =>
    rw [intern_of_some h]
    exact Nat.le_succ _
  | none => exact Nat.le_of_eq (by rw [size, size, (intern_of_none h).2, Array.size_push])

/-! ## Tables as lists -/

/-- A text is in the list when it has a position. -/
theorem mem_toList_iff : key ∈ table.keys.toList ↔ ∃ index, table.indexOf? key = some index := by
  simp only [Array.mem_toList_iff, Array.mem_iff_getElem?, indexOf?_eq_some_iff]

/-- **A table holds texts in the order of their first appearance.** Interning
one more keeps it so. -/
theorem toList_intern {keys : List String} (h : table.keys.toList = keys.eraseDups)
    (key : String) : (table.intern key).2.keys.toList = (keys ++ [key]).eraseDups := by
  have hmem : key ∈ keys ↔ ∃ index, table.indexOf? key = some index := by
    rw [← mem_toList_iff, h, List.mem_eraseDups]
  rw [List.eraseDups_append, ← h]
  cases hindex : table.indexOf? key with
  | some index =>
    have hkey : key ∈ keys := hmem.2 ⟨index, hindex⟩
    simp [intern_of_some hindex, List.removeAll, hkey]
  | none =>
    have hkey : key ∉ keys := by
      rw [hmem, hindex]
      rintro ⟨index, hsome⟩
      cases hsome
    simp [(intern_of_none hindex).2, List.removeAll, hkey, List.eraseDups_cons]

/-- The position of an interned text is that in the list of texts. -/
theorem intern_fst (table : KeyTable) (key : String) :
    (table.intern key).1 = (table.intern key).2.keys.toList.idxOf key := by
  obtain ⟨hlt, hkey⟩ := Array.getElem?_eq_some_iff.1 (getElem?_intern table key)
  have hposition := List.Nodup.idxOf_getElem (nodup_keys (table.intern key).2)
    (table.intern key).1 hlt
  rw [Array.getElem_toList, hkey] at hposition
  exact hposition.symm

/-- Every position of a table is that of a text in the list. -/
theorem exists_idxOf_eq (h : index < table.size) :
    ∃ key ∈ table.keys.toList, table.keys.toList.idxOf key = index :=
  ⟨table.keys.toList[index], List.getElem_mem _,
    List.Nodup.idxOf_getElem (nodup_keys table) index h⟩

/-- Texts that stand in a table keep their position in the list. -/
theorem idxOf_intern_of_mem (h : other ∈ table.keys.toList) (key : String) :
    (table.intern key).2.keys.toList.idxOf other = table.keys.toList.idxOf other := by
  cases hindex : table.indexOf? key with
  | some index => rw [intern_of_some hindex]
  | none =>
    rw [(intern_of_none hindex).2, Array.toList_push, List.idxOf_append_of_mem h]

end KeyTable

end AggregatedRecords
