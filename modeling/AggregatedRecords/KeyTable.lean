import Std.Data.ExtTreeMap
/-!
# Key table — distinct texts, numbered by first appearance

A key table gives each text the position at which it was first interned. A
text has one position and a position stands for one text
(`KeyTable.indexOf?_eq_some_iff`); taking the table out starts the numbering
again.
-/

namespace AggregatedRecords

/-- Distinct texts in the order of their first appearance, and beside them the
position of each. -/
structure KeyTable where
  keys : Array String
  positions : Std.ExtTreeMap String Nat
  position_iff : ∀ (key : String) (index : Nat),
    positions[key]? = some index ↔ keys[index]? = some key

namespace KeyTable

/-- The table without texts. -/
def empty : KeyTable := ⟨#[], ∅, by simp⟩

instance : Inhabited KeyTable := ⟨empty⟩

/-- The number of texts. -/
def size (table : KeyTable) : Nat := table.keys.size

/-- Whether there are no texts. -/
def isEmpty (table : KeyTable) : Bool := table.keys.isEmpty

/-- The position of a text, if it was interned. -/
def indexOf? (table : KeyTable) (key : String) : Option Nat := table.positions[key]?

/-- A text has the position at which it stands in the table. -/
theorem indexOf?_eq_some_iff {table : KeyTable} {key : String} {index : Nat} :
    table.indexOf? key = some index ↔ table.keys[index]? = some key :=
  table.position_iff key index

/-- No text stands twice in a table. -/
theorem nodup_keys (table : KeyTable) : table.keys.toList.Nodup := by
  refine List.pairwise_iff_getElem.2 fun i j hi hj hij heq => ?_
  have hposition (k : Nat) (hk : k < table.keys.toList.length) :
      table.indexOf? table.keys.toList[k] = some k :=
    indexOf?_eq_some_iff.2 (by simp [Array.getElem?_eq_getElem (by simpa using hk)])
  have hi' := hposition i hi
  rw [heq, hposition j hj] at hi'
  exact Nat.ne_of_gt hij (Option.some.inj hi')

/-- With a new text at the end of a table, each text has its position. -/
theorem position_iff_push {table : KeyTable} {key : String} (h : table.positions[key]? = none)
    (key' : String) (index : Nat) :
    (table.positions.insert key table.size)[key']? = some index ↔
      (table.keys.push key)[index]? = some key' := by
  rw [Std.ExtTreeMap.getElem?_insert, Array.getElem?_push, size]
  by_cases hindex : index = table.keys.size
  · have := table.position_iff key' table.keys.size
    simp_all
  · have hold := table.position_iff key' index
    have hnew := table.position_iff key index
    by_cases hkey : key = key'
    · simp_all
      omega
    · simp_all

/-- The table with a new text at its end. -/
def add (table : KeyTable) (key : String) (h : table.positions[key]? = none) : KeyTable :=
  let index := table.size
  ⟨table.keys.push key, table.positions.insert key index, position_iff_push h⟩

/-- The position of a text, and the table with the text at its end if it was
not there. -/
def intern (table : KeyTable) (key : String) : Nat × KeyTable :=
  match h : table.positions[key]? with
  | some index => (index, table)
  | none => (table.size, table.add key h)

/-- The texts by position, and the table without them. -/
def take (table : KeyTable) : Array String × KeyTable := (table.keys, empty)

/-- An interned text keeps its position and the table. -/
theorem intern_of_some {table : KeyTable} {key : String} {index : Nat}
    (h : table.indexOf? key = some index) : table.intern key = (index, table) := by
  unfold intern
  simp only [indexOf?] at h
  split <;> simp_all

/-- A new text comes to the end of the table. -/
theorem intern_of_none {table : KeyTable} {key : String} (h : table.indexOf? key = none) :
    (table.intern key).1 = table.size ∧ (table.intern key).2.keys = table.keys.push key := by
  unfold intern
  simp only [indexOf?] at h
  split <;> simp_all [add]

end KeyTable

end AggregatedRecords
