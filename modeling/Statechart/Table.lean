/-!
# Tables

Rows numbered from zero in the order in which they were added. A row that was never added reads
as the default value, so that looking up and changing rows have no side conditions.

## Main definitions

- `Table.get`, `Table.modify`, `Table.push`: the operations.

## Main statements

- `Table.get_modify`, `Table.get_push`: what each operation does to each row.
-/

namespace Statechart

/-- Rows numbered from zero. -/
structure Table (α : Type) where
  rows : Array α

namespace Table

variable {α : Type} [Inhabited α]

/-- A table without rows. -/
def empty : Table α := ⟨#[]⟩

instance : Inhabited (Table α) := ⟨empty⟩

/-- The number of rows, which is the number of the next one. -/
def size (t : Table α) : Nat :=
  t.rows.size

/-- A row. -/
def get (t : Table α) (i : Nat) : α :=
  t.rows.getD i default

/-- Changes a row. -/
def modify (t : Table α) (i : Nat) (f : α → α) : Table α :=
  if i < t.rows.size then ⟨t.rows.modify i f⟩
  else ⟨(t.rows ++ Array.replicate (i - t.rows.size) default).push (f default)⟩

/-- The rows in order. -/
def toList (t : Table α) : List α :=
  t.rows.toList

/-- Adds a row. -/
def push (t : Table α) (a : α) : Table α :=
  ⟨t.rows.push a⟩

/-! ## Lookups -/

theorem get_of_size_le {t : Table α} {i : Nat} (h : t.size ≤ i) : t.get i = default := by
  simp only [size] at h
  simp [get, Array.getD, Nat.not_lt.2 h]

/-- Changing a row changes that row and no other. -/
theorem get_modify (t : Table α) (i j : Nat) (f : α → α) :
    (t.modify i f).get j = if j = i then f (t.get j) else t.get j := by
  simp only [modify, get]
  split
  · next h =>
    by_cases hj : j = i
    · subst hj; simp [Array.getD, h, Array.getElem_modify]
    · by_cases hs : j < t.rows.size <;> simp [Array.getD, hs, hj, Array.getElem_modify, Ne.symm hj]
  · next h =>
    simp only [Array.getD_eq_getD_getElem?, Array.getElem?_push, Array.getElem?_append,
      Array.size_append, Array.size_replicate, Array.getElem?_replicate]
    have hi : t.rows.size + (i - t.rows.size) = i := by omega
    rw [hi]
    by_cases hj : j = i
    · subst hj; simp [h]
    · by_cases hs : j < t.rows.size
      · simp [hs, hj]
      · simp only [hs, hj, if_false]
        split <;> simp [Array.getElem?_eq_none (Nat.not_lt.1 hs)]

/-- Adding a row makes it the row of the next number. -/
theorem get_push (t : Table α) (a : α) (j : Nat) :
    (t.push a).get j = if j = t.size then a else t.get j := by
  simp only [push, get, size, Array.getD_eq_getD_getElem?, Array.getElem?_push]
  split <;> simp_all

omit [Inhabited α] in
theorem size_push (t : Table α) (a : α) : (t.push a).size = t.size + 1 := by
  simp [push, size]

omit [Inhabited α] in
theorem toList_push (t : Table α) (a : α) : (t.push a).toList = t.toList ++ [a] := by
  simp [push, toList]

theorem size_modify_of_lt {t : Table α} {i : Nat} (h : i < t.size) (f : α → α) :
    (t.modify i f).size = t.size := by
  simp only [size] at h
  simp [modify, size, h]

end Table

end Statechart
