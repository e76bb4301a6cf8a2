/-!
# Bounded histories

The newest entries of a sequence, at most so many of them: the oldest go first.

## Main definitions

- `Window`: the entries kept and the limit on their number.
- `Window.push`, `Window.setLimit`, `Window.clear`: the operations that change a window.
- `Window.Recalls`: a window is what is left of a sequence.

## Main statements

- `Window.Recalls.push`, `Window.Recalls.setLimit`, `Window.Recalls.clear`: every operation leaves
  what it should.
- `Window.Recalls.eq_drop`: a window with one limit is the newest entries, as many as it may keep.
-/

namespace Statechart

/-- The newest entries of a sequence, oldest first, and how many are kept at most. -/
structure Window (α : Type) where
  entries : List α
  limit : Nat
deriving Repr

namespace Window

variable {α : Type}

/-- The number of entries kept unless told otherwise. -/
def defaultLimit : Nat := 1024

/-- A window without entries. -/
def withLimit (limit : Nat) : Window α :=
  ⟨[], limit⟩

instance : Inhabited (Window α) := ⟨withLimit defaultLimit⟩

/-- Adds an entry. A full window loses its oldest one, and a window of no entries stays empty. -/
def push (w : Window α) (a : α) : Window α :=
  if w.limit = 0 then w
  else if w.entries.length = w.limit then { w with entries := w.entries.tail ++ [a] }
  else { w with entries := w.entries ++ [a] }

/-- Changes the limit, and drops the oldest entries in excess of it. -/
def setLimit (w : Window α) (limit : Nat) : Window α :=
  ⟨w.entries.drop (w.entries.length - limit), limit⟩

/-- Forgets every entry. -/
def clear (w : Window α) : Window α :=
  { w with entries := [] }

/-! ## What is left of a sequence -/

/-- A window holds the newest entries of a sequence, no more than its limit, and as many of the
last `k` as there are. -/
structure Recalls (w : Window α) (all : List α) (k : Nat) : Prop where
  newest : w.entries <:+ all
  bounded : w.entries.length ≤ w.limit
  enough : min all.length k ≤ w.entries.length

variable {w : Window α} {all : List α} {k : Nat}

@[simp]
theorem limit_push (w : Window α) (a : α) : (w.push a).limit = w.limit := by
  unfold push
  split
  · rfl
  · split <;> rfl

namespace Recalls

/-- A window that was cleared is left of nothing. -/
theorem clear (w : Window α) (k : Nat) : w.clear.Recalls [] k :=
  ⟨List.suffix_rfl, Nat.zero_le _, by simp⟩

/-- An entry that is added is the newest of the sequence. -/
theorem push (h : w.Recalls all k) (room : k ≤ w.limit) (a : α) :
    (w.push a).Recalls (all ++ [a]) k := by
  obtain ⟨⟨before, split⟩, bounded, enough⟩ := h
  subst split
  rw [List.length_append] at enough
  unfold Window.push
  split
  · next closed =>
    -- Nothing is kept, and nothing need be.
    have empty : w.entries = [] := List.eq_nil_of_length_eq_zero (by omega)
    refine ⟨?_, bounded, by omega⟩
    rw [empty]
    exact List.nil_suffix
  · split
    · next closed full =>
      -- The oldest entry makes room.
      obtain ⟨skipped, split⟩ := (List.tail_suffix w.entries).trans (List.suffix_append before _)
      refine ⟨⟨skipped, by rw [← split, List.append_assoc]⟩, ?_, ?_⟩
      · simp only [List.length_append, List.length_tail, List.length_singleton]
        omega
      · simp only [List.length_append, List.length_tail, List.length_singleton]
        omega
    · next closed full =>
      refine ⟨⟨before, by simp⟩, ?_, ?_⟩
      · simp only [List.length_append, List.length_singleton]
        omega
      · simp only [List.length_append, List.length_singleton]
        omega

/-- A window whose limit is changed keeps the newest of its entries. -/
theorem setLimit (h : w.Recalls all k) {n : Nat} (room : k ≤ n) : (w.setLimit n).Recalls all k := by
  have enough := h.enough
  refine ⟨(List.drop_suffix _ _).trans h.newest, ?_, ?_⟩
  · simp only [Window.setLimit, List.length_drop]
    omega
  · simp only [Window.setLimit, List.length_drop]
    omega

/-- A window with one limit holds the newest entries, as many as it may. -/
theorem eq_drop (h : w.Recalls all w.limit) : w.entries = all.drop (all.length - w.limit) := by
  obtain ⟨⟨before, split⟩, bounded, enough⟩ := h
  subst split
  rw [List.length_append] at enough
  have skipped : (before ++ w.entries).length - w.limit = before.length := by
    rw [List.length_append]
    omega
  rw [skipped, List.drop_left]

/-- A window that had room for all entries holds them all. -/
theorem eq_all (h : w.Recalls all k) (room : all.length ≤ k) : w.entries = all := by
  have enough := h.enough
  exact h.newest.eq_of_length_le (by omega)

end Recalls

end Window

end Statechart
