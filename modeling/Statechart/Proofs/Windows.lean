import Mathlib.Data.List.DropRight
import Statechart.History.Window

/-!
# Windows over time

What a window holds after any sequence of changes: entries are added, the limit is lowered and
raised, and everything is forgotten, in any order.

## Main definitions

- `Window.Edit`: a change of a window.
- `Window.Edit.pushedSince`: the entries that were added since everything was forgotten.

## Main statements

- `Window.recalls_editAll`: a window is what is left of those, at least as much of them as the
  lowest limit allowed.
- `Window.keeps_newest`: what a window holds after any changes, and what one more change does.
-/

namespace Statechart.Window

/-- A change of a window. -/
inductive Edit (α : Type) where
  | push (a : α)
  | setLimit (limit : Nat)
  | clear
deriving DecidableEq, Repr

namespace Edit

variable {α : Type}

/-- The entry that is added. -/
def added? : Edit α → Option α
  | push a => some a
  | _ => none

/-- The limit that is set. -/
def limit? : Edit α → Option Nat
  | setLimit n => some n
  | _ => none

/-- Whether everything is forgotten. -/
def isClear : Edit α → Bool
  | clear => true
  | _ => false

/-- The entries that were added since everything was last forgotten. -/
def pushedSince (edits : List (Edit α)) : List α :=
  (edits.rtakeWhile (!·.isClear)).filterMap added?

/-- The limit in force: the one that was set last, or else the first one. -/
def limitAfter (first : Nat) (edits : List (Edit α)) : Nat :=
  (edits.filterMap limit?).getLast?.getD first

theorem pushedSince_concat_clear (edits : List (Edit α)) : pushedSince (edits ++ [clear]) = [] := by
  rw [pushedSince, List.rtakeWhile_concat_neg _ _ _ (by simp [isClear])]
  rfl

theorem pushedSince_concat (edits : List (Edit α)) {e : Edit α} (stays : e.isClear = false) :
    pushedSince (edits ++ [e]) = pushedSince edits ++ e.added?.toList := by
  rw [pushedSince, List.rtakeWhile_concat_pos _ _ _ (by simp [stays]), List.filterMap_append]
  cases e <;> rfl

end Edit

variable {α : Type} {l k : Nat}

/-- The window after a change. -/
def edit (w : Window α) : Edit α → Window α
  | .push a => w.push a
  | .setLimit n => w.setLimit n
  | .clear => w.clear

/-- The window after changes, one after the other. -/
def editAll (w : Window α) (edits : List (Edit α)) : Window α :=
  edits.foldl edit w

theorem editAll_concat (w : Window α) (edits : List (Edit α)) (e : Edit α) :
    w.editAll (edits ++ [e]) = (w.editAll edits).edit e := by
  simp only [editAll, List.foldl_append, List.foldl_cons, List.foldl_nil]

/-- The limit is the one that was set last. -/
theorem limit_editAll (l : Nat) (edits : List (Edit α)) :
    ((withLimit l : Window α).editAll edits).limit = Edit.limitAfter l edits := by
  induction edits using List.reverseRecOn with
  | nil => rfl
  | append_singleton edits e ih =>
    rw [editAll_concat]
    cases e with
    | push a =>
      rw [edit, limit_push, ih]
      simp [Edit.limitAfter, Edit.limit?]
    | setLimit n => simp [edit, Window.setLimit, Edit.limitAfter, Edit.limit?]
    | clear =>
      rw [edit, Window.clear, ih]
      simp [Edit.limitAfter, Edit.limit?]

/-- The limit in force is the first one or one that was set. -/
theorem limitAfter_mem (l : Nat) (edits : List (Edit α)) :
    Edit.limitAfter l edits = l ∨ .setLimit (Edit.limitAfter l edits) ∈ edits := by
  unfold Edit.limitAfter
  cases last : (edits.filterMap Edit.limit?).getLast? with
  | none => exact .inl rfl
  | some n =>
    obtain ⟨e, he, hn⟩ := List.mem_filterMap.1 (List.mem_of_getLast? last)
    cases e with
    | setLimit m =>
      cases hn
      exact .inr he
    | push | clear => cases hn

/-- After any changes, a window holds what is left of the entries added since everything was
forgotten, and as many of the newest as the lowest limit allowed. -/
theorem recalls_editAll {edits : List (Edit α)} (first : k ≤ l)
    (least : ∀ n, .setLimit n ∈ edits → k ≤ n) :
    ((withLimit l).editAll edits).Recalls (Edit.pushedSince edits) k := by
  induction edits using List.reverseRecOn with
  | nil => exact Recalls.clear (withLimit l) k
  | append_singleton edits e ih =>
    have before : ∀ n, .setLimit n ∈ edits → k ≤ n :=
      fun n hn => least n (List.mem_append_left _ hn)
    have room : k ≤ ((withLimit l : Window α).editAll edits).limit := by
      rw [limit_editAll l edits]
      rcases limitAfter_mem l edits with same | set
      · exact first.trans_eq same.symm
      · exact before _ set
    rw [editAll_concat]
    cases e with
    | push a =>
      rw [Edit.pushedSince_concat edits rfl]
      exact (ih before).push room a
    | setLimit n =>
      have none : (Edit.setLimit n : Edit α).added?.toList = [] := rfl
      rw [Edit.pushedSince_concat edits rfl, none, List.append_nil]
      exact (ih before).setLimit (least n (by simp))
    | clear =>
      rw [Edit.pushedSince_concat_clear]
      exact Recalls.clear _ k

/-- An entry that is added to a window within its limit stays together with the newest others. -/
theorem entries_push {w : Window α} (bounded : w.entries.length ≤ w.limit) (a : α) :
    (w.push a).entries = (w.entries ++ [a]).rtake w.limit := by
  have before : w.Recalls w.entries w.limit := ⟨List.suffix_rfl, bounded, by omega⟩
  have after := before.push (Nat.le_refl _) a
  rw [← limit_push w a] at after ⊢
  exact after.eq_drop

theorem length_rtake (n : Nat) (xs : List α) : (xs.rtake n).length = min xs.length n := by
  rw [List.rtake, List.length_drop]
  omega

/-- After any changes, a window is within its limit and holds the newest of the entries that were
added since everything was forgotten. One more entry makes it longer by one, up to the limit, and
a new limit leaves as many as it allows, the newest in both cases. So a window whose limit stays
the same holds as many of the newest entries as it may. -/
theorem keeps_newest (l : Nat) (edits : List (Edit α)) :
    let w := (withLimit l : Window α).editAll edits
    w.limit = Edit.limitAfter l edits ∧ w.entries.length ≤ w.limit ∧
    w.entries <:+ Edit.pushedSince edits ∧
    (∀ a, (w.push a).entries = (w.entries ++ [a]).rtake w.limit ∧
      (w.push a).entries.length = min (w.entries.length + 1) w.limit) ∧
    (∀ n, (w.setLimit n).entries = w.entries.rtake n ∧
      (w.setLimit n).entries.length = min w.entries.length n) ∧
    ((∀ n, .setLimit n ∈ edits → n = l) →
      w.entries = (Edit.pushedSince edits).rtake l ∧
      w.entries.length = min (Edit.pushedSince edits).length l) := by
  intro w
  have any : w.Recalls (Edit.pushedSince edits) 0 :=
    recalls_editAll (Nat.zero_le l) fun n _ => Nat.zero_le n
  refine ⟨limit_editAll l edits, any.bounded, any.newest, fun a => ?_, fun n => ?_, fun same => ?_⟩
  · have pushed := entries_push any.bounded a
    refine ⟨pushed, ?_⟩
    rw [pushed, length_rtake, List.length_append, List.length_singleton]
  · exact ⟨rfl, length_rtake n w.entries⟩
  · have limit : w.limit = l :=
      (limit_editAll l edits).trans ((limitAfter_mem l edits).elim id (same _))
    have kept : w.Recalls (Edit.pushedSince edits) w.limit :=
      limit ▸ recalls_editAll (Nat.le_refl l) fun n set => (same n set).ge
    have newest : w.entries = (Edit.pushedSince edits).rtake l := limit ▸ kept.eq_drop
    exact ⟨newest, newest ▸ length_rtake l _⟩

/-- What was lost to a lower limit does not come back with a higher one, and with one limit the
newest entries are there. -/
theorem narrowed_keeps :
    ((withLimit 2).editAll [.push 1, .push 2, .setLimit 1, .setLimit 3, .push 3]).entries <:+
      [1, 2, 3] ∧
    ((withLimit 2).editAll [.push 7, .clear, .push 1, .push 2, .push 3]).entries = [2, 3] := by
  obtain ⟨-, -, newest, -⟩ :=
    keeps_newest 2 [.push 1, .push 2, .setLimit 1, .setLimit 3, .push 3]
  obtain ⟨-, -, -, -, -, same⟩ := keeps_newest 2 [.push 7, .clear, .push 1, .push 2, .push 3]
  exact ⟨newest, (same (by simp)).1⟩

end Statechart.Window
