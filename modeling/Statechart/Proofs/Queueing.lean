import Statechart.Proofs.Strokes

/-!
# Places in the queue

Whoever becomes ready lines up behind those who are ready already, and nobody ever gets in front of
somebody else. So the line in front of a task that is ready gets shorter with every turn that ends,
and time stands still until its own turn comes. It comes unless somebody keeps the turn for good.

## Main definitions

- `World.InLine`: a task is ready, with so many tasks in front of it.
- `World.Passes`: a move of the world before the turn of a task that is ready.

## Main statements

- `Strokes.inLine`: nobody gets in front of a task.
- `World.InLine.comes`: the turn of a task comes, unless somebody keeps it for good.
-/

namespace Statechart

namespace World

/-- A task is ready, with no more than so many tasks in front of it. -/
def InLine (w : World) (t : TaskId) (n : Nat) : Prop :=
  ∃ front back, w.queue = front ++ t :: back ∧ front.length ≤ n

/-- The next move of the world comes before the turn of a task that is ready. -/
structure Passes (t : TaskId) (w w' : World) : Prop where
  step : w.step? = some w'
  ready : t ∈ w.queue
  ready' : t ∈ w'.queue

/-- The turn of a task is next after some moves, or somebody keeps the turn for good. -/
inductive Comes (t : TaskId) (w : World) : Prop where
  | comes {w' : World} {rest : List TaskId} (path : Relation.ReflTransGen (Passes t) w w')
      (free : w'.running = none) (next : w'.queue = t :: rest)
  | kept {w' : World} {u : TaskId} (path : Relation.ReflTransGen (Passes t) w w')
      (kept : ∀ w'', Relation.ReflTransGen (fun a b => a.step? = some b) w' w'' →
        w''.running = some u)

end World

section

variable {w w' : World} {t u : TaskId} {n : Nat}

namespace World

theorem InLine.mem (h : w.InLine t n) : t ∈ w.queue := by
  obtain ⟨front, back, queue, -⟩ := h
  simp [queue]

theorem exists_inLine (ready : t ∈ w.queue) : ∃ n, w.InLine t n := by
  obtain ⟨front, back, queue⟩ := List.append_of_mem ready
  exact ⟨_, front, back, queue, Nat.le_refl _⟩

theorem InLine.of_append {more : List TaskId} (h : w.InLine t n)
    (queue : w'.queue = w.queue ++ more) : w'.InLine t n := by
  obtain ⟨front, back, here, few⟩ := h
  exact ⟨front, back ++ more, by rw [queue, here, List.append_assoc]; rfl, few⟩

theorem queue_enqueue_eq (w : World) (t : TaskId) :
    ∃ more, (w.enqueue t).queue = w.queue ++ more := by
  unfold enqueue
  split
  · exact ⟨[], (List.append_nil _).symm⟩
  · exact ⟨[t], rfl⟩

end World

theorem Stroke.inLine (h : Stroke u w w') (other : t ≠ u) (l : w.InLine t n) : w'.InLine t n := by
  have still (queue : w'.queue = w.queue) : w'.InLine t n :=
    l.of_append (queue.trans (List.append_nil _).symm)
  have woken (v : TaskId) : (w.wake v).InLine t n := by
    unfold World.wake
    split
    · exact l
    · split
      · exact l
      · obtain ⟨more, queue⟩ := w.queue_enqueue_eq v
        exact l.of_append queue
  cases h with
  | wake v => exact woken v
  | raise v d =>
    obtain ⟨w₁, rfl | ⟨x, rfl⟩, visits, journal, raised⟩ := w.raise_wakes v d
    · rw [raised]
      exact l
    · rw [raised]
      exact woken x
  | abort v =>
    unfold World.abort
    split
    · exact l
    · obtain ⟨more, queue⟩ :=
        (w.modifyTask v fun x => { x with aborted := true }).queue_enqueue_eq v
      exact l.of_append queue
  | spawn x => exact l.of_append rfl
  | unqueue =>
    obtain ⟨front, back, queue, few⟩ := l
    by_cases early : u ∈ front
    · refine ⟨front.erase u, back, ?_, Nat.le_trans (List.length_erase_le ..) few⟩
      simp [queue, List.erase_append_left _ early]
    · refine ⟨front, back.erase u, ?_, few⟩
      simp [queue, List.erase_append_right _ early, List.erase_cons_tail, other]
  | again =>
    obtain ⟨more, queue⟩ := w.queue_enqueue_eq u
    exact l.of_append queue
  | _ => exact still rfl

/-- Nobody gets in front of a task. -/
theorem Strokes.inLine (h : Strokes u w w') (other : t ≠ u) (l : w.InLine t n) :
    w'.InLine t n := by
  induction h with
  | refl => exact l
  | tail _ stroke ih => exact stroke.inLine other ih

namespace World

/-- The line gets shorter when somebody's turn begins. -/
theorem InLine.beginTurn (l : w.InLine t n) {rest : List TaskId} (queue : w.queue = u :: rest)
    (other : t ≠ u) : ∃ m, n = m + 1 ∧ (w.beginTurn u).InLine t m := by
  obtain ⟨front, back, here, few⟩ := l
  cases front with
  | nil =>
    rw [queue] at here
    exact absurd (List.cons.inj here).1.symm other
  | cons x front =>
    rw [queue] at here
    obtain ⟨rfl, rfl⟩ := List.cons.inj here
    cases n with
    | zero => exact absurd few (Nat.not_succ_le_zero _)
    | succ m =>
      have shorter : ({ w with queue := w.queue.erase u } : World).InLine t m :=
        ⟨front, back, by simp [queue], Nat.le_of_succ_le_succ few⟩
      refine ⟨m, rfl, ?_⟩
      unfold World.beginTurn
      simp only
      split
      · exact (Strokes.dropTask _).inLine other shorter
      · exact shorter

/-- Somebody's turn ends some time, or is never over. -/
theorem InLine.ends (l : w.InLine t n) (other : t ≠ u) (turn : w.running = some u) :
    (∃ w', Relation.ReflTransGen (Passes t) w w' ∧ w'.running = none ∧ w'.InLine t n) ∨
      ∀ w', Relation.ReflTransGen (fun a b => a.step? = some b) w w' →
        w'.running = some u := by
  refine Classical.or_iff_not_imp_right.2 fun kept => ?_
  replace kept := Classical.not_forall.1 kept
  obtain ⟨w', kept⟩ := kept
  replace kept := Classical.not_imp.1 kept
  obtain ⟨path, ended⟩ := kept
  -- The first move with which the turn is given up.
  induction path using Relation.ReflTransGen.head_induction_on with
  | refl => exact absurd turn ended
  | @head a b step path ih =>
    rw [step?, turn] at step
    obtain rfl := Option.some.inj step
    have strokes := Strokes.move (t := u) a
    have l' := strokes.inLine other l
    have passes : Passes t a (a.move u) := ⟨by rw [step?, turn], l.mem, l'.mem⟩
    have running : (a.move u).running = none ∨ (a.move u).running = some u := by
      rcases strokes.running with none | mine | same
      · exact .inl none
      · exact .inr mine
      · exact .inr (same.trans turn)
    rcases running with free | mine
    · exact ⟨_, .single passes, free, l'⟩
    · obtain ⟨w'', path', free, l''⟩ := ih l' mine
      exact ⟨w'', .head passes path', free, l''⟩

theorem Comes.prepend (path : Relation.ReflTransGen (Passes t) w w') (h : w'.Comes t) :
    w.Comes t := by
  cases h with
  | comes path' free next => exact .comes (path.trans path') free next
  | kept path' kept => exact .kept (path.trans path') kept

/-- The turn of a task that is ready comes, unless somebody keeps the turn for good. -/
theorem InLine.comes (l : w.InLine t n) (free : w.running = none) : w.Comes t := by
  induction n generalizing w with
  | zero =>
    obtain ⟨front, back, queue, few⟩ := l
    obtain rfl := List.length_eq_zero_iff.1 (Nat.le_zero.1 few)
    exact .comes .refl free queue
  | succ n ih =>
    cases queue : w.queue with
    | nil =>
      have here := l.mem
      rw [queue] at here
      cases here
    | cons u rest =>
      by_cases mine : t = u
      · subst mine
        exact .comes .refl free queue
      · obtain ⟨m, same, l'⟩ := l.beginTurn queue mine
        obtain rfl := Nat.succ.inj same
        have passes : Passes t w (w.beginTurn u) := ⟨by rw [step?, free, queue], l.mem, l'.mem⟩
        have running : (w.beginTurn u).running = none ∨ (w.beginTurn u).running = some u := by
          rcases (Strokes.beginTurn (t := u) w).running with none | turn | same
          · exact .inl none
          · exact .inr turn
          · exact .inl (same.trans free)
        rcases running with free' | turn
        · exact (ih l' free').prepend (.single passes)
        · rcases l'.ends mine turn with ⟨w', path, free', l''⟩ | kept
          · exact (ih l'' free').prepend (.head passes path)
          · exact .kept (.single passes) kept

end World

end

end Statechart
