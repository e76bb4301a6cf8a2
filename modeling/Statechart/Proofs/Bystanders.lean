import Statechart.Proofs.Callbacks
import Statechart.Proofs.Strokes

/-!
# Bystanders

A move of the world is the turn of one task, or the clock goes on, or somebody from outside does
something. Whoever is not concerned is left with what it is about to do, keeps its place in the
queue, and is woken when the time comes that it waits for.

## Main statements

- `World.Next.aside`: what a move is to a task that does not have the turn.
- `World.Next.bystander`: such a task gets the turn, or goes on as before.
- `World.Next.turns`: it takes no turn unless it is given one.
- `World.Next.now_eq`: only the clock takes time.
- `World.Next.due`: whoever waits for a moment is ready when it has come.
-/

namespace Statechart

section

variable {w w' : World} {t u : TaskId}

namespace World

/-! ## The clock -/

/-- The clock goes on to the first moment that somebody waits for, and wakes whoever does. -/
theorem advanceClock?_eq (h : w.advanceClock? = some w') : ∃ time, w.nextDeadline? = some time ∧
    w' = { w with now := max w.now time }.wakeAll (w.dueTasks time) := by
  unfold advanceClock? at h
  obtain ⟨time, found, rfl⟩ := Option.map_eq_some_iff.1 h
  exact ⟨time, found, rfl⟩

theorem now_wakeAll_dueTasks (w : World) (time : Nat) :
    ({ w with now := max w.now time }.wakeAll (w.dueTasks time)).now = max w.now time :=
  (Strokes.wakeAll (t := 0) _ _).now

theorem lt_size_of_deadline? {d : Nat} (h : (w.task t).deadline? = some d) :
    t < w.tasks.size := by
  refine Nat.lt_of_not_le fun new => ?_
  have blank : w.task t = default := Table.get_of_size_le new
  rw [blank] at h
  cases h

/-- The clock does not pass a moment that somebody waits for. -/
theorem nextDeadline?_le {d : Nat} (h : (w.task t).deadline? = some d) :
    ∃ time ≤ d, w.nextDeadline? = some time := by
  have listed : d ∈ w.tasks.toList.filterMap Task.deadline? := by
    refine List.mem_filterMap.2 ⟨w.task t, ?_, h⟩
    exact Table.mem_toList.2 ⟨t, lt_size_of_deadline? h, rfl⟩
  unfold nextDeadline?
  cases least : (w.tasks.toList.filterMap Task.deadline?).min? with
  | none =>
    rw [List.min?_eq_none_iff.1 least] at listed
    cases listed
  | some time => exact ⟨time, (List.min?_eq_some_iff.1 least).2 d listed, rfl⟩

/-- Whoever is woken is ready, unless it has the turn. -/
theorem isUp_wake (w : World) (alive : (w.task t).isAlive = true) : (w.wake t).IsUp t :=
  (Frame.wake w t).2.resolve_left (by simp [alive])

theorem isUp_wakeAll (w : World) {ts : List TaskId} (alive : (w.task t).isAlive = true)
    (listed : t ∈ ts) : (w.wakeAll ts).IsUp t := by
  unfold wakeAll
  induction ts generalizing w with
  | nil => cases listed
  | cons u ts ih =>
    have same := ((Frame.wake w u).1.task t).isAlive.trans alive
    rcases List.mem_cons.1 listed with rfl | rest
    · exact (Frame.wakeAll (w.wake t) ts).isUp (isUp_wake w alive)
    · exact ih (w.wake u) same rest

/-! ## Moves -/

/-- A move of the world gives a task that does not have the turn its turn, or is the turn of
another, or the clock goes on. -/
theorem Next.aside (h : w.Next w') (off : w.running ≠ some u) :
    (w.running = none ∧ u ∈ w.queue ∧ w' = w.beginTurn u) ∨ (∃ t, u ≠ t ∧ Strokes t w w') ∨
      w.running = none ∧ w.advanceClock? = some w' := by
  have other : u ≠ u + 1 := (Nat.succ_ne_self u).symm
  cases h with
  | @move t turn => exact .inr (.inl ⟨t, fun same => off (same ▸ turn), .move w⟩)
  | @giveUp t rest r deadline turn =>
    exact .inr (.inl ⟨t, fun same => off (same ▸ turn), .giveUp w rest r⟩)
  | @turn t free ready =>
    by_cases mine : u = t
    · exact .inl ⟨free, mine ▸ ready, by rw [mine]⟩
    · exact .inr (.inl ⟨t, mine, .beginTurn w⟩)
  | tick free later => exact .inr (.inr ⟨free, later⟩)
  | wake t => exact .inr (.inl ⟨_, other, .single (.wake t)⟩)
  | stop i => exact .inr (.inl ⟨_, other, .forceStop w i⟩)
  | start i free started => exact .inr (.inl ⟨_, other, .startInBackground started⟩)
  | abort t => exact .inr (.inl ⟨_, other, .single (.abort t)⟩)
  | call steps => exact .inr (.inl ⟨_, other, .single (.spawn _)⟩)

/-- Only the clock takes time. -/
theorem Next.now_eq (h : w.Next w') :
    w'.now = w.now ∨ w.running = none ∧ w.advanceClock? = some w' := by
  cases h with
  | move turn => exact .inl (Strokes.move w).now
  | giveUp turn => exact .inl (Strokes.giveUp w _ _).now
  | turn free ready => exact .inl (Strokes.beginTurn w).now
  | tick free later => exact .inr ⟨free, later⟩
  | wake t => exact .inl (Stroke.wake (t := 0) t).now
  | stop i => exact .inl (Strokes.forceStop (t := 0) w i).now
  | start i free started => exact .inl (Strokes.startInBackground (t := 0) started).now
  | abort t => exact .inl (Stroke.abort (t := 0) t).now
  | call steps => exact .inl (Stroke.spawn (t := 0) _).now

theorem Next.now_le (h : w.Next w') : w.now ≤ w'.now := by
  rcases h.now_eq with same | ⟨-, later⟩
  · exact Nat.le_of_eq same.symm
  · obtain ⟨time, found, rfl⟩ := advanceClock?_eq later
    rw [now_wakeAll_dueTasks]
    exact Nat.le_max_left ..

/-- A task that does not have the turn gets it, or is left with what it is about to do and keeps
its place in the queue. -/
theorem Next.bystander (h : w.Next w') (off : w.running ≠ some u) (known : u < w.tasks.size) :
    (w.running = none ∧ u ∈ w.queue ∧ w' = w.beginTurn u) ∨
      u < w'.tasks.size ∧ (w.task u).Minds (w'.task u) ∧ (w.IsUp u → w'.IsUp u) := by
  have ready (up : w.IsUp u) : u ∈ w.queue := up.resolve_left off
  rcases h.aside off with mine | ⟨t, other, strokes⟩ | ⟨-, later⟩
  · exact .inl mine
  · obtain ⟨known, minds⟩ := strokes.minds other known
    exact .inr ⟨known, minds, fun up => .inr (strokes.queued other (ready up))⟩
  · obtain ⟨time, -, rfl⟩ := advanceClock?_eq later
    have strokes : Strokes (u + 1) { w with now := max w.now time }
      ({ w with now := max w.now time }.wakeAll (w.dueTasks time)) := .wakeAll _ _
    have other : u ≠ u + 1 := (Nat.succ_ne_self u).symm
    obtain ⟨known, minds⟩ := strokes.minds other known
    exact .inr ⟨known, minds, fun up => .inr (strokes.queued other (ready up))⟩

/-- A task that does not have the turn takes none, unless it is given the turn. -/
theorem Next.turns (h : w.Next w') (off : w.running ≠ some u) :
    w' = w.beginTurn u ∨ ∃ news, w'.marks = w.marks ++ news ∧ .turn u ∉ news := by
  rcases h.aside off with ⟨-, -, mine⟩ | ⟨t, other, strokes⟩ | ⟨-, later⟩
  · exact .inl mine
  · obtain ⟨news, marks, mine⟩ := strokes.turns
    exact .inr ⟨news, marks, fun here => other (mine u here)⟩
  · obtain ⟨time, -, rfl⟩ := advanceClock?_eq later
    refine .inr ⟨[], ?_, List.not_mem_nil⟩
    rw [List.append_nil]
    exact (Frame.wakeAll { w with now := max w.now time } (w.dueTasks time)).marks

/-- Whoever waits for a moment that the clock comes to is ready. -/
theorem Next.due {d : Nat} (h : w.Next w') (waits : (w.task u).deadline? = some d)
    (early : w.now < d) (late : d ≤ w'.now) : w'.IsUp u := by
  rcases h.now_eq with same | ⟨-, later⟩
  · rw [same] at late
    exact absurd early (Nat.not_lt.2 late)
  · obtain ⟨time, found, rfl⟩ := advanceClock?_eq later
    rw [now_wakeAll_dueTasks] at late
    have due : d ≤ time := by omega
    refine isUp_wakeAll _ (t := u) ?_ ?_
    · show (w.task u).isAlive = true
      unfold Task.deadline? at waits
      split at waits
      · assumption
      · cases waits
    · refine List.mem_filter.2 ⟨List.mem_range.2 (lt_size_of_deadline? waits), ?_⟩
      simp [waits, due]

end World

end

end Statechart
