import Statechart.Proofs.MoveBeats

/-!
# What marks speak of

A mark may speak of a run, a visit or a task. Whatever a mark speaks of is there, so it stays what
it is while the marks become more.

## Main definitions

- `Mark.run?`, `Mark.visit?`, `Mark.task?`: what a mark speaks of.
- `World.Speaks`: a mark of a run's own way.
- `Recorded`: the visits and tasks that marks speak of are there.
- `Leaves`: a beat leaves a mark.

## Main statements

- `Stride.speaks`: the marks of a run that goes further speak of its own visits.
- `Beats.moment`: every mark was left by some beat.
- `Scenario.Reaches.recorded`: marks speak of visits and tasks that are there.
-/

namespace Statechart

/-- The run that a mark speaks of. -/
def Mark.run? : Mark → Option RunId
  | .began r | .stopAsked r | .notified r _ | .entered r _ | .moved r _ | .announced r
  | .returned r _ | .released r _ => some r
  | _ => none

/-- The visit that a mark speaks of. -/
def Mark.visit? : Mark → Option VisitId
  | .entered _ v | .acted v _ _ | .arrived v | .launched v _ | .concluded v _ | .left v => some v
  | _ => none

/-- The task that a mark speaks of. -/
def Mark.task? : Mark → Option TaskId
  | .turn t | .ended t _ => some t
  | _ => none

theorem Mark.visit?_of_isAside {m : Mark} (h : m.isAside = true) : m.visit? = none := by
  cases m <;> first | rfl | cases h

theorem Mark.task?_of_isAside {m : Mark} (h : m.isAside = false) : m.task? = none := by
  cases m <;> first | rfl | cases h

/-- The visits and tasks that marks speak of are there. -/
structure Recorded (w : World) : Prop where
  visit : ∀ m ∈ w.marks, ∀ v, m.visit? = some v → v < w.visits.size
  task : ∀ m ∈ w.marks, ∀ t, m.task? = some t → t < w.tasks.size

/-- A mark is of the own way of a run that goes further: it speaks of no other run and of the
run's visits, and if it speaks of a new one, it says that this one begins. -/
structure World.Speaks (w : World) (r : RunId) (w' : World) (m : Mark) : Prop where
  way : m.isAside = false
  run : ∀ q, m.run? = some q → q = r
  visit : ∀ v, m.visit? = some v → w'.Owns r v ∧ (v < w.visits.size ∨ m = .entered r v)

section

variable {w w' : World} {σ σ' : Stage} {t : TaskId} {r : RunId}

/-- Scripts leave no marks of tasks, nor of how runs go from state to state. -/
theorem Stir.marks (b : Stir σ w w') : ∃ news, w'.marks = w.marks ++ news ∧
    ∀ m ∈ news, m.isAside = true ∧ m.task? = none := by
  rcases b.hushed with hushed | ⟨x, -, rfl⟩ | ⟨i, s, -, rfl⟩
  · obtain ⟨news, marks, talk⟩ := hushed.talk
    refine ⟨news, marks, fun m hm => ?_⟩
    have talk := talk m hm
    cases m <;> first | exact ⟨rfl, rfl⟩ | cases talk
  · exact ⟨[], (List.append_nil _).symm, by simp⟩
  · exact ⟨_, w.marks_startNew i s, List.forall_mem_singleton.2 ⟨rfl, rfl⟩⟩

/-- The marks of a run that goes further are of its own way. -/
theorem Stride.speaks (b : Stride t r (w, σ) (w', σ')) (h : Staged w σ) :
    ∃ news, w'.marks = w.marks ++ news ∧ ∀ m ∈ news, w.Speaks r w' m := by
  have o := b.onward
  -- The visit of a move, and the one that a run waits for, are the run's own.
  have move {s : Spot} {v : VisitId} (hσ : σ = .busy t r s) (hs : s.visit? = some v) :
      w'.Owns r v ∧ v < w.visits.size :=
    have own := (h.placed t r s hσ).own v hs
    ⟨o.owns own, own.known⟩
  have wait {v : VisitId} (hv : (w.run r).phase.visit? = some v) :
      w'.Owns r v ∧ v < w.visits.size :=
    have own := h.waits r v hv
    ⟨o.owns own, own.known⟩
  have ofRun {m : Mark} (way : m.isAside = false) (run : m.run? = some r)
      (visit : m.visit? = none) : w.Speaks r w' m := by
    refine ⟨way, fun q hq => ?_, fun v hv => ?_⟩
    · exact Option.some.inj (hq.symm.trans run)
    · cases hv.symm.trans visit
  have ofVisit {m : Mark} {v : VisitId} (own : w'.Owns r v ∧ v < w.visits.size)
      (way : m.isAside = false) (run : m.run? = none) (visit : m.visit? = some v) :
      w.Speaks r w' m := by
    refine ⟨way, fun q hq => ?_, fun u hu => ?_⟩
    · cases hq.symm.trans run
    · cases hu.symm.trans visit
      exact ⟨own.1, .inl own.2⟩
  cases b with
  | depart | ready | wait | look | idle | tear | exit | tended | dropBegun | dropArriving
  | crew | relax => exact ⟨[], by simp, by simp⟩
  | hear | toll => exact ⟨[], by simp [Entry.mark?], by simp⟩
  | visit =>
    refine ⟨_, World.marks_pushVisit .., List.forall_mem_singleton.2 ⟨rfl, fun q hq => ?_,
      fun v hv => ?_⟩⟩
    · exact (Option.some.inj hq).symm
    · cases hv
      exact ⟨w.owns_pushVisit r _, .inr rfl⟩
  | act | arrive | launch | pass | tend =>
    exact ⟨_, World.marks_mark ..,
      List.forall_mem_singleton.2 (ofVisit (move rfl rfl) rfl rfl rfl)⟩
  | tell | go | announce =>
    exact ⟨_, World.marks_mark .., List.forall_mem_singleton.2 (ofRun rfl rfl rfl)⟩
  | conclude _ phase =>
    exact ⟨_, World.marks_mark .., List.forall_mem_singleton.2
      (ofVisit (wait (congrArg Phase.visit? phase)) rfl rfl rfl)⟩
  | forsake | close | shut =>
    exact ⟨_, World.marks_closeVisit ..,
      List.forall_mem_singleton.2 (ofVisit (move rfl rfl) rfl rfl rfl)⟩
  | quit _ phase | dropWaiting _ _ _ phase | dropDraining _ _ _ phase =>
    simp only [World.marks_closeVisit, World.marks_abortWork, World.marks_setPhase]
    exact ⟨_, rfl, List.forall_mem_singleton.2
      (ofVisit (wait (congrArg Phase.visit? phase)) rfl rfl rfl)⟩
  | halt | back | done =>
    refine ⟨_, World.marks_endRun .., List.forall_mem_cons.2 ⟨ofRun rfl rfl rfl,
      List.forall_mem_singleton.2 (ofRun rfl rfl rfl)⟩⟩
  | unwind =>
    exact ⟨_, World.marks_release .., List.forall_mem_singleton.2 (ofRun rfl rfl rfl)⟩

/-- Marks are added at the end. -/
theorem Beat.marks (b : Beat (w, σ) (w', σ')) (h : Staged w σ) :
    ∃ news, w'.marks = w.marks ++ news := by
  cases b with
  | stir b =>
    obtain ⟨news, marks, -⟩ := b.steady.marks
    exact ⟨news, marks⟩
  | shift b =>
    obtain ⟨news, marks, -⟩ := b.steady.marks
    exact ⟨news, marks⟩
  | stride b =>
    obtain ⟨news, marks, -⟩ := b.speaks h
    exact ⟨news, marks⟩

/-- Marks stay. -/
theorem Beat.mem_marks (b : Beat (w, σ) (w', σ')) (h : Staged w σ) {m : Mark}
    (hm : m ∈ w.marks) : m ∈ w'.marks := by
  obtain ⟨news, marks⟩ := b.marks h
  exact marks ▸ List.mem_append_left _ hm

theorem Beats.mem_marks {x y : World × Stage} (b : Beats x y) (sound : Sound x.1 x.2) {m : Mark}
    (hm : m ∈ x.1.marks) : m ∈ y.1.marks := by
  induction b with
  | refl => exact hm
  | tail beats beat ih => exact beat.mem_marks (sound.beats beats).toStaged ih

/-- A beat leaves a mark, after some others or none. -/
structure Leaves (x y : World × Stage) (before : List Mark) (m : Mark) : Prop where
  beat : Beat x y
  marks : ∃ skipped after, before = x.1.marks ++ skipped ∧ y.1.marks = before ++ m :: after

/-- A mark among those of before and those that are new is among the one or the other. -/
theorem split_append {α : Type} {xs ys before after : List α} {a : α}
    (h : xs ++ ys = before ++ a :: after) :
    (∃ mid, xs = before ++ a :: mid ∧ after = mid ++ ys) ∨
      ∃ mid, before = xs ++ mid ∧ ys = mid ++ a :: after := by
  rcases List.append_eq_append_iff.1 h with ⟨mid, hbefore, hys⟩ | ⟨mid, hxs, hafter⟩
  · exact .inr ⟨mid, hbefore, hys⟩
  · cases mid with
    | nil => exact .inr ⟨[], by simpa using hxs.symm, hafter.symm⟩
    | cons b mid =>
      cases hafter
      exact .inl ⟨mid, hxs, rfl⟩

/-- Every mark was left by some beat. -/
theorem Beats.moment {x y : World × Stage} (b : Beats x y) (sound : Sound x.1 x.2)
    {before after : List Mark} {m : Mark} (marks : y.1.marks = before ++ m :: after)
    (new : x.1.marks.length ≤ before.length) :
    ∃ u u', Beats x u ∧ Leaves u u' before m ∧ Beats u' y := by
  induction b generalizing after with
  | refl =>
    have := congrArg List.length marks
    simp only [List.length_append, List.length_cons] at this
    omega
  | @tail z y beats beat ih =>
    obtain ⟨news, added⟩ := beat.marks (sound.beats beats).toStaged
    rw [marks] at added
    rcases split_append added.symm with ⟨mid, earlier, -⟩ | ⟨skipped, earlier, -⟩
    · -- The mark was there before the last beat.
      obtain ⟨u, u', before, leaves, others⟩ := ih earlier
      exact ⟨u, u', before, leaves, others.tail beat⟩
    · exact ⟨z, y, beats, ⟨beat, skipped, after, earlier, marks⟩, .refl⟩

end

namespace Recorded

variable {w w' : World} {σ σ' : Stage}

/-- Marks that speak of what is there may be added. -/
theorem append (h : Recorded w) (visits : w.visits.size ≤ w'.visits.size)
    (tasks : w.tasks.size ≤ w'.tasks.size) {news : List Mark} (marks : w'.marks = w.marks ++ news)
    (visit : ∀ m ∈ news, ∀ v, m.visit? = some v → v < w'.visits.size)
    (task : ∀ m ∈ news, ∀ t, m.task? = some t → t < w'.tasks.size) : Recorded w' := by
  constructor
  · intro m hm v hv
    rw [marks] at hm
    rcases List.mem_append.1 hm with old | new
    · exact Nat.lt_of_lt_of_le (h.visit m old v hv) visits
    · exact visit m new v hv
  · intro m hm t ht
    rw [marks] at hm
    rcases List.mem_append.1 hm with old | new
    · exact Nat.lt_of_lt_of_le (h.task m old t ht) tasks
    · exact task m new t ht

theorem steady (h : Recorded w) (s : Steady w w')
    (task : ∀ m ∈ w'.marks, m ∈ w.marks ∨ ∀ t, m.task? = some t → t < w'.tasks.size) :
    Recorded w' := by
  obtain ⟨news, marks, aside⟩ := s.marks
  constructor
  · intro m hm v hv
    rw [marks] at hm
    rcases List.mem_append.1 hm with old | new
    · exact Nat.lt_of_lt_of_le (h.visit m old v hv) s.visits
    · rw [Mark.visit?_of_isAside (aside m new)] at hv
      cases hv
  · intro m hm t ht
    rcases task m hm with old | known
    · exact Nat.lt_of_lt_of_le (h.task m old t ht) s.tasks
    · exact known t ht

theorem stir (h : Recorded w) (b : Stir σ w w') : Recorded w' := by
  refine h.steady b.steady fun m hm => ?_
  obtain ⟨news, marks, talk⟩ := b.marks
  rw [marks] at hm
  refine (List.mem_append.1 hm).imp id fun new t ht => ?_
  cases (talk m new).2.symm.trans ht

theorem shift (h : Recorded w) (q : Queued w) (b : Shift (w, σ) w') : Recorded w' := by
  refine h.steady b.steady fun m hm => ?_
  have size := b.steady.tasks
  cases b with
  | turn free ready =>
    simp only [World.marks_mk, World.marks_mark, World.filterMap_journal] at hm
    refine (List.mem_append.1 hm).imp id fun new t ht => ?_
    cases List.mem_singleton.1 new
    cases ht
    exact World.lt_size_of_isAlive (q.ready _ ready)
  | unqueue => exact .inl hm
  | @park _ _ t =>
    obtain ⟨queue, -, parked⟩ := w.park_eq t
    rw [parked] at hm
    exact .inl hm
  | retire alive ease late chores =>
    rw [(Retired.of_chores chores).marks] at hm
    refine (List.mem_append.1 hm).imp id fun new t ht => ?_
    cases List.mem_singleton.1 new
    cases ht
    exact Nat.lt_of_lt_of_le (World.lt_size_of_isAlive alive) size
  | begin =>
    rw [World.marks_setJob, World.marks_takeSlot] at hm
    refine (List.mem_append.1 hm).imp id fun new t ht => ?_
    cases List.mem_singleton.1 new
    cases ht
  | resume => exact .inl hm

theorem stride {t : TaskId} {r : RunId} (h : Recorded w) (staged : Staged w σ)
    (b : Stride t r (w, σ) (w', σ')) : Recorded w' := by
  obtain ⟨news, marks, speaks⟩ := b.speaks staged
  refine h.append b.onward.visits b.tasks marks (fun m hm v hv => ?_) fun m hm u hu => ?_
  · exact ((speaks m hm).visit v hv).1.known
  · rw [Mark.task?_of_isAside (speaks m hm).way] at hu
    cases hu

theorem beat (h : Recorded w) (sound : Sound w σ) (b : Beat (w, σ) (w', σ')) : Recorded w' := by
  cases b with
  | stir b => exact h.stir b
  | shift b => exact h.shift sound.toQueued b
  | stride b => exact h.stride sound.toStaged b

end Recorded

/-- Marks speak of visits and tasks that are there. -/
theorem Scenario.Reaches.recorded {s : Scenario} {w : World} (h : s.Reaches w) : Recorded w :=
  h.invariant (I := fun w _ => Recorded w)
    ⟨fun m hm => (by cases hm), fun m hm => (by cases hm)⟩ fun sound recorded beat =>
      recorded.beat sound beat

end Statechart
