import Statechart.Proofs.Callbacks

/-!
# The tasks of visits

A task that works for a visit does so from its first turn to its end, and is spawned while the
work of the visit is set up. The visit lists those of its tasks that have not ended, and the marks
say how each of the others did.

## Main definitions

- `World.fates`: the ends of a task that the marks tell of.
- `Crews`: visits get no new tasks.
- `Crewed`: tasks that are alive are listed by their visits, and drive none of their runs.
- `Fated`: a task that has ended has one end.

## Main statements

- `Stir.crews`, `Shift.crews`, `Stride.crews`: only the set-up of work spawns tasks for a visit.
- `Crewed.beat`, `Fated.beat`: every beat keeps both.
-/

namespace Statechart

/-! ## Definitions -/

/-- The end of a task that a mark tells of. -/
def Mark.fate? (t : TaskId) : Mark → Option Fate
  | .ended u fate => if u = t then some fate else none
  | _ => none

theorem Mark.fate?_eq_some {t : TaskId} {m : Mark} {fate : Fate} :
    m.fate? t = some fate ↔ m = .ended t fate := by
  cases m with
  | ended u fate' => simp [fate?]
  | _ => simp [fate?]

/-- The ends of a task that the marks tell of, in order. -/
def World.fates (w : World) (t : TaskId) : List Fate :=
  w.marks.filterMap (Mark.fate? t)

/-- Visits get no new tasks, and their tasks drive no runs but those that they drove and a new
one. -/
structure Crews (w w' : World) : Prop where
  home : ∀ t, (w'.task t).home = (w.task t).home
  alive : ∀ t v, (w.task t).home = some v → (w'.task t).isAlive = true →
    (w.task t).isAlive = true
  job : ∀ t v q, (w.task t).home = some v → (w'.task t).isAlive = true →
    (w'.task t).job.run? = some q → (w.task t).job.run? = some q ∨ q = w.runs.size
  working : ∀ t v, (w.task t).home = some v → (w'.task t).isAlive = true →
    t ∈ (w.visit v).working → t ∈ (w'.visit v).working

/-- Tasks that work for a visit are listed by it while they are alive, and drive none of the runs
that the visit belongs to. -/
structure Crewed (w : World) (σ : Stage) : Prop where
  home : ∀ t v, (w.task t).home = some v →
    v < w.visits.size ∧ (w.visit v).run < w.runs.size ∧ (w.visit v).state.mode ≠ .transient
  apart : ∀ t v q, (w.task t).home = some v → (w.task t).isAlive = true →
    (w.task t).job.run? = some q → (w.visit v).run ≠ q
  working : ∀ t v, (w.task t).home = some v → (w.task t).isAlive = true →
    t ∈ (w.visit v).working
  lent : ∀ v, σ.lent? = some v → (w.visit v).state.mode ≠ .transient

/-- The marks tell of the end of each task of a visit that has ended, once, and of no other end. -/
def Fated (w : World) : Prop :=
  ∀ t v, (w.task t).home = some v → w.fates t = (w.task t).fate.toList

/-! ## Who works for a visit -/

section

variable {w w' : World} {σ σ' : Stage} {t : TaskId} {r : RunId} {v : VisitId}

theorem World.home_of_size_le (h : w.tasks.size ≤ t) : (w.task t).home = none := by
  have : w.task t = default := Table.get_of_size_le h
  exact this ▸ rfl

/-- A task that works for a visit is none that is spawned. -/
theorem World.task_spawn_of_home {w₁ : World} {x : Task} (tasks : w₁.tasks = w.tasks)
    (home : (w.task t).home = some v) : (w₁.spawn x).task t = w.task t := by
  simp only [World.spawn, World.task_mk, Table.get_push, tasks]
  split
  · next new => cases (World.home_of_size_le (Nat.le_of_eq new.symm)).symm.trans home
  · rfl

/-- Tasks and the lists of visits stay what they are. -/
theorem Crews.of_akin (task : ∀ t, (w.task t).Akin (w'.task t))
    (working : ∀ v, (w'.visit v).working = (w.visit v).working) : Crews w w' := by
  refine ⟨fun u => (task u).home, fun u u' hu alive => ?_, fun u u' q hu alive job => ?_,
    fun u u' hu alive listed => ?_⟩
  · exact (task u).isAlive ▸ alive
  · exact .inl ((task u).run? ▸ job)
  · exact working u' ▸ listed

/-- A task comes that works for no visit. -/
theorem Crews.spawn {x : Task} (home : x.home = none) (tasks : w'.tasks = w.tasks)
    (visits : w'.visits = w.visits) : Crews w (w'.spawn x) := by
  have task (u : TaskId) :
      (w'.spawn x).task u = if u = w.tasks.size then x else w.task u := by
    simp only [World.spawn, World.task_mk, Table.get_push, tasks]
    rfl
  have old {u : TaskId} {v : VisitId} (hu : (w.task u).home = some v) :
      (w'.spawn x).task u = w.task u := World.task_spawn_of_home tasks hu
  refine ⟨fun u => ?_, fun u v hu alive => ?_, fun u v q hu alive job => ?_,
    fun u v hu alive listed => ?_⟩
  · rw [task]
    split
    · next hu => exact home.trans (World.home_of_size_le (Nat.le_of_eq hu.symm)).symm
    · rfl
  · exact old hu ▸ alive
  · exact .inl (old hu ▸ job)
  · exact (congrArg (fun vs => (Table.get vs v).working) visits).symm ▸ listed

/-- A task turns to a job in which it drives no run, or a new one. -/
theorem Crews.setJob {job : Job} (tasks : w'.tasks = w.tasks) (visits : w'.visits = w.visits)
    (new : ∀ q, job.run? = some q → q = w.runs.size) : Crews w (w'.setJob t job) := by
  have task (u : TaskId) : (w'.setJob t job).task u =
      if u = t then { w.task u with job } else w.task u := by
    rw [World.setJob, World.task_modifyTask]
    unfold World.task
    rw [tasks]
  refine ⟨fun u => ?_, fun u v hu alive => ?_, fun u v q hu alive drives => ?_,
    fun u v hu alive listed => ?_⟩
  · rw [task]
    split <;> rfl
  · rw [task] at alive
    split at alive
    · exact alive
    · exact alive
  · rw [task] at drives
    split at drives
    · exact .inr (new q drives)
    · exact .inl drives
  · exact (congrArg (fun vs => (Table.get vs v).working) visits).symm ▸ listed

theorem Stir.crews (b : Stir σ w w') : Crews w w' := by
  rcases b.hushed with still | ⟨x, plain, rfl⟩ | ⟨i, s, -, rfl⟩
  · exact .of_akin still.task fun v => (still.visit v).working
  · exact .spawn plain.home rfl rfl
  · exact @Crews.spawn w (w.takeSlot i w.tasks.size s) _ rfl rfl rfl

theorem Shift.crews (b : Shift (w, σ) w') : Crews w w' := by
  cases b with
  | turn | unqueue => exact .of_akin (fun _ => .refl _) fun _ => rfl
  | @park _ _ t =>
    obtain ⟨queue, -, parked⟩ := w.park_eq t
    rw [parked]
    refine .of_akin (fun u => ?_) fun _ => rfl
    exact (Still.modifyTask (f := fun x => { x with rewoken := false })
      ⟨rfl, rfl, rfl, id, fun _ => id⟩).task u
  | @retire _ w₁ _ t fate alive ease late chores =>
    have retired := Retired.of_chores chores
    -- The task that ends is not alive any more, so nothing is to be said of it.
    have other {u : TaskId} (alive : ((w₁.withdraw t (w.task t).home).task u).isAlive = true) :
        u ≠ t := by
      rintro rfl
      unfold Task.isAlive at alive
      rw [retired.ended] at alive
      cases alive
    refine ⟨fun u => ?_, fun u v hu alive => ?_, fun u v q hu alive job => ?_,
      fun u v hu alive listed => ?_⟩
    · by_cases hu : u = t
      · exact hu ▸ retired.home
      · exact (retired.task u hu).home
    · exact (retired.task u (other alive)).isAlive ▸ alive
    · exact .inl ((retired.task u (other alive)).run? ▸ job)
    · rw [retired.working]
      split
      · exact (List.mem_erase_of_ne (other alive)).2 listed
      · exact listed
  -- The only run that a task takes on is the one that it begins.
  | begin i s turn ease free drives =>
    refine Crews.setJob rfl rfl fun q hq => ?_
    exact Option.some.inj (hq.symm.trans drives)
  | resume turn ease =>
    refine Crews.setJob rfl rfl fun q hq => ?_
    cases hq.symm.trans ease

/-- A run that goes further gives new tasks to a visit only while its work is set up. -/
theorem Stride.crews (b : Stride t r (w, σ) (w', σ')) :
    Crews w w' ∨ ∃ v k x, Task.IsPlain x ∧ σ = .busy t r (.launching v k) ∧
      w' = w.spawnFor v x ∧ σ' = σ := by
  refine b.calm.imp_left fun calm => .of_akin calm.task fun u => ?_
  have closed (w : World) (v : VisitId) :
      ((w.closeVisit v).visit u).working = (w.visit u).working :=
    World.data_modifyVisit Visit.working rfl u
  cases b with
  | @visit _ s => exact w.data_pushVisit { state := s, run := r } Visit.working rfl u
  | @crew _ v k x plain =>
    -- The new task was not there before.
    have alive := (calm.task w.tasks.size).isAlive
    rw [World.isAlive_of_size_le (Nat.le_refl _)] at alive
    have new : ((w.spawnFor v x).task w.tasks.size).isAlive = x.isAlive := by
      rw [w.task_spawnFor, if_pos rfl]
      rfl
    cases alive.symm.trans (new.trans plain.alive)
  | look | tear => exact World.data_modifyVisit Visit.working rfl u
  | forsake | close | quit | shut => exact closed w _
  | @relax _ v => exact ((Frame.abortWork w v).visit u).working
  | @dropWaiting _ _ v =>
    exact (closed _ v).trans ((Frame.abortWork (w.setPhase r .ended) v).visit u).working
  | dropDraining => exact closed (w.setPhase r .ended) _
  | _ => rfl

/-- Tasks come to work for a visit while the work of the visit is set up. -/
theorem Beat.came (b : Beat (w, σ) (w', σ')) (home : (w'.task t).home = some v) :
    (w.task t).home = some v ∨ ∃ u r k, σ = .busy u r (.launching v k) ∧ σ' = σ := by
  cases b with
  | stir b => exact .inl (b.crews.home t ▸ home)
  | shift b => exact .inl (b.crews.home t ▸ home)
  | stride b =>
    rcases b.crews with crews | ⟨n, k, x, plain, rfl, rfl, rfl⟩
    · exact .inl (crews.home t ▸ home)
    · rw [World.task_spawnFor] at home
      split at home
      · cases home
        exact .inr ⟨_, _, k, rfl, rfl⟩
      · exact .inl home

/-- A task of a visit that is gone does not come back. -/
theorem Beat.alive (b : Beat (w, σ) (w', σ')) (home : (w.task t).home = some v)
    (alive : (w'.task t).isAlive = true) : (w.task t).isAlive = true := by
  cases b with
  | stir b => exact b.crews.alive t v home alive
  | shift b => exact b.crews.alive t v home alive
  | stride b =>
    rcases b.crews with crews | ⟨n, k, x, -, -, rfl, -⟩
    · exact crews.alive t v home alive
    · have same : (w.spawnFor n x).task t = w.task t := World.task_spawn_of_home rfl home
      exact same ▸ alive

/-- The visit whose callback is in the hands of a set-up is there. -/
theorem Staged.known_of_lent (h : Staged w σ) (lent : σ.lent? = some v) : v < w.visits.size := by
  unfold Stage.lent? at lent
  split at lent
  · cases lent
    exact ((h.placed _ _ _ rfl).own v rfl).known
  · cases lent

end

namespace Crewed

variable {w w' : World} {σ σ' : Stage}

/-- Visits get no new tasks, and stay what they are. -/
theorem keep (h : Crewed w σ) (c : Crews w w') (runs : w.runs.size ≤ w'.runs.size)
    (visits : w.visits.size ≤ w'.visits.size)
    (owner : ∀ v, v < w.visits.size → (w'.visit v).run = (w.visit v).run)
    (state : ∀ v, v < w.visits.size → (w'.visit v).state = (w.visit v).state)
    (lent : ∀ v, σ'.lent? = some v → (w'.visit v).state.mode ≠ .transient) : Crewed w' σ' := by
  constructor
  case home =>
    intro t v hv
    obtain ⟨known, begun, stays⟩ := h.home t v (c.home t ▸ hv)
    rw [owner v known, state v known]
    exact ⟨Nat.lt_of_lt_of_le known visits, Nat.lt_of_lt_of_le begun runs, stays⟩
  -- A run that a task drives is one that it drove before, or a new one that has no visits yet.
  case apart =>
    intro t v q hv alive job
    rw [c.home] at hv
    obtain ⟨known, begun, -⟩ := h.home t v hv
    rw [owner v known]
    rcases c.job t v q hv alive job with old | rfl
    · exact h.apart t v q hv (c.alive t v hv alive) old
    · exact Nat.ne_of_lt begun
  case working =>
    intro t v hv alive
    rw [c.home] at hv
    exact c.working t v hv alive (h.working t v hv (c.alive t v hv alive))
  case lent => exact lent

theorem stir (h : Crewed w σ) (b : Stir σ w w') : Crewed w' σ := by
  have s := b.steady
  apply h.keep b.crews s.runs s.visits (fun v _ => s.owner v) fun v _ => s.state v
  intro v hv
  rw [s.state]
  exact h.lent v hv

theorem shift (h : Crewed w σ) (b : Shift (w, σ) w') : Crewed w' .rest := by
  have s := b.steady
  apply h.keep b.crews s.runs s.visits (fun v _ => s.owner v) fun v _ => s.state v
  intro v hv
  cases hv

/-- A new task works for the visit whose work is set up. -/
theorem enlist (h : Crewed w σ) {r : RunId} {v : VisitId} {x : Task}
    (plain : x.IsPlain) (own : w.Owns r v) (begun : r < w.runs.size)
    (lent : σ.lent? = some v) : Crewed (w.spawnFor v x) σ := by
  have task := w.task_spawnFor v x
  have visit := w.visit_spawnFor v x
  have state (u : VisitId) : ((w.spawnFor v x).visit u).state = (w.visit u).state :=
    World.data_modifyVisit Visit.state rfl u
  have owner (u : VisitId) : ((w.spawnFor v x).visit u).run = (w.visit u).run :=
    World.data_modifyVisit Visit.run rfl u
  have size : w.visits.size ≤ (w.spawnFor v x).visits.size := Table.size_le_modify ..
  -- The tasks that were there are as before; the new one works for the visit and drives no run.
  constructor
  case home =>
    intro u v' hv
    rw [state, owner]
    rw [task] at hv
    split at hv
    · cases hv
      exact ⟨Nat.lt_of_lt_of_le own.known size, own.run ▸ begun, h.lent v lent⟩
    · obtain ⟨known, begun', stays⟩ := h.home u v' hv
      exact ⟨Nat.lt_of_lt_of_le known size, begun', stays⟩
  case apart =>
    intro u v' q hv alive job
    rw [owner]
    rw [task] at hv alive job
    split at hv
    · next new =>
      rw [if_pos new] at job
      cases plain.run?.symm.trans job
    · next old =>
      rw [if_neg old] at alive job
      exact h.apart u v' q hv alive job
  case working =>
    intro u v' hv alive
    rw [visit]
    rw [task] at hv alive
    split at hv
    · next new =>
      cases hv
      simp [new]
    · next old =>
      rw [if_neg old] at alive
      have listed := h.working u v' hv alive
      split
      · exact List.mem_append_left _ listed
      · exact listed
  case lent =>
    intro u hu
    rw [state]
    exact h.lent u hu

theorem stride {t : TaskId} {r : RunId} (h : Crewed w σ) (sound : Sound w σ)
    (b : Stride t r (w, σ) (w', σ')) : Crewed w' σ' := by
  have o := b.onward
  have hosts := b.hosts sound.toQueued sound.toHosted
  rcases b.crews with crews | ⟨v, k, x, plain, rfl, rfl, rfl⟩
  · apply h.keep crews o.runs o.visits o.owner o.state
    intro v hv
    rcases b.lent hv with lent | ⟨rfl, stays⟩
    · rw [o.state v (sound.known_of_lent lent)]
      exact h.lent v lent
    · rw [o.state v ((sound.placed t r _ rfl).own v rfl).known]
      exact stays
  · exact h.enlist plain ((sound.placed t r _ rfl).own v rfl) hosts.known rfl

theorem beat (h : Crewed w σ) (sound : Sound w σ) (b : Beat (w, σ) (w', σ')) : Crewed w' σ' := by
  cases b with
  | stir b => exact h.stir b
  | shift b => exact h.shift b
  | stride b => exact h.stride sound b

theorem opening (s : Scenario) : Crewed s.opening .rest where
  home t v hv := by cases hv
  apart t v q hv := by cases hv
  working t v hv := by cases hv
  lent v hv := by cases hv

end Crewed

/-! ## How tasks end -/

namespace Fated

variable {w w' : World} {σ σ' : Stage}

theorem fates_append {t : TaskId} {news : List Mark} (marks : w'.marks = w.marks ++ news)
    (none : ∀ m ∈ news, m.fate? t = none) : w'.fates t = w.fates t := by
  have silent : news.filterMap (Mark.fate? t) = [] := List.filterMap_eq_nil_iff.2 none
  simp [World.fates, marks, silent]

/-- The marks tell of one end of a task of a visit that is gone. -/
theorem gone (h : Fated w) {t : TaskId} {v : VisitId} (home : (w.task t).home = some v)
    (gone : (w.task t).isAlive = false) : ∃ fate, w.fates t = [fate] := by
  rw [h t v home]
  cases ended : (w.task t).fate with
  | none => simp [Task.isAlive, ended] at gone
  | some fate => exact ⟨fate, rfl⟩

/-- The end of a task of a visit that is gone is among the marks. -/
theorem ended (h : Fated w) {t : TaskId} {v : VisitId} (home : (w.task t).home = some v)
    (gone : (w.task t).isAlive = false) : ∃ fate, .ended t fate ∈ w.marks := by
  obtain ⟨fate, told⟩ := h.gone home gone
  have here : fate ∈ w.fates t := by simp [told]
  obtain ⟨m, hm, ends⟩ := List.mem_filterMap.1 here
  exact ⟨fate, Mark.fate?_eq_some.1 ends ▸ hm⟩

/-- Marks speak of no end of a task that is not there. -/
theorem fates_of_size_le (recorded : Recorded w) {t : TaskId} (h : w.tasks.size ≤ t) :
    w.fates t = [] := by
  refine List.filterMap_eq_nil_iff.2 fun m hm => ?_
  refine Option.eq_none_iff_forall_ne_some.2 fun fate hf => ?_
  cases Mark.fate?_eq_some.1 hf
  exact Nat.not_lt.2 h (recorded.task _ hm t rfl)

/-- No task of a visit ends. -/
theorem keep (h : Fated w) {news : List Mark} (marks : w'.marks = w.marks ++ news)
    (none : ∀ m ∈ news, ∀ t fate, m ≠ .ended t fate)
    (home : ∀ t, (w'.task t).home = (w.task t).home)
    (fate : ∀ t v, (w.task t).home = some v → (w'.task t).fate = (w.task t).fate) :
    Fated w' := by
  intro t v hv
  rw [home] at hv
  rw [fate t v hv, ← h t v hv]
  refine fates_append marks fun m hm => ?_
  exact Option.eq_none_iff_forall_ne_some.2 fun e he =>
    none m hm t e (Mark.fate?_eq_some.1 he)

theorem stir (h : Fated w) (b : Stir σ w w') : Fated w' := by
  obtain ⟨news, marks, talk⟩ := b.marks
  apply h.keep marks _ b.crews.home
  · rcases b.hushed with still | ⟨x, -, rfl⟩ | ⟨i, s, -, rfl⟩
    · exact fun t v _ => (still.task t).fate
    · exact fun t v hv => congrArg Task.fate (World.task_spawn_of_home rfl hv)
    · exact fun t v hv => congrArg Task.fate (World.task_spawn_of_home rfl hv)
  · rintro m hm t fate rfl
    cases (talk _ hm).2

theorem shift (h : Fated w) (b : Shift (w, σ) w') : Fated w' := by
  have home := b.crews.home
  cases b with
  | @turn _ t =>
    have marks : ({ { w with queue := w.queue.erase t }.mark (.turn t) with
        running := some t } : World).marks = w.marks ++ [.turn t] := by simp
    exact h.keep marks (by simp) home fun u v _ => rfl
  | unqueue => exact h.keep (List.append_nil _).symm (by simp) home fun u v _ => rfl
  | @park _ _ t =>
    obtain ⟨queue, -, parked⟩ := w.park_eq t
    rw [parked] at home ⊢
    refine h.keep (List.append_nil _).symm (by simp) home fun u v _ => ?_
    simp only [World.modifyTask, World.task_mk, Table.get_modify]
    split <;> rfl
  | @begin _ t job i s =>
    refine h.keep (w.marks_takeSlot i t s) (by simp) home fun u v _ => ?_
    simp only [World.setJob, World.task_modifyTask]
    split <;> rfl
  | resume =>
    refine h.keep (List.append_nil _).symm (by simp) home fun u v _ => ?_
    simp only [World.setJob, World.task_modifyTask]
    split <;> rfl
  | @retire _ w₁ _ t fate alive ease late chores =>
    have retired := Retired.of_chores chores
    intro u v hv
    rw [home] at hv
    by_cases hu : u = t
    · -- The task has not ended before.
      subst hu
      have none : (w.task u).fate = none := by simpa [Task.isAlive] using alive
      have fresh : w.fates u = [] := by
        rw [h u v hv, none]
        rfl
      rw [retired.ended]
      unfold World.fates at fresh ⊢
      simp [retired.marks, fresh, Mark.fate?]
    · rw [(retired.task u hu).fate, ← h u v hv]
      exact fates_append retired.marks (by simp [Mark.fate?, Ne.symm hu])

theorem stride {t : TaskId} {r : RunId} (h : Fated w) (recorded : Recorded w)
    (staged : Staged w σ) (b : Stride t r (w, σ) (w', σ')) : Fated w' := by
  obtain ⟨news, marks, speaks⟩ := b.speaks staged
  have none : ∀ m ∈ news, ∀ t fate, m ≠ .ended t fate := by
    rintro m hm u fate rfl
    cases (speaks _ hm).way
  rcases b.calm with calm | ⟨v, k, x, plain, -, rfl, -⟩
  · exact h.keep marks none (fun u => (calm.task u).home) fun u _ _ => (calm.task u).fate
  · have task := w.task_spawnFor v x
    intro u v' hv
    rw [World.fates, World.marks_spawnFor, ← World.fates, task]
    rw [task] at hv
    split
    · next new =>
      have alive : x.fate = Option.none := by simpa [Task.isAlive] using plain.alive
      rw [fates_of_size_le recorded (Nat.le_of_eq new.symm), alive]
      rfl
    · next old =>
      rw [if_neg old] at hv
      exact h u v' hv

theorem beat (h : Fated w) (recorded : Recorded w) (staged : Staged w σ)
    (b : Beat (w, σ) (w', σ')) : Fated w' := by
  cases b with
  | stir b => exact h.stir b
  | shift b => exact h.shift b
  | stride b => exact h.stride recorded staged b

end Fated

end Statechart
