import Statechart.Proofs.Settlement

/-!
# Visits without work

A visit of a state without services and activities is one that nobody has to do with: no task works
for it, its callback is never handed out, and no event is accepted on it. So it settles as soon as
it is polled, unless its run was stopped.

## Main definitions

- `State.HasWork`: a state has services or activities.
- `World.Concerns`: somebody has to do with a visit.
- `Manned`: whoever has to do with a visit has come by it through the work of the state.

## Main statements

- `Manned.deed`: nothing that happens to tasks brings them to a visit without work.
- `Scenario.Reaches.unconcerned`: nobody has to do with a visit without work.
- `Scenario.Reaches.settled_or_stopped`: how a stay without work ends.
-/

namespace Statechart

/-! ## Definitions -/

/-- A state has services or activities. -/
def State.HasWork (s : State) : Prop :=
  s.services ≠ [] ∨ s.activities ≠ []

instance (s : State) : Decidable s.HasWork :=
  decidable_of_iff (¬ (s.services.isEmpty = true ∧ s.activities.isEmpty = true)) (by
    simp [State.HasWork, ← not_and_or])

/-- Somebody has to do with a visit: a task works for it or has its callback, the callback is kept,
or an event was accepted. -/
inductive World.Concerns (w : World) (v : VisitId) : Prop where
  | home {t : TaskId} (home : (w.task t).home = some v)
  | callback {t : TaskId} (callback : (w.task t).reach.callback = some v)
  | kept {k : String × VisitId} (kept : k ∈ w.kept) (mine : k.2 = v)
  | raised {d : Decision} (raised : .raised v d true ∈ w.marks)

/-- Whoever has to do with a visit has come by it through the work of the state. -/
def Manned (w : World) : Prop :=
  ∀ v, w.Concerns v → (w.visit v).state.HasWork

section

variable {w w' : World} {c : Option VisitId} {t : TaskId} {v : VisitId} {r : RunId}

theorem State.not_hasWork {s : State} : ¬ s.HasWork ↔ s.services = [] ∧ s.activities = [] := by
  simp [HasWork]

/-- A service of a state is work. -/
theorem State.hasWork_of_service {s : State} {k : Nat} {service : Service}
    (part : s.services[k]? = some service) : s.HasWork :=
  .inl fun none => by simp [none] at part

theorem State.hasWork_of_activity {s : State} {k : Nat} {work : Work}
    (part : s.activities[k]? = some work) : s.HasWork :=
  .inr fun none => by simp [none] at part

/-! ## What happens to tasks -/

namespace Manned

/-- A callback that is at hand is that of a visit with work. -/
theorem hasWork_of_atHand (h : Manned w) (reach : ∀ v, c = some v → (w.visit v).state.HasWork)
    (hand : w.AtHand c v) : (w.visit v).state.HasWork := by
  rcases hand with mine | ⟨k, hk, mine⟩
  · exact reach v mine
  · exact h v (.kept hk mine)

theorem keep (h : Manned w) (concerns : ∀ v, w'.Concerns v → w.Concerns v)
    (state : ∀ v, (w'.visit v).state = (w.visit v).state) : Manned w' :=
  fun v hv => state v ▸ h v (concerns v hv)

theorem spares (h : Manned w) (spares : Spares c w w')
    (reach : ∀ v, c = some v → (w.visit v).state.HasWork) : Manned w' := by
  intro v hv
  rw [spares.state]
  cases hv with
  | @home t home =>
    rcases Nat.lt_or_ge t w.tasks.size with old | new
    · exact h v (.home ((spares.task t old).home.symm.trans home))
    · cases (spares.fresh t new).home.symm.trans home
  | @callback t callback =>
    rcases Nat.lt_or_ge t w.tasks.size with old | new
    · exact h v (.callback ((spares.task t old).callback v callback))
    · exact h.hasWork_of_atHand reach ((spares.fresh t new).callback v callback)
  | kept kept mine => exact mine ▸ h.hasWork_of_atHand reach (spares.kept _ kept)
  | raised raised =>
    rcases spares.raised _ _ raised with old | ⟨hand, -⟩
    · exact h v (.raised old)
    · exact h.hasWork_of_atHand reach hand

/-- Nobody has to do with a visit that has yet to begin. -/
theorem visit (h : Manned w) (r : RunId) (s : State) :
    Manned { w with visits := w.visits.push { state := s, run := r } } := by
  intro v hv
  have concerned : w.Concerns v := by
    cases hv with
    | home home => exact .home home
    | callback callback => exact .callback callback
    | kept kept mine => exact .kept kept mine
    | raised raised => exact .raised raised
  have works := h v concerned
  have old : v ≠ w.visits.size := by
    rintro rfl
    have blank : w.visit w.visits.size = default := Table.get_of_size_le (Nat.le_refl _)
    rw [blank] at works
    exact State.not_hasWork.2 ⟨rfl, rfl⟩ works
  simpa [old] using works

theorem mark (h : Manned w) (m : Mark) (refused : ∀ v d, m ≠ .raised v d true) :
    Manned (w.mark m) := by
  refine h.keep (fun v hv => ?_) fun _ => rfl
  cases hv with
  | home home => exact .home home
  | callback callback => exact .callback callback
  | kept kept mine => exact .kept kept mine
  | raised raised =>
    rw [World.marks_mark] at raised
    refine .raised ((List.mem_append.1 raised).resolve_right fun new => ?_)
    exact refused _ _ (List.mem_singleton.1 new).symm

/-- A visit hires a task for its work. -/
theorem hire (h : Manned w) {x : Task} (works : (w.visit v).state.HasWork)
    (callback : ∀ u, x.reach.callback = some u → u = v) : Manned (w.spawnFor v x) := by
  have task := w.task_spawnFor v x
  have state (u : VisitId) : ((w.spawnFor v x).visit u).state = (w.visit u).state :=
    World.data_modifyVisit Visit.state rfl u
  intro u hu
  rw [state]
  cases hu with
  | home home =>
    rw [task] at home
    split at home
    · cases home
      exact works
    · exact h u (.home home)
  | callback lent =>
    rw [task] at lent
    split at lent
    · exact callback u lent ▸ works
    · exact h u (.callback lent)
  | kept kept mine => exact h u (.kept kept mine)
  | raised raised => exact h u (.raised raised)

theorem dismisses (h : Manned w) {P : TaskId → Prop} (told : Dismisses P w w') : Manned w' := by
  have task (t : TaskId) : (w'.task t).home = (w.task t).home ∧
      (w'.task t).reach = (w.task t).reach := by
    obtain ⟨a, same, -⟩ := told.task t
    rw [same]
    exact ⟨rfl, rfl⟩
  refine h.keep (fun v hv => ?_) fun v => congrArg (fun vs => (Table.get vs v).state) told.visits
  cases hv with
  | @home t home => exact .home ((task t).1.symm.trans home)
  | @callback t callback => exact .callback ((task t).2 ▸ callback)
  | kept kept mine => exact .kept (told.kept ▸ kept) mine
  | raised raised => exact .raised (told.marks ▸ raised)

/-- What a visit has heard of its tasks, and what it listens for, brings nobody to it. -/
theorem modifyVisit (h : Manned w) {f : Visit → Visit} (same : ∀ x : Visit, (f x).state = x.state) :
    Manned (w.modifyVisit v f) := by
  refine h.keep (fun v hv => ?_) fun u => ?_
  · cases hv with
    | home home => exact .home home
    | callback callback => exact .callback callback
    | kept kept mine => exact .kept kept mine
    | raised raised => exact .raised raised
  · exact World.data_modifyVisit Visit.state (same _) u

theorem modifyInterpreter (h : Manned w) (i : InterpreterId) (f : Interpreter → Interpreter) :
    Manned (w.modifyInterpreter i f) := by
  refine h.keep (fun v hv => ?_) fun _ => rfl
  cases hv with
  | home home => exact .home home
  | callback callback => exact .callback callback
  | kept kept mine => exact .kept kept mine
  | raised raised => exact .raised raised

theorem setJob (h : Manned w) (t : TaskId) (job : Job) : Manned (w.setJob t job) := by
  have same (u : TaskId) : ((w.setJob t job).task u).home = (w.task u).home ∧
      ((w.setJob t job).task u).reach = (w.task u).reach := by
    rw [World.setJob, World.task_modifyTask]
    split <;> exact ⟨rfl, rfl⟩
  refine h.keep (fun v hv => ?_) fun _ => rfl
  cases hv with
  | @home u home => exact .home ((same u).1.symm.trans home)
  | @callback u callback => exact .callback ((same u).2 ▸ callback)
  | kept kept mine => exact .kept kept mine
  | raised raised => exact .raised raised

/-- The end of a task brings nobody to a visit. -/
theorem ended (h : Manned w) {fate : Fate} (e : w.Ended t fate w') : Manned w' := by
  have hand {v : VisitId} (hand : w.AtHand none v) : w.Concerns v := by
    obtain ⟨k, hk, mine⟩ := hand.resolve_left fun other => by cases other
    exact .kept hk mine
  refine h.keep (fun v hv => ?_) e.state
  cases hv with
  | @home u home =>
    rcases Nat.lt_or_ge u w.tasks.size with old | new
    · by_cases mine : u = t
      · subst mine
        exact .home (e.self.1.symm.trans home)
      · exact .home ((e.task u mine old).home.symm.trans home)
    · cases (e.fresh u new).home.symm.trans home
  | @callback u callback =>
    rcases Nat.lt_or_ge u w.tasks.size with old | new
    · by_cases mine : u = t
      · subst mine
        exact .callback (e.reach v callback)
      · exact .callback ((e.task u mine old).callback v callback)
    · exact hand ((e.fresh u new).callback v callback)
  | kept kept mine =>
    obtain ⟨k, hk, same⟩ := e.kept _ kept
    exact .kept hk (same.trans mine)
  | raised raised =>
    rcases e.raised _ _ raised with old | ⟨near, -⟩
    · exact .raised old
    · exact hand near

/-- A callback that a script can have is that of a visit with work. -/
theorem hasWork_of_reachable (h : Manned w) (reach : w.Reachable v) :
    (w.visit v).state.HasWork := by
  rcases reach with ⟨t, callback⟩ | ⟨k, work, part⟩
  · exact h v (.callback callback)
  · exact State.hasWork_of_service part

theorem tend (h : Manned w) (d : Tend w w') : Manned w' := by
  cases d with
  | script reach spares => exact h.spares spares fun v hv => h.hasWork_of_reachable (reach v hv)
  | visit r s => exact h.visit r s
  | launch v part known other => exact h.mark (.launched v part) (by simp)
  | crew known waits crew =>
    cases crew with
    | free part mine => exact h.hire (State.hasWork_of_service part) mine
    | routed part mine =>
      exact h.hire (State.hasWork_of_service part) fun u hu => by cases mine.symm.trans hu
    | active part mine =>
      exact h.hire (State.hasWork_of_activity part) fun u hu => by cases mine.symm.trans hu
  | @foster v k _ known waits part =>
    have marked := h.mark (.launched v (.service k)) (by simp)
    exact marked.hire (State.hasWork_of_service part) fun u hu => by cases hu
  | look => exact h.modifyVisit fun _ => rfl
  | @mourn v _ rest =>
    have looked : Manned (w.modifyVisit v fun x => { x with finished := rest }) :=
      h.modifyVisit fun _ => rfl
    exact looked.mark (.concluded v .panicked) (by simp)
  | @conclude v e => exact h.mark (.concluded v e) (by simp)
  | @relax v => exact h.dismisses (.abortWork w v)

/-- Nothing that happens to tasks brings them to a visit without work. -/
theorem deed (h : Manned w) (staffed : Staffed w) (d : Deed w w') : Manned w' := by
  cases d with
  | tend d => exact h.tend d
  | @nest t m s =>
    have hooks : Spares none w (w.withNested t m) :=
      (Spares.pushInterpreter w m).trans (.spawn ⟨rfl, rfl, rfl, fun v hv => by cases hv⟩)
    have founded := hooks.trans (.takeSlot _ w.interpreters.size t s)
    exact (h.spares founded fun v hv => by cases hv).setJob t _
  | job => exact h.setJob _ _
  | hang i => exact h.modifyInterpreter i _
  | @abort t => exact h.dismisses (P := (· = t)) (.abort w rfl)
  | @finish _ t failure alive ends spares =>
    -- The outcome is raised on the visit that the task works for.
    obtain ⟨c, raised, works⟩ : ∃ c, Spares c w (w.raiseFor t failure) ∧
        ∀ v, c = some v → (w.visit v).state.HasWork := by
      unfold World.raiseFor
      split
      · next route routed =>
        refine ⟨_, .raiseOutcome .., fun v hv => ?_⟩
        cases hv
        exact h _ (.home (staffed.route t route routed))
      · exact ⟨none, .refl _ w, fun v hv => by cases hv⟩
    have spared := raised.task t (World.lt_size_of_isAlive alive)
    have alive' := (congrArg Option.isNone spared.fate).trans alive
    rw [← spared.home]
    exact (h.spares raised works).ended (World.ended_of_bury alive' spares)
  | quit alive quits spares => exact h.ended (World.ended_of_bury alive spares)

end Manned

/-! ## The worlds that a scenario comes to -/

variable {s : Scenario} {e : Ending}

namespace Scenario

theorem manned_opening (s : Scenario) : Manned s.opening := by
  intro v hv
  cases hv with
  | home home => cases home
  | callback callback => cases callback
  | kept kept => cases kept
  | raised raised => cases raised

theorem Reaches.manned (h : s.Reaches w) : Manned w := by
  suffices Staffed w ∧ Manned w from this.2
  have deeds := h.deeds
  clear h
  induction deeds with
  | refl => exact ⟨s.staffed_opening, s.manned_opening⟩
  | tail _ deed ih => exact ⟨ih.1.deed deed, ih.2.deed ih.1 deed⟩

/-- Nobody has to do with a visit without work. -/
theorem Reaches.unconcerned (h : s.Reaches w) (idle : ¬ (w.visit v).state.HasWork) :
    ¬ w.Concerns v :=
  fun concerned => idle (h.manned v concerned)

/-- A visit without work is quiescent, unless its run was stopped. -/
theorem Reaches.quiescent_of_idle (h : s.Reaches w) (idle : ¬ (w.visit v).state.HasWork)
    (free : (w.runOf v).cancelled = false) : w.Quiescent v where
  idle t home := absurd (.home home) (h.unconcerned idle)
  released := by
    rw [← Bool.not_eq_true]
    intro held
    rcases World.isHeld_iff.1 held with ⟨t, holds⟩ | ⟨k, hk, mine⟩
    · simp only [Task.holds, Bool.and_eq_true, Bool.or_eq_true, decide_eq_true_eq,
        Option.any_eq_true] at holds
      rcases holds.2 with callback | ⟨route, routed, rfl⟩
      · exact h.unconcerned idle (.callback callback)
      · exact h.unconcerned idle (.home (h.staffed.route t route routed))
    · exact h.unconcerned idle (.kept hk mine)
  silent d raised := h.unconcerned idle (.raised raised)
  free := free

/-- A poll of a visit without work settles it, unless its run was stopped. -/
theorem Reaches.finding?_of_idle (h : s.Reaches w) (idle : ¬ (w.visit v).state.HasWork) :
    w.finding? v = some (if (w.runOf v).cancelled then .stopped else .settled) := by
  by_cases stop : (w.runOf v).cancelled = true
  · simp [World.finding?, stop]
  · have free : (w.runOf v).cancelled = false := by simpa using stop
    have none : (w.visit v).finished = [] := by
      refine List.eq_nil_iff_forall_not_mem.2 fun t ht => ?_
      exact h.unconcerned idle (.home (h.staffed.finished t v ht).1)
    have quiet := h.quiescent_of_idle idle free
    rw [World.finding?_of_quiescent h.staffed h.raced.1 quiet, if_pos none, if_neg (by simp [free])]

/-- A stay without work, in a state that is not transient, is settled or stopped. -/
theorem Reaches.settled_or_stopped (h : s.Reaches w) (idle : ¬ (w.visit v).state.HasWork)
    (going : (w.visit v).state.mode ≠ .transient) (past : .concluded v e ∈ w.marks) :
    e = .settled ∨ e = .stopped ∧ .stopAsked (w.visit v).run ∈ w.marks := by
  obtain ⟨before, after, marks⟩ := List.append_of_mem past
  obtain ⟨w₀, reach, path, -, polls, found⟩ := h.polled marks going
  obtain ⟨-, beats⟩ := reach.later path
  have own := reach.sound.waits _ v (congrArg Phase.visit? polls.waits)
  have state : (w.visit v).state = (w₀.visit v).state := beats.lasting.state v own.known
  have owner : (w.visit v).run = (w₀.visit v).run := beats.lasting.owner v own.known
  rw [reach.finding?_of_idle (state ▸ idle), Option.some.injEq] at found
  by_cases stop : (w₀.runOf v).cancelled = true
  · rw [if_pos stop] at found
    exact .inr ⟨found.symm, owner ▸ beats.mem reach.orderly (reach.orderly.asked _ stop)⟩
  · rw [if_neg stop] at found
    exact .inl found.symm

end Scenario

end

end Statechart
