import Statechart.Proofs.Bystanders
import Statechart.Proofs.Turns

/-!
# Tasks of a new visit

When a run begins to wait in a state, each service of the state has a task, and the visit lists
the tasks in the order of the services. A task whose work sets nothing up is ready, and as it was
hired.

## Main definitions

- `Service.hire?`: the task that is hired for a service.
- `World.Hired`: a task is ready, and has not done anything yet.

## Main statements

- `World.launchServices_hires`: services are given tasks in their order.
- `Scenario.Reaches.hired`: the tasks of a visit when its run begins to wait.
-/

namespace Statechart

/-- The task that is hired for a service of a visit, if nothing is set up before. -/
def Service.hire? (v : VisitId) (k : Nat) : Service → Option Task
  | .free ⟨[], body⟩ =>
    some { job := .script body, reach := { callback := some v }, home := some v }
  | .routed ⟨[], body⟩ =>
    some { job := .script body, reach := { action := some v }, route := some ⟨v, k⟩,
           home := some v }
  | _ => none

/-- A task is ready, and is still what it was hired as. -/
structure World.Hired (w : World) (u : TaskId) (x : Task) : Prop where
  known : u < w.tasks.size
  minds : x.Minds (w.task u)
  ready : u ∈ w.queue

section

variable {w w' : World} {t u : TaskId} {r : RunId} {v : VisitId} {k : Nat} {x : Task} {s : State}

theorem World.Hired.strokes (h : w.Hired u x) (strokes : Strokes t w w') (other : u ≠ t) :
    w'.Hired u x := by
  obtain ⟨known, minds⟩ := strokes.minds other h.known
  exact ⟨known, h.minds.trans minds, strokes.queued other h.ready⟩

namespace World

/-! ## Services -/

theorem working_spawnFor (w : World) (v : VisitId) (x : Task) :
    ((w.spawnFor v x).visit v).working = (w.visit v).working ++ [w.tasks.size] := by
  simp [spawnFor, spawn, modifyVisit]

theorem hired_spawnFor (w : World) (v : VisitId) (x : Task) :
    (w.spawnFor v x).Hired w.tasks.size { x with home := some v } := by
  refine ⟨?_, ?_, ?_⟩
  · simp [spawnFor, spawn, modifyVisit]
  · simp only [spawnFor, spawn, modifyVisit, task_mk, Table.get_push, if_true]
    exact .refl _
  · simp [spawnFor, spawn, modifyVisit]

/-- Work that is set up has a new task, which the visit lists after the others. -/
theorem launchWork_hires (w : World) (v : VisitId) (part : Part) (reach : Reach)
    (route : Option Route) (work : Work)
    (calm : (w.launchWork v part reach route work).2 = false) :
    ∃ u, w.tasks.size ≤ u ∧ u < (w.launchWork v part reach route work).1.tasks.size ∧
      ((w.launchWork v part reach route work).1.visit v).working = (w.visit v).working ++ [u] ∧
      (work.setUp = [] → (w.launchWork v part reach route work).1.Hired u
        { job := .script work.body, reach, route, home := some v }) := by
  have ran := (Spares.runAction (c := reach.callback) (w.mark (.launched v part)) reach work.setUp
    fun _ => id).1
  unfold launchWork at calm ⊢
  split at calm
  · cases calm
  · next w₁ reach₁ eq =>
    rw [eq] at ran
    refine ⟨w₁.tasks.size, ran.tasks, (w₁.hired_spawnFor v _).known, ?_, fun none => ?_⟩
    · rw [working_spawnFor, ran.working]
      rfl
    · rw [none] at eq
      cases eq
      exact hired_spawnFor _ v _

/-- A service that is set up has a new task, which the visit lists after the others. -/
theorem launchService_hires (w : World) (v : VisitId) (k : Nat) (service : Service)
    (calm : (w.launchService v k service).2 = false) :
    ∃ u, w.tasks.size ≤ u ∧ u < (w.launchService v k service).1.tasks.size ∧
      ((w.launchService v k service).1.visit v).working = (w.visit v).working ++ [u] ∧
      ∀ x, service.hire? v k = some x → (w.launchService v k service).1.Hired u x := by
  cases service with
  | free work =>
    obtain ⟨u, new, known, working, hired⟩ := launchWork_hires w v _ _ _ work calm
    refine ⟨u, new, known, working, fun x hx => ?_⟩
    obtain ⟨setUp, body⟩ := work
    cases setUp with
    | nil => exact Option.some.inj hx ▸ hired rfl
    | cons => cases hx
  | routed work =>
    obtain ⟨u, new, known, working, hired⟩ := launchWork_hires w v _ _ _ work calm
    refine ⟨u, new, known, working, fun x hx => ?_⟩
    obtain ⟨setUp, body⟩ := work
    cases setUp with
    | nil => exact Option.some.inj hx ▸ hired rfl
    | cons => cases hx
  | nested m =>
    refine ⟨w.tasks.size, Nat.le_refl _, (hired_spawnFor (w.mark _) v _).known, ?_, fun x hx => ?_⟩
    · exact working_spawnFor (w.mark _) v _
    · cases hx

/-- Services are given tasks in their order. -/
theorem launchServices_hires (w : World) (v : VisitId) (k : Nat) (services : List Service)
    (known : t < w.tasks.size) (calm : (w.launchServices v k services).2 = false) :
    ∃ us : List TaskId, us.length = services.length ∧
      ((w.launchServices v k services).1.visit v).working = (w.visit v).working ++ us ∧
      ∀ (j : Nat) u service, us[j]? = some u → services[j]? = some service → u ≠ t ∧
        ∀ x, service.hire? v (k + j) = some x → (w.launchServices v k services).1.Hired u x := by
  -- The induction is on the services that are left; the task of the first one is listed before
  -- those of the others, and stays as it was hired while these are launched.
  induction services generalizing w k with
  | nil =>
    refine ⟨[], rfl, (List.append_nil _).symm, fun j u service hu => ?_⟩
    simp at hu
  | cons first rest ih =>
    have launched := Strokes.launchService (t := t) w v k first
    have hires := w.launchService_hires v k first
    unfold launchServices at calm ⊢
    split at calm
    · cases calm
    · next w₁ eq =>
      rw [eq] at launched hires
      obtain ⟨u, new, here, working, hired⟩ := hires rfl
      have other : u ≠ t := (Nat.lt_of_lt_of_le known new).ne'
      obtain ⟨us, length, working', hired'⟩ := ih w₁ (k + 1)
        (Nat.lt_trans (Nat.lt_of_lt_of_le known new) here) calm
      refine ⟨u :: us, congrArg (· + 1) length, ?_, fun j u' service hu hservice => ?_⟩
      · rw [working', working, List.append_assoc, List.singleton_append]
      · cases j with
        | zero =>
          cases hu
          cases hservice
          refine ⟨other, fun x hx => ?_⟩
          exact (hired x hx).strokes (.launchServices w₁ v (k + 1) rest) other
        | succ j =>
          have later := hired' j u' service hu hservice
          rwa [Nat.add_right_comm] at later

/-- Activities are listed after what is listed already. -/
theorem launchActivities_hires (w : World) (v : VisitId) (k : Nat) (activities : List Work)
    (calm : (w.launchActivities v k activities).2 = false) :
    ∃ us, ((w.launchActivities v k activities).1.visit v).working = (w.visit v).working ++ us := by
  induction activities generalizing w k with
  | nil => exact ⟨[], (List.append_nil _).symm⟩
  | cons first rest ih =>
    have hires := w.launchWork_hires v (.activity k) {} none first
    unfold launchActivities at calm ⊢
    split at calm
    · cases calm
    · next w₁ eq =>
      rw [eq] at hires
      obtain ⟨u, -, -, working, -⟩ := hires rfl
      obtain ⟨us, working'⟩ := ih w₁ (k + 1) calm
      exact ⟨u :: us, by rw [working', working, List.append_assoc, List.singleton_append]⟩

/-- The tasks of services come first in the list of the visit, in the order of the services. -/
theorem launchAll_hires (w : World) (v : VisitId) (known : t < w.tasks.size)
    (none : (w.visit v).working = []) (calm : (w.launchAll v).2 = false) (k : Nat)
    (service : Service) (part : (w.visit v).state.services[k]? = some service) :
    ∃ u, ((w.launchAll v).1.visit v).working[k]? = some u ∧ u ≠ t ∧
      ∀ x, service.hire? v k = some x → (w.launchAll v).1.Hired u x := by
  have served := w.launchServices_hires v 0 (w.visit v).state.services known
  unfold launchAll at calm ⊢
  simp only at calm ⊢
  split at calm
  · cases calm
  · next w₁ eq =>
    rw [eq] at served
    obtain ⟨us, length, working, hired⟩ := served rfl
    obtain ⟨vs, working'⟩ := w₁.launchActivities_hires v 0 _ calm
    have short : k < us.length := length ▸ (List.getElem?_eq_some_iff.1 part).1
    have here : us[k]? = some us[k] := List.getElem?_eq_getElem short
    obtain ⟨other, hire⟩ := hired k us[k] service here part
    refine ⟨us[k], ?_, other, fun x hx => ?_⟩
    · rw [working', working, none, List.nil_append, List.getElem?_append_left short, here]
    · exact (hire x (by rwa [Nat.zero_add])).strokes (.launchActivities w₁ v 0 _) other

/-! ## Runs that begin to wait -/

/-- A run that has entered a state in which it waits has hired a task for each service. -/
theorem enter_hires (w : World) (r : RunId) (s : State) (known : t < w.tasks.size)
    (stays : s.mode ≠ .transient) (going : ((w.enter r s).1.run r).phase ≠ .ended) :
    (w.enter r s).2 = .busy ∧ ∃ v, ((w.enter r s).1.run r).phase = .waiting v ∧
      ((w.enter r s).1.visit v).state = s ∧
      ∀ (k : Nat) service, s.services[k]? = some service →
        ∃ u, ((w.enter r s).1.visit v).working[k]? = some u ∧ u ≠ t ∧
          ∀ x, service.hire? v k = some x → (w.enter r s).1.Hired u x := by
  have here : ((w.pushVisit r s).visit w.visits.size).state = s ∧
      ((w.pushVisit r s).visit w.visits.size).working = [] := by
    simp [pushVisit, trace, mark, log]
  have ran := Spares.runPhrase (w.pushVisit r s) w.visits.size .enter
  rw [enter_eq] at going ⊢
  split at going
  -- An enter action that panics would have ended the run.
  · exact absurd (phase_release ..) going
  · next w₁ eq =>
    rw [eq] at ran
    simp only [if_neg stays] at going ⊢
    -- The mark of the arrival is kept out of the way.
    obtain ⟨w₂, arrived⟩ : ∃ w₂, w₂ = w₁.mark (.arrived w.visits.size) := ⟨_, rfl⟩
    have known₂ : t < w₂.tasks.size := arrived ▸ Nat.lt_of_lt_of_le known ran.tasks
    have state : (w₂.visit w.visits.size).state = s := arrived ▸ (ran.state _).trans here.1
    have working : (w₂.visit w.visits.size).working = [] := arrived ▸ (ran.working _).trans here.2
    have there : w.visits.size < w₂.visits.size := by
      refine arrived ▸ Nat.lt_of_lt_of_le ?_ ran.visits
      simp [pushVisit, trace, mark, log]
    have defers := Defers.launchAll w₂ w.visits.size
    have hires := w₂.launchAll_hires w.visits.size known₂ working
    rw [← arrived] at going ⊢
    unfold launch at going ⊢
    split at going
    · exact absurd (phase_release ..) going
    -- Nobody has worked for the visit before, so its list is that of the new tasks.
    · next w₃ launched =>
      rw [launched] at hires defers
      refine ⟨rfl, w.visits.size, phase_setPhase .., (defers.state _ there).trans state,
        fun k service part => ?_⟩
      obtain ⟨u, listed, other, hired⟩ := hires rfl k service (state ▸ part)
      exact ⟨u, listed, other, fun x hx => ⟨(hired x hx).known, (hired x hx).minds,
        (hired x hx).ready⟩⟩

/-- A run that has arrived in a state in which it waits has hired a task for each service. -/
theorem arrive_hires (w : World) (r : RunId) (s : State) (p : Option String) (c : Option Decision)
    (known : t < w.tasks.size) (stays : s.mode ≠ .transient)
    (going : ((w.arrive r s p c).1.run r).phase ≠ .ended) :
    (w.arrive r s p c).2 = .busy ∧ ∃ v, ((w.arrive r s p c).1.run r).phase = .waiting v ∧
      ((w.arrive r s p c).1.visit v).state = s ∧
      ∀ (k : Nat) service, s.services[k]? = some service →
        ∃ u, ((w.arrive r s p c).1.visit v).working[k]? = some u ∧ u ≠ t ∧
          ∀ x, service.hire? v k = some x → (w.arrive r s p c).1.Hired u x := by
  have told := Spares.notifyChange (w.mark (.notified r ⟨s.id, p, c⟩)) ⟨s.id, p, c⟩
    (w.interpreter (w.run r).interpreter).changeHandlers
  unfold arrive at going ⊢
  split at going
  · exact absurd (phase_release ..) going
  · next free =>
    rw [if_neg free]
    simp only at going ⊢
    split at going
    · exact absurd (phase_release ..) going
    · next w₁ eq =>
      rw [eq] at told
      exact w₁.enter_hires r s (Nat.lt_of_lt_of_le known told.tasks) stays going

end World

/-- A run that has ended is over for good. -/
theorem Beats.ended {x y : World × Stage} (b : Beats x y) (o : Orderly x.1 x.2)
    (known : r < x.1.runs.size) (ended : (x.1.run r).phase = .ended) :
    (y.1.run r).phase = .ended := by
  suffices r < y.1.runs.size ∧ (y.1.run r).phase = .ended from this.2
  induction b with
  | refl => exact ⟨known, ended⟩
  | tail before beat ih =>
    have o' := o.beats before
    exact ⟨Nat.lt_of_lt_of_le ih.1 beat.runs, (beat.of_waiting (v := 0) o' ih.1).1 ih.2⟩

/-- When a run begins to wait in a state, each service has a task of its own. -/
theorem Scenario.Reaches.hired {scn : Scenario} {p : Option String} {c : Option Decision}
    (h : scn.Reaches w) (d : w.Drives t r) (phase : (w.run r).phase = .arriving s p c)
    (stays : s.mode ≠ .transient) (waits : ((w.move t).run r).phase = .waiting v) :
    ((w.move t).visit v).state = s ∧
      ∀ (k : Nat) service, s.services[k]? = some service →
        ∃ u, ((w.move t).visit v).working[k]? = some u ∧ u ≠ t ∧
          ∀ x, service.hire? v k = some x → (w.move t).Hired u x := by
  have arrives : w.advance r = w.arrive r s p c := by
    unfold World.advance
    rw [phase]
  obtain ⟨paces, after⟩ := Beats.drive h.sound d
  have alive := h.sound.turn t d.turn
  have known : t < w.tasks.size := World.lt_size_of_isAlive alive
  obtain ⟨tends, -⟩ := Deeds.drive h.orderly alive d.job
  have there := Nat.lt_of_lt_of_le (h.drives_goes d).1 tends.anchored.runs
  have going : ((w.arrive r s p c).1.run r).phase ≠ .ended := by
    intro ended
    have ended' := after.ended (h.orderly.beats paces.beats) there (arrives ▸ ended)
    cases waits.symm.trans ended'
  obtain ⟨busy, u, phase', state, hired⟩ := w.arrive_hires r s p c known stays going
  rw [← arrives] at busy phase' state hired
  obtain ⟨move, -⟩ := h.goesOn d busy
  rw [move] at waits ⊢
  cases phase'.symm.trans waits
  exact ⟨state, hired⟩

end

end Statechart
