import Mathlib.Data.List.Basic
import Statechart.Proofs.Race
import Statechart.Proofs.Staffing

/-!
# Polls of waiting visits

A wait ends in a poll of its visit: when the host of its run has the turn and looks around. What
the poll finds is laid down by the visit alone, and a poll that finds nothing leaves it waiting.

## Main definitions

- `Defers`: no wait ends.
- `World.Polls`: the host of a waiting visit has the turn.
- `World.finding?`: what a waiting visit finds when it is polled.
- `World.Leaves`: the host of a run is about to leave a visit.
- `World.moves`: so many moves of a task.
- `World.Heard`: a waiting visit has heard of tasks that have ended.

## Main statements

- `World.Next.polls`: a wait ends in a move of its host, and in no other.
- `World.Polls.ends`, `World.Polls.defers`: what such a move does is up to what the poll finds.
- `Scenario.Reaches.hears`: a poll hears of one task after the other, until one has panicked.
- `Scenario.Reaches.leaves`: a visit is left when it has heard of all of its tasks.
- `Scenario.Reaches.polled`: so every wait that is over ended with what its last poll found.
-/

namespace Statechart

/-! ## Definitions -/

/-- No wait ends, and visits that are there keep their states. -/
structure Defers (w w' : World) : Prop where
  visits : w.visits.size ≤ w'.visits.size
  state : ∀ v, v < w.visits.size → (w'.visit v).state = (w.visit v).state
  marks : w.marks <+: w'.marks
  concluded : ∀ v e, .concluded v e ∈ w'.marks → .concluded v e ∈ w.marks

/-- The host of a waiting visit has the turn. -/
structure World.Polls (w : World) (v : VisitId) : Prop where
  turn : w.running = some (w.runOf v).host
  waits : (w.runOf v).phase = .waiting v

/-- The host of a run has the turn, and is about to leave a visit whose wait is over. -/
structure World.Leaves (w : World) (t : TaskId) (r : RunId) (v : VisitId) (e : Ending) : Prop where
  turn : w.running = some t
  host : (w.run r).host = t
  phase : (w.run r).phase = .draining v e

/-- What a waiting visit finds when it is polled, if it finds anything. -/
def World.finding? (w : World) (v : VisitId) : Option Ending :=
  if (w.runOf v).cancelled then some .stopped
  else
    match (w.visit v).inbox, (w.visit v).finished with
    | some d, _ => some (.decided d)
    | none, t :: _ => if (w.task t).fate = some .panicked then some .panicked else none
    | none, [] =>
      if w.isHeld v = true ∨ ¬ (w.visit v).working = [] then none else some .settled

/-- A task makes so many moves, one after the other. -/
def World.moves (w : World) (t : TaskId) : Nat → World
  | 0 => w
  | n + 1 => (w.move t).moves t n

theorem World.moves_succ (w : World) (t : TaskId) (n : Nat) :
    w.moves t (n + 1) = (w.moves t n).move t := by
  induction n generalizing w with
  | zero => rfl
  | succ n ih => exact ih (w.move t)

/-- A visit has heard of some of its tasks that have ended, and `rest` are left; nothing else has
happened. -/
structure World.Heard (w : World) (v : VisitId) (rest : List TaskId) (w' : World) : Prop where
  running : w'.running = w.running
  tasks : w'.tasks = w.tasks
  runs : w'.runs = w.runs
  kept : w'.kept = w.kept
  marks : w'.marks = w.marks
  visit : ∃ listening, w'.visit v = { w.visit v with listening, finished := rest }

/-- A waiting visit that looks at its tasks listens for news while somebody has its callback, and
has heard of one more task that has ended. -/
def World.looked (w : World) (v : VisitId) : World :=
  if (w.runOf v).cancelled || (w.visit v).inbox.isSome then w
  else
    let listening := w.modifyVisit v fun x => { x with listening := w.isHeld v }
    match (w.visit v).finished with
    | _ :: rest => listening.modifyVisit v fun x => { x with finished := rest }
    | [] => listening

@[simp]
theorem World.marks_looked (w : World) (v : VisitId) : (w.looked v).marks = w.marks := by
  unfold looked
  split
  · rfl
  · simp only
    split <;> rfl

/-- A poll does what it has found: it ends the wait, or leaves the visit with what it has seen. -/
theorem World.inspect_eq {w : World} {r : RunId} {v : VisitId} (own : (w.visit v).run = r) :
    w.inspect r v = (w.finding? v).elim
      (w.looked v, if (w.visit v).finished = [] then .parked else .busy)
      fun e => (w.looked v).tearDown r v e := by
  have run : w.runOf v = w.run r := congrArg w.run own
  -- What the visit listens for changes neither its tasks nor what they came to.
  have same (f : Visit → Visit) (hf : ∀ x : Visit, (f x).finished = x.finished ∧
      (f x).working = x.working) :
      ((w.modifyVisit v f).visit v).finished = (w.visit v).finished ∧
        ((w.modifyVisit v f).visit v).working = (w.visit v).working := by
    rw [visit_modifyVisit, if_pos rfl]
    exact hf _
  obtain ⟨finished, working⟩ := same (fun x => { x with listening := w.isHeld v })
    fun _ => ⟨rfl, rfl⟩
  unfold inspect finding? looked
  rw [run]
  by_cases stop : (w.run r).cancelled
  · simp [stop]
  · cases news : (w.visit v).inbox with
    | some d => simp [stop]
    | none =>
      simp only [stop, finished, working]
      cases tasks : (w.visit v).finished with
      | nil =>
        by_cases busy : w.isHeld v = true ∨ ¬ (w.visit v).working = []
        · simp [busy]
        · simp [busy]
      | cons t rest =>
        have task (w : World) (f : Visit → Visit) : (w.modifyVisit v f).task t = w.task t := rfl
        by_cases panicked : (w.task t).fate = some .panicked
        · simp [task, panicked]
        · simp [task, panicked]

/-! ## What leaves waits alone -/

namespace Defers

variable {w w' w'' : World} {c : Option VisitId} {t : TaskId} {r : RunId} {v : VisitId}

theorem refl (w : World) : Defers w w :=
  ⟨Nat.le_refl _, fun _ _ => rfl, List.prefix_rfl, fun _ _ => id⟩

theorem trans (h : Defers w w') (h' : Defers w' w'') : Defers w w'' where
  visits := Nat.le_trans h.visits h'.visits
  state v hv := (h'.state v (Nat.lt_of_lt_of_le hv h.visits)).trans (h.state v hv)
  marks := h.marks.trans h'.marks
  concluded v e he := h.concluded v e (h'.concluded v e he)

theorem spares (h : Spares c w w') : Defers w w' :=
  ⟨h.visits, fun v _ => h.state v, h.marks, fun _ _ he => h.silent _ he rfl⟩

theorem mark (w : World) (m : Mark) (other : ∀ v e, m ≠ .concluded v e) : Defers w (w.mark m) := by
  refine ⟨Nat.le_refl _, fun _ _ => rfl, by simp, fun v e he => ?_⟩
  rw [World.marks_mark] at he
  exact (List.mem_append.1 he).resolve_right fun new => other v e (List.mem_singleton.1 new).symm

theorem dismisses {P : TaskId → Prop} (h : Dismisses P w w') : Defers w w' := by
  refine ⟨Nat.le_of_eq (congrArg Table.size h.visits).symm, fun v _ => ?_,
    h.marks ▸ List.prefix_rfl, fun v e he => h.marks ▸ he⟩
  unfold World.visit
  rw [h.visits]

theorem modifyVisit {f : Visit → Visit} (same : ∀ x : Visit, (f x).state = x.state) :
    Defers w (w.modifyVisit v f) := by
  refine ⟨Table.size_le_modify .., fun u _ => ?_, List.prefix_rfl, fun _ _ => id⟩
  exact World.data_modifyVisit Visit.state (same _) u

theorem looked (w : World) (v : VisitId) : Defers w (w.looked v) := by
  have listening : Defers w (w.modifyVisit v fun x => { x with listening := w.isHeld v }) :=
    modifyVisit fun _ => rfl
  unfold World.looked
  simp only
  split
  · exact refl w
  · split
    · exact listening.trans (modifyVisit fun _ => rfl)
    · exact listening

theorem setPhase (w : World) (r : RunId) (p : Phase) : Defers w (w.setPhase r p) :=
  { refl w with }

theorem setJob (w : World) (t : TaskId) (job : Job) : Defers w (w.setJob t job) :=
  { refl w with }

theorem spawnFor (w : World) (v : VisitId) (x : Task) : Defers w (w.spawnFor v x) := by
  have hired : Defers w
      (w.modifyVisit v fun y => { y with working := y.working ++ [w.tasks.size] }) :=
    modifyVisit fun _ => rfl
  exact { hired with }

/-! ### Tasks -/

theorem endTask (w : World) (t : TaskId) (fate : Fate) : Defers w (w.endTask t fate) := by
  have dropped : Defers w (if fate = .panicked ∨ fate = .dropped
      then w.logDrops (w.task t).guards else w) := by
    split
    · exact spares (c := none) (.logDrops ..)
    · exact refl w
  have buried (w : World) : Defers w (w.bury t fate) :=
    { mark w (.ended t fate) nofun with }
  have withdrawn (w : World) (home : Option VisitId) : Defers w (w.withdraw t home) := by
    unfold World.withdraw
    split
    · exact modifyVisit fun _ => rfl
    · exact refl w
  have freed (w : World) (vs : List VisitId) : Defers w (w.letGoAll vs) :=
    spares (c := none) (.letGoAll w vs)
  rw [World.endTask_eq]
  refine trans (trans ?_ (spares (Deeds.tellHome _ _))) (spares (Deeds.tellJoiner _ _))
  exact trans (trans (dropped.trans (buried _)) (freed _ _)) (withdrawn _ _)

theorem finish (w : World) (t : TaskId) (failure : Option Fault) :
    Defers w (w.finish t failure) := by
  unfold World.finish
  simp only
  split
  · exact (spares (.raiseOutcome ..)).trans (endTask ..)
  · exact endTask ..

theorem moveScript (w : World) (t : TaskId) (s : Script) : Defers w (w.moveScript t s) := by
  have stepped := spares (Spares.stepScript w t s)
  unfold World.moveScript
  split
  · next eq =>
    rw [eq] at stepped
    exact stepped.trans (setJob ..)
  · next eq =>
    rw [eq] at stepped
    exact (stepped.trans (setJob ..)).trans (spares (c := none) (.park ..))
  · next eq =>
    rw [eq] at stepped
    exact stepped.trans (finish ..)
  · next eq =>
    rw [eq] at stepped
    exact stepped.trans (endTask ..)

/-! ### Runs -/

theorem unwind (w : World) (r : RunId) : Defers w (w.unwind r).1 :=
  spares (c := none) (.release ..)

theorem abandon (w : World) (v : VisitId) : Defers w (w.abandon v).1 := by
  unfold World.abandon
  refine (dismisses (.abortWork w v)).trans (spares (c := none) ?_)
  exact ((Spares.closeVisit ..).trans (.tearScope ..)).trans (.runPhrase ..)

theorem launchWork (w : World) (v : VisitId) (part : Part) (reach : Reach) (route : Option Route)
    (work : Work) : Defers w (w.launchWork v part reach route work).1 := by
  have set := (mark w (.launched v part) nofun).trans
    (spares (Spares.runAction (w.mark (.launched v part)) reach work.setUp fun _ => id).1)
  unfold World.launchWork
  split
  · next eq =>
    rw [eq] at set
    exact set
  · next eq =>
    rw [eq] at set
    exact set.trans (spawnFor ..)

theorem launchService (w : World) (v : VisitId) (k : Nat) (service : Service) :
    Defers w (w.launchService v k service).1 := by
  cases service with
  | free work => exact launchWork ..
  | routed work => exact launchWork ..
  | nested m => exact (mark w (.launched v (.service k)) nofun).trans (spawnFor ..)

theorem launchServices (w : World) (v : VisitId) (k : Nat) (rest : List Service) :
    Defers w (w.launchServices v k rest).1 := by
  induction rest generalizing w k with
  | nil => exact refl w
  | cons service rest ih =>
    have launched := launchService w v k service
    unfold World.launchServices
    split
    · next eq =>
      rw [eq] at launched
      exact launched
    · next eq =>
      rw [eq] at launched
      exact launched.trans (ih ..)

theorem launchActivities (w : World) (v : VisitId) (k : Nat) (rest : List Work) :
    Defers w (w.launchActivities v k rest).1 := by
  induction rest generalizing w k with
  | nil => exact refl w
  | cons work rest ih =>
    have launched := launchWork w v (.activity k) {} none work
    unfold World.launchActivities
    split
    · next eq =>
      rw [eq] at launched
      exact launched
    · next eq =>
      rw [eq] at launched
      exact launched.trans (ih ..)

theorem launchAll (w : World) (v : VisitId) : Defers w (w.launchAll v).1 := by
  have served := launchServices w v 0 (w.visit v).state.services
  unfold World.launchAll
  simp only
  split
  · next eq =>
    rw [eq] at served
    exact served
  · next w₁ eq =>
    rw [eq] at served
    exact served.trans (launchActivities w₁ v 0 _)

theorem launch (w : World) (r : RunId) (v : VisitId) : Defers w (w.launch r v).1 := by
  have launched := launchAll w v
  unfold World.launch
  split
  · next eq =>
    rw [eq] at launched
    exact (launched.trans (abandon ..)).trans (unwind ..)
  · next eq =>
    rw [eq] at launched
    exact launched.trans (setPhase ..)

theorem drain (w : World) (r : RunId) (v : VisitId) (e : Ending) : Defers w (w.drain r v e).1 := by
  unfold World.drain
  split
  · next t rest next =>
    have looked : Defers w (w.modifyVisit v fun x => { x with finished := rest }) :=
      modifyVisit fun _ => rfl
    simp only
    split
    · exact looked.trans (spares (c := none) (.trace ..))
    · exact looked
  · split
    · exact spares (.leave ..)
    · exact refl w

theorem dropRun (w : World) (r : RunId) : Defers w (w.dropRun r).1 := by
  have ended := setPhase w r .ended
  unfold World.dropRun
  cases (w.run r).phase with
  | begun | ended => exact ended
  | arriving => exact ended.trans (spares (c := none) (.release ..))
  | waiting v => exact (ended.trans (abandon ..)).trans (spares (c := none) (.release ..))
  | draining v e =>
    exact ended.trans (spares (c := none) ((Spares.closeVisit ..).trans (.release ..)))

/-! ### The controller -/

theorem abort (w : World) (t : TaskId) : Defers w (w.abort t) :=
  dismisses (.abort w (P := fun _ => True) trivial)

theorem beginNested (w : World) (t : TaskId) (m : Machine) : Defers w (w.beginNested t m) := by
  have founded : Defers w (w.withNested t m) :=
    spares (c := none) ((Spares.pushInterpreter w m).trans (.spawn ⟨rfl, rfl, rfl, nofun⟩))
  rw [World.beginNested_eq]
  split
  · next begun =>
    obtain ⟨s, -, -, rfl, rfl⟩ := World.begin_ok begun
    exact (founded.trans (spares (c := none) (.takeSlot ..))).trans (setJob ..)
  · exact (founded.trans (abort ..)).trans (finish ..)

theorem moveStopHook (w : World) (t : TaskId) (i : InterpreterId) :
    Defers w (w.moveStopHook t i) := by
  unfold World.moveStopHook
  split
  · split
    · exact spares (c := none) (.park ..)
    · exact spares (c := none) ((Spares.beginWait ..).trans (.park ..))
  · have stopped := ((Spares.trace (c := none) w (.stoppingNested
      (w.interpreter i).machine.id)).trans (.forceStop _ i)).trans (.endWait _ t)
    exact (spares stopped).trans (finish ..)

theorem answer (w : World) (t : TaskId) (steps : List Step) (a : Answer) :
    Defers w (w.answer t steps a) := by
  exact (spares (c := none) (.report ..)).trans (setJob ..)

theorem beginNamed (w : World) (t : TaskId) (rest : List Step) (i : InterpreterId) (step : Step) :
    Defers w (w.beginNamed t rest i step) := by
  cases step with
  | run n ms =>
    simp only [World.beginNamed]
    split
    · next begun =>
      obtain ⟨s, -, -, rfl, rfl⟩ := World.begin_ok begun
      exact (spares (c := none) (.takeSlot ..)).trans (setJob ..)
    · exact answer ..
  | start n =>
    simp only [World.beginNamed]
    split
    · next started => exact (spares (c := none) (.startInBackground started)).trans (answer ..)
    · exact answer ..
  | join n ms =>
    simp only [World.beginNamed]
    split
    · exact (spares (c := none) (.takeHandle w i)).trans (setJob ..)
    · exact answer ..
  | abort n =>
    simp only [World.beginNamed]
    split
    · next u _ => exact (abort w u).trans (answer ..)
    · exact answer ..
  | history | debug | validate | machineDebug => exact answer ..
  | script instr => exact setJob ..

theorem moveJoining (w : World) (t : TaskId) (rest : List Step) (i : InterpreterId) (u : TaskId)
    (deadline : Nat) : Defers w (w.moveJoining t rest i u deadline) := by
  have joined : Defers w (w.modifyTask u fun x => { x with joiner := some t }) :=
    { refl w with }
  unfold World.moveJoining
  split
  · exact answer ..
  · simp only
    split
    · exact joined.trans (spares (Deeds.parkUntil ..))
    · refine (joined.trans ?_).trans (answer ..)
      unfold World.setHandle
      simp only
      split <;> exact { refl _ with }

theorem giveUp (w : World) (t : TaskId) (rest : List Step) (r : RunId) :
    Defers w (w.giveUp t rest r) := by
  have dropped := dropRun w r
  unfold World.giveUp
  split
  all_goals next eq =>
    rw [eq] at dropped
    first
      | exact dropped.trans (endTask ..)
      | exact dropped.trans (answer ..)

theorem moveControlScript (w : World) (t : TaskId) (steps : List Step) (s : Script) :
    Defers w (w.moveControlScript t steps s) := by
  have stepped := spares (Spares.stepScript w t s)
  have freed (w : World) : Defers w (w.modifyTask t fun x => { x with guards := [] }) :=
    { refl w with }
  unfold World.moveControlScript
  split
  all_goals next eq =>
    rw [eq] at stepped
    first
      | exact stepped.trans (setJob ..)
      | exact (stepped.trans (setJob ..)).trans (spares (c := none) (.park ..))
      | exact (stepped.trans (freed _)).trans (answer ..)
      | exact stepped.trans (endTask ..)

/-- A controller that drives no run ends no wait. -/
theorem moveControl (w : World) (t : TaskId) (steps : List Step) {doing : Doing}
    (other : ∀ r deadline, doing ≠ .running r deadline) :
    Defers w (w.moveControl t steps doing) := by
  cases doing with
  | nothing =>
    cases steps with
    | nil => exact endTask ..
    | cons step rest =>
      show Defers w (w.beginStep t rest step)
      unfold World.beginStep
      split
      · exact beginNamed ..
      · split
        · exact beginNamed ..
        · exact answer ..
  | script s => exact moveControlScript ..
  | joining i u deadline => exact moveJoining ..
  | running r deadline => exact absurd rfl (other r deadline)

theorem beginTurn (w : World) (t : TaskId) : Defers w (w.beginTurn t) := by
  have unqueued : Defers w { w with queue := w.queue.erase t } := { refl w with }
  have dropped (w : World) : Defers w (w.dropTask t) := by
    unfold World.dropTask
    split
    · next r _ =>
      have dropped := dropRun w r
      split
      all_goals next eq =>
        rw [eq] at dropped
        exact dropped.trans (endTask ..)
    · exact endTask ..
  unfold World.beginTurn
  simp only
  split
  · exact unqueued.trans (dropped _)
  · exact { unqueued.trans (mark _ (.turn t) nofun) with }

/-- Once the end of a wait is marked, no other wait ends. -/
theorem tearDown (w : World) (r : RunId) (v : VisitId) (e : Ending) :
    Defers (w.mark (.concluded v e)) (w.tearDown r v e).1 := by
  have torn := Spares.tearScope (c := none)
    ((w.setPhase r (.draining v e)).mark (.concluded v e)) v
  have ran := spares (torn.trans (.runPhrase _ v .cleanup))
  have begun : Defers (w.mark (.concluded v e))
    ((w.setPhase r (.draining v e)).mark (.concluded v e)) :=
    { refl (w.mark (.concluded v e)) with }
  rw [World.tearDown_eq]
  split
  · next w₁ eq =>
    rw [eq] at ran
    refine ((begun.trans ran).trans (dismisses (.abortWork w₁ v))).trans ?_
    exact (spares (c := none) (.closeVisit ..)).trans (unwind ..)
  · next w₁ eq =>
    rw [eq] at ran
    exact (begun.trans ran).trans (dismisses (.abortWork w₁ v))

end Defers

/-! ## Where waits end -/

section

variable {w w' : World} {t : TaskId} {r : RunId} {v u : VisitId} {e : Ending}

/-- A wait that ends when a visit is torn down is that of the visit. -/
theorem World.concluded_tearDown {e' : Ending} (h : .concluded u e ∈ (w.tearDown r v e').1.marks) :
    .concluded u e ∈ w.marks ∨ u = v ∧ e = e' := by
  have here := (Defers.tearDown w r v e').concluded u e h
  rw [marks_mark, List.mem_append, List.mem_singleton] at here
  simpa using here

/-- What is entered ends no wait, unless it passes a transient state. -/
theorem World.concluded_enter (w : World) (r : RunId) (s : State)
    (h : .concluded u e ∈ (w.enter r s).1.marks) :
    .concluded u e ∈ w.marks ∨
      u < (w.enter r s).1.visits.size ∧ ((w.enter r s).1.visit u).state.mode = .transient := by
  have entered : Defers w (w.pushVisit r s) := by
    refine ⟨by simp [pushVisit, trace, mark, log], fun v hv => ?_, by simp [marks_pushVisit],
      fun v e he => ?_⟩
    · simp [pushVisit, trace, mark, log, Nat.ne_of_lt hv]
    · simpa [marks_pushVisit] using he
  have ran := Defers.spares (.runPhrase (w.pushVisit r s) w.visits.size .enter)
  have entering := w.enter_eq r s
  split at entering
  · next w₁ eq =>
    rw [eq] at ran
    rw [entering] at h
    have left := (ran.trans (.spares (c := none) (.closeVisit w₁ w.visits.size))).trans
      (.unwind _ r)
    exact .inl ((entered.trans left).concluded u e h)
  · next w₁ eq =>
    rw [eq] at ran
    have here := ran.trans (.mark w₁ (.arrived w.visits.size) fun _ _ same => by cases same)
    split at entering
    · next transient =>
      rw [entering] at h ⊢
      refine (concluded_tearDown h).imp ((entered.trans here).concluded u e) fun ended => ?_
      obtain ⟨mine, -⟩ := ended
      subst mine
      -- The new visit is one to the state that is passed, and stays so.
      have torn := Defers.tearDown (w₁.mark (.arrived w.visits.size)) r w.visits.size
        (.decided ⟨.transient, none⟩)
      have known : w.visits.size < (w.pushVisit r s).visits.size := by
        simp [pushVisit, trace, mark, log]
      have known₁ := Nat.lt_of_lt_of_le known here.visits
      refine ⟨Nat.lt_of_lt_of_le known₁ torn.visits, ?_⟩
      rw [torn.state _ known₁]
      refine (congrArg State.mode (here.state _ known)).trans ?_
      simpa [pushVisit, trace, mark, log] using transient
    · rw [entering] at h
      exact .inl (((entered.trans here).trans (.launch _ r _)).concluded u e h)

/-- A run that arrives ends no wait but that of a transient state. -/
theorem World.concluded_arrive (w : World) (r : RunId) (s : State) (previous : Option String)
    (cause : Option Decision) (h : .concluded u e ∈ (w.arrive r s previous cause).1.marks) :
    .concluded u e ∈ w.marks ∨ u < (w.arrive r s previous cause).1.visits.size ∧
      ((w.arrive r s previous cause).1.visit u).state.mode = .transient := by
  have told := Defers.spares ((Spares.mark w (.notified r ⟨s.id, previous, cause⟩) rfl rfl).trans
    (.notifyChange _ ⟨s.id, previous, cause⟩
      (w.interpreter (w.run r).interpreter).changeHandlers))
  unfold arrive at h ⊢
  split
  · next stopped =>
    rw [if_pos stopped] at h
    exact .inl ((Defers.spares (c := none) (.conclude w r _)).concluded u e h)
  · next free =>
    rw [if_neg free] at h
    simp only at h ⊢
    split at h
    · next w₁ eq =>
      rw [eq] at told
      exact .inl ((told.trans (.unwind w₁ r)).concluded u e h)
    · next w₁ eq =>
      rw [eq] at told
      exact (w₁.concluded_enter r s h).imp_left (told.concluded u e)

/-- A move of a run ends the wait of the visit that the run waits for, and no other. -/
theorem World.concluded_advance (w : World) (r : RunId)
    (own : ∀ v, (w.run r).phase = .waiting v → (w.visit v).run = r)
    (h : .concluded u e ∈ (w.advance r).1.marks) :
    .concluded u e ∈ w.marks ∨ (w.run r).phase = .waiting u ∨
      u < (w.advance r).1.visits.size ∧ ((w.advance r).1.visit u).state.mode = .transient := by
  unfold advance at h ⊢
  cases phase : (w.run r).phase with
  | begun s =>
    rw [phase] at h
    refine .inl ((Defers.spares (c := none) ?_).concluded u e h)
    exact (Spares.trace ..).trans (.modifyRun (fun _ => rfl) fun _ => rfl)
  | arriving s previous cause =>
    rw [phase] at h
    exact (w.concluded_arrive r s previous cause h).imp_right .inr
  | waiting v =>
    rw [phase] at h
    simp only [inspect_eq (own v phase)] at h
    have looked := Defers.looked w v
    cases found : w.finding? v with
    | none =>
      rw [found, Option.elim_none] at h
      exact .inl (looked.concluded u e h)
    | some ending =>
      rw [found, Option.elim_some] at h
      refine (concluded_tearDown h).imp (looked.concluded u e) fun ⟨mine, _⟩ => .inl ?_
      rw [mine]
  | draining v ending =>
    rw [phase] at h
    exact .inl ((Defers.drain ..).concluded u e h)
  | ended =>
    rw [phase] at h
    exact .inl h

/-- What a run leaves to its task to do ends no wait. -/
theorem Defers.moveDrive (w : World) (t : TaskId) (r : RunId) (hook : Option TaskId) :
    Defers (w.advance r).1 (w.moveDrive t r hook) := by
  unfold World.moveDrive
  simp only
  split
  · next eq => exact eq ▸ refl _
  · next eq => exact eq ▸ spares (c := none) (.park ..)
  · next eq => exact eq ▸ endTask ..
  · next eq =>
    rw [eq]
    split
    · exact (abort ..).trans (finish ..)
    · exact endTask ..

theorem Defers.moveRunning (w : World) (t : TaskId) (rest : List Step) (r : RunId)
    (deadline : Nat) : Defers (w.advance r).1 (w.moveRunning t rest r deadline) := by
  unfold World.moveRunning
  split
  · next eq => exact eq ▸ refl _
  · next eq => exact eq ▸ answer ..
  · next eq => exact eq ▸ answer ..
  · next w₁ eq =>
    rw [eq]
    split
    · exact spares (Deeds.parkUntil ..)
    · exact giveUp w₁ t rest r

/-- A wait ends in a move of the host of its run, and in no other. -/
theorem World.Next.polls (o : Orderly w .rest) (h : w.Next w')
    (past : .concluded v e ∈ w'.marks) (new : .concluded v e ∉ w.marks)
    (going : (w'.visit v).state.mode ≠ .transient) :
    w.Polls v ∧ w' = w.move (w.runOf v).host := by
  have silent (defers : Defers w w') : w.Polls v ∧ w' = w.move (w.runOf v).host :=
    absurd (defers.concluded v e past) new
  have own (r : RunId) (u : VisitId) (phase : (w.run r).phase = .waiting u) :
      (w.visit u).run = r := (o.waits r u (by rw [phase]; rfl)).run
  have driven {t : TaskId} {r : RunId} (turn : w.running = some t)
      (job : (w.task t).job.run? = some r) (rest : Defers (w.advance r).1 w') :
      w.Polls v ∧ (w.runOf v).host = t := by
    rcases w.concluded_advance r (own r) (rest.concluded v e past) with
      old | phase | ⟨known, passes⟩
    · exact absurd old new
    · have run : w.runOf v = w.run r := congrArg w.run (own r v phase)
      have host := (o.driver t r (o.turn t turn) job).1
      exact ⟨⟨by rw [run, host, turn], by rw [run, phase]⟩, by rw [run, host]⟩
    · rw [rest.state v known] at going
      exact absurd passes going
  cases h with
  | @move t turn =>
    have same (polls : w.Polls v ∧ (w.runOf v).host = t) :
        w.Polls v ∧ w.move t = w.move (w.runOf v).host := ⟨polls.1, by rw [polls.2]⟩
    cases job : (w.task t).job with
    | script s => exact silent (by simpa only [World.move, job] using Defers.moveScript w t s)
    | nested m => exact silent (by simpa only [World.move, job] using Defers.beginNested w t m)
    | stopHook i => exact silent (by simpa only [World.move, job] using Defers.moveStopHook w t i)
    | drive r hook =>
      refine same (driven turn (by rw [job]; rfl) ?_)
      simpa only [World.move, job] using Defers.moveDrive w t r hook
    | control steps doing =>
      have moved : w.move t = w.moveControl t steps doing := by simp only [World.move, job]
      cases doing with
      | nothing | script | joining =>
        refine silent ?_
        rw [moved]
        exact .moveControl w t steps nofun
      | running r deadline =>
        refine same (driven turn (by rw [job]; rfl) ?_)
        rw [moved]
        exact .moveRunning w t steps r deadline
  | giveUp turn job waits => exact silent (.giveUp ..)
  | turn free ready => exact silent (.beginTurn ..)
  | tick free later => exact silent (.spares (c := none) (.advanceClock later))
  | wake t => exact silent (.spares (c := none) (.wake w t))
  | stop i => exact silent (.spares (c := none) (.forceStop w i))
  | start i free started => exact silent (.spares (c := none) (.startInBackground started))
  | abort t => exact silent (.abort w t)
  | call steps => exact silent (.spares (c := none) (.spawn ⟨rfl, rfl, rfl, nofun⟩))

/-! ## What polls do -/

/-- In a move of its host a run goes on, and then the host does. -/
theorem Sound.advances (sound : Sound w .rest) (going : (w.run r).phase ≠ .ended) :
    Defers (w.advance r).1 (w.move (w.run r).host) ∧
      ((w.advance r).2 = .busy → w.move (w.run r).host = (w.advance r).1) := by
  rcases Beats.move_of_run? (sound.host r going).job with
    ⟨hook, -, moves⟩ | ⟨steps, deadline, -, moves⟩
  · rw [moves]
    refine ⟨.moveDrive .., fun busy => ?_⟩
    unfold World.moveDrive
    split <;> simp_all
  · rw [moves]
    refine ⟨.moveRunning .., fun busy => ?_⟩
    unfold World.moveRunning
    split <;> simp_all

namespace World.Polls

theorem advances (p : w.Polls v) (sound : Sound w .rest) :
    Defers (w.advance (w.visit v).run).1 (w.move (w.runOf v).host) ∧
      ((w.advance (w.visit v).run).2 = .busy →
        w.move (w.runOf v).host = (w.advance (w.visit v).run).1) :=
  sound.advances (by simp [show (w.run (w.visit v).run).phase = _ from p.waits])

theorem inspects (p : w.Polls v) : w.advance (w.visit v).run = w.inspect (w.visit v).run v := by
  unfold advance
  rw [show (w.run (w.visit v).run).phase = _ from p.waits]

/-- A poll that finds something ends the wait with it. -/
theorem ends (p : w.Polls v) (sound : Sound w .rest) (found : w.finding? v = some e) :
    Defers ((w.looked v).mark (.concluded v e)) (w.move (w.runOf v).host) := by
  have goes := (p.advances sound).1
  rw [p.inspects, inspect_eq rfl, found, Option.elim_some] at goes
  exact (Defers.tearDown ..).trans goes

/-- A poll that finds nothing ends no wait. -/
theorem defers (p : w.Polls v) (sound : Sound w .rest) (nothing : w.finding? v = none) :
    Defers w (w.move (w.runOf v).host) := by
  have goes := (p.advances sound).1
  rw [p.inspects, inspect_eq rfl, nothing, Option.elim_none] at goes
  exact (Defers.looked w v).trans goes

/-- A poll that finds nothing in a task that has ended goes on at once. -/
theorem move_eq (p : w.Polls v) (sound : Sound w .rest) (nothing : w.finding? v = none)
    (more : (w.visit v).finished ≠ []) : w.move (w.runOf v).host = w.looked v := by
  have goes := (p.advances sound).2
  rw [p.inspects, inspect_eq rfl, nothing, Option.elim_none] at goes
  exact goes (if_neg more)

/-- A poll that hears of a task that has not panicked goes on. -/
theorem look (p : w.Polls v) (sound : Sound w .rest) (free : (w.runOf v).cancelled = false)
    (news : (w.visit v).inbox = none) {rest : List TaskId}
    (next : (w.visit v).finished = t :: rest) (calm : (w.task t).fate ≠ some .panicked) :
    w.Heard v rest (w.move (w.runOf v).host) := by
  have nothing : w.finding? v = none := by simp [finding?, free, news, next, calm]
  have eyes : (w.visit v).finished ≠ [] := by simp [next]
  rw [p.move_eq sound nothing eyes]
  unfold looked
  rw [if_neg (by simp [free, news])]
  simp only [next]
  exact ⟨rfl, rfl, rfl, rfl, rfl, w.isHeld v, by simp [visit_modifyVisit]⟩

end World.Polls

namespace World.Heard

variable {rest : List TaskId}

theorem runOf (h : w.Heard v rest w') : w'.runOf v = w.runOf v := by
  obtain ⟨listening, visit⟩ := h.visit
  unfold World.runOf World.run
  rw [h.runs, visit]

theorem polls (h : w.Heard v rest w') (p : w.Polls v) : w'.Polls v :=
  ⟨by rw [h.running, h.runOf, p.turn], by rw [h.runOf, p.waits]⟩

theorem task (h : w.Heard v rest w') (t : TaskId) : w'.task t = w.task t := by
  unfold World.task
  rw [h.tasks]

theorem isHeld (h : w.Heard v rest w') : w'.isHeld v = w.isHeld v :=
  isHeld_congr h.tasks h.kept

theorem finished (h : w.Heard v rest w') : (w'.visit v).finished = rest := by
  obtain ⟨listening, visit⟩ := h.visit
  rw [visit]

theorem inbox (h : w.Heard v rest w') : (w'.visit v).inbox = (w.visit v).inbox := by
  obtain ⟨listening, visit⟩ := h.visit
  rw [visit]

theorem refl (w : World) (v : VisitId) : w.Heard v (w.visit v).finished w :=
  ⟨rfl, rfl, rfl, rfl, rfl, (w.visit v).listening, rfl⟩

theorem trans {w'' : World} {less : List TaskId} (h : w.Heard v rest w')
    (h' : w'.Heard v less w'') : w.Heard v less w'' := by
  obtain ⟨listening, visit⟩ := h.visit
  obtain ⟨listening', visit'⟩ := h'.visit
  refine ⟨h'.running.trans h.running, h'.tasks.trans h.tasks, h'.runs.trans h.runs,
    h'.kept.trans h.kept, h'.marks.trans h.marks, listening', ?_⟩
  rw [visit', visit]

theorem leaves (h : w.Heard v rest w') {e : Ending} (l : w.Leaves t r v e) : w'.Leaves t r v e := by
  have run : w'.run r = w.run r := congrArg (Table.get · r) h.runs
  exact ⟨by rw [h.running, l.turn], by rw [run, l.host], by rw [run, l.phase]⟩

end World.Heard

/-- A poll hears of all the tasks that have ended, one after the other, until one has panicked. -/
theorem Scenario.Reaches.hears {s : Scenario} (h : s.Reaches w) (p : w.Polls v)
    (free : (w.runOf v).cancelled = false) (news : (w.visit v).inbox = none)
    {calm rest : List TaskId} (finished : (w.visit v).finished = calm ++ rest)
    (returned : ∀ t ∈ calm, (w.task t).fate ≠ some .panicked) :
    s.Reaches (w.moves (w.runOf v).host calm.length) ∧
      w.Heard v rest (w.moves (w.runOf v).host calm.length) := by
  induction calm generalizing w with
  | nil => exact ⟨h, (show _ = rest from finished) ▸ .refl w v⟩
  | cons t calm ih =>
    have heard := p.look h.sound free news finished (returned t List.mem_cons_self)
    have next : s.Reaches (w.move (w.runOf v).host) := h.tail (.move p.turn)
    obtain ⟨reach, rest⟩ := ih next (heard.polls p) (by rw [heard.runOf, free])
      (by rw [heard.inbox, news]) heard.finished fun u hu => by
        rw [heard.task]
        exact returned u (List.mem_cons_of_mem _ hu)
    rw [heard.runOf] at reach rest
    exact ⟨reach, heard.trans rest⟩

/-! ### Visits that are left -/

/-- A visit that is left hears of a task in each move. -/
theorem World.Leaves.look (l : w.Leaves t r v e) (sound : Sound w .rest) {u : TaskId}
    {rest : List TaskId} (next : (w.visit v).finished = u :: rest) : w.Heard v rest (w.move t) := by
  have advance : (w.advance r).2 = .busy ∧ w.Heard v rest (w.advance r).1 := by
    have heard : w.Heard v rest (w.modifyVisit v fun x => { x with finished := rest }) :=
      ⟨rfl, rfl, rfl, rfl, rfl, (w.visit v).listening, by simp [World.visit_modifyVisit]⟩
    unfold World.advance World.drain
    simp only [l.phase, next]
    split
    · refine ⟨rfl, heard.running, heard.tasks, heard.runs, heard.kept, ?_, heard.visit⟩
      simp [World.trace, Entry.mark?, heard.marks]
    · exact ⟨rfl, heard⟩
  have goes := (sound.advances (r := r) (by simp [l.phase])).2 advance.1
  rw [l.host] at goes
  exact goes ▸ advance.2

/-- A visit is left in the move of its host that comes when it has heard of all of its tasks. -/
theorem Scenario.Reaches.leaves {s : Scenario} (h : s.Reaches w) (l : w.Leaves t r v e)
    (working : (w.visit v).working = []) :
    ∃ w', w.Heard v [] w' ∧
      (w'.leave r v e).1.marks <+: (w.moves t ((w.visit v).finished.length + 1)).marks := by
  obtain ⟨tasks, finished⟩ : ∃ tasks, tasks = (w.visit v).finished := ⟨_, rfl⟩
  rw [← finished]
  induction tasks generalizing w with
  | nil =>
    have leaves : w.advance r = w.leave r v e := by
      unfold World.advance World.drain
      simp only [l.phase, ← finished, working, if_true]
    have past := (h.sound.advances (r := r) (by simp [l.phase])).1.marks
    rw [leaves, l.host] at past
    exact ⟨w, finished ▸ .refl w v, past⟩
  | cons u rest ih =>
    have heard := l.look h.sound finished.symm
    obtain ⟨listening, visit⟩ := heard.visit
    have next : s.Reaches (w.move t) := h.tail (.move l.turn)
    obtain ⟨w', later, past⟩ := ih next (heard.leaves l) (by rw [visit, working])
      heard.finished.symm
    exact ⟨w', heard.trans later, past⟩

end

/-! ## Waits that are over -/

/-- Marks are only added. -/
theorem Beats.marks {x y : World × Stage} (b : Beats x y) (sound : Sound x.1 x.2) :
    ∃ news, y.1.marks = x.1.marks ++ news := by
  induction b with
  | refl => exact ⟨[], (List.append_nil _).symm⟩
  | tail before beat ih =>
    obtain ⟨news, marks⟩ := ih
    obtain ⟨news', marks'⟩ := Beat.marks beat (sound.beats before).toStaged
    exact ⟨news ++ news', by rw [marks', marks, List.append_assoc]⟩

namespace Scenario

/-- Every wait that is over, but for transient states, which do not wait, was polled when it
ended, and has ended with what the poll found. -/
theorem Reaches.polled {s : Scenario} {w : World} (h : s.Reaches w) {v : VisitId} {e : Ending}
    {before after : List Mark} (marks : w.marks = before ++ .concluded v e :: after)
    (going : (w.visit v).state.mode ≠ .transient) :
    ∃ w₀, s.Reaches w₀ ∧ Relation.ReflTransGen World.Next w₀ w ∧ w₀.marks = before ∧ w₀.Polls v ∧
      w₀.finding? v = some e := by
  induction h generalizing after with
  | refl =>
    have here : .concluded v e ∈ s.start.marks := by simp [marks]
    cases s.spares_start.silent _ here rfl
  | @tail u w reach next ih =>
    have reach : s.Reaches u := reach
    have o := reach.orderly
    have beats := Beats.next o.toSound next
    obtain ⟨news, grown⟩ := beats.marks o.toSound
    have here : .concluded v e ∈ w.marks := by simp [marks]
    -- There is one end of the wait, so it has its place among the marks.
    obtain ⟨counted, raced⟩ := Reaches.raced (reach.tail next)
    have once := (raced.judged v e before after marks).once e
    have unique {before' after' : List Mark}
        (marks' : w.marks = before' ++ .concluded v e :: after') : before = before' :=
      ((List.append_cons_inj_of_notMem (fun h => once (List.mem_append_left _ h))
        fun h => once (List.mem_append_right _ h)).1 (marks.symm.trans marks')).1
    by_cases old : .concluded v e ∈ u.marks
    · obtain ⟨before', after', marks'⟩ := List.append_of_mem old
      have same : (w.visit v).state = (u.visit v).state :=
        beats.lasting.state v (o.recorded.visit _ old v rfl)
      have marks'' : w.marks = before' ++ .concluded v e :: (after' ++ news) := by
        rw [show w.marks = _ from grown, marks', List.append_assoc, List.cons_append]
      cases unique marks''
      obtain ⟨w₀, reach₀, path, rest⟩ := ih marks' (same ▸ going)
      exact ⟨w₀, reach₀, path.tail next, rest⟩
    · obtain ⟨polls, rfl⟩ := next.polls o here old going
      cases found : u.finding? v with
      | none => exact absurd ((polls.defers o.toSound found).concluded v e here) old
      | some e' =>
        have ends := polls.ends o.toSound found
        have past := ends.concluded v e here
        rw [World.marks_mark, World.marks_looked, List.mem_append] at past
        cases List.mem_singleton.1 (past.resolve_left old)
        obtain ⟨rest, marks'⟩ := ends.marks
        rw [World.marks_mark, World.marks_looked, List.append_assoc] at marks'
        exact ⟨u, reach, .single next, (unique marks'.symm).symm, polls, found⟩

end Scenario

end Statechart
