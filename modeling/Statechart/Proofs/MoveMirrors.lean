import Statechart.Proofs.MoveBeats
import Statechart.Proofs.RunMirrors

/-!
# Moves in worlds that mirror each other

Tasks that correspond do the same in their turns, and end in the same way. A task that is kept from
the others is left out, and so is one that drives a run in a visit that is.

## Main statements

- `Mirrors.endTask`, `Mirrors.finish`, `Mirrors.dropTask`: tasks that correspond end alike.
- `Mirrors.move`: tasks that correspond move alike.
- `Mirrors.beginTurn`: their turns begin alike.
-/

namespace Statechart.Mirrors

variable {P : Pairing} {b b' w w' : World} {t t' : TaskId} {r r' : RunId} {v v' : VisitId}
  {i i' : InterpreterId}

/-- Tasks that correspond leave the queue. -/
theorem unqueue (h : Mirrors P b b' w w') (ht : P.task t t')
    (others : ∀ u, P.Lone u → u ∈ b.queue → u ≠ t) :
    Mirrors P b b' { w with queue := w.queue.erase t } { w' with queue := w'.queue.erase t' } :=
  h.requeue (forall₂_erase P.unique_task ht h.queue) fun u lone hu =>
    (List.mem_erase_of_ne (others u lone hu)).2 (h.ready u lone hu)

/-! ## The end of a task -/

/-- What a task has left to do, and what it waits for, is gone when it ends. -/
theorem bury (h : Mirrors P b b' w w') (ht : P.known t t') (fate : Fate) :
    Mirrors P b b' (w.bury t fate) (w'.bury t' fate) := by
  have running : Option.Rel P.task (if w.running = some t then none else w.running)
      (if w'.running = some t' then none else w'.running) := by
    simp only [← h.running_iff ht.1]
    split
    · exact .none
    · exact h.running
  have released := (h.turn running).unqueue ht.1 fun u lone _ same => lone t' (same ▸ ht)
  exact (released.modifyTask ht { released.task ht with
    job := .script [], wait := .none, guards := rfl, fate := rfl }).mark _ _

theorem withdraw (h : Mirrors P b b' w w') (ht : P.known t t') {home home' : Option VisitId}
    (hh : Option.Rel P.shared home home') :
    Mirrors P b b' (w.withdraw t home) (w'.withdraw t' home') := by
  cases hh with
  | none => exact h
  | some hv =>
    have row := h.visit hv
    have unique : Relator.BiUnique P.known :=
      ⟨fun _ _ _ h h' => P.unique_task.1 h.1 h'.1, fun _ _ _ h h' => P.unique_task.2 h.1 h'.1⟩
    exact h.modifyVisit hv { row with
      working := forall₂_erase unique ht row.working
      finished := List.rel_append row.finished (.cons ht .nil) }

theorem tellHome (h : Mirrors P b b' w w') {home home' : Option VisitId}
    (hh : Option.Rel P.shared home home') :
    Mirrors P b b' (w.tellHome home) (w'.tellHome home') := by
  cases hh with
  | none => exact h
  | some hv =>
    simp only [World.tellHome, (h.visit hv).closed]
    split
    · exact h
    · exact h.wake (h.hostOf hv.1)

theorem tellJoiner (h : Mirrors P b b' w w') {joiner joiner' : Option TaskId}
    (hj : Option.Rel P.task joiner joiner') :
    Mirrors P b b' (w.tellJoiner joiner) (w'.tellJoiner joiner') := by
  cases hj with
  | none => exact h
  | some ht => exact h.wake ht

/-- Tasks that correspond end alike. -/
theorem endTask (h : Mirrors P b b' w w') (ht : P.known t t') (fate : Fate) :
    Mirrors P b b' (w.endTask t fate) (w'.endTask t' fate) := by
  have row := h.task ht
  have held : List.Forall₂ P.shared
      ((w.task t).reach.callback.toList ++ ((w.task t).route.map (·.visit)).toList)
      ((w'.task t').reach.callback.toList ++ ((w'.task t').route.map (·.visit)).toList) := by
    refine List.rel_append (rel_toList row.reach.callback) (rel_toList ?_)
    have route := row.route
    generalize (w.task t).route = x, (w'.task t').route = x' at route
    cases route with
    | none => exact .none
    | some hr => exact .some hr.visit
  -- The guards are the same, and what is held corresponds.
  have dropped : Mirrors P b b'
      (if fate = .panicked ∨ fate = .dropped then w.logDrops (w.task t).guards else w)
      (if fate = .panicked ∨ fate = .dropped then w'.logDrops (w'.task t').guards else w') := by
    rw [row.guards]
    split
    · exact h.logDrops _
    · exact h
  rw [World.endTask_eq, World.endTask_eq]
  exact ((((dropped.bury ht fate).letGoAll held).withdraw ht row.home).tellHome
    row.home).tellJoiner row.joiner

theorem raiseOutcome (h : Mirrors P b b' w w') {x x' : Route} (route : x.Pairs P x')
    (failure : Option Fault) :
    Mirrors P b b' (w.raiseOutcome x failure) (w'.raiseOutcome x' failure) := by
  have row := h.visit route.visit
  cases failure with
  | none =>
    simp only [World.raiseOutcome, h.isCancelled route.visit.1, route.service]
    split
    · exact h
    · exact (h.raise route.visit _).world
  -- The failure is traced whether or not the token is cancelled.
  | some fault =>
    have traced := h.trace (.actionFailed (w.visit x.visit).state.id fault)
    simp only [World.raiseOutcome, row.state, route.service]
    rw [traced.isCancelled route.visit.1]
    split
    · exact traced
    · exact (traced.raise route.visit _).world

theorem finish (h : Mirrors P b b' w w') (ht : P.known t t') (failure : Option Fault) :
    Mirrors P b b' (w.finish t failure) (w'.finish t' failure) := by
  have route := (h.task ht).route
  unfold World.finish
  simp only
  refine endTask ?_ ht _
  generalize (w.task t).route = x, (w'.task t').route = x' at route
  cases route with
  | none => exact h
  | some hr => exact h.raiseOutcome hr failure

theorem dropTask (h : Mirrors P b b' w w') (ht : P.known t t')
    (unveiled : ∀ r, (w.task t).job.run? = some r → ¬ P.veiled r) :
    P.Grows fun Q => Mirrors Q b b' (w.dropTask t) (w'.dropTask t') := by
  have dropped {r r' : RunId} (hr : P.live r r') (here : (w.task t).job.run? = some r)
      (here' : (w'.task t').job.run? = some r') :
      P.Grows fun Q => Mirrors Q b b' (w.dropTask t) (w'.dropTask t') := by
    unfold World.dropTask
    rw [here, here']
    refine (h.dropRun hr (unveiled r here)).map fun Q le done => ?_
    simp only
    obtain ⟨w₁, w₁', panicked, hx, hx', h₁⟩ := done.exists_eq
    rw [hx, hx']
    cases panicked <;> exact endTask h₁ (le.known ht) _
  -- A task that drives no run just ends.
  have ended (here : (w.task t).job.run? = none) (here' : (w'.task t').job.run? = none) :
      P.Grows fun Q => Mirrors Q b b' (w.dropTask t) (w'.dropTask t') := by
    unfold World.dropTask
    rw [here, here']
    exact .pure (h.endTask ht _)
  have job := (h.task ht).job
  generalize (w.task t).job = j, (w'.task t').job = j' at job dropped ended
  cases job with
  | drive hr hh => exact dropped hr rfl rfl
  | script | nested | stopHook => exact ended rfl rfl
  | control steps hd =>
    cases hd with
    | running hr deadline => exact dropped hr rfl rfl
    | nothing | script | joining => exact ended rfl rfl

/-! ## Waiting -/

theorem isOver (h : Mirrors P b b' w w') {x x' : Wait} (hx : x.Pairs P x') :
    w'.isOver x' = w.isOver x := by
  cases hx with
  | time d => simp only [World.isOver, h.now]
  | token hk => simp only [World.isOver, h.isCancelled hk.visit]
  | timeOrToken d hk => simp only [World.isOver, h.now, h.isCancelled hk.visit]
  | turn => rfl
  | forever => rfl

theorem endWait (h : Mirrors P b b' w w') (ht : P.known t t') :
    Mirrors P b b' (w.endWait t) (w'.endWait t') := by
  have clear {w w' : World} (h : Mirrors P b b' w w') :
      Mirrors P b b' (w.modifyTask t fun x => { x with wait := none })
        (w'.modifyTask t' fun x => { x with wait := none }) :=
    h.modifyTask ht { h.task ht with wait := .none }
  have wait := (h.task ht).wait
  unfold World.endWait
  generalize (w.task t).wait = x, (w'.task t').wait = x' at wait
  cases wait with
  | none => exact clear h
  | some hx =>
    cases hx with
    | token hk => exact clear (h.deregister hk ht.1)
    | timeOrToken d hk => exact clear (h.deregister hk ht.1)
    | time | turn | forever => exact clear h

theorem beginWait (h : Mirrors P b b' w w') (ht : P.known t t') {x x' : Wait}
    (hx : x.Pairs P x') : Mirrors P b b' (w.beginWait t x) (w'.beginWait t' x') := by
  have set {w w' : World} (h : Mirrors P b b' w w') (turn : (x = .turn) ↔ (x' = .turn)) :
      Mirrors P b b'
        (w.modifyTask t fun y => { y with wait := some x, rewoken := y.rewoken || x = .turn })
        (w'.modifyTask t' fun y =>
          { y with wait := some x', rewoken := y.rewoken || x' = .turn }) := by
    have row := h.task ht
    refine h.modifyTask ht { row with wait := .some hx, rewoken := ?_ }
    simp only [row.rewoken, turn]
  unfold World.beginWait
  cases hx with
  | token hk => exact set (h.register hk ht.1) (by simp)
  | timeOrToken d hk => exact set (h.register hk ht.1) (by simp)
  | time | turn | forever => exact set h (by simp)

theorem waitAt (h : Mirrors P b b' w w') {x x' : Reach} (reach : x.Pairs P x') (p : Pause) :
    Option.Rel (Wait.Pairs P) (w.waitAt x p) (w'.waitAt x' p) := by
  have token := reach.token?
  -- Moments are the same on both sides, and tokens of visits that are shared are cancelled
  -- together.
  cases p with
  | sleep ms =>
    simp only [World.waitAt, h.now]
    split
    · exact .none
    · exact .some (.time _)
  | yield => exact .some .turn
  | untilCancelled =>
    simp only [World.waitAt]
    generalize x.token? = k, x'.token? = k' at token
    cases token with
    | none => exact .none
    | some hk =>
      simp only [h.isCancelled hk.visit]
      split
      · exact .none
      · exact .some (.token hk)
  | sleepUnlessCancelled ms =>
    simp only [World.waitAt, h.now]
    split
    · exact .none
    · generalize x.token? = k, x'.token? = k' at token
      cases token with
      | none => exact .some (.time _)
      | some hk =>
        simp only [h.isCancelled hk.visit]
        split
        · exact .none
        · exact .some (.timeOrToken _ hk)
  | forever => exact .some .forever

/-! ## Scripts -/

theorem stepInstr (h : Mirrors P b b' w w') (ht : P.known t t') (rest : Script) (i : Instr) :
    P.Grows fun Q => MirrorsWith Q b b' (w.stepInstr t rest i) (w'.stepInstr t' rest i) := by
  have row := h.task ht
  -- Every step finds the same values and counterparts of what it names.
  cases i with
  | act c => exact (h.perform row.reach c).map fun Q le h => ⟨h, rfl⟩
  | branch name comparison value yes no =>
    simp only [World.stepInstr, h.valueOf]
    exact .pure ⟨h, rfl⟩
  | loop times body => cases times <;> exact .pure ⟨h, rfl⟩
  | observe i o => exact (h.observe i o).map fun Q le h => ⟨h, rfl⟩
  | detach body => exact (h.detach row.reach body).map fun Q le h => ⟨h, rfl⟩
  | dropCallback =>
    have dropped := h.modifyTask ht
      (f := fun x => { x with reach := { x.reach with callback := none } })
      (g := fun x => { x with reach := { x.reach with callback := none } })
      { row with reach := ⟨.none, row.reach.action⟩ }
    exact .pure ⟨dropped.letGoAll (rel_toList row.reach.callback), rfl⟩
  | guard label =>
    exact .pure ⟨h.modifyTask ht { row with guards := congrArg (· ++ [label]) row.guards }, rfl⟩
  | panic => exact .pure ⟨h, rfl⟩
  | pause p =>
    have wait := h.waitAt row.reach p
    simp only [World.stepInstr]
    generalize World.waitAt _ _ _ = x at wait
    generalize World.waitAt _ _ _ = x' at wait
    cases wait with
    | none => exact .pure ⟨h, rfl⟩
    | some hx => exact .pure ⟨h.beginWait ht hx, rfl⟩
  | finish failure => exact .pure ⟨h, rfl⟩

theorem stepScript (h : Mirrors P b b' w w') (ht : P.known t t') (s : Script) :
    P.Grows fun Q => MirrorsWith Q b b' (w.stepScript t s) (w'.stepScript t' s) := by
  have wait := (h.task ht).wait
  unfold World.stepScript
  generalize (w.task t).wait = x, (w'.task t').wait = x' at wait
  cases wait with
  | none =>
    cases s with
    | nil => exact .pure ⟨h, rfl⟩
    | cons i rest => exact h.stepInstr ht rest i
  | some hx =>
    simp only [h.isOver hx]
    split
    · exact .pure ⟨h.endWait ht, rfl⟩
    · exact .pure ⟨h, rfl⟩

theorem setJob (h : Mirrors P b b' w w') (ht : P.known t t') {j j' : Job} (job : j.Pairs P j') :
    Mirrors P b b' (w.setJob t j) (w'.setJob t' j') :=
  h.modifyTask ht { h.task ht with job }

theorem moveScript (h : Mirrors P b b' w w') (ht : P.known t t') (s : Script) :
    P.Grows fun Q => Mirrors Q b b' (w.moveScript t s) (w'.moveScript t' s) := by
  refine (h.stepScript ht s).map fun Q le stepped => ?_
  have ht' := le.known ht
  unfold World.moveScript
  obtain ⟨w₁, w₁', progress, hx, hx', h₁⟩ := stepped.exists_eq
  rw [hx, hx']
  cases progress with
  | going rest => exact setJob h₁ ht' (.script rest)
  | waiting rest => exact (setJob h₁ ht' (.script rest)).park ht'.1
  | finished failure => exact finish h₁ ht' _
  | panicked => exact endTask h₁ ht' _

/-! ## Nested machines -/

/-- A nested machine has a new interpreter and a new task that stops it, which correspond. -/
theorem withNested (h : Mirrors P b b' w w')
    (action : Option.Rel P.visit ((w.task t).route.map Route.visit)
      ((w'.task t').route.map Route.visit)) (machine : Machine) :
    P.Grows fun Q => Q.interpreter w.interpreters.size w'.interpreters.size ∧
      Q.known w.tasks.size w'.tasks.size ∧
      Mirrors Q b b' (w.withNested t machine) (w'.withNested t' machine) := by
  refine (h.pushInterpreter (x := { machine }) (y := { machine })
    { machine := rfl, slot := .none, status := rfl, history := rfl, changeHandlers := rfl
      doneHandlers := rfl, handle := .inl .none }).bind fun Q le new => ?_
  obtain ⟨hi, pushed⟩ := new
  refine (pushed.spawn
    (x := { job := .stopHook w.interpreters.size,
            reach := { action := (w.task t).route.map Route.visit } })
    (y := { job := .stopHook w'.interpreters.size,
             reach := { action := (w'.task t').route.map Route.visit } })
    { fate := rfl, aborted := rfl, rewoken := rfl, guards := rfl, job := .stopHook hi
      reach := ⟨.none, rel_mono action le.visit⟩, home := .none, route := .none, wait := .none
      joiner := .none }).map fun Q' le' new' => ?_
  exact ⟨le'.interpreter hi, new'.1, new'.2⟩

/-- Whether a run can begin, and how the worlds are left if it does. -/
theorem begin (h : Mirrors P b b' w w') (hi : P.interpreter i i') (ht : P.task t t') :
    (∃ e, w.begin i t = .error e ∧ w'.begin i' t' = .error e) ∨
    ∃ w₁ w₁', w.begin i t = .ok (w₁, w.runs.size) ∧ w'.begin i' t' = .ok (w₁', w'.runs.size) ∧
      P.Grows fun Q => Q.live w.runs.size w'.runs.size ∧ Mirrors Q b b' w₁ w₁' := by
  simp only [World.begin, h.startState hi]
  cases (w.interpreter i).startState with
  | error e => exact .inl ⟨e, rfl, rfl⟩
  | ok s => exact .inr ⟨_, _, rfl, rfl, h.takeSlot hi ht s⟩

theorem beginNested (h : Mirrors P b b' w w') (ht : P.known t t') (machine : Machine) :
    P.Grows fun Q => Mirrors Q b b' (w.beginNested t machine) (w'.beginNested t' machine) := by
  have action : Option.Rel P.visit ((w.task t).route.map Route.visit)
      ((w'.task t').route.map Route.visit) := by
    have route := (h.task ht).route
    generalize (w.task t).route = x, (w'.task t').route = x' at route
    cases route with
    | none => exact .none
    | some hr => exact .some hr.visit.1
  refine (h.withNested action machine).bind fun Q le new => ?_
  obtain ⟨hi, hook, nested⟩ := new
  have ht' := le.known ht
  rw [World.beginNested_eq, World.beginNested_eq]
  -- The new interpreters correspond, so both runs begin or neither does.
  rcases nested.begin hi ht'.1 with ⟨e, begun, begun'⟩ | ⟨w₁, w₁', begun, begun', grown⟩
  · rw [begun, begun']
    exact .pure ((nested.abort hook).finish ht' _)
  · rw [begun, begun']
    refine grown.map fun Q' le' new' => ?_
    exact new'.2.setJob (le'.known ht') (.drive new'.1 (.some (le'.known hook)))

theorem moveDrive (h : Mirrors P b b' w w') (ht : P.known t t') (hr : P.live r r')
    (unveiled : ¬ P.veiled r) {hook hook' : Option TaskId} (hh : Option.Rel P.known hook hook') :
    P.Grows fun Q => Mirrors Q b b' (w.moveDrive t r hook) (w'.moveDrive t' r' hook') := by
  refine (h.advance hr unveiled).map fun Q le advanced => ?_
  have ht' := le.known ht
  simp only [World.moveDrive, h.machineOf hr.1]
  obtain ⟨w₁, w₁', signal, hx, hx', h₁⟩ := advanced.exists_eq
  rw [hx, hx']
  cases signal with
  | busy => exact h₁
  | parked => exact Mirrors.park h₁ ht'.1
  | panicked => exact endTask h₁ ht' _
  | returned result =>
    cases hh with
    | none => exact endTask h₁ ht' _
    | some hook => exact (Mirrors.abort h₁ (le.known hook)).finish ht' _

theorem moveStopHook (h : Mirrors P b b' w w') (ht : P.known t t') (hi : P.interpreter i i') :
    Mirrors P b b' (w.moveStopHook t i) (w'.moveStopHook t' i') := by
  have row := h.task ht
  have wait := h.waitAt row.reach .untilCancelled
  simp only [World.moveStopHook, rel_isSome row.wait, (h.interpreter hi).machine]
  generalize World.waitAt _ _ _ = x at wait
  generalize World.waitAt _ _ _ = x' at wait
  cases wait with
  | none => exact (((h.trace _).forceStop hi).endWait ht).finish ht none
  | some hx =>
    dsimp only
    split
    · exact h.park ht.1
    · exact (h.beginWait ht hx).park ht.1

/-! ## The controller -/

theorem report (h : Mirrors P b b' w w') (strict : P.Strict) (reports reports' : Array Report) :
    Mirrors P b b' { w with reports } { w' with reports := reports' } :=
  { h with
    reports := .inl strict
    left := h.left.of_eq rfl rfl
    right := h.right.of_eq rfl rfl }

theorem answer (h : Mirrors P b b' w w') (ht : P.known t t') (strict : P.Strict)
    (steps : List Step) (a a' : Answer) :
    Mirrors P b b' (w.answer t steps a) (w'.answer t' steps a') :=
  ((h.report strict _ _).endWait ht).setJob ht (.control steps .nothing strict)

theorem handle (h : Mirrors P b b' w w') (hi : P.interpreter i i') (strict : P.Strict) :
    Option.Rel P.known (w.interpreter i).handle (w'.interpreter i').handle := by
  rcases (h.interpreter hi).handle with ties | ⟨stale, stale'⟩
  · exact ties
  · cases hx : (w.interpreter i).handle with
    | some t => exact absurd (stale t hx) (strict.left t)
    | none =>
      cases hx' : (w'.interpreter i').handle with
      | some t => exact absurd (stale' t hx') (strict.right t)
      | none => exact .none

theorem beginNamed (h : Mirrors P b b' w w') (ht : P.known t t') (strict : P.Strict)
    (rest : List Step) (hi : P.interpreter i i') (step : Step) :
    P.Grows fun Q => Mirrors Q b b' (w.beginNamed t rest i step)
      (w'.beginNamed t' rest i' step) := by
  -- Both interpreters fail for the same reason, or succeed and go on alike.
  cases step with
  | run n ms =>
    unfold World.beginNamed
    rcases h.begin hi ht.1 with ⟨e, begun, begun'⟩ | ⟨w₁, w₁', begun, begun', grown⟩
    · rw [begun, begun']
      exact .pure (h.answer ht strict rest _ _)
    · rw [begun, begun']
      refine grown.map fun Q le new => ?_
      have now : w₁'.now = w₁.now := new.2.now
      simp only [now]
      exact new.2.setJob (le.known ht) (.control rest (.running new.1 _) (le.strict strict))
  | start n =>
    unfold World.beginNamed
    rcases h.startInBackground hi with ⟨e, started, started'⟩ |
      ⟨w₁, w₁', started, started', grown⟩
    · rw [started, started']
      exact .pure (h.answer ht strict rest _ _)
    · rw [started, started']
      refine grown.map fun Q le h₁ => ?_
      exact h₁.answer (le.known ht) (le.strict strict) rest _ _
  | join n ms =>
    have handle := h.handle hi strict
    have taken := h.modifyInterpreter hi (f := fun x => { x with handle := none })
      (g := fun x => { x with handle := none }) { h.interpreter hi with handle := .inl .none }
    simp only [World.beginNamed, h.now]
    generalize (w.interpreter i).handle = x, (w'.interpreter i').handle = x' at handle
    cases handle with
    | none => exact .pure (h.answer ht strict rest _ _)
    | some hu => exact .pure (taken.setJob ht (.control rest (.joining hi hu _) strict))
  | abort n =>
    have handle := h.handle hi strict
    simp only [World.beginNamed]
    generalize (w.interpreter i).handle = x, (w'.interpreter i').handle = x' at handle
    cases handle with
    | none => exact .pure (h.answer ht strict rest _ _)
    | some hu => exact .pure ((h.abort hu).answer ht strict rest _ _)
  | history | debug | validate | machineDebug =>
    exact .pure (h.answer ht strict rest _ _)
  | script instr => exact .pure (h.setJob ht (.control rest (.script _) strict))

theorem beginStep (h : Mirrors P b b' w w') (ht : P.known t t') (strict : P.Strict)
    (rest : List Step) (step : Step) :
    P.Grows fun Q => Mirrors Q b b' (w.beginStep t rest step) (w'.beginStep t' rest step) := by
  cases target : World.stepTarget step with
  | none =>
    cases step with
    | script instr => exact .pure (h.setJob ht (.control rest (.script _) strict))
    | run | start | join | abort | history | debug | validate | machineDebug => cases target
  | some n =>
    simp only [World.beginStep, World.named?, h.named, target]
    split
    · next i named =>
      split at named
      · next known =>
        obtain rfl := Option.some.inj named
        exact h.beginNamed ht strict rest (h.names n known) step
      · cases named
    · exact .pure (h.answer ht strict rest _ _)

theorem parkUntil (h : Mirrors P b b' w w') (ht : P.known t t') (deadline : Nat) :
    Mirrors P b b' (w.parkUntil t deadline) (w'.parkUntil t' deadline) :=
  (h.modifyTask ht { h.task ht with wait := .some (.time deadline) }).park ht.1

/-- Controllers that correspond drop the runs that they wait for alike. -/
theorem giveUp (h : Mirrors P b b' w w') (ht : P.known t t') (strict : P.Strict)
    (rest : List Step) (hr : P.live r r') (unveiled : ¬ P.veiled r) :
    P.Grows fun Q => Mirrors Q b b' (w.giveUp t rest r) (w'.giveUp t' rest r') := by
  refine (h.dropRun hr unveiled).map fun Q le done => ?_
  unfold World.giveUp
  obtain ⟨w₁, w₁', panicked, hx, hx', h₁⟩ := done.exists_eq
  rw [hx, hx']
  cases panicked with
  | true => exact Mirrors.endTask h₁ (le.known ht) _
  | false => exact Mirrors.answer h₁ (le.known ht) (le.strict strict) rest _ _

theorem moveRunning (h : Mirrors P b b' w w') (ht : P.known t t') (strict : P.Strict)
    (rest : List Step) (hr : P.live r r') (unveiled : ¬ P.veiled r) (deadline : Nat) :
    P.Grows fun Q => Mirrors Q b b' (w.moveRunning t rest r deadline)
      (w'.moveRunning t' rest r' deadline) := by
  refine (h.advance hr unveiled).bind fun Q le advanced => ?_
  have ht := le.known ht
  have strict := le.strict strict
  unfold World.moveRunning
  obtain ⟨w₁, w₁', signal, hx, hx', h₁⟩ := advanced.exists_eq
  rw [hx, hx']
  cases signal with
  | busy => exact .pure h₁
  | returned result => exact .pure (Mirrors.answer h₁ ht strict rest _ _)
  | panicked => exact .pure (Mirrors.answer h₁ ht strict rest _ _)
  | parked =>
    have now : w₁'.now = w₁.now := h₁.now
    -- Time is the same in both worlds, so it is up in both or in neither.
    simp only [now]
    split
    · exact .pure (Mirrors.parkUntil h₁ ht deadline)
    · exact Mirrors.giveUp h₁ ht strict rest (le.live hr) (by rwa [le.veiled])

theorem moveJoining (h : Mirrors P b b' w w') (ht : P.known t t') (strict : P.Strict)
    (rest : List Step) (hi : P.interpreter i i') {u u' : TaskId} (hu : P.known u u')
    (deadline : Nat) :
    Mirrors P b b' (w.moveJoining t rest i u deadline)
      (w'.moveJoining t' rest i' u' deadline) := by
  have joined := h.modifyTask hu (f := fun x => { x with joiner := some t })
    (g := fun x => { x with joiner := some t' }) { h.task hu with joiner := .some ht.1 }
  have now : (w'.modifyTask u' fun x => { x with joiner := some t' }).now =
      (w.modifyTask u fun x => { x with joiner := some t }).now := h.now
  simp only [World.moveJoining, (h.like hu.1).fate, now]
  split
  · exact h.answer ht strict rest _ _
  · split
    · exact joined.parkUntil ht deadline
    · exact (joined.setHandle hi hu).answer ht strict rest _ _

theorem moveControlScript (h : Mirrors P b b' w w') (ht : P.known t t') (strict : P.Strict)
    (steps : List Step) (s : Script) :
    P.Grows fun Q => Mirrors Q b b' (w.moveControlScript t steps s)
      (w'.moveControlScript t' steps s) := by
  refine (h.stepScript ht s).map fun Q le stepped => ?_
  have ht := le.known ht
  have strict := le.strict strict
  unfold World.moveControlScript
  obtain ⟨w₁, w₁', progress, hx, hx', h₁⟩ := stepped.exists_eq
  rw [hx, hx']
  cases progress with
  | going rest => exact Mirrors.setJob h₁ ht (.control steps (.script rest) strict)
  | waiting rest => exact (Mirrors.setJob h₁ ht (.control steps (.script rest) strict)).park ht.1
  | finished failure =>
    have row := Mirrors.task h₁ ht
    exact (Mirrors.modifyTask h₁ ht { row with guards := rfl }).answer ht strict steps _ _
  | panicked => exact Mirrors.endTask h₁ ht _

theorem moveControl (h : Mirrors P b b' w w') (ht : P.known t t') (strict : P.Strict)
    (steps : List Step) {d d' : Doing} (hd : d.Pairs P d')
    (unveiled : ∀ r, (Job.control steps d).run? = some r → ¬ P.veiled r) :
    P.Grows fun Q => Mirrors Q b b' (w.moveControl t steps d) (w'.moveControl t' steps d') := by
  cases hd with
  | nothing =>
    cases steps with
    | nil => exact .pure (h.endTask ht _)
    | cons step rest => exact h.beginStep ht strict rest step
  | script s => exact h.moveControlScript ht strict steps s
  | running hr deadline => exact h.moveRunning ht strict steps hr (unveiled _ rfl) deadline
  | joining hi hu deadline => exact .pure (h.moveJoining ht strict steps hi hu deadline)

/-! ## Moves of the world -/

/-- Tasks that correspond move alike. -/
theorem move (h : Mirrors P b b' w w') (ht : P.known t t')
    (unveiled : ∀ r, (w.task t).job.run? = some r → ¬ P.veiled r) :
    P.Grows fun Q => Mirrors Q b b' (w.move t) (w'.move t') := by
  have job := (h.task ht).job
  unfold World.move
  generalize (w.task t).job = j, (w'.task t').job = j' at job unveiled
  cases job with
  | script s => exact h.moveScript ht s
  | nested machine => exact h.beginNested ht machine
  | drive hr hh => exact h.moveDrive ht hr (unveiled _ rfl) hh
  | stopHook hi => exact .pure (h.moveStopHook ht hi)
  | control steps hd strict => exact h.moveControl ht strict steps hd unveiled

/-- The turns of tasks that correspond begin alike. -/
theorem beginTurn (h : Mirrors P b b' w w') (ht : P.task t t')
    (others : ∀ u, P.Lone u → u ∈ b.queue → u ≠ t)
    (aborted : (w.task t).aborted = true → P.known t t' ∧
      ∀ r, (w.task t).job.run? = some r → ¬ P.veiled r) :
    P.Grows fun Q => Mirrors Q b b' (w.beginTurn t) (w'.beginTurn t') := by
  have unqueued := h.unqueue ht others
  have same : ({ w' with queue := w'.queue.erase t' }.task t').aborted =
      ({ w with queue := w.queue.erase t }.task t).aborted := (h.like ht).aborted
  simp only [World.beginTurn, same]
  split
  · next gone =>
    obtain ⟨known, unveiled⟩ := aborted gone
    exact unqueued.dropTask known unveiled
  · exact .pure ((unqueued.mark _ _).turn (.some ht))

end Statechart.Mirrors
