import Statechart.Proofs.RunBeats

/-!
# Moves in beats

The turns of all tasks, and whatever else may happen between turns, taken apart into beats. What
every beat keeps, every world that a scenario comes to has.

## Main definitions

- `World.OnTurn`: a task has the turn and drives no run.
- `Scenario.opening`: the world before anything has happened.

## Main statements

- `Beats.next`: a move of a world under any schedule is a number of beats.
- `Scenario.Reaches.sound`: the worlds that a scenario comes to are sound.
- `Scenario.Reaches.invariant`: an invariant of beats holds in them.
-/

namespace Statechart

/-! ## Tasks on turn -/

theorem Stir.akin {σ : Stage} {w w' : World} (h : Stir σ w w') {t : TaskId}
    (alive : (w.task t).isAlive = true) : (w.task t).Akin (w'.task t) := by
  have old := Nat.ne_of_lt (World.lt_size_of_isAlive alive)
  rcases h.hushed with still | ⟨x, -, rfl⟩ | ⟨i, s, -, rfl⟩
  · exact still.task t
  · simp [World.spawn, old]
    rfl
  · simp [World.startNew, World.spawn, World.takeSlot, World.modifyInterpreter, World.mark,
      World.log, old]
    rfl

theorem Stirs.akin {σ : Stage} {w w' : World} (h : Stirs σ w w') {t : TaskId}
    (alive : (w.task t).isAlive = true) : (w.task t).Akin (w'.task t) := by
  induction h with
  | refl => exact .refl _
  | tail _ stir ih => exact ih.trans (stir.akin (ih.isAlive.trans alive))

/-- A task has the turn, and drives no run. -/
structure World.OnTurn (w : World) (t : TaskId) : Prop where
  turn : w.running = some t
  alive : (w.task t).isAlive = true
  free : (w.task t).job.run? = none

theorem World.OnTurn.stirs {σ : Stage} {w w' : World} {t : TaskId} (h : w.OnTurn t)
    (s : Stirs σ w w') : w'.OnTurn t where
  turn := s.running.trans h.turn
  alive := (s.akin h.alive).isAlive.trans h.alive
  free := (s.akin h.alive).run?.trans h.free

theorem Stride.running {t : TaskId} {r : RunId} {w w' : World} {σ σ' : Stage}
    (h : Stride t r (w, σ) (w', σ')) : w'.running = w.running := by
  rcases h.calm with calm | ⟨v, k, x, -, -, rfl, -⟩
  · exact calm.running
  · rfl

namespace Paces

variable {t : TaskId} {r : RunId} {w w' : World} {σ σ' : Stage}

theorem beats {x y : World × Stage} (h : Paces t r x y) : Beats x y := by
  induction h with
  | refl => exact .refl
  | tail _ pace ih =>
    cases pace with
    | stir stir => exact ih.tail (.stir stir)
    | stride stride => exact ih.tail (.stride stride)

theorem running {x y : World × Stage} (h : Paces t r x y) : y.1.running = x.1.running := by
  induction h with
  | refl => rfl
  | tail _ pace ih =>
    cases pace with
    | stir stir => exact stir.running.trans ih
    | stride stride => exact stride.running.trans ih

end Paces

/-! ## The end of a task -/

namespace World

/-- The host of a visit's run hears that a task of the visit has ended. -/
def tellHome (w : World) : Option VisitId → World
  | some v => if (w.visit v).closed then w else w.wake (w.runOf v).host
  | none => w

/-- The task that waits for one that has ended hears of it. -/
def tellJoiner (w : World) : Option TaskId → World
  | some t => w.wake t
  | none => w

/-- A nested machine has an interpreter of its own, and a task that stops it. -/
def withNested (w : World) (t : TaskId) (machine : Machine) : World :=
  { w with interpreters := w.interpreters.push { machine } }.spawn
    { job := .stopHook w.interpreters.size,
      reach := { action := (w.task t).route.map Route.visit } }

theorem beginNested_eq (w : World) (t : TaskId) (machine : Machine) :
    w.beginNested t machine = match (w.withNested t machine).begin w.interpreters.size t with
      | .ok (w', r) => w'.setJob t (.drive r (some w.tasks.size))
      | .error e => ((w.withNested t machine).abort w.tasks.size).finish t (some (.run e)) := rfl

/-- A task that ends lets its guards drop if it did not return, and gives up what it holds; its
visit, the host of the visit's run, and whoever waits for it hear of that in turn. -/
theorem endTask_eq (w : World) (t : TaskId) (fate : Fate) :
    w.endTask t fate = ((((((if fate = .panicked ∨ fate = .dropped
      then w.logDrops (w.task t).guards else w).bury t fate).letGoAll
        ((w.task t).reach.callback.toList ++ ((w.task t).route.map (·.visit)).toList)).withdraw t
          (w.task t).home).tellHome (w.task t).home).tellJoiner (w.task t).joiner) := by
  simp only [endTask, withdraw, tellHome, tellJoiner]
  cases (w.task t).home <;> cases (w.task t).joiner <;> rfl

end World

theorem Stirs.tellHome (w : World) (home : Option VisitId) : Stirs .rest w (w.tellHome home) := by
  unfold World.tellHome
  split
  · split
    · exact .refl
    · exact Stirs.chore rfl (.wake _)
  · exact .refl

theorem Stirs.tellJoiner (w : World) (joiner : Option TaskId) :
    Stirs .rest w (w.tellJoiner joiner) := by
  cases joiner with
  | none => exact .refl
  | some t => exact Stirs.chore rfl (.wake t)

namespace Stirs

variable {t : TaskId} {w w' : World} {σ : Stage}

/-! ## Waiting -/

theorem endWait (eyes : σ.isIdle = false) (w : World) (t : TaskId) :
    Stirs σ w (w.endWait t) := by
  simp only [World.endWait]
  apply Relation.ReflTransGen.trans ?_ (modifyTask eyes ⟨rfl, rfl, rfl, id, fun _ => id⟩)
  split
  · next token _ =>
    cases token <;> exact chore eyes (.visit _ _ ⟨rfl, rfl, rfl, rfl, rfl⟩ rfl rfl rfl)
  · next token _ =>
    cases token <;> exact chore eyes (.visit _ _ ⟨rfl, rfl, rfl, rfl, rfl⟩ rfl rfl rfl)
  · exact .refl

theorem beginWait (eyes : σ.isIdle = false) (w : World) (t : TaskId) (wait : Wait) :
    Stirs σ w (w.beginWait t wait) := by
  simp only [World.beginWait]
  apply Relation.ReflTransGen.trans ?_ (modifyTask eyes ⟨rfl, rfl, rfl, id, fun _ => id⟩)
  split
  · next token =>
    cases token <;> exact chore eyes (.visit _ _ ⟨rfl, rfl, rfl, rfl, rfl⟩ rfl rfl rfl)
  · next token =>
    cases token <;> exact chore eyes (.visit _ _ ⟨rfl, rfl, rfl, rfl, rfl⟩ rfl rfl rfl)
  · exact .refl

/-! ## Scripts of tasks -/

/-- A task that is alive can use the callback that it holds. -/
theorem usable (alive : (w.task t).isAlive = true) {v : VisitId}
    (holds : (w.task t).reach.callback = some v ∨ (w.task t).route.any (·.visit = v) = true) :
    w.Usable σ v := by
  refine .inl ?_
  have old : t < w.tasks.rows.size := World.lt_size_of_isAlive alive
  simp only [World.isHeld, Bool.or_eq_true, List.any_eq_true]
  refine .inl ⟨w.task t, ?_, ?_⟩
  · simp [World.task, Table.get, Table.toList, Array.getD, old]
  · simpa [Task.holds, alive] using holds

theorem raiseOutcome (eyes : σ.isIdle = false) (alive : (w.task t).isAlive = true)
    {route : Route} (routed : (w.task t).route = some route) (failure : Option Fault) :
    Stirs σ w (w.raiseOutcome route failure) := by
  have use : w.Usable σ route.visit := usable alive (.inr (by simp [routed]))
  unfold World.raiseOutcome
  simp only
  split
  · split
    · exact .refl
    · exact raise eyes w _ _ use
  · next fault =>
    have noted := log eyes w (.trace (.actionFailed (w.visit route.visit).state.id fault)) rfl
    split
    · exact noted
    · exact noted.trans (raise eyes _ _ _ use)

theorem stepInstr (turn : w.OnTurn t) (rest : Script) (i : Instr) :
    Stirs .rest w (w.stepInstr t rest i).1 := by
  have use : ∀ v, (w.task t).reach.callback = some v → w.Usable .rest v :=
    fun v hv => usable turn.alive (.inl hv)
  cases i with
  | act c => exact perform rfl w _ _ use
  | loop times body => cases times <;> exact .refl
  | observe i o => exact observe rfl w _ _
  | detach body => exact detach w _ _ use
  | dropCallback =>
    -- Whatever the task still holds it held before.
    refine (modifyTask rfl ⟨rfl, rfl, rfl, id, fun v hv => ?_⟩).trans (letGoAll rfl _ _)
    simp only [Task.holds, Bool.and_eq_true, Bool.or_eq_true, decide_eq_true_eq, reduceCtorEq,
      false_or] at hv ⊢
    exact ⟨hv.1, .inr hv.2⟩
  | guard label => exact modifyTask rfl ⟨rfl, rfl, rfl, id, fun _ => id⟩
  | pause p =>
    simp only [World.stepInstr]
    split
    · exact beginWait rfl ..
    · exact .refl
  | branch | panic | finish => exact .refl

theorem stepScript (turn : w.OnTurn t) (s : Script) : Stirs .rest w (w.stepScript t s).1 := by
  unfold World.stepScript
  split
  · split
    · exact endWait rfl ..
    · exact .refl
  · split
    · exact .refl
    · exact stepInstr turn ..

/-- A task that drives no run turns to another job. -/
theorem setJob (turn : w.OnTurn t) (job : Job) (ease : job.run? = none) :
    Stirs .rest w (w.setJob t job) :=
  modifyTask rfl ⟨ease.trans turn.free.symm, rfl, rfl, id, fun _ => id⟩

end Stirs

/-- Between moves, a run that a task drives goes on. -/
theorem Sound.going {w : World} {t : TaskId} {r : RunId} (h : Sound w .rest)
    (alive : (w.task t).isAlive = true) (job : (w.task t).job.run? = some r) :
    (w.run r).phase ≠ .ended := by
  obtain ⟨-, going | busy⟩ := h.driver t r alive job
  · exact going
  · cases busy

namespace Beats

variable {t : TaskId} {w w' : World} {σ σ' : Stage}

/-- A task that has no run to drive any more ends. -/
theorem endTask {fate : Fate} (alive : (w.task t).isAlive = true) (eyes : σ.isIdle = false)
    (ease : σ = .rest ∧ (w.task t).job.run? = none ∨ ∃ r, σ = .busy t r .finished)
    (late : w.running ≠ some t → fate = .dropped ∨ fate = .panicked) :
    Beats (w, σ) (w.endTask t fate, .rest) := by
  obtain ⟨w₀, hw₀⟩ : ∃ w₀, w₀ = if fate = .panicked ∨ fate = .dropped
    then w.logDrops (w.task t).guards else w := ⟨_, rfl⟩
  have dropped : Stirs σ w w₀ := by
    rw [hw₀]
    split
    · exact Stirs.logDrops eyes ..
    · exact .refl
  have akin := dropped.akin alive
  obtain ⟨w₁, hw₁⟩ : ∃ w₁, w₁ = (w₀.bury t fate).letGoAll
    ((w.task t).reach.callback.toList ++ ((w.task t).route.map (·.visit)).toList) := ⟨_, rfl⟩
  -- The task retires once it has shown its guards; whoever hears of it does so between turns.
  have retired : Shift (w₀, σ) (w₁.withdraw t (w.task t).home) := by
    rw [← akin.home, hw₁]
    refine .retire (akin.isAlive.trans alive) (ease.imp (.imp_right fun free => ?_) id)
      (fun turn => late ?_) (Chore.letGoAll ..)
    · exact akin.run?.trans free
    · rwa [← dropped.running]
  have gone : Beats (w, σ) (w₁.withdraw t (w.task t).home, .rest) :=
    dropped.beats.tail (.shift retired)
  have told : Stirs .rest (w₁.withdraw t (w.task t).home)
      (((w₁.withdraw t (w.task t).home).tellHome (w.task t).home).tellJoiner
        (w.task t).joiner) := (Stirs.tellHome ..).trans (Stirs.tellJoiner ..)
  rw [World.endTask_eq, ← hw₀, ← hw₁]
  exact gone.trans told.beats

theorem finish (alive : (w.task t).isAlive = true) (eyes : σ.isIdle = false)
    (ease : σ = .rest ∧ (w.task t).job.run? = none ∨ ∃ r, σ = .busy t r .finished)
    (turn : w.running = some t) (failure : Option Fault) :
    Beats (w, σ) (w.finish t failure, .rest) := by
  obtain ⟨w₁, hw₁, raised⟩ : ∃ w₁, w.finish t failure = w₁.endTask t .returned ∧
      Stirs σ w w₁ := by
    refine ⟨_, rfl, ?_⟩
    split
    · next route routed => exact Stirs.raiseOutcome eyes alive routed failure
    · exact .refl
  have akin := raised.akin alive
  rw [hw₁]
  refine raised.beats.trans (endTask (akin.isAlive.trans alive) eyes ?_ fun h => ?_)
  · exact ease.imp (.imp_right akin.run?.trans) id
  · exact absurd (raised.running.trans turn) h

/-! ## Scripts of tasks -/

theorem park (turn : w.OnTurn t) : Beats (w, .rest) (w.park t, .rest) :=
  .single (.shift (.park turn.turn (.inl ⟨rfl, turn.free⟩)))

theorem moveScript (turn : w.OnTurn t) (s : Script) :
    Beats (w, .rest) (w.moveScript t s, .rest) := by
  have stepped := Stirs.stepScript turn s
  unfold World.moveScript
  split
  · next w₁ rest h =>
    rw [h] at stepped
    exact stepped.beats.trans (Stirs.setJob (turn.stirs stepped) _ rfl).beats
  · next w₁ rest h =>
    rw [h] at stepped
    have set := Stirs.setJob (turn.stirs stepped) (.script rest) rfl
    exact (stepped.beats.trans set.beats).trans (park ((turn.stirs stepped).stirs set))
  · next w₁ failure h =>
    rw [h] at stepped
    have turn' := turn.stirs stepped
    exact stepped.beats.trans (finish turn'.alive rfl (.inl ⟨rfl, turn'.free⟩) turn'.turn _)
  · next w₁ h =>
    rw [h] at stepped
    have turn' := turn.stirs stepped
    exact stepped.beats.trans (endTask turn'.alive rfl (.inl ⟨rfl, turn'.free⟩)
      fun _ => .inr rfl)

/-! ## Nested machines -/

theorem beginNested (turn : w.OnTurn t) (machine : Machine) :
    Beats (w, .rest) (w.beginNested t machine, .rest) := by
  obtain ⟨w₁, hw₁⟩ : ∃ w₁, w₁ = w.withNested t machine := ⟨_, rfl⟩
  -- The new interpreter and the task that stops it are there first.
  have hooked : Stirs .rest w w₁ := by
    rw [hw₁]
    refine (Stirs.chore rfl (.found machine)).tail (.spawn _ ⟨rfl, rfl, rfl, rfl⟩ fun v holds => ?_)
    simp [Task.holds] at holds
  have turn' := turn.stirs hooked
  rw [World.beginNested_eq, ← hw₁]
  split
  · next w₂ r begun =>
    obtain ⟨s, free, first, rfl, rfl⟩ := World.begin_ok begun
    exact hooked.beats.tail (.shift (.begin _ s turn'.turn turn'.free free rfl first))
  · next e begun =>
    have aborted := Stirs.chore (σ := .rest) rfl (.abort (w := w₁) w.tasks.size)
    have turn'' := turn'.stirs aborted
    exact (hooked.beats.trans aborted.beats).trans
      (finish turn''.alive rfl (.inl ⟨rfl, turn''.free⟩) turn''.turn _)

/-- What a host does once its run has moved. -/
theorem drove {r : RunId} (sound : Sound (w.advance r).1 ((w.advance r).2.stage t r))
    (turn : (w.advance r).1.running = some t) (hook : Option TaskId) :
    Beats ((w.advance r).1, (w.advance r).2.stage t r) (w.moveDrive t r hook, .rest) := by
  unfold World.moveDrive
  simp only
  split
  · next w₁ h =>
    rw [h]
    exact .refl
  · next w₁ h =>
    rw [h] at turn ⊢
    exact .single (.shift (.park turn (.inr ⟨r, rfl⟩)))
  · next w₁ h =>
    rw [h] at sound ⊢
    exact endTask (sound.busy t r _ rfl).alive rfl (.inr ⟨r, rfl⟩) fun _ => .inr rfl
  · next w₁ result h =>
    rw [h] at sound turn ⊢
    have alive := (sound.busy t r _ rfl).alive
    split
    · next hook =>
      have aborted := Stirs.chore (σ := .busy t r .finished) rfl (.abort (w := w₁) hook)
      have alive' := (aborted.akin alive).isAlive.trans alive
      exact aborted.beats.trans (finish alive' rfl (.inr ⟨r, rfl⟩) (aborted.running.trans turn) _)
    · exact endTask alive rfl (.inr ⟨r, rfl⟩) fun h => absurd turn h

theorem moveStopHook (turn : w.OnTurn t) (i : InterpreterId) :
    Beats (w, .rest) (w.moveStopHook t i, .rest) := by
  unfold World.moveStopHook
  split
  · next wait _ =>
    split
    · exact park turn
    · have began := Stirs.beginWait (σ := .rest) rfl w t wait
      exact began.beats.trans (park (turn.stirs began))
  · have stopped : Stirs .rest w _ := ((Stirs.log (σ := .rest) rfl w
      (.trace (.stoppingNested (w.interpreter i).machine.id)) rfl).trans
      (Stirs.forceStop rfl _ i)).trans (Stirs.endWait rfl _ t)
    have turn' := turn.stirs stopped
    exact stopped.beats.trans (finish turn'.alive rfl (.inl ⟨rfl, turn'.free⟩) turn'.turn _)

/-! ## The controller -/

theorem answer (turn : w.OnTurn t) (steps : List Step) (a : Answer) :
    Stirs .rest w (w.answer t steps a) := by
  have told := Stirs.chore (σ := .rest) (w := w) rfl (.tally w.now w.values
    (w.reports.push ⟨a, w.now, w.statuses, w.journal.size⟩))
  have waited := told.trans (Stirs.endWait rfl _ t)
  exact waited.trans (Stirs.setJob (turn.stirs waited) _ rfl)

/-- A controller whose run has ended answers. -/
theorem answerOver {r : RunId} (turn : w.running = some t) (steps : List Step) (a : Answer) :
    Beats (w, .busy t r .finished) (w.answer t steps a, .rest) := by
  have told := Stirs.chore (σ := .busy t r .finished) (w := w) rfl (.tally w.now w.values
    (w.reports.push ⟨a, w.now, w.statuses, w.journal.size⟩))
  have waited : Stirs (.busy t r .finished) w _ := told.trans (Stirs.endWait rfl _ t)
  exact waited.beats.tail (.shift (.resume (waited.running.trans turn) rfl))

theorem beginNamed (turn : w.OnTurn t) (rest : List Step) (i : InterpreterId) (step : Step) :
    Beats (w, .rest) (w.beginNamed t rest i step, .rest) := by
  cases step with
  | run n ms =>
    simp only [World.beginNamed]
    split
    · next w₁ r begun =>
      obtain ⟨s, free, first, rfl, rfl⟩ := World.begin_ok begun
      exact .single (.shift (.begin _ s turn.turn turn.free free rfl first))
    · exact (answer turn ..).beats
  | start n =>
    simp only [World.beginNamed]
    split
    · next w₁ started =>
      have stirred : Stirs .rest w w₁ := Stirs.startInBackground rfl started
      exact stirred.beats.trans (answer (turn.stirs stirred) ..).beats
    · exact (answer turn ..).beats
  | join n ms =>
    simp only [World.beginNamed]
    split
    · next h _ =>
      have took : Stirs .rest w (w.takeHandle i) := Stirs.modifyInterpreter rfl ⟨rfl, rfl⟩ rfl rfl
      exact took.beats.trans (Stirs.setJob (turn.stirs took) _ rfl).beats
    · exact (answer turn ..).beats
  | abort n =>
    simp only [World.beginNamed]
    split
    · next h _ =>
      have aborted : Stirs .rest w (w.abort h) := Stirs.chore rfl (.abort h)
      exact aborted.beats.trans (answer (turn.stirs aborted) ..).beats
    · exact (answer turn ..).beats
  | history | debug | validate | machineDebug => exact (answer turn ..).beats
  | script instr => exact (Stirs.setJob turn _ rfl).beats

theorem beginStep (turn : w.OnTurn t) (rest : List Step) (step : Step) :
    Beats (w, .rest) (w.beginStep t rest step, .rest) := by
  unfold World.beginStep
  split
  · exact beginNamed turn ..
  · split
    · exact beginNamed turn ..
    · exact (answer turn ..).beats

theorem parkUntil (turn : w.OnTurn t) (deadline : Nat) :
    Beats (w, .rest) (w.parkUntil t deadline, .rest) := by
  have set : Stirs .rest w (w.modifyTask t fun x => { x with wait := some (.time deadline) }) :=
    Stirs.modifyTask rfl ⟨rfl, rfl, rfl, id, fun _ => id⟩
  exact set.beats.trans (park (turn.stirs set))

theorem moveJoining (turn : w.OnTurn t) (rest : List Step) (i : InterpreterId) (h : TaskId)
    (deadline : Nat) : Beats (w, .rest) (w.moveJoining t rest i h deadline, .rest) := by
  unfold World.moveJoining
  split
  · exact (answer turn ..).beats
  · have joined : Stirs .rest w (w.modifyTask h fun x => { x with joiner := some t }) :=
      Stirs.modifyTask rfl ⟨rfl, rfl, rfl, id, fun _ => id⟩
    simp only
    split
    · exact joined.beats.trans (parkUntil (turn.stirs joined) _)
    · have put : Stirs .rest w _ := joined.trans (Stirs.setHandle rfl _ i h)
      exact put.beats.trans (answer (turn.stirs put) ..).beats

theorem moveControlScript (turn : w.OnTurn t) (steps : List Step) (s : Script) :
    Beats (w, .rest) (w.moveControlScript t steps s, .rest) := by
  have stepped := Stirs.stepScript turn s
  have turn' := turn.stirs stepped
  unfold World.moveControlScript
  split
  · next w₁ rest h =>
    rw [h] at stepped turn'
    exact stepped.beats.trans (Stirs.setJob turn' _ rfl).beats
  · next w₁ rest h =>
    rw [h] at stepped turn'
    have set := Stirs.setJob turn' (.control steps (.script rest)) rfl
    exact (stepped.beats.trans set.beats).trans (park (turn'.stirs set))
  · next w₁ failure h =>
    rw [h] at stepped turn'
    have freed : Stirs .rest w₁ (w₁.modifyTask t fun x => { x with guards := [] }) :=
      Stirs.modifyTask rfl ⟨rfl, rfl, rfl, id, fun _ => id⟩
    exact (stepped.beats.trans freed.beats).trans (answer (turn'.stirs freed) ..).beats
  · next w₁ h =>
    rw [h] at stepped turn'
    exact stepped.beats.trans (endTask turn'.alive rfl (.inl ⟨rfl, turn'.free⟩)
      fun _ => .inr rfl)

/-- The controller drops the run that it waits for. -/
theorem giveUp {r : RunId} (sound : Sound w σ) (turn : w.running = some t)
    (job : (w.task t).job.run? = some r) (ease : σ = .rest ∨ σ = .busy t r .idle)
    (suspended : (w.run r).phase.isSuspended = true) (rest : List Step) :
    Beats (w, σ) (w.giveUp t rest r, .rest) := by
  have dropped := Paces.dropRun (sound.turn t turn) job (.inr turn) (.inr ⟨ease, suspended⟩)
  have alive := ((sound.beats dropped.beats).busy t r _ rfl).alive
  unfold World.giveUp
  split
  · next w₁ h =>
    rw [h] at dropped alive
    exact dropped.beats.trans (endTask alive rfl (.inr ⟨r, rfl⟩) fun _ => .inr rfl)
  · next w₁ h =>
    rw [h] at dropped
    exact dropped.beats.trans (answerOver (dropped.running.trans turn) ..)

/-- What a controller does once its run has moved. -/
theorem ran {r : RunId} (sound : Sound (w.advance r).1 ((w.advance r).2.stage t r))
    (turn : (w.advance r).1.running = some t) (rest : List Step) (deadline : Nat) :
    Beats ((w.advance r).1, (w.advance r).2.stage t r)
      (w.moveRunning t rest r deadline, .rest) := by
  unfold World.moveRunning
  split
  · next w₁ h =>
    rw [h]
    exact .refl
  · next w₁ result h =>
    rw [h] at turn ⊢
    exact answerOver turn ..
  · next w₁ h =>
    rw [h] at turn ⊢
    exact answerOver turn ..
  · next w₁ h =>
    rw [h] at sound turn ⊢
    split
    · have set : Stir (.busy t r .idle) w₁
          (w₁.modifyTask t fun x => { x with wait := some (.time deadline) }) :=
        .chore (.task t _ ⟨rfl, rfl, rfl, id, fun _ => id⟩) fun _ => rfl
      exact (Relation.ReflTransGen.single (.stir set)).tail
        (.shift (.park turn (.inr ⟨r, rfl⟩)))
    · exact giveUp sound turn (sound.busy t r _ rfl).job (.inr rfl)
        (sound.placed t r _ rfl).suits rest

/-- A task that drives a run was made for it, or is a controller that waits for it. -/
theorem move_of_run? {r : RunId} (job : (w.task t).job.run? = some r) :
    (∃ hook, (w.task t).job = .drive r hook ∧ w.move t = w.moveDrive t r hook) ∨
      ∃ rest deadline, (w.task t).job = .control rest (.running r deadline) ∧
        w.move t = w.moveRunning t rest r deadline := by
  unfold World.move
  cases here : (w.task t).job with
  | drive q hook =>
    rw [here] at job
    cases job
    exact .inl ⟨hook, rfl, rfl⟩
  | control rest doing =>
    rw [here] at job
    cases doing with
    | running q deadline =>
      cases job
      exact .inr ⟨rest, deadline, rfl, rfl⟩
    | nothing | script | joining => cases job
  | script | nested | stopHook =>
    rw [here] at job
    cases job

/-- A task that drives a run on its turn moves the run before it does anything else. -/
theorem drive {r : RunId} (sound : Sound w .rest) (drives : w.Drives t r) :
    Paces t r (w, .rest) ((w.advance r).1, (w.advance r).2.stage t r) ∧
      Beats ((w.advance r).1, (w.advance r).2.stage t r) (w.move t, .rest) := by
  have alive := sound.turn t drives.turn
  have advanced := Paces.advance drives (sound.going alive drives.job)
  have sound' := sound.beats advanced.beats
  have turn := advanced.running.trans drives.turn
  refine ⟨advanced, ?_⟩
  rcases move_of_run? drives.job with ⟨hook, -, moves⟩ | ⟨steps, deadline, -, moves⟩
  · rw [moves]
    exact drove sound' turn hook
  · rw [moves]
    exact ran sound' turn steps deadline

theorem moveControl (turn : w.OnTurn t) (steps : List Step) (doing : Doing)
    (job : (w.task t).job = .control steps doing) :
    Beats (w, .rest) (w.moveControl t steps doing, .rest) := by
  cases doing with
  | nothing =>
    cases steps with
    | nil => exact endTask turn.alive rfl (.inl ⟨rfl, turn.free⟩) fun h => absurd turn.turn h
    | cons step rest => exact beginStep turn rest step
  | script s => exact moveControlScript turn steps s
  | running r deadline =>
    have free := turn.free
    rw [job] at free
    cases free
  | joining i h deadline => exact moveJoining turn steps i h deadline

/-! ## Moves of the world -/

theorem move (sound : Sound w .rest) (turn : w.running = some t) :
    Beats (w, .rest) (w.move t, .rest) := by
  cases free : (w.task t).job.run? with
  | some r =>
    obtain ⟨advanced, after⟩ := drive sound ⟨turn, free⟩
    exact advanced.beats.trans after
  | none =>
    have onTurn : w.OnTurn t := ⟨turn, sound.turn t turn, free⟩
    unfold World.move
    split
    · next s job => exact moveScript onTurn s
    · next machine job => exact beginNested onTurn machine
    · next r hook job =>
      rw [job] at free
      cases free
    · next i job => exact moveStopHook onTurn i
    · next steps doing job => exact moveControl onTurn steps doing job

theorem dropTask (sound : Sound w .rest) (free : w.running = none)
    (alive : (w.task t).isAlive = true) : Beats (w, .rest) (w.dropTask t, .rest) := by
  have late : w.running ≠ some t := by simp [free]
  unfold World.dropTask
  split
  · next r job =>
    have dropped := Paces.dropRun alive job (.inl free) (.inl ⟨rfl, sound.going alive job, free⟩)
    have alive' := ((sound.beats dropped.beats).busy t r _ rfl).alive
    split
    · next w₁ h =>
      rw [h] at dropped alive'
      exact dropped.beats.trans (endTask alive' rfl (.inr ⟨r, rfl⟩) fun _ => .inr rfl)
    · next w₁ h =>
      rw [h] at dropped alive'
      exact dropped.beats.trans (endTask alive' rfl (.inr ⟨r, rfl⟩) fun _ => .inl rfl)
  · next job => exact endTask alive rfl (.inl ⟨rfl, job⟩) fun _ => .inl rfl

theorem beginTurn (sound : Sound w .rest) (free : w.running = none) (ready : t ∈ w.queue) :
    Beats (w, .rest) (w.beginTurn t, .rest) := by
  unfold World.beginTurn
  simp only
  split
  · next aborted =>
    have unqueued : Beat (w, .rest) ({ w with queue := w.queue.erase t }, .rest) :=
      .shift (.unqueue free aborted)
    exact .head unqueued (dropTask (sound.beat unqueued) free (sound.ready t ready))
  · next whole => exact .single (.shift (.turn free ready (by simpa using whole)))

/-- A move of a world, under any schedule, is a number of beats. -/
theorem next (sound : Sound w .rest) (h : w.Next w') : Beats (w, .rest) (w', .rest) := by
  cases h with
  | move turn => exact move sound turn
  | giveUp turn job waits =>
    exact giveUp sound turn (by rw [job]; rfl) (.inl rfl) waits _
  | turn free ready => exact beginTurn sound free ready
  | tick free later =>
    unfold World.advanceClock? at later
    obtain ⟨time, -, rfl⟩ := Option.map_eq_some_iff.1 later
    have passed := Stirs.chore (σ := .rest) (w := w) rfl
      (.tally (max w.now time) w.values w.reports)
    exact passed.beats.trans (Stirs.wakeAll rfl _ _).beats
  | wake t => exact (Stirs.chore rfl (.wake t)).beats
  | stop i => exact (Stirs.forceStop rfl w i).beats
  | start i free started => exact (Stirs.startInBackground rfl started).beats
  | abort t => exact (Stirs.chore rfl (.abort t)).beats
  | call steps =>
    refine .single (.stir (.spawn _ ⟨rfl, rfl, rfl, rfl⟩ fun v holds => ?_))
    simp [Task.holds] at holds

end Beats

/-! ## The worlds that a scenario comes to -/

namespace Scenario

/-- The world before anything has happened: there are interpreters, and nothing else. -/
def opening (s : Scenario) : World :=
  let history := Window.withLimit (s.limit.getD Window.defaultLimit)
  let blank : Interpreter := { machine := s.machine, history }
  { interpreters := ⟨Array.replicate s.interpreters blank⟩, named := s.interpreters }

theorem sound_opening (s : Scenario) : Sound s.opening .rest where
  nodup := List.nodup_nil
  ready t ht := by cases ht
  turn t ht := by cases ht
  driver t r alive := by cases alive
  host r going := absurd rfl going
  busy t r spot hσ := by cases hσ
  placed t r spot hσ := by cases hσ
  waits r v hv := by cases hv

/-- A scenario starts with observers and a controller. -/
theorem beats_start (s : Scenario) : Beats (s.opening, .rest) (s.start, .rest) := by
  have observed (observers : List (Nat × Observer Script)) (w : World) :
      Stirs .rest w (observers.foldl (fun w o => w.observe o.1 o.2) w) := by
    induction observers generalizing w with
    | nil => exact .refl
    | cons o os ih => exact (Stirs.observe rfl w o.1 o.2).trans (ih _)
  refine (observed s.observers s.opening).beats.tail (.stir (.spawn _ ⟨rfl, rfl, rfl, rfl⟩ ?_))
  intro v holds
  simp [Task.holds] at holds

variable {s : Scenario} {w : World}

theorem Reaches.beats (h : s.Reaches w) :
    Beats (s.opening, .rest) (w, .rest) ∧ Sound w .rest := by
  induction h with
  | refl => exact ⟨s.beats_start, s.sound_opening.beats s.beats_start⟩
  | tail _ next ih =>
    have beats := ih.1.trans (Beats.next ih.2 next)
    exact ⟨beats, s.sound_opening.beats beats⟩

theorem Reaches.sound (h : s.Reaches w) : Sound w .rest :=
  h.beats.2

/-- What holds of the opening and what every beat of a sound world keeps holds after any beats. -/
theorem invariant_of_beats {I : World → Stage → Prop} {y : World × Stage}
    (beats : Beats (s.opening, .rest) y) (start : I s.opening .rest)
    (step : ∀ {w w' σ σ'}, Sound w σ → I w σ → Beat (w, σ) (w', σ') → I w' σ') :
    Sound y.1 y.2 ∧ I y.1 y.2 := by
  induction beats with
  | refl => exact ⟨s.sound_opening, start⟩
  | tail _ beat ih => exact ⟨ih.1.beat beat, step ih.1 ih.2 beat⟩

/-- It holds whenever no move is under way. -/
theorem Reaches.invariant {I : World → Stage → Prop} (h : s.Reaches w)
    (start : I s.opening .rest)
    (step : ∀ {w w' σ σ'}, Sound w σ → I w σ → Beat (w, σ) (w', σ') → I w' σ') :
    I w .rest :=
  (invariant_of_beats h.beats.1 start step).2

end Scenario

end Statechart
