import Statechart.Proofs.Hires
import Statechart.Proofs.Receptive
import Statechart.Proofs.Routing
import Statechart.Proofs.Scopes

/-!
# Timers

A service may wait for some time and then raise an event: through its callback, or by returning if
its outcome is raised for it. Either way its task is *fresh* until its first turn, *asleep* until
the time has come, and *awake* for one move, in which it raises its event.

## Main definitions

- `Timer`, `Timer.Works`: what is known of the task of a timer.
- `World.Timing`: how far the task of a timer has come.
- `World.Awaits`: a visit is waited for, and its run was neither stopped nor dropped.

## Main statements

- `State.Competes.timer`: the services that compete with each other are timers.
- `World.Timing.step`: what a move of the world does to a timer that is not awake.
- `Timer.Works.fires`: what a timer does that is awake.
-/

namespace Statechart

/-! ## Definitions -/

/-- A service of a state that raises an event after some time. -/
structure Rival where
  position : Nat
  delay : Nat
  event : EventId
deriving DecidableEq, Repr, Inhabited

/-- The event of a rival carries no error. -/
def Rival.decision (x : Rival) : Decision :=
  ⟨x.event, none⟩

/-- A rival is a service of a state: a timeout, or one that sleeps and then raises an event. Its
event leads somewhere. -/
inductive State.Competes (s : State) : Rival → Prop where
  | timeout {k ms : Nat} {target : String}
      (service : s.services[k]? = some (.routed (State.timer ms)))
      (route : s.targetOf (.succeeded k) = some target) : s.Competes ⟨k, ms, .succeeded k⟩
  | sleeper {k ms : Nat} {event target : String} {rest : Script}
      (service : s.services[k]? =
        some (.free { body := .pause (.sleep ms) :: .act (.raise event) :: rest }))
      (route : s.targetOf (.named event) = some target) : s.Competes ⟨k, ms, .named event⟩

/-- The task of a service that raises an event after some time. -/
structure Timer where
  /-- The task as it was hired. -/
  task : Task
  delay : Nat
  decision : Decision
  /-- What is left to do once the time has come. -/
  rest : Script
  /-- What the task waits for until then. -/
  wait : Nat → Wait

namespace Timer

/-- The task while it waits for a moment. -/
def asleep (x : Timer) (moment : Nat) : Task :=
  { x.task with job := .script x.rest, wait := some (x.wait moment) }

/-- The task once the moment has come. -/
def awake (x : Timer) : Task :=
  { x.task with job := .script x.rest }

/-- The task of a timer first waits for some time, unless its visit is being left, and then raises
its event. -/
structure Works (x : Timer) (v : VisitId) : Prop where
  home : x.task.home = some v
  alive : x.task.fate = none
  idle : x.task.wait = none
  job : ∃ p, x.task.job = .script (.pause p :: x.rest) ∧ ∀ w : World, w.isCancelled v = false →
    w.waitAt x.task.reach p = if x.delay = 0 then none else some (x.wait (w.now + x.delay))
  deadline : ∀ moment, (x.wait moment).deadline? = some moment
  isOver : ∀ (w : World) moment, w.isCancelled v = false →
    w.isOver (x.wait moment) = decide (moment ≤ w.now)
  fires : ∀ (w : World) u, w.isCancelled v = false → (w.raise v x.decision).2 = true →
    x.awake.Minds (w.task u) → .raised v x.decision true ∈ (w.move u).marks

end Timer

/-- How far the task of a timer has come that was hired at a time. -/
inductive World.Timing (w : World) (u : TaskId) (x : Timer) (τ : Nat) : Prop where
  | fresh (minds : x.task.Minds (w.task u)) (up : w.IsUp u) (now : w.now = τ)
  | asleep (minds : (x.asleep (τ + x.delay)).Minds (w.task u))
      (due : τ + x.delay ≤ w.now → w.IsUp u)
  | awake (minds : x.awake.Minds (w.task u)) (turn : w.running = some u)
      (now : w.now = τ + x.delay)

/-- A visit is waited for, and its run was neither stopped nor dropped. -/
structure World.Awaits (w : World) (v : VisitId) : Prop where
  phase : (w.runOf v).phase = .waiting v
  free : (w.runOf v).cancelled = false
  whole : (w.task (w.runOf v).host).aborted = false

section

variable {scn : Scenario} {w w' : World} {u : TaskId} {v : VisitId} {x : Timer} {τ k : Nat}
  {s : State} {y : Rival}

/-! ## Rivals are timers -/

namespace Timer

/-- The task of a timeout. -/
def ofTimeout (v : VisitId) (k ms : Nat) : Timer where
  task := { job := .script [.pause (.sleepUnlessCancelled ms)], reach := { action := some v },
            route := some ⟨v, k⟩, home := some v }
  delay := ms
  decision := ⟨.succeeded k, none⟩
  rest := []
  wait moment := .timeOrToken moment (.action v)

/-- The task of a service that sleeps, raises an event and goes on. -/
def ofSleeper (v : VisitId) (ms : Nat) (event : String) (rest : Script) : Timer where
  task := { job := .script (.pause (.sleep ms) :: .act (.raise event) :: rest),
            reach := { callback := some v }, home := some v }
  delay := ms
  decision := ⟨.named event, none⟩
  rest := .act (.raise event) :: rest
  wait := .time

/-- A timeout waits unless its token is cancelled, and returns. -/
theorem works_ofTimeout (v : VisitId) (k ms : Nat) : (ofTimeout v k ms).Works v where
  home := rfl
  alive := rfl
  idle := rfl
  job := by
    refine ⟨.sleepUnlessCancelled ms, rfl, fun w whole => ?_⟩
    simp only [World.waitAt, ofTimeout, Reach.token?, Token.visit, whole]
    rfl
  deadline _ := rfl
  isOver w moment whole := by
    simp [World.isOver, ofTimeout, Token.visit, whole]
  fires w u whole accepted minds := by
    have job : (w.task u).job = .script [] := minds.job
    have idle : (w.task u).wait = none := minds.wait
    have route : (w.task u).route = some ⟨v, k⟩ := minds.route
    have raised : (w.raise v ⟨.succeeded k, none⟩).2 = true := accepted
    simp only [World.move, job, World.moveScript, World.stepScript, idle, World.finish,
      Option.map_none, route, World.raiseOutcome, whole, World.marks_endTask]
    simp [World.marks_raise, raised, ofTimeout]

/-- A service that sleeps does so whatever comes, and raises its event through its callback. -/
theorem works_ofSleeper (v : VisitId) (ms : Nat) (event : String) (rest : Script) :
    (ofSleeper v ms event rest).Works v where
  home := rfl
  alive := rfl
  idle := rfl
  job := ⟨.sleep ms, rfl, fun w _ => rfl⟩
  deadline _ := rfl
  isOver w moment _ := rfl
  fires w u whole accepted minds := by
    have job : (w.task u).job = .script (.act (.raise event) :: rest) := minds.job
    have idle : (w.task u).wait = none := minds.wait
    have callback : (w.task u).reach.callback = some v := congrArg Reach.callback minds.reach
    have raised : (w.raise v ⟨.named event, none⟩).2 = true := accepted
    simp only [World.move, job, World.moveScript, World.stepScript, idle, World.stepInstr,
      World.perform, World.raiseEvent, World.raiseThrough, callback, World.marks_setJob,
      World.marks_log]
    simp [World.marks_raise, raised, ofSleeper]

end Timer

/-- A rival has the task of a timer. -/
theorem State.Competes.timer (h : s.Competes y) (v : VisitId) : ∃ service, ∃ x : Timer,
    s.services[y.position]? = some service ∧ service.hire? v y.position = some x.task ∧
      x.delay = y.delay ∧ x.decision = y.decision ∧ x.Works v := by
  cases h with
  | @timeout k ms target service route =>
    exact ⟨_, .ofTimeout v k ms, service, rfl, rfl, rfl, Timer.works_ofTimeout v k ms⟩
  | @sleeper k ms event target rest service route =>
    exact ⟨_, .ofSleeper v ms event rest, service, rfl, rfl, rfl,
      Timer.works_ofSleeper v ms event rest⟩

/-- The event of a rival can have an effect. -/
theorem State.Competes.targetOf (h : s.Competes y) :
    ∃ target, s.targetOf y.event = some target := by
  cases h with
  | timeout _ route | sleeper _ route => exact ⟨_, route⟩

/-- A timeout that leads somewhere, with which a state was configured, is a rival. -/
theorem State.competes_of_configure {id : String} {steps : List State.Directive}
    {k ms : Nat} {target : String} (configured : State.configure (.new id) steps = .ok s)
    (offer : (steps.filterMap State.Directive.offer?)[k]? =
      State.Directive.offer? (.timeout ms target)) (aims : target ≠ "") :
    s.Competes ⟨k, ms, .succeeded k⟩ := by
  have offers := State.offers_of_configure configured
  have leads : s.targetOf (.succeeded k) = some target :=
    (offers.targetOf offer none).trans (by simp [Offer.outlet, aims])
  refine .timeout ?_ leads
  rw [offers.services, List.getElem?_map, offer]
  rfl

/-! ## Moves of timers -/

namespace World

variable {t : TaskId}

theorem minds_park (w : World) (t : TaskId) : (w.task t).Minds ((w.park t).task t) := by
  obtain ⟨queue, -, parked⟩ := w.park_eq t
  rw [parked]
  simp only [modifyTask, task_mk, Table.get_modify, if_true]
  exact ⟨rfl, rfl, rfl, rfl, rfl, rfl⟩

theorem marks_park (w : World) (t : TaskId) : (w.park t).marks = w.marks := by
  obtain ⟨queue, -, parked⟩ := w.park_eq t
  rw [parked]
  rfl

/-- A task that begins to wait may wait for a token of a visit. -/
theorem beginWait_eq (w : World) (t : TaskId) (wait : Wait) :
    ∃ visits, w.beginWait t wait = { w with visits }.modifyTask t fun x =>
      { x with wait := some wait, rewoken := x.rewoken || wait = Wait.turn } := by
  have registered (token : Token) : ∃ visits, w.register token t = { w with visits } := by
    cases token <;> exact ⟨_, rfl⟩
  cases wait with
  | token token | timeOrToken _ token =>
    obtain ⟨visits, more⟩ := registered token
    exact ⟨visits, by rw [← more]; rfl⟩
  | time | turn | forever => exact ⟨w.visits, rfl⟩

theorem endWait_eq (w : World) (t : TaskId) : ∃ visits, w.endWait t =
    { w with visits }.modifyTask t fun x => { x with wait := none } := by
  have deregistered (token : Token) : ∃ visits, w.deregister token t = { w with visits } := by
    cases token <;> exact ⟨_, rfl⟩
  unfold endWait
  split
  · next token _ =>
    obtain ⟨visits, less⟩ := deregistered token
    exact ⟨visits, by rw [less]⟩
  · next token _ =>
    obtain ⟨visits, less⟩ := deregistered token
    exact ⟨visits, by rw [less]⟩
  · exact ⟨w.visits, rfl⟩

end World

namespace Timer.Works

/-- A timer that has its first turn falls asleep, or is awake at once if it has no delay. -/
theorem move_fresh (h : x.Works v) (whole : w.isCancelled v = false) (turn : w.running = some u)
    (minds : x.task.Minds (w.task u)) : (w.move u).marks = w.marks ∧
      (x.delay = 0 ∧ (w.move u).running = some u ∧ x.awake.Minds ((w.move u).task u) ∨
        x.delay ≠ 0 ∧ (x.asleep (w.now + x.delay)).Minds ((w.move u).task u)) := by
  obtain ⟨p, job, waits⟩ := h.job
  have job : (w.task u).job = .script (.pause p :: x.rest) := minds.job.trans job
  have idle : (w.task u).wait = none := minds.wait.trans h.idle
  have waits := waits w whole
  rw [← minds.reach] at waits
  by_cases none : x.delay = 0
  · rw [if_pos none] at waits
    have moved : w.move u = w.setJob u (.script x.rest) := by
      simp only [World.move, job, World.moveScript, World.stepScript, idle, World.stepInstr, waits]
    rw [moved]
    refine ⟨rfl, .inl ⟨none, turn, ?_⟩⟩
    rw [World.setJob, World.task_modifyTask, if_pos rfl]
    exact ⟨rfl, minds.reach, minds.home, minds.route, minds.wait, minds.fate⟩
  · rw [if_neg none] at waits
    have moved : w.move u =
        ((w.beginWait u (x.wait (w.now + x.delay))).setJob u (.script x.rest)).park u := by
      simp only [World.move, job, World.moveScript, World.stepScript, idle, World.stepInstr, waits]
    obtain ⟨visits, begun⟩ := w.beginWait_eq u (x.wait (w.now + x.delay))
    rw [moved, begun]
    refine ⟨World.marks_park .., .inr ⟨none, .trans ?_ (World.minds_park ..)⟩⟩
    simp only [World.setJob, World.task_modifyTask, if_true]
    exact ⟨rfl, minds.reach, minds.home, minds.route, rfl, minds.fate⟩

/-- A timer that is asleep is awake when its moment has come, and goes on sleeping before. -/
theorem move_asleep (h : x.Works v) {moment : Nat} (whole : w.isCancelled v = false)
    (turn : w.running = some u) (minds : (x.asleep moment).Minds (w.task u)) :
    (w.move u).marks = w.marks ∧
      (moment ≤ w.now ∧ (w.move u).running = some u ∧ x.awake.Minds ((w.move u).task u) ∨
        w.now < moment ∧ (x.asleep moment).Minds ((w.move u).task u)) := by
  have job : (w.task u).job = .script x.rest := minds.job
  have waits : (w.task u).wait = some (x.wait moment) := minds.wait
  have past := h.isOver w moment whole
  by_cases late : moment ≤ w.now
  · rw [decide_eq_true late] at past
    have moved : w.move u = (w.endWait u).setJob u (.script x.rest) := by
      simp [World.move, job, World.moveScript, World.stepScript, waits, past]
    obtain ⟨visits, ended⟩ := w.endWait_eq u
    rw [moved, ended]
    refine ⟨rfl, .inl ⟨late, turn, ?_⟩⟩
    simp only [World.setJob, World.task_modifyTask, if_true]
    exact ⟨rfl, minds.reach, minds.home, minds.route, h.idle.symm, minds.fate⟩
  · rw [decide_eq_false late] at past
    have moved : w.move u = (w.setJob u (.script x.rest)).park u := by
      simp [World.move, job, World.moveScript, World.stepScript, waits, past]
    rw [moved]
    refine ⟨World.marks_park .., .inr ⟨Nat.not_le.1 late, .trans ?_ (World.minds_park ..)⟩⟩
    rw [World.setJob, World.task_modifyTask, if_pos rfl]
    exact ⟨rfl, minds.reach, minds.home, minds.route, minds.wait, minds.fate⟩

/-- A timer that is asleep wants to be woken at its moment. -/
theorem deadline?_asleep (h : x.Works v) {moment : Nat}
    (minds : (x.asleep moment).Minds (w.task u)) : (w.task u).deadline? = some moment := by
  have alive : (w.task u).isAlive = true := congrArg Option.isNone (minds.fate.trans h.alive)
  unfold Task.deadline?
  rw [if_pos alive, minds.wait]
  exact h.deadline moment

end Timer.Works

/-! ## Timers under every schedule -/

/-- While a visit is awaited, none of its tokens is cancelled. -/
theorem World.Awaits.isCancelled (a : w.Awaits v) (h : scn.Reaches w) :
    w.isCancelled v = false := by
  have scopes : Scoped w .rest :=
    h.moment.invariant (Scoped.opening scn) fun o scopes beat => scopes.beat o beat
  rw [World.isCancelled, scopes.waits _ v a.phase, a.free]
  rfl

namespace World.Timing

/-- The task of a timer works for its visit. -/
theorem serves (timing : w.Timing u x τ) (works : x.Works v) :
    (w.task u).isAlive = true ∧ (w.task u).home = some v := by
  have here (y : Task) (alive : y.fate = none) (home : y.home = some v)
      (minds : y.Minds (w.task u)) : (w.task u).isAlive = true ∧ (w.task u).home = some v :=
    ⟨congrArg Option.isNone (minds.fate.trans alive), minds.home.trans home⟩
  cases timing with
  | fresh minds => exact here x.task works.alive works.home minds
  | asleep minds => exact here (x.asleep _) works.alive works.home minds
  | awake minds => exact here x.awake works.alive works.home minds

/-- Whoever has the turn makes a move, unless it drives a run that it gives up. -/
theorem eq_move (next : w.Next w') (turn : w.running = some u)
    (other : ∀ steps doing, (w.task u).job ≠ .control steps doing) : w' = w.move u := by
  cases next with
  | move turn' =>
    cases turn.symm.trans turn'
    rfl
  | giveUp turn' job =>
    cases turn.symm.trans turn'
    exact absurd job (other _ _)
  | turn free | tick free | wake _ free | stop _ free | start _ free | abort _ free | call _ free =>
    cases turn.symm.trans free

/-- While its visit is awaited, a timer that is not awake goes on as it should in whatever happens,
and says nothing. -/
theorem step (timing : w.Timing u x τ) (h : scn.Reaches w) (a : w.Awaits v) (works : x.Works v)
    (early : w.now ≤ τ + x.delay) (next : w.Next w') (prompt : w'.now = w.now ∨ w.queue = []) :
    (w.running = some u ∧ w.now = τ + x.delay ∧ x.awake.Minds (w.task u)) ∨
      w'.Timing u x τ ∧ (w.running = some u → w'.marks = w.marks) := by
  have whole := a.isCancelled h
  obtain ⟨alive, home⟩ := timing.serves works
  have known := lt_size_of_isAlive alive
  -- A timer that gets the turn is what it was before.
  have turned : (w.beginTurn u).task u = w.task u ∧ (w.beginTurn u).running = some u ∧
      (w.beginTurn u).now = w.now := by
    have stays := h.not_aborted a.phase home
    unfold beginTurn
    rw [if_neg (by simpa using stays)]
    exact ⟨rfl, rfl, rfl⟩
  cases timing with
  | fresh minds up now =>
    obtain ⟨p, job, -⟩ := works.job
    by_cases turn : w.running = some u
    · obtain rfl := eq_move next turn fun steps doing other => by
        cases other.symm.trans (minds.job.trans job)
      obtain ⟨marks, ⟨none, turn', minds'⟩ | ⟨some, minds'⟩⟩ :=
        works.move_fresh whole turn minds
      · refine .inr ⟨.awake minds' turn' ?_, fun _ => marks⟩
        rw [now_move, now, none, Nat.add_zero]
      · rw [now] at minds'
        refine .inr ⟨.asleep minds' fun late => ?_, fun _ => marks⟩
        rw [now_move, now] at late
        exact absurd late (by omega)
    · refine .inr ⟨?_, fun turn' => absurd turn' turn⟩
      rcases next.bystander turn known with ⟨-, -, rfl⟩ | ⟨-, minds', up'⟩
      · exact .fresh (turned.1 ▸ minds) (.inl turned.2.1) (turned.2.2.trans now)
      · refine .fresh (minds.trans minds') (up' up) ?_
        rcases prompt with same | empty
        · exact same.trans now
        · rcases up with turn' | ready
          · exact absurd turn' turn
          · rw [empty] at ready
            cases ready
  | asleep minds due =>
    by_cases turn : w.running = some u
    · obtain rfl := eq_move next turn fun steps doing other => by
        cases other.symm.trans minds.job
      obtain ⟨marks, ⟨late, turn', minds'⟩ | ⟨soon, minds'⟩⟩ :=
        works.move_asleep whole turn minds
      · refine .inr ⟨.awake minds' turn' ?_, fun _ => marks⟩
        rw [now_move]
        exact Nat.le_antisymm early late
      · refine .inr ⟨.asleep minds' fun late => ?_, fun _ => marks⟩
        rw [now_move] at late
        exact absurd soon (Nat.not_lt.2 late)
    · refine .inr ⟨?_, fun turn' => absurd turn' turn⟩
      rcases next.bystander turn known with ⟨-, -, rfl⟩ | ⟨-, minds', up'⟩
      · exact .asleep (turned.1 ▸ minds) fun _ => .inl turned.2.1
      · refine .asleep (minds.trans minds') fun late => ?_
        rcases Nat.lt_or_ge w.now (τ + x.delay) with soon | past
        · exact next.due (works.deadline?_asleep minds) soon late
        · exact up' (due past)
  | awake minds turn now => exact .inl ⟨turn, now, minds⟩

end World.Timing

end

end Statechart
