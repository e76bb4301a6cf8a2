import Statechart.Proofs.Hires
import Statechart.Proofs.Panics
import Statechart.Proofs.Receptive
import Statechart.Proofs.Teardown

/-!
# Departures

A run is taken further by its host and by nobody else. So between the end of the wait of a visit
and the move in which its host leaves it, all that happens to the visit is that its tasks go, one
after the other. Each of them is ready, and the last one wakes the host: somebody is always up, so
no time passes until the visit is left.

## Main definitions

- `World.Keeps`: a move in which the run of a visit is not dropped.
- `World.Departs`: a visit is being left.

## Main statements

- `Scenario.Reaches.still`: a run stays where it is unless its host has the turn.
- `World.Departs.step`: a visit is being left until its host leaves it.
- `World.Departs.now_eq`: meanwhile no time passes.
-/

namespace Statechart

/-! ## Definitions -/

/-- In a move, nobody drops the run of a visit: its host was not told to go, and goes on with the
run, whose time is not over. -/
structure World.Keeps (v : VisitId) (w w' : World) : Prop where
  whole : (w.task (w.runOf v).host).aborted = false
  goes : w.running = some (w.runOf v).host → w' = w.move (w.runOf v).host
  patient : ∀ rest r deadline,
    (w.task (w.runOf v).host).job = .control rest (.running r deadline) → w.now < deadline

/-- A task does not have the turn, and is not in the middle of a move. -/
structure World.Aside (w : World) (σ : Stage) (t : TaskId) : Prop where
  off : w.running ≠ some t
  rests : ∀ q s, σ ≠ .busy t q s

/-- A visit is being left: its tasks that are left are ready to go, and when they are gone, the
host of its run is up. -/
structure World.Departs (w : World) (v : VisitId) (e : Ending) : Prop where
  phase : (w.runOf v).phase = .draining v e
  ready : ∀ t ∈ (w.visit v).working, t ∈ w.queue
  hears : (w.visit v).working = [] → w.IsUp (w.runOf v).host

/-- How a visit is left on a decision that leads to a target: the run goes on to the state of that
name, or fails because there is none, unless an action of the state panics. -/
inductive World.LedTo (w w' : World) (v : VisitId) (d : Decision) (target : String) : Prop where
  | arrives {next : State} (found : (w.machineOf (w.visit v).run).find? target = some next)
      (phase : (w'.runOf v).phase = .arriving next (some (w.visit v).state.id) (some d))
      (moved : .moved (w.visit v).run ⟨(w.visit v).state.id, d.event, next.id⟩ ∈ w'.marks)
  | dangles (missing : (w.machineOf (w.visit v).run).find? target = none)
      (returned : .returned (w.visit v).run
        (.error (.danglingTransition (w.visit v).state.id d.event target)) ∈ w'.marks)
  | panics (action : (w.visit v).state.cleanup.Panics ∨ (w.visit v).state.exitActions.Panics)
      (ended : (w'.runOf v).phase = .ended)

section

variable {scn : Scenario} {w w' : World} {σ σ' : Stage} {t u : TaskId} {r : RunId} {v : VisitId}
  {e : Ending}

/-! ## Runs stay where they are -/

/-- A run stays where it is, unless its host gives it up or takes a turn. -/
theorem Beat.still (b : Beat (w, σ) (w', σ')) (o : Orderly w σ)
    (going : (w.run r).phase ≠ .ended) (aside : w.Aside σ (w.run r).host) :
    w'.Aside σ' (w.run r).host ∧ (w'.run r).phase = (w.run r).phase ∨
      (w'.run r).phase = .ended ∨ w'.marks = w.marks ++ [.turn (w.run r).host] := by
  have driven := o.host r going
  have known := driven.known
  cases b with
  | stir b =>
    exact .inl ⟨⟨b.running ▸ aside.off, aside.rests⟩, (b.steady.run r known).phase⟩
  | shift b =>
    have phase := (b.steady.run r known).phase
    have still (off : w'.running ≠ some (w.run r).host) : w'.Aside .rest (w.run r).host :=
      ⟨off, fun q s busy => by cases busy⟩
    cases b with
    | @turn _ t =>
      -- The turn of the host is the one thing that is noted.
      by_cases mine : t = (w.run r).host
      · exact .inr (.inr (by simp [mine]))
      · exact .inl ⟨still fun turn => mine (Option.some.inj turn), phase⟩
    | @park _ _ t =>
      obtain ⟨queue, -, parked⟩ := w.park_eq t
      rw [parked] at still phase ⊢
      exact .inl ⟨still (by simp), phase⟩
    | @retire _ w₁ _ t fate alive ease late chores =>
      refine .inl ⟨still ?_, phase⟩
      rw [(Retired.of_chores chores).running]
      split
      · simp
      · exact aside.off
    | unqueue | begin | resume => exact .inl ⟨still aside.off, phase⟩
  | @stride t q _ _ b =>
    have hosts := b.hosts o.toQueued o.toHosted
    by_cases mine : r = q
    · subst mine
      have host := hosts.host
      rcases b.source with rfl | ⟨s, rfl⟩
      · -- Without the turn, all that the host can do is to drop the run.
        cases b with
        | depart drives | tell drives | look drives | idle drives | conclude drives
        | exit drives | quit drives | halt drives =>
          exact absurd (host ▸ drives.turn) aside.off
        | dropBegun | dropArriving => exact .inr (.inl (World.phase_setPhase ..))
        | dropWaiting =>
          refine .inr (.inl ?_)
          rw [World.run_closeVisit, World.run_abortWork, World.phase_setPhase]
        | dropDraining => exact .inr (.inl (World.phase_setPhase w r _))
      -- The move under way would be one of the host.
      · exact absurd (by rw [host]) (aside.rests r s)
    · refine .inl ⟨⟨b.running ▸ aside.off, fun p s busy => ?_⟩, ?_⟩
      · rcases b.target o.toStaged with ⟨rfl, -⟩ | ⟨s', rfl⟩
        · cases busy
        · cases busy
          exact mine (driven.inj hosts)
      · rw [b.onward.run r mine]

/-- A run that is there keeps its host. -/
theorem Beats.host {x y : World × Stage} (b : Beats x y) (known : r < x.1.runs.size) :
    r < y.1.runs.size ∧ (y.1.run r).host = (x.1.run r).host := by
  induction b with
  | refl => exact ⟨known, rfl⟩
  | tail before beat ih =>
    exact ⟨Nat.lt_of_lt_of_le ih.1 (Beat.runs beat), (Beat.host beat ih.1).trans ih.2⟩

/-- As long as its host neither drops it nor takes a turn, a run stays where it is. -/
theorem Beats.still {x y : World × Stage} (b : Beats x y) (o : Orderly x.1 x.2)
    (going : (x.1.run r).phase ≠ .ended) (aside : x.1.Aside x.2 (x.1.run r).host) :
    (y.1.run r).phase = (x.1.run r).phase ∨ (y.1.run r).phase = .ended ∨
      ∃ news, y.1.marks = x.1.marks ++ news ∧ .turn (x.1.run r).host ∈ news := by
  have known := (o.host r going).known
  suffices y.1.Aside y.2 (x.1.run r).host ∧ (y.1.run r).phase = (x.1.run r).phase ∨
      (y.1.run r).phase = .ended ∨
      ∃ news, y.1.marks = x.1.marks ++ news ∧ .turn (x.1.run r).host ∈ news from
    this.imp_left And.right
  induction b with
  | refl => exact .inl ⟨aside, rfl⟩
  | @tail y z before beat ih =>
    obtain ⟨past, marks⟩ := Beats.marks before o.toSound
    obtain ⟨there, host⟩ := Beats.host before known
    have oy := o.beats before
    rcases ih with ⟨aside, phase⟩ | ended | ⟨news, marks, turn⟩
    · rcases beat.still oy (phase ▸ going) (host ▸ aside) with ⟨aside', phase'⟩ | ended | turn
      · exact .inl ⟨host ▸ aside', phase'.trans phase⟩
      · exact .inr (.inl ended)
      · refine .inr (.inr ⟨past ++ [.turn (x.1.run r).host], ?_, by simp⟩)
        rw [turn, marks, host, List.append_assoc]
    · exact .inr (.inl ((beat.of_waiting (v := 0) oy there).1 ended))
    · obtain ⟨news', marks'⟩ := beat.marks oy.toStaged
      refine .inr (.inr ⟨news ++ news', ?_, List.mem_append_left _ turn⟩)
      rw [marks', marks, List.append_assoc]

theorem World.runOf_congr (visits : w'.visits = w.visits) (runs : w'.runs = w.runs) (v : VisitId) :
    w'.runOf v = w.runOf v := by
  unfold World.runOf World.run World.visit
  rw [visits, runs]

/-- A host that has nothing to do, and time left, rests. -/
theorem Sound.parks {x : World} (sound : Sound w .rest) (going : (w.run r).phase ≠ .ended)
    (parks : w.advance r = (x, .parked)) (patient : ∀ rest deadline,
      (w.task (w.run r).host).job = .control rest (.running r deadline) → w.now < deadline) :
    (w.move (w.run r).host).visits = x.visits ∧ (w.move (w.run r).host).runs = x.runs := by
  have time : x.now = w.now := by
    have strokes : Strokes 0 w (w.advance r).1 := .advance w r
    rw [parks] at strokes
    exact strokes.now
  have parked (y : World) (t : TaskId) :
      (y.park t).visits = y.visits ∧ (y.park t).runs = y.runs := by
    obtain ⟨queue, -, parked⟩ := y.park_eq t
    rw [parked]
    exact ⟨rfl, rfl⟩
  rcases Beats.move_of_run? (sound.host r going).job with
    ⟨hook, -, moves⟩ | ⟨steps, deadline, here, moves⟩
  · simp only [moves, World.moveDrive, parks]
    exact parked x _
  · have early : x.now < deadline := time ▸ patient steps deadline here
    simp only [moves, World.moveRunning, parks, early, if_true]
    exact parked _ _

namespace Scenario.Reaches

/-- A run stays where it is in every move that is not one of its host. -/
theorem still (h : scn.Reaches w) (next : w.Next w') (going : (w.run r).phase ≠ .ended)
    (off : w.running ≠ some (w.run r).host) (whole : (w.task (w.run r).host).aborted = false) :
    (w'.run r).phase = (w.run r).phase := by
  have hosts := h.sound.host r going
  have begun : ((w.beginTurn (w.run r).host).run r).phase = (w.run r).phase := by
    unfold World.beginTurn
    rw [if_neg (by simpa using whole)]
    rfl
  rcases next.bystander off (World.lt_size_of_isAlive hosts.alive) with
    ⟨-, -, rfl⟩ | ⟨-, minds, -⟩
  · exact begun
  rcases next.turns off with rfl | ⟨news, marks, never⟩
  · exact begun
  have aside : w.Aside .rest (w.run r).host := ⟨off, fun q s busy => by cases busy⟩
  rcases (Beats.next h.sound next).still h.orderly going aside with
    same | ended | ⟨news', marks', turn⟩
  · exact same
  · have alive : (w'.task (w.run r).host).isAlive = true :=
      (congrArg Option.isNone minds.fate).trans hosts.alive
    have job := (congrArg Job.run? minds.job).trans hosts.job
    have h' : scn.Reaches w' := h.tail next
    exact absurd ended (h'.sound.going alive job)
  · cases List.append_cancel_left (marks.symm.trans marks')
    exact absurd turn never

/-- A visit that a run is in keeps the run and its host. -/
theorem owner (h : scn.Reaches w) (phase : (w.runOf v).phase.visit? = some v) (next : w.Next w') :
    w'.runOf v = w'.run (w.visit v).run ∧ (w'.runOf v).host = (w.runOf v).host := by
  have beats := Beats.next h.sound next
  have own := beats.lasting.owner v (h.sound.waits _ v phase).known
  have going : (w.run (w.visit v).run).phase ≠ .ended := by
    intro ended
    rw [show (w.runOf v).phase = .ended from ended] at phase
    cases phase
  have same : w'.runOf v = w'.run (w.visit v).run := congrArg w'.run own
  refine ⟨same, ?_⟩
  rw [same]
  exact (Beats.host beats (h.sound.host _ going).known).2

/-- A visit that a run is about to leave is one whose wait is over. -/
theorem concluded (h : scn.Reaches w) (phase : (w.run r).phase = .draining v e) :
    .concluded v e ∈ w.marks := by
  have o := h.orderly
  have going : (w.run r).phase ≠ .ended := by simp [phase]
  have began := (o.slotted.owner _ r (o.slotted.holder r (.inl going))).2
  obtain ⟨st, chart⟩ := o.charted r began
  have stands : st.Matches (w.run r).phase.standing? := chart.stands
  rw [phase] at stands
  exact (World.mem_way.1 (chart.course.concluded (.inl stands))).1

/-- Nobody comes to work for a visit whose work is set up. -/
theorem staff (h : scn.Reaches w) (phase : (w.runOf v).phase.visit? = some v) (next : w.Next w')
    (home : (w'.task t).home = some v) : (w.task t).home = some v := by
  have o := h.orderly
  refine Beats.homes (Beats.next h.sound next) home fun u early _ t q k busy => ?_
  have ou := o.beats early
  have placed := ou.placed t q _ busy
  have own := placed.own v rfl
  obtain rfl : (w.visit v).run = q := by
    have mine := o.waits _ v phase
    exact ((Beats.lasting early).owner v mine.known).symm.trans own.run
  have arriving : (u.1.run (w.visit v).run).phase.isArriving = true := placed.suits
  -- The wait of the visit has begun, and it is not over for a visit that is set up.
  have past : (u.1.run (w.visit v).run).phase = .ended ∨ u.1.Concluded v ∨
      (u.1.run (w.visit v).run).phase = .waiting v := by
    cases here : (w.runOf v).phase with
    | waiting n =>
      rw [here] at phase
      cases phase
      rcases Beats.of_waiting early o here with ended | past | ⟨waits, -⟩
      · exact .inl ended
      · exact .inr (.inl past)
      · exact .inr (.inr waits)
    | draining n e =>
      rw [here] at phase
      cases phase
      exact .inr (.inl ⟨e, early.mem o (h.concluded here)⟩)
    | begun | arriving | ended =>
      rw [here] at phase
      cases phase
  rcases past with ended | ⟨e, past⟩ | waits
  · rw [ended] at arriving
    cases arriving
  · exact (raced_of_beats (h.beats.1.trans early)).2.ahead v (by rw [busy]; rfl) ⟨e, past⟩
  · rw [waits] at arriving
    cases arriving

end Scenario.Reaches

/-! ## Tasks go -/

/-- Whoever ends wakes the host of its visit's run, as long as the visit is not closed. -/
theorem World.isUp_endTask {fate : Fate} (home : (w.task t).home = some v)
    (opened : ((w.endTask t fate).visit v).closed = false)
    (alive : ((w.endTask t fate).task ((w.endTask t fate).runOf v).host).isAlive = true) :
    (w.endTask t fate).IsUp ((w.endTask t fate).runOf v).host := by
  obtain ⟨x, ended⟩ : ∃ x : World, w.endTask t fate =
      (x.tellHome (some v)).tellJoiner (w.task t).joiner := ⟨_, home ▸ w.endTask_eq t fate⟩
  rw [ended] at opened alive ⊢
  have joined : Statechart.Frame (x.tellHome (some v))
      ((x.tellHome (some v)).tellJoiner (w.task t).joiner) := by
    cases (w.task t).joiner with
    | none => exact .refl _
    | some u => exact (Statechart.Frame.wake _ u).1
  rw [(joined.visit v).closed] at opened
  rw [(joined.runOf v).host] at alive ⊢
  rw [(joined.task _).isAlive] at alive
  refine joined.isUp ?_
  have woken := (Statechart.Frame.wake x (x.runOf v).host).1
  cases closed : (x.visit v).closed with
  | true =>
    simp only [tellHome, closed, if_true] at opened
    cases opened
  | false =>
    simp only [tellHome, closed, Bool.false_eq_true, if_false] at alive ⊢
    rw [(woken.runOf v).host] at alive ⊢
    exact x.isUp_wake ((woken.task _).isAlive ▸ alive)

/-- A task that was told to go is dropped in place of its turn. -/
theorem World.beginTurn_eq_endTask (alive : (w.task t).isAlive = true)
    (aborted : (w.task t).aborted = true) : ∃ (x : World) (fate : Fate),
      w.beginTurn t = x.endTask t fate ∧ (x.task t).home = (w.task t).home := by
  unfold beginTurn
  simp only [show ({ w with queue := w.queue.erase t }.task t).aborted = true from aborted, if_true]
  unfold dropTask
  split
  · next r job =>
    -- To drop a run leaves alone what tasks are about to do.
    have dropped : Strokes (t + 1) { w with queue := w.queue.erase t } _ := .dropRun _ r
    obtain ⟨-, minds⟩ := dropped.minds (Nat.succ_ne_self t).symm (lt_size_of_isAlive alive)
    split
    · next eq =>
      rw [eq] at minds
      exact ⟨_, _, rfl, minds.home⟩
    · next eq =>
      rw [eq] at minds
      exact ⟨_, _, rfl, minds.home⟩
  · exact ⟨_, _, rfl, rfl⟩

/-- A task of a visit that is gone does not come back. -/
theorem Beats.alive {x y : World × Stage} (b : Beats x y) (home : (x.1.task t).home = some v)
    (alive : (y.1.task t).isAlive = true) : (x.1.task t).isAlive = true := by
  induction b with
  | refl => exact alive
  | tail before beat ih => exact ih (Beat.alive beat ((Beats.lasting before).homes home) alive)

/-! ## Visits that are left -/

namespace World.Departs

/-- A task of a visit that is being left has no turn. -/
theorem off (d : w.Departs v e) (h : scn.Reaches w) (home : (w.task t).home = some v) :
    w.running ≠ some t := by
  intro turn
  cases d.phase.symm.trans (h.orderly.loyal.turn t v turn home)

/-- It was told to go. -/
theorem aborted (d : w.Departs v e) (h : scn.Reaches w) (home : (w.task t).home = some v)
    (alive : (w.task t).isAlive = true) : (w.task t).aborted = true := by
  rw [← Bool.not_eq_false]
  intro whole
  rcases h.orderly.loyal.whole t v ⟨home, alive, whole⟩ with waits | other
  · cases d.phase.symm.trans waits
  · cases other

/-- A task of a visit that is being left stays ready, or is gone. -/
theorem bystander (d : w.Departs v e) (h : scn.Reaches w) (next : w.Next w')
    (mem : t ∈ (w.visit v).working) : w.running = none ∧ w' = w.beginTurn t ∨
      (w'.task t).isAlive = true ∧ (w'.task t).home = some v ∧ w'.IsUp t := by
  have home := h.staffed.listed t v mem
  have alive := (h.staffed.busy v).2 t mem
  rcases next.bystander (d.off h home) (lt_size_of_isAlive alive) with
    ⟨free, -, same⟩ | ⟨-, minds, up⟩
  · exact .inl ⟨free, same⟩
  · exact .inr ⟨(congrArg Option.isNone minds.fate).trans alive, minds.home.trans home,
      up (.inr (d.ready t mem))⟩

/-- The tasks of a visit that is being left stay ready. -/
theorem ready_next (d : w.Departs v e) (h : scn.Reaches w) (next : w.Next w')
    (phase : (w'.runOf v).phase = .draining v e) : ∀ t ∈ (w'.visit v).working, t ∈ w'.queue := by
  intro t mem
  have h' : scn.Reaches w' := h.tail next
  have home' := h'.staffed.listed t v mem
  have alive' := (h'.staffed.busy v).2 t mem
  have home := h.staff (congrArg Phase.visit? d.phase) next home'
  have alive := Beats.alive (Beats.next h.sound next) home alive'
  have old := h.staffed.working t v home alive
  rcases d.bystander h next old with ⟨-, rfl⟩ | ⟨-, -, turn | ready⟩
  · rw [isAlive_beginTurn alive (d.aborted h home alive)] at alive'
    cases alive'
  · cases phase.symm.trans (h'.orderly.loyal.turn t v turn home')
  · exact ready

/-- When the tasks of a visit that is being left are gone, the host of its run is up. -/
theorem hears_next (d : w.Departs v e) (h : scn.Reaches w) (next : w.Next w')
    (off : w.running ≠ some (w.runOf v).host) (whole : (w.task (w.runOf v).host).aborted = false)
    (phase : (w'.runOf v).phase = .draining v e) (gone : (w'.visit v).working = []) :
    w'.IsUp (w'.runOf v).host := by
  have h' : scn.Reaches w' := h.tail next
  have hosts := h.sound.host _ (show (w.runOf v).phase ≠ .ended by simp [d.phase])
  have alive' := (h'.sound.host _ (show (w'.runOf v).phase ≠ .ended by simp [phase])).alive
  cases here : (w.visit v).working with
  | nil =>
    rw [(h.owner (congrArg Phase.visit? d.phase) next).2]
    rcases next.bystander off (lt_size_of_isAlive hosts.alive) with ⟨-, -, rfl⟩ | ⟨-, -, up⟩
    · refine .inl ?_
      unfold beginTurn
      rw [if_neg (by simpa using whole)]
    · exact up (d.hears here)
  | cons t rest =>
    have mem : t ∈ (w.visit v).working := here ▸ List.mem_cons_self
    have home := h.staffed.listed t v mem
    rcases d.bystander h next mem with ⟨-, rfl⟩ | ⟨serving, home', -⟩
    · have alive := (h.staffed.busy v).2 t mem
      obtain ⟨x, fate, ended, home'⟩ := beginTurn_eq_endTask alive (d.aborted h home alive)
      have opened : ((w.beginTurn t).visit v).closed = false := by
        rw [← Bool.not_eq_true, h'.enclosed.1.shut v]
        exact h'.not_left (congrArg Phase.visit? phase)
      rw [ended] at opened alive' ⊢
      exact isUp_endTask (home'.trans home) opened alive'
    · have listed := h'.staffed.working t v home' serving
      rw [gone] at listed
      cases listed

/-- In a move of its host, a visit that is being left is looked at, or it is left. -/
theorem move (d : w.Departs v e) (h : scn.Reaches w) (turn : w.running = some (w.runOf v).host)
    (patient : ∀ rest r deadline,
      (w.task (w.runOf v).host).job = .control rest (.running r deadline) → w.now < deadline) :
    (w.move (w.runOf v).host).Departs v e ∨
      (w.visit v).working = [] ∧ (w.visit v).finished = [] := by
  have next : w.Next (w.move (w.runOf v).host) := .move turn
  have leaves : w.Leaves (w.runOf v).host (w.visit v).run v e := ⟨turn, rfl, d.phase⟩
  -- The host hears of a task that is gone, waits for one that is not, or has nothing left to do.
  cases finished : (w.visit v).finished with
  | cons u rest =>
    have heard := leaves.look h.sound finished
    have phase : ((w.move (w.runOf v).host).runOf v).phase = .draining v e := by
      rw [heard.runOf, d.phase]
    refine .inl ⟨phase, d.ready_next h next phase, fun _ => .inl ?_⟩
    rw [heard.runOf, heard.running, turn]
  | nil =>
    cases working : (w.visit v).working with
    | nil => exact .inr ⟨rfl, rfl⟩
    | cons u rest =>
      have parks : w.advance (w.visit v).run = (w, .parked) := by
        have phase : (w.run (w.visit v).run).phase = .draining v e := d.phase
        simp only [advance, phase, drain, finished, working]
        rfl
      have going : (w.run (w.visit v).run).phase ≠ .ended := by
        simp [show (w.run (w.visit v).run).phase = _ from d.phase]
      obtain ⟨visits, runs⟩ :=
        h.sound.parks going parks fun rest deadline => patient rest _ deadline
      have visit : (w.move (w.runOf v).host).visit v = w.visit v := congrArg (Table.get · v) visits
      have phase : ((w.move (w.runOf v).host).runOf v).phase = .draining v e :=
        (congrArg Run.phase (runOf_congr visits runs v)).trans d.phase
      refine .inl ⟨phase, d.ready_next h next phase, fun gone => ?_⟩
      rw [visit, working] at gone
      cases gone

/-- A visit is being left until its host leaves it. -/
theorem step (d : w.Departs v e) (h : scn.Reaches w) (next : w.Next w') (keeps : w.Keeps v w') :
    w'.Departs v e ∨ w.running = some (w.runOf v).host ∧ w' = w.move (w.runOf v).host ∧
      (w.visit v).working = [] ∧ (w.visit v).finished = [] := by
  by_cases turn : w.running = some (w.runOf v).host
  · obtain rfl := keeps.goes turn
    exact (d.move h turn keeps.patient).imp_right fun gone => ⟨turn, rfl, gone⟩
  · have going : (w.run (w.visit v).run).phase ≠ .ended := by
      simp [show (w.run (w.visit v).run).phase = _ from d.phase]
    have phase : (w'.runOf v).phase = .draining v e := by
      rw [(h.owner (congrArg Phase.visit? d.phase) next).1]
      exact (h.still next going turn keeps.whole).trans d.phase
    exact .inl ⟨phase, d.ready_next h next phase, d.hears_next h next turn keeps.whole phase⟩

/-- While a visit is being left, somebody is up. -/
theorem exists_isUp (d : w.Departs v e) : ∃ t, w.IsUp t := by
  cases working : (w.visit v).working with
  | nil => exact ⟨_, d.hears working⟩
  | cons t rest => exact ⟨t, .inr (d.ready t (working ▸ List.mem_cons_self))⟩

/-- So no time passes. -/
theorem now_eq (d : w.Departs v e) (next : w.Next w') (prompt : w'.now = w.now ∨ w.queue = []) :
    w'.now = w.now := by
  rcases prompt with same | empty
  · exact same
  rcases next.now_eq with same | ⟨free, -⟩
  · exact same
  · obtain ⟨t, turn | ready⟩ := d.exists_isUp
    · cases free.symm.trans turn
    · rw [empty] at ready
      cases ready

end World.Departs

/-! ## How visits are left -/

namespace World

/-- Actions that panic include one that does. -/
theorem panics_of_runPhrase {phrase : Phrase} (broken : (w.runPhrase v phrase).2 = true) :
    ((w.visit v).state.chain phrase).Panics := by
  have one (announce : Nat → Mark) (actions : List Script) (w : World) (k : Nat)
      (broken : (w.runChain announce k actions).2 = true) :
      ∃ a ∈ actions, ∃ w : World, (w.runAction {} a).2.2 = true := by
    induction actions generalizing w k with
    | nil => cases broken
    | cons a rest ih =>
      unfold runChain at broken
      split at broken
      · next h => exact ⟨a, List.mem_cons_self, _, congrArg (·.2.2) h⟩
      · obtain ⟨b, mem, panics⟩ := ih _ _ broken
        exact ⟨b, List.mem_cons_of_mem a mem, panics⟩
  have same : w.runPhrase v phrase =
      w.runChain (.acted v phrase) 0 ((w.visit v).state.chain phrase).actions := by
    cases phrase <;> rfl
  exact one _ _ w 0 (same ▸ broken)

/-- A visit is left on a decision that leads to a target by going there. -/
theorem leave_decided {d : Decision} {target : String} (known : r < w.runs.size)
    (own : (w.run r).interpreter < w.interpreters.size)
    (goes : (w.visit v).state.resolve d = .move target) :
    .left v ∈ (w.leave r v (.decided d)).1.marks ∧
      ((w.visit v).state.exitActions.Panics ∧
          ((w.leave r v (.decided d)).1.run r).phase = .ended ∨
        (w.machineOf r).find? target = none ∧
          .returned r (.error (.danglingTransition (w.visit v).state.id d.event target)) ∈
            (w.leave r v (.decided d)).1.marks ∨
        ∃ next, (w.machineOf r).find? target = some next ∧
          (w.leave r v (.decided d)).2 = .busy ∧
          ((w.leave r v (.decided d)).1.run r).phase =
            .arriving next (some (w.visit v).state.id) (some d) ∧
          .moved r ⟨(w.visit v).state.id, d.event, next.id⟩ ∈
            (w.leave r v (.decided d)).1.marks) := by
  have ran := Spares.runPhrase w v .exit
  simp only [leave, exitThen]
  split
  -- An exit action may panic, the target may be missing, or the run goes there.
  · next w₁ eq =>
    have broken : (w.runPhrase v .exit).2 = true := by rw [eq]
    refine ⟨by simp [unwind], .inl ⟨panics_of_runPhrase broken, World.phase_release ..⟩⟩
  · next w₁ eq =>
    rw [eq] at ran
    have state : (w₁.visit v).state = (w.visit v).state := ran.state v
    have machine : (w₁.closeVisit v).machineOf r = w.machineOf r := ran.machineOf known own
    simp only [follow, state, goes, takeTransition, machine]
    split
    · next missing =>
      exact ⟨by simp [conclude, trace], .inr (.inl ⟨missing, by simp [conclude]⟩)⟩
    · next next found =>
      have hop : .moved r ⟨(w.visit v).state.id, d.event, next.id⟩ ∈
          (((w₁.closeVisit v).trace (.moving ⟨(w.visit v).state.id, d.event, next.id⟩)).mark
            (.moved r ⟨(w.visit v).state.id, d.event, next.id⟩)).marks := by simp
      have left : .left v ∈
          (((w₁.closeVisit v).trace (.moving ⟨(w.visit v).state.id, d.event, next.id⟩)).mark
            (.moved r ⟨(w.visit v).state.id, d.event, next.id⟩)).marks := by simp [trace]
      exact ⟨left, .inr (.inr ⟨next, found, rfl, by simp [run_modifyRun], hop⟩)⟩

/-- The end of a wait goes on at once, unless the cleanup panics. -/
theorem tearDown_goes (w : World) (r : RunId) (v : VisitId) (e : Ending) :
    (w.visit v).state.cleanup.Panics ∧ ((w.tearDown r v e).1.run r).phase = .ended ∧
        .left v ∈ (w.tearDown r v e).1.marks ∨
      (w.tearDown r v e).2 = .busy ∧ ((w.tearDown r v e).1.run r).phase = .draining v e := by
  rcases w.tearDown_spec r v e with ⟨broken, -⟩ | ⟨busy, phase, -⟩
  · left
    rw [tearDown_eq] at broken ⊢
    have torn :=
      Spares.tearScope (c := none) ((w.setPhase r (.draining v e)).mark (.concluded v e)) v
    split at broken
    · next w₁ eq =>
      have panics : _ = true := congrArg Prod.snd eq
      have panics := panics_of_runPhrase panics
      rw [torn.state] at panics
      exact ⟨panics, World.phase_release .., by simp [unwind]⟩
    · cases broken
  · exact .inr ⟨busy, phase⟩

end World

namespace Scenario.Reaches

/-- A run that its host has brought to an end stays so. -/
theorem ended_move (h : scn.Reaches w) (hosts : w.Hosts t r) (turn : w.running = some t)
    (ended : ((w.advance r).1.run r).phase = .ended) : ((w.move t).run r).phase = .ended := by
  obtain ⟨paces, after⟩ := Beats.drive h.sound ⟨turn, hosts.job⟩
  obtain ⟨tends, -⟩ := Deeds.drive h.orderly hosts.alive hosts.job
  have there := Nat.lt_of_lt_of_le hosts.known tends.anchored.runs
  exact after.ended (h.orderly.beats paces.beats) there ended

/-- The tasks of a visit whose wait has ended are ready to go. -/
theorem ready_of_ended (h : scn.Reaches w) (p : w.Polls v)
    (phase : ((w.move (w.runOf v).host).runOf v).phase = .draining v e) :
    ∀ t ∈ ((w.move (w.runOf v).host).visit v).working, t ∈ (w.move (w.runOf v).host).queue := by
  intro t mem
  have next : w.Next (w.move (w.runOf v).host) := .move p.turn
  have h' : scn.Reaches (w.move (w.runOf v).host) := h.tail next
  have home' := h'.staffed.listed t v mem
  have alive' := (h'.staffed.busy v).2 t mem
  have home := h.staff (congrArg Phase.visit? p.waits) next home'
  have alive := Beats.alive (Beats.next h.sound next) home alive'
  -- They were told to go by the move.
  have aborted : ((w.move (w.runOf v).host).task t).aborted = true := by
    rw [← Bool.not_eq_false]
    intro whole
    rcases h'.orderly.loyal.whole t v ⟨home', alive', whole⟩ with waits | other
    · cases phase.symm.trans waits
    · cases other
  have other : t ≠ (w.runOf v).host := by
    rintro rfl
    have hosts := h.sound.host _ (show (w.runOf v).phase ≠ .ended by simp [p.waits])
    exact h.orderly.crewed.apart _ v _ home alive hosts.job rfl
  exact (Strokes.move w).told other (World.lt_size_of_isAlive alive) (h.not_aborted p.waits home)
    aborted

/-- A visit is being left from the end of its wait on, unless the cleanup panics. -/
theorem departs (h : scn.Reaches w) (p : w.Polls v) (found : w.finding? v = some e) :
    (w.move (w.runOf v).host).Departs v e ∨
      (w.visit v).state.cleanup.Panics ∧ ((w.move (w.runOf v).host).runOf v).phase = .ended ∧
        .left v ∈ (w.move (w.runOf v).host).marks := by
  have hosts := h.sound.host _ (show (w.runOf v).phase ≠ .ended by simp [p.waits])
  have own := h.sound.waits _ v (congrArg Phase.visit? p.waits)
  obtain ⟨owner, host⟩ := h.owner (congrArg Phase.visit? p.waits) (.move p.turn)
  have tears : w.advance (w.visit v).run = (w.looked v).tearDown (w.visit v).run v e := by
    rw [p.inspects, World.inspect_eq rfl, found, Option.elim_some]
  rcases (w.looked v).tearDown_goes (w.visit v).run v e with ⟨panics, ended, left⟩ | ⟨busy, phase⟩
  · rw [(Defers.looked w v).state v own.known] at panics
    rw [← tears] at ended left
    refine .inr ⟨panics, ?_, (p.advances h.sound).1.marks.subset left⟩
    rw [owner]
    exact h.ended_move hosts p.turn ended
  · rw [← tears] at busy phase
    obtain ⟨move, drives, -⟩ := h.goesOn ⟨p.turn, hosts.job⟩ busy
    have phase' : ((w.move (w.runOf v).host).runOf v).phase = .draining v e := by
      rw [owner]
      exact (congrArg (fun x : World => (x.run (w.visit v).run).phase) move).trans phase
    refine .inl ⟨phase', h.ready_of_ended p phase', fun _ => .inl ?_⟩
    rw [host, drives.turn]

end Scenario.Reaches

/-- When its tasks are gone, a visit is left as its decision says. -/
theorem World.Departs.led {d : Decision} {target : String} (h : w.Departs v (.decided d))
    (reach : scn.Reaches w) (turn : w.running = some (w.runOf v).host)
    (gone : (w.visit v).working = [] ∧ (w.visit v).finished = [])
    (goes : (w.visit v).state.resolve d = .move target) :
    .left v ∈ (w.move (w.runOf v).host).marks ∧
      w.LedTo (w.move (w.runOf v).host) v d target := by
  have going : (w.run (w.visit v).run).phase ≠ .ended := by
    simp [show (w.run (w.visit v).run).phase = _ from h.phase]
  have hosts := reach.sound.host _ going
  have drives : w.Drives (w.runOf v).host (w.visit v).run := ⟨turn, hosts.job⟩
  obtain ⟨owner, -⟩ := reach.owner (congrArg Phase.visit? h.phase) (.move turn)
  obtain ⟨known, own⟩ := reach.drives_goes drives
  have leaves : w.advance (w.visit v).run = w.leave (w.visit v).run v (.decided d) := by
    have phase : (w.run (w.visit v).run).phase = .draining v (.decided d) := h.phase
    simp only [advance, phase, drain, gone, if_true]
  have past := (reach.sound.advances going).1.marks
  obtain ⟨left, goes⟩ := w.leave_decided known own goes
  rw [← leaves] at left goes
  refine ⟨past.subset left, ?_⟩
  rcases goes with ⟨panics, ended⟩ | ⟨missing, back⟩ | ⟨next, found, busy, phase, moved⟩
  · refine .panics (.inr panics) ?_
    rw [owner]
    exact reach.ended_move hosts turn ended
  · exact .dangles missing (past.subset back)
  · refine .arrives found ?_ (past.subset moved)
    rw [owner]
    obtain ⟨move, -⟩ := reach.goesOn drives busy
    exact (congrArg (fun x : World => (x.run (w.visit v).run).phase) move).trans phase

/-- A visit is waited for until its host ends the wait, as long as its run is not dropped. -/
theorem Scenario.Reaches.waits_on (h : scn.Reaches w) (phase : (w.runOf v).phase = .waiting v)
    (next : w.Next w') (keeps : w.Keeps v w') :
    (w'.runOf v).phase = .waiting v ∨
      w.running = some (w.runOf v).host ∧ w' = w.move (w.runOf v).host ∧
        ∃ e, w.finding? v = some e := by
  have going : (w.run (w.visit v).run).phase ≠ .ended := by
    simp [show (w.run (w.visit v).run).phase = _ from phase]
  have hosts := h.sound.host _ going
  obtain ⟨owner, -⟩ := h.owner (congrArg Phase.visit? phase) next
  by_cases turn : w.running = some (w.runOf v).host
  · obtain rfl := keeps.goes turn
    have polls : w.Polls v := ⟨turn, phase⟩
    cases found : w.finding? v with
    | some e => exact .inr ⟨turn, rfl, e, rfl⟩
    -- In a poll that finds nothing, the host hears of a task, or rests.
    | none =>
      refine .inl ?_
      have looks : w.advance (w.visit v).run =
          (w.looked v, if (w.visit v).finished = [] then .parked else .busy) := by
        rw [polls.inspects, World.inspect_eq rfl, found, Option.elim_none]
      have looked : ((w.looked v).run (w.visit v).run).phase = .waiting v := by
        unfold World.looked
        split
        · exact phase
        · simp only
          split <;> exact phase
      rw [owner]
      by_cases none : (w.visit v).finished = []
      · rw [if_pos none] at looks
        obtain ⟨-, runs⟩ := h.sound.parks going looks fun rest deadline =>
          keeps.patient rest _ deadline
        exact (congrArg (fun t : Table Run => (t.get (w.visit v).run).phase) runs).trans looked
      · rw [if_neg none] at looks
        obtain ⟨move, -⟩ := h.goesOn ⟨turn, hosts.job⟩ (congrArg Prod.snd looks)
        exact (congrArg (fun x : World => (x.run (w.visit v).run).phase)
          (move.trans (congrArg Prod.fst looks))).trans looked
  · refine .inl ?_
    rw [owner]
    exact (h.still next going turn keeps.whole).trans phase

end

end Statechart
