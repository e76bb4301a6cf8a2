import Statechart.Proofs.Chores

/-!
# Beats

The moves of the engine, taken apart into changes that are each seen as one: a *beat*. Between
two beats of a run's move the world alone does not say how far the move has come, so a beat goes
from a world and a stage to a world and a stage.

There are three kinds. A `Stir` is something that scripts do, at whatever stage; a `Shift` is a
change in the life of a task between the moves of runs; a `Stride` takes a run further.

## Main definitions

- `Spot`, `Stage`: how far the move of a run has come.
- `Stir`, `Shift`, `Stride`, `Beat`: the changes that count.
- `Steady`: what stirs and shifts keep.

## Main statements

- `Stir.steady`, `Shift.steady`: only strides take runs further.
-/

namespace Statechart

/-! ## Stages -/

/-- How far the move of a run has come. -/
inductive Spot where
  /-- The observers are being told of the change to a state, and some have not heard yet. -/
  | told (state : State) (change : Change) (rest : List ChangeHandler)
  /-- So many actions of a visit of one kind have begun. -/
  | acting (visit : VisitId) (phrase : Phrase) (count : Nat)
  /-- The enter actions of a visit are done. -/
  | arrived (visit : VisitId)
  /-- So many parts of the work of a visit are being set up or are already. -/
  | launching (visit : VisitId) (count : Nat)
  /-- The work of a visit was given up, and so many cleanup actions have begun. -/
  | forsaken (visit : VisitId) (count : Nat)
  /-- A visit has been left as it should be. -/
  | left (visit : VisitId)
  /-- The observers are being told that the machine is done, and some have not heard yet. -/
  | announced (rest : List DoneHandler)
  /-- Something panicked, or the run was dropped: there is nothing left but to give up the slot. -/
  | broken
  /-- There is nothing to do until the host is woken. -/
  | idle
  /-- The run has ended, and its host does not know yet. -/
  | finished

/-- Where the engine is: between moves, or within the move of a run that a task drives. -/
inductive Stage where
  | rest
  | busy (host : TaskId) (run : RunId) (spot : Spot)

namespace Stage

/-- The run in whose move the engine is. -/
def run? : Stage → Option RunId
  | .rest => none
  | .busy _ r _ => some r

/-- The visit whose callback a set-up may have in its hands. -/
def lent? : Stage → Option VisitId
  | .busy _ _ (.launching v _) => some v
  | _ => none

/-- Whether the run has looked around and found nothing to do. -/
def isIdle : Stage → Bool
  | .busy _ _ .idle => true
  | _ => false

end Stage

/-! ## Conditions of beats -/

/-- The actions of a state of one kind. -/
def State.chain (s : State) : Phrase → ActionChain
  | .enter => s.enterActions
  | .cleanup => s.cleanup
  | .exit => s.exitActions

/-- The parts of the work of a state, in the order in which they are set up. -/
def State.parts (s : State) : List Part :=
  (List.range s.services.length).map .service ++ (List.range s.activities.length).map .activity

/-- Whether the exit actions of a state run after an ending. -/
def Ending.exits (s : State) : Ending → Prop
  | .decided _ => True
  | .settled => s.mode = .final
  | .stopped => False
  | .panicked => False

/-- What a run does once it has left a state. -/
inductive Aftermath where
  /-- It goes on to the next state. -/
  | move (next : State) (decision : Decision)
  /-- The machine is done. -/
  | announce
  /-- The run returns. -/
  | back (result : RunResult)

/-- What comes of a decision that has ended a stay. -/
def Machine.afterDecision (m : Machine) (s : State) (d : Decision) : Aftermath :=
  match s.resolve d with
  | .move target =>
    match m.find? target with
    | some next => .move next d
    | none => .back (.error (.danglingTransition s.id d.event target))
  | .done => .announce
  | .settled => .back (.ok (.settled s.id))
  | .failed fault => .back (.error (.serviceFailed s.id fault))

/-- What comes of the end of a stay in a state. -/
def Machine.aftermath (m : Machine) (s : State) : Ending → Aftermath
  | .decided d => m.afterDecision s d
  | .settled => if s.mode = .final then .announce else .back (.ok (.settled s.id))
  | .stopped => .back (.ok .stopped)
  | .panicked => .back (.error (.taskPanicked s.id))

/-- Whether some action of a chain can panic. -/
def ActionChain.Panics (c : ActionChain) : Prop :=
  ∃ a ∈ c.actions, ∃ w : World, (w.runAction {} a).2.2 = true

/-- A task that belongs to no visit and drives no run. -/
structure Task.IsPlain (x : Task) : Prop where
  alive : x.isAlive = true
  aborted : x.aborted = false
  home : x.home = none
  run? : x.job.run? = none

namespace World

/-- Whether scripts can lay hands on the callback of a visit. -/
def Usable (w : World) (σ : Stage) (v : VisitId) : Prop :=
  w.isHeld v = true ∨ σ.lent? = some v

/-- What a visit that looks around sees. -/
inductive Sees (w : World) (r : RunId) (v : VisitId) : Ending → Prop where
  | stopped (stop : (w.run r).cancelled = true) : Sees w r v .stopped
  | decided {d : Decision} (free : (w.run r).cancelled = false)
      (news : (w.visit v).inbox = some d) : Sees w r v (.decided d)
  | panicked {t : TaskId} (free : (w.run r).cancelled = false)
      (news : (w.visit v).inbox = none) (fate : (w.task t).fate = some .panicked) :
      Sees w r v .panicked
  | settled (free : (w.run r).cancelled = false) (news : (w.visit v).inbox = none)
      (held : w.isHeld v = false) (finished : (w.visit v).finished = [])
      (working : (w.visit v).working = []) : Sees w r v .settled

/-- The tasks of a visit that are left are on their way out. -/
def Dismissed (w : World) (v : VisitId) : Prop :=
  ∀ t ∈ (w.visit v).working, (w.task t).isAlive = true → (w.task t).aborted = true

/-- A task that is aborted while it is alive is on its way out. -/
theorem aborted_abort (w : World) (t : TaskId) (alive : ((w.abort t).task t).isAlive = true) :
    ((w.abort t).task t).aborted = true := by
  unfold abort at alive ⊢
  split at alive
  · next h =>
    rw [if_pos h]
    rw [alive] at h
    simpa using h
  · next h =>
    rw [if_neg h]
    unfold enqueue
    split <;> simp [modifyTask]

theorem dismissed_abortWork (w : World) (v : VisitId) : (w.abortWork v).Dismissed v := by
  have all (ts : List TaskId) (w : World) (t : TaskId) (h : t ∈ ts)
      (alive : ((ts.foldl abort w).task t).isAlive = true) :
      ((ts.foldl abort w).task t).aborted = true := by
    induction ts generalizing w with
    | nil => cases h
    | cons u ts ih =>
      rcases List.mem_cons.1 h with rfl | h
      · -- Who is aborted first stays aborted while the others are.
        have others := (Frame.abortAll (w.abort t) ts).task t
        exact others.aborted (w.aborted_abort t (others.isAlive ▸ alive))
      · exact ih (w.abort u) h alive
  intro t ht alive
  rw [((Frame.abortWork w v).visit v).working] at ht
  exact all _ w t ht alive

/-- Whether a task has the turn and drives a run. -/
structure Drives (w : World) (t : TaskId) (r : RunId) : Prop where
  turn : w.running = some t
  job : (w.task t).job.run? = some r

/-- A new phase of a run. -/
def setPhase (w : World) (r : RunId) (phase : Phase) : World :=
  w.modifyRun r fun x => { x with phase }

/-- A stop of a run that has not been stopped before. -/
def stopRun (w : World) (r : RunId) : World :=
  (w.mark (.stopAsked r)).modifyRun r fun x => { x with cancelled := true }

/-- A transition of a run is recorded in the history of its interpreter. -/
def record (w : World) (r : RunId) (hop : Hop) : World :=
  (w.mark (.moved r hop)).modifyInterpreter (w.run r).interpreter fun x =>
    { x with history := x.history.push hop }

/-- A run goes on to the next state. -/
def goTo (w : World) (r : RunId) (source next : State) (d : Decision) : World :=
  (w.record r ⟨source.id, d.event, next.id⟩).setPhase r
    (.arriving next (some source.id) (some d))

/-- A new run of an interpreter, with a new task that drives it. -/
def startNew (w : World) (i : InterpreterId) (s : State) : World :=
  (w.takeSlot i w.tasks.size s).spawn { job := .drive w.runs.size none }

/-- The end of a task, before anybody hears of it. -/
def bury (w : World) (t : TaskId) (fate : Fate) : World :=
  ({ w with
    running := if w.running = some t then none else w.running
    queue := w.queue.erase t }.modifyTask t fun x =>
      { x with job := .script [], wait := none, guards := [], fate := some fate }).mark
    (.ended t fate)

/-- An event is put into the inbox of a visit. -/
def commit (w : World) (v : VisitId) (d : Decision) : World :=
  w.modifyVisit v fun x => { x with fired := true, inbox := some d }

/-- An event takes effect on a visit. -/
def accept (w : World) (v : VisitId) (d : Decision) : World :=
  (((w.commit v d).notifyInbox v).trace (.accepted (w.visit v).state.id d.event)).mark
    (.raised v d true)

/-- The visit that a task worked for hears of its end. -/
def withdraw (w : World) (t : TaskId) : Option VisitId → World
  | some v => w.modifyVisit v fun y =>
      { y with working := y.working.erase t, finished := y.finished ++ [t] }
  | none => w

/-- A run returns, and gives up its slot. -/
def endRun (w : World) (r : RunId) (result : RunResult) : World :=
  (w.mark (.returned r result)).release r result.status

/-- A new visit of a run to a state. -/
def pushVisit (w : World) (r : RunId) (s : State) : World :=
  ({ w with visits := w.visits.push { state := s, run := r } }.trace
    (.entering s.id s.mode)).mark (.entered r w.visits.size)

@[simp]
theorem marks_startNew (w : World) (i : InterpreterId) (s : State) :
    (w.startNew i s).marks = w.marks ++ [.began w.runs.size] :=
  w.marks_takeSlot ..

@[simp]
theorem marks_setPhase (w : World) (r : RunId) (p : Phase) : (w.setPhase r p).marks = w.marks := rfl

@[simp]
theorem marks_stopRun (w : World) (r : RunId) : (w.stopRun r).marks = w.marks ++ [.stopAsked r] :=
  marks_mark ..

@[simp]
theorem marks_limitHistory (w : World) (i : InterpreterId) (n : Nat) :
    (w.limitHistory i n).marks =
      w.marks ++ [.limited i (w.interpreter i).history.limit n] :=
  marks_mark ..

@[simp]
theorem marks_record (w : World) (r : RunId) (hop : Hop) :
    (w.record r hop).marks = w.marks ++ [.moved r hop] :=
  marks_mark ..

@[simp]
theorem marks_goTo (w : World) (r : RunId) (source next : State) (d : Decision) :
    (w.goTo r source next d).marks = w.marks ++ [.moved r ⟨source.id, d.event, next.id⟩] :=
  marks_mark ..

@[simp]
theorem marks_closeVisit (w : World) (v : VisitId) :
    (w.closeVisit v).marks = w.marks ++ [.left v] :=
  marks_mark ..

@[simp]
theorem marks_release (w : World) (r : RunId) (status : Status) :
    (w.release r status).marks = w.marks ++ [.released r status] :=
  marks_mark ..

@[simp]
theorem marks_endRun (w : World) (r : RunId) (result : RunResult) :
    (w.endRun r result).marks = w.marks ++ [.returned r result, .released r result.status] := by
  simp [endRun]

@[simp]
theorem marks_spawnFor (w : World) (v : VisitId) (x : Task) :
    (w.spawnFor v x).marks = w.marks := rfl

/-- A new task of a visit comes after all others. -/
theorem task_spawnFor (w : World) (v : VisitId) (x : Task) (t : TaskId) :
    (w.spawnFor v x).task t =
      if t = w.tasks.size then { x with home := some v } else w.task t := by
  simp only [spawnFor, spawn, modifyVisit, task_mk, Table.get_push]
  rfl

theorem task_spawnFor_of_lt {w : World} {t : TaskId} (known : t < w.tasks.size) (v : VisitId)
    (x : Task) : (w.spawnFor v x).task t = w.task t := by
  rw [task_spawnFor, if_neg (Nat.ne_of_lt known)]

/-- The visit lists its new task last. -/
theorem visit_spawnFor (w : World) (v : VisitId) (x : Task) (u : VisitId) :
    (w.spawnFor v x).visit u =
      if u = v then { w.visit u with working := (w.visit u).working ++ [w.tasks.size] }
      else w.visit u :=
  w.visit_modifyVisit ..

@[simp]
theorem marks_pushVisit (w : World) (r : RunId) (s : State) :
    (w.pushVisit r s).marks = w.marks ++ [.entered r w.visits.size] := by
  simp [pushVisit, trace, Entry.mark?]

@[simp]
theorem run_mark (w : World) (m : Mark) (r : RunId) : (w.mark m).run r = w.run r := rfl

@[simp]
theorem run_closeVisit (w : World) (v : VisitId) (r : RunId) :
    (w.closeVisit v).run r = w.run r := rfl

@[simp]
theorem state_closeVisit (w : World) (v u : VisitId) :
    ((w.closeVisit v).visit u).state = (w.visit u).state := by
  simp only [closeVisit, mark, log, modifyVisit, visit_mk, Table.get_modify]
  split <;> rfl

@[simp]
theorem run_abortWork (w : World) (v : VisitId) (r : RunId) : (w.abortWork v).run r = w.run r :=
  (Frame.abortWork w v).run_eq r

@[simp]
theorem marks_abortWork (w : World) (v : VisitId) : (w.abortWork v).marks = w.marks :=
  (Frame.abortWork w v).marks

end World

/-! ## Beats -/

/-- Something that scripts do, or that is of no account. -/
inductive Stir (σ : Stage) : World → World → Prop where
  /-- Something of no account happens; whoever has looked around has seen it. -/
  | chore {w w' : World} (h : Chore w w') (seen : σ.isIdle = true → w'.visits = w.visits) :
      Stir σ w w'
  | refuse {w : World} (v : VisitId) (d : Decision) : Stir σ w (w.mark (.raised v d false))
  /-- An event comes too late, and the visit is committed all the same. -/
  | miss {w : World} (v : VisitId) (closed : (w.visit v).closed = true) :
      Stir σ w (w.modifyVisit v fun x => { x with fired := true })
  | accept {w : World} (v : VisitId) (d : Decision) (use : w.Usable σ v)
      (eyes : σ.isIdle = false) (first : (w.visit v).fired = false)
      (opened : (w.visit v).closed = false) : Stir σ w (w.accept v d)
  /-- A stop is asked for once more. -/
  | ask {w : World} (i : InterpreterId) (r : RunId) (slot : (w.interpreter i).slot = some r)
      (stopped : (w.run r).cancelled = true) : Stir σ w (w.mark (.stopAsked r))
  | cancel {w : World} (i : InterpreterId) (r : RunId)
      (slot : (w.interpreter i).slot = some r) : Stir σ w (w.stopRun r)
  /-- The history of an interpreter is limited. -/
  | limit {w : World} (i : InterpreterId) (limit : Nat) : Stir σ w (w.limitHistory i limit)
  | keep {w : World} (kept : List (String × VisitId))
      (use : ∀ k ∈ kept, k ∈ w.kept ∨ w.Usable σ k.2) : Stir σ w { w with kept }
  | spawn {w : World} (x : Task) (plain : x.IsPlain)
      (use : ∀ v, x.holds v = true → w.Usable σ v) : Stir σ w (w.spawn x)
  | start {w : World} (i : InterpreterId) (s : State) (free : (w.interpreter i).slot = none)
      (first : (w.interpreter i).machine.startState = .ok s) : Stir σ w (w.startNew i s)

/-- A change in the life of a task, after which no run is in a move. -/
inductive Shift : World × Stage → World → Prop where
  | turn {w : World} {t : TaskId} (free : w.running = none) (ready : t ∈ w.queue)
      (whole : (w.task t).aborted = false) :
      Shift (w, .rest)
        { { w with queue := w.queue.erase t }.mark (.turn t) with running := some t }
  /-- The turn of a task that was aborted comes, and it will be dropped. -/
  | unqueue {w : World} {t : TaskId} (free : w.running = none)
      (aborted : (w.task t).aborted = true) :
      Shift (w, .rest) { w with queue := w.queue.erase t }
  | park {w : World} {σ : Stage} {t : TaskId} (turn : w.running = some t)
      (ease : σ = .rest ∧ (w.task t).job.run? = none ∨ ∃ r, σ = .busy t r .idle) :
      Shift (w, σ) (w.park t)
  /-- A task ends. One that ends in another's turn was dropped. -/
  | retire {w w' : World} {σ : Stage} {t : TaskId} {fate : Fate}
      (alive : (w.task t).isAlive = true)
      (ease : σ = .rest ∧ (w.task t).job.run? = none ∨ ∃ r, σ = .busy t r .finished)
      (late : w.running ≠ some t → fate = .dropped ∨ fate = .panicked)
      (chores : Relation.ReflTransGen Chore (w.bury t fate) w') :
      Shift (w, σ) (w'.withdraw t (w.task t).home)
  | begin {w : World} {t : TaskId} {job : Job} (i : InterpreterId) (s : State)
      (turn : w.running = some t) (ease : (w.task t).job.run? = none)
      (free : (w.interpreter i).slot = none) (drives : job.run? = some w.runs.size)
      (first : (w.interpreter i).machine.startState = .ok s) :
      Shift (w, .rest) ((w.takeSlot i t s).setJob t job)
  | resume {w : World} {t : TaskId} {r : RunId} {job : Job} (turn : w.running = some t)
      (ease : job.run? = none) :
      Shift (w, .busy t r .finished) (w.setJob t job)

/-- A task takes the run that it drives further. -/
inductive Stride (t : TaskId) (r : RunId) : World × Stage → World × Stage → Prop where
  -- Arriving at a state.
  | depart {w : World} {s : State} (drives : w.Drives t r) (phase : (w.run r).phase = .begun s) :
      Stride t r (w, .rest) (w.setPhase r (.arriving s none none), .rest)
  | tell {w : World} {s : State} {previous : Option String} {cause : Option Decision}
      (drives : w.Drives t r) (phase : (w.run r).phase = .arriving s previous cause)
      (free : (w.run r).cancelled = false) :
      Stride t r (w, .rest) (w.mark (.notified r ⟨s.id, previous, cause⟩),
        .busy t r (.told s ⟨s.id, previous, cause⟩
          (w.interpreter (w.run r).interpreter).changeHandlers))
  | hear {w : World} {s : State} {c : Change} {h : ChangeHandler} {rest : List ChangeHandler} :
      Stride t r (w, .busy t r (.told s c (h :: rest)))
        (w.log (.changed h.label c), .busy t r (.told s c rest))
  | visit {w : World} {s : State} {c : Change} :
      Stride t r (w, .busy t r (.told s c []))
        (w.pushVisit r s, .busy t r (.acting w.visits.size .enter 0))
  | act {w : World} {v : VisitId} {phrase : Phrase} {k : Nat}
      (more : k < ((w.visit v).state.chain phrase).actions.length)
      (torn : phrase = .cleanup → (w.visit v).torn = true) :
      Stride t r (w, .busy t r (.acting v phrase k))
        (w.mark (.acted v phrase k), .busy t r (.acting v phrase (k + 1)))
  | arrive {w : World} {v : VisitId} {k : Nat}
      (all : k = (w.visit v).state.enterActions.actions.length) :
      Stride t r (w, .busy t r (.acting v .enter k))
        (w.mark (.arrived v), .busy t r (.arrived v))
  | pass {w : World} {v : VisitId} (transient : (w.visit v).state.mode = .transient) :
      Stride t r (w, .busy t r (.arrived v))
        ((w.setPhase r (.draining v (.decided ⟨.transient, none⟩))).mark
          (.concluded v (.decided ⟨.transient, none⟩)), .busy t r (.acting v .cleanup 0))
  | ready {w : World} {v : VisitId} (stays : (w.visit v).state.mode ≠ .transient) :
      Stride t r (w, .busy t r (.arrived v)) (w, .busy t r (.launching v 0))
  | launch {w : World} {v : VisitId} {k : Nat} {part : Part}
      (next : (w.visit v).state.parts[k]? = some part) :
      Stride t r (w, .busy t r (.launching v k))
        (w.mark (.launched v part), .busy t r (.launching v (k + 1)))
  | crew {w : World} {v : VisitId} {k : Nat} {x : Task} (plain : x.IsPlain)
      (use : ∀ u, x.holds u = true → u = v) :
      Stride t r (w, .busy t r (.launching v k)) (w.spawnFor v x, .busy t r (.launching v k))
  | wait {w : World} {v : VisitId} {k : Nat} (all : k = (w.visit v).state.parts.length) :
      Stride t r (w, .busy t r (.launching v k)) (w.setPhase r (.waiting v), .rest)
  | forsake {w : World} {v : VisitId} {k : Nat} (dismissed : w.Dismissed v) :
      Stride t r (w, .busy t r (.launching v k)) (w.closeVisit v, .busy t r (.forsaken v 0))
  -- Waiting.
  | look {w : World} {v : VisitId} (drives : w.Drives t r)
      (phase : (w.run r).phase = .waiting v) :
      Stride t r (w, .rest)
        (w.modifyVisit v fun x => { x with listening := w.isHeld v }, .rest)
  | idle {w : World} (drives : w.Drives t r) (suspended : (w.run r).phase.isSuspended = true)
      (blank : ∀ v, (w.run r).phase = .waiting v →
        (w.visit v).inbox = none ∧ (w.visit v).listening = w.isHeld v) :
      Stride t r (w, .rest) (w, .busy t r .idle)
  | conclude {w : World} {v : VisitId} {e : Ending} (drives : w.Drives t r)
      (phase : (w.run r).phase = .waiting v) (sees : w.Sees r v e) :
      Stride t r (w, .rest)
        ((w.setPhase r (.draining v e)).mark (.concluded v e), .busy t r (.acting v .cleanup 0))
  | tear {w : World} {v : VisitId} {spot : Spot}
      (early : spot = .acting v .cleanup 0 ∨ spot = .forsaken v 0) :
      Stride t r (w, .busy t r spot)
        (w.modifyVisit v fun x => { x with torn := true }, .busy t r spot)
  -- Leaving a state.
  | relax {w : World} {v : VisitId} {k : Nat}
      (all : k = (w.visit v).state.cleanup.actions.length) :
      Stride t r (w, .busy t r (.acting v .cleanup k)) (w.abortWork v, .rest)
  | exit {w : World} {v : VisitId} {e : Ending} (drives : w.Drives t r)
      (phase : (w.run r).phase = .draining v e) (gone : (w.visit v).working = [])
      (exits : e.exits (w.visit v).state) :
      Stride t r (w, .rest) (w, .busy t r (.acting v .exit 0))
  | close {w : World} {v : VisitId} {k : Nat}
      (all : k = (w.visit v).state.exitActions.actions.length) :
      Stride t r (w, .busy t r (.acting v .exit k)) (w.closeVisit v, .busy t r (.left v))
  | quit {w : World} {v : VisitId} {e : Ending} (drives : w.Drives t r)
      (phase : (w.run r).phase = .draining v e) (gone : (w.visit v).working = [])
      (stays : ¬ e.exits (w.visit v).state) :
      Stride t r (w, .rest) (w.closeVisit v, .busy t r (.left v))
  | go {w : World} {v : VisitId} {e : Ending} {next : State} {d : Decision}
      (phase : (w.run r).phase = .draining v e)
      (after : (w.machineOf r).aftermath (w.visit v).state e = .move next d) :
      Stride t r (w, .busy t r (.left v)) (w.goTo r (w.visit v).state next d, .rest)
  | announce {w : World} {v : VisitId} {e : Ending} (phase : (w.run r).phase = .draining v e)
      (after : (w.machineOf r).aftermath (w.visit v).state e = .announce) :
      Stride t r (w, .busy t r (.left v)) (w.mark (.announced r),
        .busy t r (.announced (w.interpreter (w.run r).interpreter).doneHandlers))
  | toll {w : World} {h : DoneHandler} {rest : List DoneHandler} :
      Stride t r (w, .busy t r (.announced (h :: rest)))
        (w.log (.done h.label), .busy t r (.announced rest))
  -- The end of a run that returns.
  | halt {w : World} {s : State} {previous : Option String} {cause : Option Decision}
      (drives : w.Drives t r) (phase : (w.run r).phase = .arriving s previous cause)
      (stopped : (w.run r).cancelled = true) :
      Stride t r (w, .rest) (w.endRun r (.ok .stopped), .busy t r .finished)
  | back {w : World} {v : VisitId} {e : Ending} {result : RunResult}
      (phase : (w.run r).phase = .draining v e)
      (after : (w.machineOf r).aftermath (w.visit v).state e = .back result) :
      Stride t r (w, .busy t r (.left v)) (w.endRun r result, .busy t r .finished)
  | done {w : World} :
      Stride t r (w, .busy t r (.announced [])) (w.endRun r (.ok .done), .busy t r .finished)
  -- The end of a run in which something panics, or that is dropped.
  | shut {w : World} {v : VisitId} {phrase : Phrase} {k : Nat}
      (panics : phrase = .cleanup → (w.visit v).state.cleanup.Panics)
      (dismissed : phrase = .cleanup → w.Dismissed v) :
      Stride t r (w, .busy t r (.acting v phrase k)) (w.closeVisit v, .busy t r .broken)
  | tend {w : World} {v : VisitId} {k : Nat}
      (more : k < (w.visit v).state.cleanup.actions.length)
      (torn : (w.visit v).torn = true) :
      Stride t r (w, .busy t r (.forsaken v k))
        (w.mark (.acted v .cleanup k), .busy t r (.forsaken v (k + 1)))
  | tended {w : World} {v : VisitId} {k : Nat}
      (all : k = (w.visit v).state.cleanup.actions.length ∨
        (w.visit v).state.cleanup.Panics) :
      Stride t r (w, .busy t r (.forsaken v k)) (w, .busy t r .broken)
  | unwind {w : World} {spot : Spot}
      (ease : (∃ s c rest, spot = .told s c rest) ∨ (∃ rest, spot = .announced rest) ∨
        spot = .broken) :
      Stride t r (w, .busy t r spot) (w.release r .stopped, .busy t r .finished)
  | dropBegun {w : World} {s : State} (alive : (w.task t).isAlive = true)
      (job : (w.task t).job.run? = some r) (free : w.running = none)
      (phase : (w.run r).phase = .begun s) :
      Stride t r (w, .rest) (w.setPhase r .ended, .busy t r .finished)
  | dropArriving {w : World} {s : State} {previous : Option String} {cause : Option Decision}
      (alive : (w.task t).isAlive = true) (job : (w.task t).job.run? = some r)
      (phase : (w.run r).phase = .arriving s previous cause) (free : w.running = none) :
      Stride t r (w, .rest) (w.setPhase r .ended, .busy t r .broken)
  | dropWaiting {w : World} {σ : Stage} {v : VisitId} (alive : (w.task t).isAlive = true)
      (job : (w.task t).job.run? = some r) (ease : σ = .rest ∨ σ = .busy t r .idle)
      (phase : (w.run r).phase = .waiting v) (turn : w.running = none ∨ w.running = some t) :
      Stride t r (w, σ)
        (((w.setPhase r .ended).abortWork v).closeVisit v, .busy t r (.forsaken v 0))
  | dropDraining {w : World} {σ : Stage} {v : VisitId} {e : Ending}
      (alive : (w.task t).isAlive = true) (job : (w.task t).job.run? = some r)
      (ease : σ = .rest ∨ σ = .busy t r .idle) (phase : (w.run r).phase = .draining v e)
      (turn : w.running = none ∨ w.running = some t) :
      Stride t r (w, σ) ((w.setPhase r .ended).closeVisit v, .busy t r .broken)

/-- A change that counts, at the stage at which it may come. -/
inductive Beat : World × Stage → World × Stage → Prop where
  | stir {w w' : World} {σ : Stage} (h : Stir σ w w') : Beat (w, σ) (w', σ)
  | shift {w w' : World} {σ : Stage} (h : Shift (w, σ) w') : Beat (w, σ) (w', .rest)
  | stride {t : TaskId} {r : RunId} {x y : World × Stage} (h : Stride t r x y) : Beat x y

/-- Any number of beats. -/
abbrev Beats : World × Stage → World × Stage → Prop :=
  Relation.ReflTransGen Beat

/-- A beat within the moves of one run. -/
inductive Pace (t : TaskId) (r : RunId) : World × Stage → World × Stage → Prop where
  | stir {w w' : World} {σ : Stage} (h : Stir σ w w') : Pace t r (w, σ) (w', σ)
  | stride {x y : World × Stage} (h : Stride t r x y) : Pace t r x y

/-- Any number of beats within the moves of one run. -/
abbrev Paces (t : TaskId) (r : RunId) : World × Stage → World × Stage → Prop :=
  Relation.ReflTransGen (Pace t r)

/-! ## Tasks that come to rest -/

namespace World

/-- A task that gives up its turn may be queued at once. -/
theorem park_eq (w : World) (t : TaskId) :
    ∃ queue, (queue = w.queue ∨ t ∉ w.queue ∧ queue = w.queue ++ [t]) ∧
      w.park t = { w.modifyTask t fun x => { x with rewoken := false } with
        running := none, queue } := by
  simp only [park, enqueue]
  split
  · split
    · exact ⟨w.queue, .inl rfl, rfl⟩
    · next new => exact ⟨w.queue ++ [t], .inr ⟨new, rfl⟩, rfl⟩
  · exact ⟨w.queue, .inl rfl, rfl⟩

theorem task_bury_of_ne (w : World) {t u : TaskId} (fate : Fate) (h : u ≠ t) :
    (w.bury t fate).task u = w.task u := by
  simp [bury, mark, log, modifyTask, h]

theorem fate_bury (w : World) (t : TaskId) (fate : Fate) :
    ((w.bury t fate).task t).fate = some fate := by
  simp [bury, mark, log, modifyTask]

@[simp]
theorem task_withdraw (w : World) (t u : TaskId) (home : Option VisitId) :
    (w.withdraw t home).task u = w.task u := by
  unfold withdraw
  split <;> rfl

@[simp]
theorem run_withdraw (w : World) (t : TaskId) (r : RunId) (home : Option VisitId) :
    (w.withdraw t home).run r = w.run r := by
  unfold withdraw
  split <;> rfl

end World

/-- What the end of a task comes to. -/
structure Retired (w : World) (t : TaskId) (fate : Fate) (w' : World) : Prop where
  tasks : w.tasks.size ≤ w'.tasks.size
  task : ∀ u, u ≠ t → (w.task u).Akin (w'.task u)
  ended : (w'.task t).fate = some fate
  home : (w'.task t).home = (w.task t).home
  runs : w.runs.size ≤ w'.runs.size
  run : ∀ r, w'.run r = w.run r
  visits : w.visits.size ≤ w'.visits.size
  state : ∀ v, (w'.visit v).state = (w.visit v).state
  owner : ∀ v, (w'.visit v).run = (w.visit v).run
  closed : ∀ v, (w'.visit v).closed = (w.visit v).closed
  fired : ∀ v, (w'.visit v).fired = (w.visit v).fired
  inbox : ∀ v, (w'.visit v).inbox = (w.visit v).inbox
  working : ∀ v, (w'.visit v).working =
    if (w.task t).home = some v then (w.visit v).working.erase t else (w.visit v).working
  interpreter : ∀ i, (w.interpreter i).Akin (w'.interpreter i)
  history : ∀ i, (w'.interpreter i).history = (w.interpreter i).history
  marks : w'.marks = w.marks ++ [.ended t fate]
  kept : w'.kept = w.kept
  running : w'.running = if w.running = some t then none else w.running
  queue : ∀ u, u ∈ w.queue → u ≠ t → u ∈ w'.queue
  news : ∀ v, (w.visit v).listening = true → (w'.visit v).listening = true ∨
    (w.runOf v).host = t ∨ (w.task (w.runOf v).host).isAlive = false ∨ w'.IsUp (w.runOf v).host

/-- The visit that a task works for changes by the withdrawal alone. -/
theorem World.visit_withdraw (w : World) (t : TaskId) (home : Option VisitId) (v : VisitId) :
    (w.withdraw t home).visit v = if home = some v then
      { w.visit v with
        working := (w.visit v).working.erase t
        finished := (w.visit v).finished ++ [t] } else w.visit v := by
  cases home with
  | none => simp [withdraw]
  | some u =>
    simp only [withdraw, visit_modifyVisit, Option.some.injEq, eq_comm (a := v)]

theorem Retired.of_chores {w w₁ : World} {t : TaskId} {fate : Fate}
    (chores : Relation.ReflTransGen Chore (w.bury t fate) w₁) :
    Retired w t fate (w₁.withdraw t (w.task t).home) := by
  have frame := Frame.of_chores chores
  have home : (w.bury t fate).task t = { w.task t with
      job := .script [], wait := none, guards := [], fate := some fate } := by
    simp [World.bury, World.mark, World.log, World.modifyTask]
  have size : w.tasks.size ≤ (w.bury t fate).tasks.size := Table.size_le_modify ..
  have visit : ∀ v, (w.bury t fate).visit v = w.visit v := fun _ => rfl
  have withdrawn (v : VisitId) := w₁.visit_withdraw t (w.task t).home v
  have rows : (w₁.withdraw t (w.task t).home).runs = w₁.runs ∧
      (w₁.withdraw t (w.task t).home).tasks = w₁.tasks ∧
      (w₁.withdraw t (w.task t).home).interpreters = w₁.interpreters ∧
      (w₁.withdraw t (w.task t).home).marks = w₁.marks ∧
      (w₁.withdraw t (w.task t).home).kept = w₁.kept ∧
      (w₁.withdraw t (w.task t).home).running = w₁.running ∧
      (w₁.withdraw t (w.task t).home).queue = w₁.queue := by
    unfold World.withdraw
    split <;> exact ⟨rfl, rfl, rfl, rfl, rfl, rfl, rfl⟩
  obtain ⟨runs, tasks, interpreters, marks, kept, running, queue⟩ := rows
  constructor
  case tasks => exact tasks ▸ Nat.le_trans size frame.tasks
  case task =>
    intro u hu
    rw [World.task_withdraw, ← w.task_bury_of_ne fate hu]
    exact frame.task u
  case ended => rw [World.task_withdraw, (frame.task t).fate, home]
  case home => rw [World.task_withdraw, (frame.task t).home, home]
  case runs => exact runs ▸ frame.runs
  case run =>
    intro r
    rw [World.run_withdraw]
    exact frame.run_eq r
  case visits =>
    refine Nat.le_trans frame.visits ?_
    unfold World.withdraw
    split
    · exact Table.size_le_modify ..
    · exact Nat.le_refl _
  case state =>
    intro v
    rw [withdrawn, ← visit, ← (frame.visit v).state]
    split <;> rfl
  case owner =>
    intro v
    rw [withdrawn, ← visit, ← (frame.visit v).run]
    split <;> rfl
  case closed =>
    intro v
    rw [withdrawn, ← visit, ← (frame.visit v).closed]
    split <;> rfl
  case fired =>
    intro v
    rw [withdrawn, ← visit, ← frame.fired v]
    split <;> rfl
  case inbox =>
    intro v
    rw [withdrawn, ← visit, ← frame.inbox v]
    split <;> rfl
  case working =>
    intro v
    rw [withdrawn, ← visit, ← (frame.visit v).working]
    split <;> rfl
  case interpreter =>
    intro i
    unfold World.interpreter
    rw [interpreters]
    exact frame.interpreter i
  case history =>
    intro i
    unfold World.interpreter
    rw [interpreters]
    exact frame.history i
  case marks =>
    rw [marks, frame.marks]
    exact World.marks_mark ..
  case kept =>
    rw [kept, frame.kept]
    rfl
  case running =>
    rw [running, frame.running]
    rfl
  case queue =>
    intro u hu ne
    rw [queue]
    exact frame.queue u ((List.mem_erase_of_ne ne).2 hu)
  case news =>
    intro v hv
    have up : ∀ u, w₁.IsUp u → (w₁.withdraw t (w.task t).home).IsUp u := fun u => by
      unfold World.IsUp
      rw [running, queue]
      exact id
    by_cases host : (w.runOf v).host = t
    · exact .inr (.inl host)
    · rcases frame.news v hv with hv | hv | hv
      · refine .inl ?_
        rw [withdrawn]
        split <;> exact hv
      · refine .inr (.inr (.inl ?_))
        have same := w.task_bury_of_ne fate host
        exact same ▸ hv
      · exact .inr (.inr (.inr (up _ hv)))

/-! ## What stirs and shifts keep -/

/-- Marks that say nothing of how runs go from state to state. -/
def Mark.isAside : Mark → Bool
  | .began _ | .stopAsked _ | .turn _ | .ended _ _ | .raised _ _ _ | .limited _ _ _ => true
  | _ => false

/-- No run goes further, though new ones may begin. -/
structure Steady (w w' : World) : Prop where
  runs : w.runs.size ≤ w'.runs.size
  run : ∀ r, r < w.runs.size → (w.run r).Akin (w'.run r)
  fresh : ∀ r, w.runs.size ≤ r →
    (w'.run r).phase = .ended ∨ ∃ s, (w'.run r).phase = .begun s
  visits : w.visits.size ≤ w'.visits.size
  state : ∀ v, (w'.visit v).state = (w.visit v).state
  owner : ∀ v, (w'.visit v).run = (w.visit v).run
  torn : ∀ v, (w'.visit v).torn = (w.visit v).torn
  tasks : w.tasks.size ≤ w'.tasks.size
  home : ∀ t, t < w.tasks.size → (w'.task t).home = (w.task t).home
  marks : ∃ news, w'.marks = w.marks ++ news ∧ ∀ m ∈ news, m.isAside = true

/-- A run that was never begun has ended. -/
theorem World.phase_of_size_le {w : World} {r : RunId} (h : w.runs.size ≤ r) :
    (w.run r).phase = .ended := by
  have : w.run r = default := Table.get_of_size_le h
  exact this ▸ rfl

/-- A task that was never spawned has ended. -/
theorem World.isAlive_of_size_le {w : World} {t : TaskId} (h : w.tasks.size ≤ t) :
    (w.task t).isAlive = false := by
  have : w.task t = default := Table.get_of_size_le h
  exact this ▸ rfl

/-- A task that is alive was spawned. -/
theorem World.lt_size_of_isAlive {w : World} {t : TaskId} (h : (w.task t).isAlive = true) :
    t < w.tasks.size := by
  rcases Nat.lt_or_ge t w.tasks.size with old | new
  · exact old
  · rw [World.isAlive_of_size_le new] at h
    cases h

/-- A run that has not ended was begun. -/
theorem World.lt_size_of_phase {w : World} {r : RunId} (h : (w.run r).phase ≠ .ended) :
    r < w.runs.size :=
  Nat.lt_of_not_le fun new => h (World.phase_of_size_le new)

namespace Steady

variable {w w' w'' : World}

@[refl]
theorem refl (w : World) : Steady w w where
  runs := Nat.le_refl _
  run _ _ := .refl _
  fresh _ h := .inl (World.phase_of_size_le h)
  visits := Nat.le_refl _
  state _ := rfl
  owner _ := rfl
  torn _ := rfl
  tasks := Nat.le_refl _
  home _ _ := rfl
  marks := ⟨[], by simp⟩

theorem trans (h : Steady w w') (h' : Steady w' w'') : Steady w w'' where
  runs := Nat.le_trans h.runs h'.runs
  run r hr := (h.run r hr).trans (h'.run r (Nat.lt_of_lt_of_le hr h.runs))
  fresh r hr := by
    by_cases known : r < w'.runs.size
    · rw [(h'.run r known).phase]
      exact h.fresh r hr
    · exact h'.fresh r (Nat.not_lt.1 known)
  visits := Nat.le_trans h.visits h'.visits
  state v := (h'.state v).trans (h.state v)
  owner v := (h'.owner v).trans (h.owner v)
  torn v := (h'.torn v).trans (h.torn v)
  tasks := Nat.le_trans h.tasks h'.tasks
  home t ht := (h'.home t (Nat.lt_of_lt_of_le ht h.tasks)).trans (h.home t ht)
  marks := by
    obtain ⟨news, hn, aside⟩ := h.marks
    obtain ⟨news', hn', aside'⟩ := h'.marks
    refine ⟨news ++ news', by rw [hn', hn, List.append_assoc], fun m hm => ?_⟩
    exact (List.mem_append.1 hm).elim (aside m) (aside' m)

/-- A run that has not ended stays in its phase. -/
theorem phase (h : Steady w w') {r : RunId} (going : (w.run r).phase ≠ .ended) :
    (w'.run r).phase = (w.run r).phase :=
  (h.run r (World.lt_size_of_phase going)).phase

end Steady

theorem Still.steady {w w' : World} (h : Still w w') (marks : ∃ news, w'.marks = w.marks ++ news ∧
    ∀ m ∈ news, m.isAside = true) : Steady w w' where
  runs := h.runs
  run r _ := h.run r
  fresh r hr := .inl ((h.run r).phase.trans (World.phase_of_size_le hr))
  visits := h.visits
  state v := (h.visit v).state
  owner v := (h.visit v).run
  torn v := (h.visit v).torn
  tasks := h.tasks
  home t _ := (h.task t).home
  marks := marks

theorem Frame.steady {w w' : World} (h : Frame w w') : Steady w w' :=
  h.toStill.steady ⟨[], by simp [h.marks]⟩

namespace Steady

variable {w w' : World}

theorem mark {m : Mark} (aside : m.isAside = true) : Steady w (w.mark m) :=
  { refl w with marks := ⟨[m], by simp, by simpa using aside⟩ }

theorem modifyTask {t : TaskId} {f : Task → Task}
    (home : (f (w.task t)).home = (w.task t).home) : Steady w (w.modifyTask t f) :=
  { refl w with
    tasks := Table.size_le_modify ..
    home := fun u _ => by
      rw [World.task_modifyTask]
      split
      · next h => exact h ▸ home
      · rfl }

theorem modifyVisit {v : VisitId} {f : Visit → Visit}
    (state : (f (w.visit v)).state = (w.visit v).state)
    (owner : (f (w.visit v)).run = (w.visit v).run)
    (torn : (f (w.visit v)).torn = (w.visit v).torn) : Steady w (w.modifyVisit v f) :=
  { refl w with
    visits := Table.size_le_modify ..
    state := World.data_modifyVisit Visit.state state
    owner := World.data_modifyVisit Visit.run owner
    torn := World.data_modifyVisit Visit.torn torn }

theorem spawn (x : Task) : Steady w (w.spawn x) :=
  { refl w with
    tasks := by simp [World.spawn]
    home := fun t ht => by simp [World.spawn, Nat.ne_of_lt ht] }

theorem takeSlot (i : InterpreterId) (host : TaskId) (s : State) :
    Steady w (w.takeSlot i host s) :=
  { refl w with
    runs := by simp [World.takeSlot, World.mark, World.log, World.modifyInterpreter]
    run := fun r hr => by
      simp [World.takeSlot, World.mark, World.log, World.modifyInterpreter, Nat.ne_of_lt hr]
      rfl
    fresh := fun r hr => by
      simp only [World.takeSlot, World.mark, World.log, World.modifyInterpreter, World.run_mk,
        Table.get_push]
      split
      · exact .inr ⟨s, rfl⟩
      · exact .inl (World.phase_of_size_le hr)
    marks := ⟨[.began w.runs.size], by simp [World.takeSlot, World.modifyInterpreter],
      by simp [Mark.isAside]⟩ }

theorem park (w : World) (t : TaskId) : Steady w (w.park t) := by
  obtain ⟨queue, -, parked⟩ := w.park_eq t
  have rested : Steady w (w.modifyTask t fun x => { x with rewoken := false }) :=
    .modifyTask rfl
  rw [parked]
  exact { rested with }

theorem bury (w : World) (t : TaskId) (fate : Fate) : Steady w (w.bury t fate) := by
  have buried : Steady w (w.modifyTask t fun x =>
      { x with job := .script [], wait := none, guards := [], fate := some fate }) :=
    .modifyTask rfl
  exact buried.trans { Steady.mark (w := w.modifyTask t _) rfl with }

theorem withdraw (w : World) (t : TaskId) (home : Option VisitId) :
    Steady w (w.withdraw t home) := by
  cases home with
  | none => exact .refl w
  | some v => exact .modifyVisit rfl rfl rfl

end Steady

/-- Marks of what scripts say: events that are raised, stops that are asked for, and limits that
are set. -/
def Mark.isTalk : Mark → Bool
  | .stopAsked _ | .raised _ _ _ | .limited _ _ _ => true
  | _ => false

/-- Nobody comes or goes, and all that is heard is talk. -/
structure Hushed (w w' : World) : Prop extends Still w w' where
  talk : ∃ news, w'.marks = w.marks ++ news ∧ ∀ m ∈ news, m.isTalk = true

theorem Hushed.mem_marks {w w' : World} (h : Hushed w w') {m : Mark} (hm : m.isTalk = false) :
    m ∈ w'.marks ↔ m ∈ w.marks := by
  obtain ⟨news, marks, talk⟩ := h.talk
  rw [marks, List.mem_append]
  refine ⟨fun h => h.resolve_right fun h => ?_, .inl⟩
  have := talk m h
  rw [hm] at this
  cases this

/-- An event that takes effect is news of the inbox, and no more. -/
theorem World.accept_eq (w : World) (v : VisitId) (d : Decision) :
    (w.accept v d).tasks = ((w.commit v d).notifyInbox v).tasks ∧
    (w.accept v d).visits = ((w.commit v d).notifyInbox v).visits ∧
    (w.accept v d).runs = ((w.commit v d).notifyInbox v).runs ∧
    (w.accept v d).kept = w.kept ∧ (w.accept v d).marks = w.marks ++ [.raised v d true] := by
  have told := Frame.notify (w.commit v d) v
  have kept : ((w.commit v d).notifyInbox v).kept = w.kept := told.kept
  have marks : ((w.commit v d).notifyInbox v).marks = w.marks := told.marks
  unfold accept
  generalize (w.commit v d).notifyInbox v = told at kept marks ⊢
  refine ⟨rfl, rfl, rfl, kept, ?_⟩
  simp [trace, Entry.mark?, marks]

theorem World.isUp_accept (w : World) (v : VisitId) (d : Decision) (t : TaskId) :
    (w.accept v d).IsUp t ↔ ((w.commit v d).notifyInbox v).IsUp t := by
  unfold accept
  generalize (w.commit v d).notifyInbox v = told
  rfl

/-- Scripts only add tasks, if they do anything to tasks and runs at all. -/
theorem Stir.hushed {σ : Stage} {w w' : World} (h : Stir σ w w') :
    Hushed w w' ∨ (∃ x : Task, x.IsPlain ∧ w' = w.spawn x) ∨
      ∃ i s, (w.interpreter i).slot = none ∧ w' = w.startNew i s := by
  cases h with
  | chore h => exact .inl { h.frame.toStill with talk := ⟨[], by simp [h.frame.marks]⟩ }
  | refuse v d =>
    exact .inl { Still.log w _ with
      talk := ⟨[.raised v d false], by simp, by simp [Mark.isTalk]⟩ }
  | miss v =>
    have set : Still w (w.modifyVisit v fun x => { x with fired := true }) :=
      .modifyVisit ⟨rfl, rfl, rfl, rfl, rfl⟩
    exact .inl { set with talk := ⟨[], by simp [World.modifyVisit]⟩ }
  | accept v d =>
    have committed : Still w (w.commit v d) := .modifyVisit ⟨rfl, rfl, rfl, rfl, rfl⟩
    have accepted : Still w (w.accept v d) :=
      ((committed.trans (Frame.notify _ v).toStill).trans (.log ..)).trans (.log ..)
    obtain ⟨-, -, -, -, marks⟩ := w.accept_eq v d
    exact .inl { accepted with talk := ⟨[.raised v d true], marks, by simp [Mark.isTalk]⟩ }
  | ask i r =>
    exact .inl { Still.log w _ with talk := ⟨[.stopAsked r], by simp, by simp [Mark.isTalk]⟩ }
  | cancel i r =>
    have set : Still (w.mark (.stopAsked r)) (w.stopRun r) :=
      .modifyRun ⟨rfl, rfl, rfl, fun _ => rfl⟩
    exact .inl { (Still.log w _).trans set with
      talk := ⟨[.stopAsked r], w.marks_stopRun r, by simp [Mark.isTalk]⟩ }
  | limit i n =>
    exact .inl { Still.limitHistory w i n with
      talk := ⟨_, w.marks_limitHistory i n, by simp [Mark.isTalk]⟩ }
  | keep => exact .inl { Still.refl w with talk := ⟨[], by simp⟩ }
  | spawn x plain => exact .inr (.inl ⟨x, plain, rfl⟩)
  | start i s free => exact .inr (.inr ⟨i, s, free, rfl⟩)

/-- Scripts take no run further. -/
theorem Stir.steady {σ : Stage} {w w' : World} (h : Stir σ w w') : Steady w w' := by
  rcases h.hushed with hushed | ⟨x, -, rfl⟩ | ⟨i, s, -, rfl⟩
  · obtain ⟨news, marks, talk⟩ := hushed.talk
    refine hushed.toStill.steady ⟨news, marks, fun m hm => ?_⟩
    have := talk m hm
    cases m <;> first | rfl | cases this
  · exact .spawn x
  · exact (Steady.takeSlot i w.tasks.size s).trans (.spawn _)

/-- What becomes of tasks takes no run further. -/
theorem Shift.steady {σ : Stage} {w w' : World} (h : Shift (w, σ) w') : Steady w w' := by
  cases h with
  | turn => exact { Steady.mark (w := w) rfl with }
  | unqueue => exact { Steady.refl w with }
  | park => exact .park ..
  | @retire w w₁ σ t fate alive ease late chores =>
    have buried : Steady w (w.bury t fate) := .bury ..
    have stirred : Steady (w.bury t fate) w₁ := (Frame.of_chores chores).steady
    exact (buried.trans stirred).trans (.withdraw ..)
  | begin i s => exact (Steady.takeSlot i _ s).trans (.modifyTask rfl)
  | resume => exact .modifyTask rfl

/-! ## What strides keep -/

/-- A transition that is recorded is of no account to runs, tasks and visits. -/
theorem Still.record (w : World) (r : RunId) (hop : Hop) : Still w (w.record r hop) :=
  (Still.log ..).trans (.modifyInterpreter ⟨rfl, rfl⟩ rfl)

/-- Only one run goes further. -/
structure Onward (r : RunId) (w w' : World) : Prop where
  runs : w.runs.size ≤ w'.runs.size
  run : ∀ q, q ≠ r → w'.run q = w.run q
  interpreter : (w'.run r).interpreter = (w.run r).interpreter
  host : (w'.run r).host = (w.run r).host
  cancelled : (w'.run r).cancelled = (w.run r).cancelled
  visits : w.visits.size ≤ w'.visits.size
  state : ∀ v, v < w.visits.size → (w'.visit v).state = (w.visit v).state
  owner : ∀ v, v < w.visits.size → (w'.visit v).run = (w.visit v).run

namespace Onward

variable {w w' w'' : World} {r : RunId}

theorem refl (w : World) (r : RunId) : Onward r w w :=
  ⟨Nat.le_refl _, fun _ _ => rfl, rfl, rfl, rfl, Nat.le_refl _, fun _ _ => rfl, fun _ _ => rfl⟩

theorem trans (h : Onward r w w') (h' : Onward r w' w'') : Onward r w w'' where
  runs := Nat.le_trans h.runs h'.runs
  run q hq := (h'.run q hq).trans (h.run q hq)
  interpreter := h'.interpreter.trans h.interpreter
  host := h'.host.trans h.host
  cancelled := h'.cancelled.trans h.cancelled
  visits := Nat.le_trans h.visits h'.visits
  state v hv := (h'.state v (Nat.lt_of_lt_of_le hv h.visits)).trans (h.state v hv)
  owner v hv := (h'.owner v (Nat.lt_of_lt_of_le hv h.visits)).trans (h.owner v hv)

theorem setPhase (w : World) (r : RunId) (p : Phase) : Onward r w (w.setPhase r p) :=
  { refl w r with
    runs := Table.size_le_modify ..
    run := fun q hq => by simp [World.setPhase, World.run_modifyRun, hq]
    interpreter := by simp [World.setPhase, World.run_modifyRun]
    host := by simp [World.setPhase, World.run_modifyRun]
    cancelled := by simp [World.setPhase, World.run_modifyRun] }

theorem mark (w : World) (r : RunId) (m : Mark) : Onward r w (w.mark m) :=
  { refl w r with }

theorem record (w : World) (r : RunId) (hop : Hop) : Onward r w (w.record r hop) :=
  { refl w r with }

theorem modifyVisit {v : VisitId} {f : Visit → Visit}
    (state : (f (w.visit v)).state = (w.visit v).state)
    (owner : (f (w.visit v)).run = (w.visit v).run) : Onward r w (w.modifyVisit v f) :=
  { refl w r with
    visits := Table.size_le_modify ..
    state := fun u _ => World.data_modifyVisit Visit.state state u
    owner := fun u _ => World.data_modifyVisit Visit.run owner u }

theorem closeVisit (w : World) (r : RunId) (v : VisitId) : Onward r w (w.closeVisit v) :=
  (modifyVisit rfl rfl).trans (mark ..)

theorem pushVisit (w : World) (r : RunId) (s : State) : Onward r w (w.pushVisit r s) :=
  { refl w r with
    visits := by simp [World.pushVisit, World.trace, World.mark, World.log]
    state := fun v hv => by
      simp [World.pushVisit, World.trace, World.mark, World.log, Nat.ne_of_lt hv]
    owner := fun v hv => by
      simp [World.pushVisit, World.trace, World.mark, World.log, Nat.ne_of_lt hv] }

theorem release (w : World) (r : RunId) (status : Status) : Onward r w (w.release r status) :=
  { setPhase w r .ended with }

theorem abortWork (w : World) (r : RunId) (v : VisitId) : Onward r w (w.abortWork v) := by
  have aborted := Frame.abortWork w v
  exact {
    runs := aborted.runs
    run := fun q _ => aborted.run_eq q
    interpreter := (aborted.run r).interpreter
    host := (aborted.run r).host
    cancelled := aborted.cancelled r
    visits := aborted.visits
    state := fun u _ => (aborted.visit u).state
    owner := fun u _ => (aborted.visit u).run }

end Onward

/-- A run that goes further leaves the other runs where they are. -/
theorem Stride.onward {t : TaskId} {r : RunId} {w w' : World} {σ σ' : Stage}
    (h : Stride t r (w, σ) (w', σ')) : Onward r w w' := by
  cases h with
  | depart | wait | dropBegun | dropArriving => exact .setPhase ..
  | tell | act | arrive | launch | announce | tend => exact .mark ..
  | hear | toll => exact { Onward.refl w r with }
  | go => exact (Onward.record ..).trans (.setPhase ..)
  | visit => exact .pushVisit ..
  | pass | conclude => exact (Onward.setPhase ..).trans (.mark ..)
  | ready | idle | exit | tended => exact .refl ..
  | crew => exact { Onward.modifyVisit rfl rfl with }
  | forsake | close | quit | shut => exact .closeVisit ..
  | look | tear => exact .modifyVisit rfl rfl
  | relax => exact .abortWork ..
  | halt | back | done => exact (Onward.mark ..).trans (.release ..)
  | unwind => exact .release ..
  | dropWaiting => exact ((Onward.setPhase ..).trans (.abortWork ..)).trans (.closeVisit ..)
  | dropDraining => exact (Onward.setPhase ..).trans (.closeVisit ..)

/-- A run that goes further leaves tasks as they are, or spawns one for a visit. -/
theorem Stride.calm {t : TaskId} {r : RunId} {w w' : World} {σ σ' : Stage}
    (h : Stride t r (w, σ) (w', σ')) :
    Calm w w' ∨ ∃ v k x, Task.IsPlain x ∧ σ = .busy t r (.launching v k) ∧
      w' = w.spawnFor v x ∧ σ' = σ := by
  cases h with
  | @crew _ v k x plain => exact .inr ⟨v, k, x, plain, rfl, rfl, rfl⟩
  | @relax _ v => exact .inl (Frame.abortWork w v).toCalm
  | @dropWaiting _ _ v =>
    have closed (x : World) : Calm x (x.closeVisit v) := .of_eq rfl rfl rfl
    have aborted : Calm (w.setPhase r .ended) ((w.setPhase r .ended).abortWork v) :=
      (Frame.abortWork ..).toCalm
    have ended : Calm w (w.setPhase r .ended) := .of_eq rfl rfl rfl
    exact .inl ((ended.trans aborted).trans (closed _))
  | _ => exact .inl (.of_eq rfl rfl rfl)

theorem Stride.tasks {t : TaskId} {r : RunId} {w w' : World} {σ σ' : Stage}
    (h : Stride t r (w, σ) (w', σ')) : w.tasks.size ≤ w'.tasks.size := by
  rcases h.calm with calm | ⟨v, k, x, -, -, rfl, -⟩
  · exact calm.tasks
  · simp [World.spawnFor, World.spawn, World.modifyVisit]

end Statechart
