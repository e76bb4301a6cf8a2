import Statechart.Engine.Script

/-!
# Runs

How a run goes from state to state. On arrival its observers are told, the enter actions run, and
the services and activities are set up and spawned. The visit then waits for the first event that
is accepted, for a stop, for a panic, or for all of its work to end. It is left by cancelling its
scope, running the cleanup, waiting until its tasks are gone, and running the exit actions where
the ending calls for them.

## Main definitions

- `State.resolve`: what a decision comes to in a state.
- `World.inspect`: what a waiting visit sees when it looks around.
- `World.advance`: one move of a run.
- `World.dropRun`: ends a run that will not be driven any further.
-/

namespace Statechart

/-! ## Decisions -/

/-- What a decision comes to. -/
inductive Resolution where
  | move (target : String)
  | done
  | settled
  | failed (fault : Fault)
deriving DecidableEq, Repr, Inhabited

/-- What a decision comes to in a state. A final state is done, or fails with the error; any other
moves to the target of the event, and without a target fails with the error or settles. -/
def State.resolve (s : State) (d : Decision) : Resolution :=
  if s.mode = .final then
    match d.fault with
    | some fault => .failed fault
    | none => .done
  else
    -- A target wins over the error that comes with the event.
    match s.targetOf d.event, d.fault with
    | some target, _ => .move target
    | none, some fault => .failed fault
    | none, none => .settled

/-- How a move of a run leaves the task that drives it: with more to do at once, with nothing to
do until it is woken, or with the end of the run. -/
inductive Signal where
  | busy
  | parked
  | returned (result : RunResult)
  | panicked
deriving DecidableEq, Inhabited

namespace World

/-! ## The end of a run -/

/-- Ends a run that returns. -/
def conclude (w : World) (r : RunId) (result : RunResult) : World × Signal :=
  let machine := (w.machineOf r).id
  let w := match result with
    | .ok outcome => w.trace (.finished machine outcome)
    | .error e => w.trace (.failed machine e)
  ((w.mark (.returned r result)).release r result.status, .returned result)

/-- Ends a run in which something panicked. -/
def unwind (w : World) (r : RunId) : World × Signal :=
  (w.release r .stopped, .panicked)

/-- Closes the inbox of a visit. -/
def closeVisit (w : World) (v : VisitId) : World :=
  (w.modifyVisit v fun x => { x with closed := true }).mark (.left v)

/-- Aborts every task of a visit. -/
def abortWork (w : World) (v : VisitId) : World :=
  (w.visit v).working.foldl abort w

/-- Gives up a visit whose work is under way: its tasks are aborted, its inbox is closed, its
scope is cancelled, and its cleanup runs at once; the last component says whether that panicked. -/
def abandon (w : World) (v : VisitId) : World × Bool :=
  (((w.abortWork v).closeVisit v).tearScope v).runPhrase v .cleanup

/-- Ends a run that will not be driven any further; the last component says whether a cleanup
panicked. A run that nothing has happened to keeps the slot. -/
def dropRun (w : World) (r : RunId) : World × Bool :=
  let phase := (w.run r).phase
  let w := w.modifyRun r fun x => { x with phase := .ended }
  match phase with
  -- Whoever gives up the slot is there only once the run has departed.
  | .begun _ | .ended => (w, false)
  | .arriving .. => (w.release r .stopped, false)
  | .waiting v =>
    let (w, panicked) := w.abandon v
    (w.release r .stopped, panicked)
  -- The cleanup has run when the wait ended.
  | .draining v _ => ((w.closeVisit v).release r .stopped, false)

/-! ## Leaving a state -/

/-- Ends the wait of a visit: its scope is cancelled, its cleanup runs, and the tasks that are
left are aborted. -/
def tearDown (w : World) (r : RunId) (v : VisitId) (ending : Ending) : World × Signal :=
  let w := (w.modifyRun r fun x => { x with phase := .draining v ending }).mark
    (.concluded v ending)
  match (w.tearScope v).runPhrase v .cleanup with
  | (w, true) => ((w.abortWork v).closeVisit v).unwind r
  | (w, false) => (w.abortWork v, .busy)

/-- Tells the observers that the machine is done, and ends the run. -/
def announceDone (w : World) (r : RunId) : World × Signal :=
  let handlers := (w.interpreter (w.run r).interpreter).doneHandlers
  match (w.mark (.announced r)).notifyDone handlers with
  | (w, true) => w.unwind r
  | (w, false) => w.conclude r (.ok .done)

/-- Takes a transition out of a state. -/
def takeTransition (w : World) (r : RunId) (source : State) (d : Decision) (target : String) :
    World × Signal :=
  match (w.machineOf r).find? target with
  | none => w.conclude r (.error (.danglingTransition source.id d.event target))
  | some next =>
    let hop : Hop := ⟨source.id, d.event, next.id⟩
    let w := (w.trace (.moving hop)).mark (.moved r hop)
    -- The history takes the hop before anybody is told of the next state.
    let w := w.modifyInterpreter (w.run r).interpreter fun x =>
      { x with history := x.history.push hop }
    (w.modifyRun r fun x => { x with phase := .arriving next (some source.id) (some d) }, .busy)

/-- Goes on from a visit as its decision says. -/
def follow (w : World) (r : RunId) (v : VisitId) (d : Decision) : World × Signal :=
  let s := (w.visit v).state
  match s.resolve d with
  | .move target => (w.closeVisit v).takeTransition r s d target
  | .done => (w.closeVisit v).announceDone r
  | .settled =>
    ((w.trace (.noTarget s.id d.event)).closeVisit v).conclude r (.ok (.settled s.id))
  | .failed fault => (w.closeVisit v).conclude r (.error (.serviceFailed s.id fault))

/-- Runs the exit actions of a visit and goes on. -/
def exitThen (w : World) (r : RunId) (v : VisitId) (next : World → World × Signal) :
    World × Signal :=
  match w.runPhrase v .exit with
  | (w, true) => (w.closeVisit v).unwind r
  | (w, false) => next w

/-- Leaves a visit whose tasks are gone. Exit actions run if an event was accepted, or if a final
state finished its work. -/
def leave (w : World) (r : RunId) (v : VisitId) (ending : Ending) : World × Signal :=
  let s := (w.visit v).state
  match ending with
  | .decided d => w.exitThen r v fun w => w.follow r v d
  | .settled =>
    if s.mode = .final then
      (w.trace (.finalFinished s.id)).exitThen r v fun w => (w.closeVisit v).announceDone r
    else ((w.trace (.settled s.id)).closeVisit v).conclude r (.ok (.settled s.id))
  | .stopped => ((w.trace (.stopped s.id)).closeVisit v).conclude r (.ok .stopped)
  | .panicked => (w.closeVisit v).conclude r (.error (.taskPanicked s.id))

/-- Looks at one task of a visit that is being left; when all are gone, the visit is left. -/
def drain (w : World) (r : RunId) (v : VisitId) (ending : Ending) : World × Signal :=
  match (w.visit v).finished with
  | t :: rest =>
    let w := w.modifyVisit v fun x => { x with finished := rest }
    if (w.task t).fate = some .panicked then
      (w.trace (.latePanic (w.visit v).state.id), .busy)
    else (w, .busy)
  | [] => if (w.visit v).working = [] then w.leave r v ending else (w, .parked)

/-! ## Waiting -/

/-- What a waiting visit sees when it looks around. A stop comes first, then the event that was
accepted, then the tasks that ended; when no clone of the callback and no task is left, the visit
has settled. -/
def inspect (w : World) (r : RunId) (v : VisitId) : World × Signal :=
  if (w.run r).cancelled then w.tearDown r v .stopped
  else
    match (w.visit v).inbox with
    | some d => w.tearDown r v (.decided d)
    | none =>
      -- News of the inbox wakes the host only while a clone of the callback is left.
      let held := w.isHeld v
      let w := w.modifyVisit v fun x => { x with listening := held }
      match (w.visit v).finished with
      | t :: rest =>
        let w := w.modifyVisit v fun x => { x with finished := rest }
        if (w.task t).fate = some .panicked then w.tearDown r v .panicked else (w, .busy)
      | [] =>
        if held || (w.visit v).working ≠ [] then (w, .parked) else w.tearDown r v .settled

/-! ## Entering a state -/

/-- Spawns a task that works for a visit. -/
def spawnFor (w : World) (v : VisitId) (task : Task) : World :=
  let t := w.tasks.size
  (w.modifyVisit v fun x => { x with working := x.working ++ [t] }).spawn
    { task with home := some v }

/-- Sets up a part of the work of a visit and spawns its task; the last component says whether
the set-up panicked. -/
def launchWork (w : World) (v : VisitId) (part : Part) (reach : Reach) (route : Option Route)
    (work : Work) : World × Bool :=
  match (w.mark (.launched v part)).runAction reach work.setUp with
  | (w, _, true) => (w, true)
  | (w, reach, false) => (w.spawnFor v { job := .script work.body, reach, route }, false)

/-- Launches a service of a visit. One whose outcome is raised for it has a token of its own in
place of a callback. -/
def launchService (w : World) (v : VisitId) (k : Nat) : Service → World × Bool
  | .free work => w.launchWork v (.service k) { callback := some v } none work
  | .routed work => w.launchWork v (.service k) { action := some v } (some ⟨v, k⟩) work
  | .nested machine =>
    ((w.mark (.launched v (.service k))).spawnFor v
      { job := .nested machine, route := some ⟨v, k⟩ }, false)

/-- Launches services in order, until one panics. -/
def launchServices (w : World) (v : VisitId) (k : Nat) : List Service → World × Bool
  | [] => (w, false)
  | s :: rest =>
    match w.launchService v k s with
    | (w, true) => (w, true)
    | (w, false) => launchServices w v (k + 1) rest

/-- Launches activities in order, until one panics. -/
def launchActivities (w : World) (v : VisitId) (k : Nat) : List Work → World × Bool
  | [] => (w, false)
  | a :: rest =>
    match w.launchWork v (.activity k) {} none a with
    | (w, true) => (w, true)
    | (w, false) => launchActivities w v (k + 1) rest

/-- Launches all work of a visit: the services, and then the activities. -/
def launchAll (w : World) (v : VisitId) : World × Bool :=
  let s := (w.visit v).state
  match w.launchServices v 0 s.services with
  | (w, true) => (w, true)
  | (w, false) => w.launchActivities v 0 s.activities

/-- Launches the work of a visit and begins to wait. -/
def launch (w : World) (r : RunId) (v : VisitId) : World × Signal :=
  match w.launchAll v with
  | (w, true) => (w.abandon v).1.unwind r
  | (w, false) => (w.modifyRun r fun x => { x with phase := .waiting v }, .busy)

/-- Enters a state: a new visit begins with the enter actions. A transient state is left at
once. -/
def enter (w : World) (r : RunId) (s : State) : World × Signal :=
  let v := w.visits.size
  let w := { w with visits := w.visits.push { state := s, run := r } }
  match ((w.trace (.entering s.id s.mode)).mark (.entered r v)).runPhrase v .enter with
  | (w, true) => (w.closeVisit v).unwind r
  | (w, false) =>
    let w := w.mark (.arrived v)
    -- The work of a transient state is never set up.
    if s.mode = .transient then w.tearDown r v (.decided ⟨.transient, none⟩)
    else w.launch r v

/-- Arrives at a state, unless the run was stopped: the observers are told, and the state is
entered. -/
def arrive (w : World) (r : RunId) (s : State) (previous : Option String)
    (cause : Option Decision) : World × Signal :=
  -- A stop that was asked for on the way is heeded before anybody is told.
  if (w.run r).cancelled then w.conclude r (.ok .stopped)
  else
    let change : Change := ⟨s.id, previous, cause⟩
    let handlers := (w.interpreter (w.run r).interpreter).changeHandlers
    match (w.mark (.notified r change)).notifyChange change handlers with
    | (w, true) => w.unwind r
    | (w, false) => w.enter r s

/-! ## Moves -/

/-- One move of a run. -/
def advance (w : World) (r : RunId) : World × Signal :=
  match (w.run r).phase with
  | .begun s =>
    ((w.trace (.starting (w.machineOf r).id s.id)).modifyRun r fun x =>
      { x with phase := .arriving s none none }, .busy)
  | .arriving s previous cause => w.arrive r s previous cause
  | .waiting v => w.inspect r v
  | .draining v ending => w.drain r v ending
  | .ended => (w, .parked)

end World

end Statechart
