import Statechart.Engine.Run

/-!
# Turns of tasks

What tasks do in their turns. A script goes from step to step until it waits or ends; a service
whose outcome is raised for it raises success or failure at its end, unless its token has been
cancelled; a nested machine is driven within its service, beside a task that stops it when the
token is cancelled.

## Main definitions

- `World.endTask`: what happens when a task is gone.
- `World.finish`: ends a task that returns, and raises its outcome.
- `World.dropTask`: drops a task that was aborted.
- `World.stepScript`: one step of a script that may wait.
-/

namespace Statechart.World

/-! ## The end of a task -/

/-- Lets a task end: it takes no more turns, what it holds is given up, the visit that it works
for hears of it, and so does the task that waits for it. -/
def endTask (w : World) (t : TaskId) (fate : Fate) : World :=
  let x := w.task t
  -- Guards show only if the task does not come to its end.
  let w := if fate = .panicked ∨ fate = .dropped then w.logDrops x.guards else w
  let w := { w with
    running := if w.running = some t then none else w.running
    queue := w.queue.erase t }
  let w := (w.modifyTask t fun x =>
    { x with job := .script [], wait := none, guards := [], fate := some fate }).mark (.ended t fate)
  -- Its clones are given up once it is gone, so that the last one of a visit is news.
  let w := w.letGoAll (x.reach.callback.toList ++ (x.route.map (·.visit)).toList)
  let w := match x.home with
    | some v =>
      let w := w.modifyVisit v fun y =>
        { y with working := y.working.erase t, finished := y.finished ++ [t] }
      -- Nobody asks any more for the tasks of a visit that is over.
      if (w.visit v).closed then w else w.wake (w.runOf v).host
    | none => w
  match x.joiner with
  | some j => w.wake j
  | none => w

/-- Raises the success or failure of a service whose token is not cancelled. -/
def raiseOutcome (w : World) (route : Route) (failure : Option Fault) : World :=
  let v := route.visit
  match failure with
  | none =>
    if w.isCancelled v then w else (w.raise v ⟨.succeeded route.service, none⟩).1
  | some fault =>
    -- A failure is traced whether or not anybody still waits for it.
    let w := w.trace (.actionFailed (w.visit v).state.id fault)
    if w.isCancelled v then w else (w.raise v ⟨.failed route.service, some fault⟩).1

/-- Ends a task that returns, with an error or without. -/
def finish (w : World) (t : TaskId) (failure : Option Fault) : World :=
  let w := match (w.task t).route with
    | some route => w.raiseOutcome route failure
    | none => w
  w.endTask t .returned

/-- Drops a task that was aborted, and with it the run that it drives; a cleanup that panics then
is a panic of the task. -/
def dropTask (w : World) (t : TaskId) : World :=
  match (w.task t).job.run? with
  | some r =>
    match w.dropRun r with
    | (w, true) => w.endTask t .panicked
    | (w, false) => w.endTask t .dropped
  | none => w.endTask t .dropped

/-! ## Waiting -/

/-- Whether a task's wait is over. -/
def isOver (w : World) : Wait → Bool
  | .time deadline => deadline ≤ w.now
  | .token token => w.isCancelled token.visit
  | .timeOrToken deadline token => deadline ≤ w.now || w.isCancelled token.visit
  | .turn => true
  | .forever => false

/-- Ends a task's wait. -/
def endWait (w : World) (t : TaskId) : World :=
  let w := match (w.task t).wait with
    | some (.token token) | some (.timeOrToken _ token) => w.deregister token t
    | _ => w
  w.modifyTask t fun x => { x with wait := none }

/-- Makes a task wait. -/
def beginWait (w : World) (t : TaskId) (wait : Wait) : World :=
  let w := match wait with
    | .token token | .timeOrToken _ token => w.register token t
    | _ => w
  -- Whoever lets others go first is ready again when its turn ends.
  w.modifyTask t fun x =>
    { x with wait := some wait, rewoken := x.rewoken || wait = .turn }

/-- What a task waits for at a pause, if it has to wait at all. -/
def waitAt (w : World) (reach : Reach) : Pause → Option Wait
  | .sleep ms => if ms = 0 then none else some (.time (w.now + ms))
  | .yield => some .turn
  | .untilCancelled =>
    match reach.token? with
    | some token => if w.isCancelled token.visit then none else some (.token token)
    | none => none
  | .sleepUnlessCancelled ms =>
    if ms = 0 then none
    else
      match reach.token? with
      | some token =>
        if w.isCancelled token.visit then none else some (.timeOrToken (w.now + ms) token)
      | none => some (.time (w.now + ms))
  | .forever => some .forever

/-! ## Scripts -/

/-- How a step of a script leaves the task that runs it. -/
inductive Progress where
  | going (rest : Script)
  | waiting (rest : Script)
  | finished (failure : Option String)
  | panicked
deriving Inhabited

/-- One step of the script of a task that does not wait. -/
def stepInstr (w : World) (t : TaskId) (rest : Script) : Instr → World × Progress
  | .act c => (w.perform (w.task t).reach c, .going rest)
  | .branch name comparison value yes no =>
    (w, .going ((if comparison.holds (w.valueOf name) value then yes else no) ++ rest))
  | .loop 0 _ => (w, .going rest)
  | .loop (times + 1) body => (w, .going (body ++ .loop times body :: rest))
  | .observe i o => (w.observe i o, .going rest)
  | .detach body => (w.detach (w.task t).reach body, .going rest)
  | .dropCallback =>
    let held := (w.task t).reach.callback
    let w := w.modifyTask t fun x => { x with reach := { x.reach with callback := none } }
    (w.letGoAll held.toList, .going rest)
  | .guard label =>
    (w.modifyTask t fun x => { x with guards := x.guards ++ [label] }, .going rest)
  | .panic => (w, .panicked)
  | .pause p =>
    match w.waitAt (w.task t).reach p with
    | some wait => (w.beginWait t wait, .waiting rest)
    | none => (w, .going rest)
  | .finish failure => (w, .finished failure)

/-- One step of the script of a task. -/
def stepScript (w : World) (t : TaskId) (s : Script) : World × Progress :=
  match (w.task t).wait with
  | some wait => if w.isOver wait then (w.endWait t, .going s) else (w, .waiting s)
  | none =>
    match s with
    | [] => (w, .finished none)
    | i :: rest => w.stepInstr t rest i

/-- Sets what a task has left to do. -/
def setJob (w : World) (t : TaskId) (job : Job) : World :=
  w.modifyTask t fun x => { x with job }

/-- A move of a task that runs a script. -/
def moveScript (w : World) (t : TaskId) (s : Script) : World :=
  match w.stepScript t s with
  | (w, .going rest) => w.setJob t (.script rest)
  | (w, .waiting rest) => (w.setJob t (.script rest)).park t
  | (w, .finished failure) => w.finish t (failure.map .message)
  | (w, .panicked) => w.endTask t .panicked

/-! ## Nested machines -/

/-- The failure that the end of a nested run amounts to, if it does. -/
def nestedFailure (machine : String) : RunResult → Option Fault
  | .ok .done | .ok .stopped => none
  | .ok (.settled state) => some (.run (.childMachineIncomplete machine state))
  | .error e => some (.run e)

/-- The first move of a service that runs a nested machine: an interpreter of its own, the task
that stops it, and the start of the run. -/
def beginNested (w : World) (t : TaskId) (machine : Machine) : World :=
  let i := w.interpreters.size
  let w := { w with interpreters := w.interpreters.push { machine } }
  let hook := w.tasks.size
  -- The task that stops the run is ready before the run begins.
  let w := w.spawn
    { job := .stopHook i, reach := { action := (w.task t).route.map (·.visit) } }
  match w.begin i t with
  | .ok (w, r) => w.setJob t (.drive r (some hook))
  | .error e => (w.abort hook).finish t (some (.run e))

/-- A move of a task that drives a run. -/
def moveDrive (w : World) (t : TaskId) (r : RunId) (hook : Option TaskId) : World :=
  let machine := (w.machineOf r).id
  match w.advance r with
  | (w, .busy) => w
  | (w, .parked) => w.park t
  | (w, .panicked) => w.endTask t .panicked
  | (w, .returned result) =>
    match hook with
    | some h => (w.abort h).finish t (nestedFailure machine result)
    | none => w.endTask t (.ran result)

/-- A move of a task that stops a nested interpreter once its token is cancelled. -/
def moveStopHook (w : World) (t : TaskId) (i : InterpreterId) : World :=
  match w.waitAt (w.task t).reach .untilCancelled with
  | some wait =>
    -- The wait begins once, however often the task is woken.
    if (w.task t).wait.isSome then w.park t else (w.beginWait t wait).park t
  | none =>
    (((w.trace (.stoppingNested (w.interpreter i).machine.id)).forceStop i).endWait t).finish t none

end Statechart.World
