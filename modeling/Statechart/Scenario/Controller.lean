import Statechart.Engine.Task

/-!
# The controller

The task that takes a scenario through its steps, one after the other. Most steps are over at
once; running an interpreter, waiting for one in the background, and the steps of scripts may
take many turns.

## Main definitions

- `World.beginStep`: what happens when the controller comes to a step.
- `World.moveControl`: a move of the controller.
-/

namespace Statechart.World

/-! ## Reports -/

/-- The status of each interpreter that scripts can name, and whether it runs. -/
def statuses (w : World) : List (Status × Bool) :=
  (List.range w.named).map fun i => ((w.interpreter i).status, (w.interpreter i).isRunning)

/-- Ends a step of the controller with its answer. -/
def answer (w : World) (t : TaskId) (steps : List Step) (a : Answer) : World :=
  let report : Report := ⟨a, w.now, w.statuses, w.journal.size⟩
  ({ w with reports := w.reports.push report }.endWait t).setJob t (.control steps .nothing)

/-! ## Steps -/

/-- The answer to a task that ended. -/
def answerOfFate : Fate → Answer
  | .ran result => .ofResult result
  | .returned => .null
  | .panicked => .panicked
  | .dropped => .aborted

/-- What happens when the controller comes to a step on an interpreter that it can name. -/
def beginNamed (w : World) (t : TaskId) (rest : List Step) (i : InterpreterId) :
    Step → World
  | .run _ ms =>
    match w.begin i t with
    | .ok (w, r) => w.setJob t (.control rest (.running r (w.now + ms)))
    | .error e => w.answer t rest (.error e)
  | .start _ =>
    match w.startInBackground i with
    | .ok w => w.answer t rest .started
    | .error e => w.answer t rest (.error e)
  | .join _ ms =>
    match (w.interpreter i).handle with
    | some h => (w.takeHandle i).setJob t (.control rest (.joining i h (w.now + ms)))
    | none => w.answer t rest .noHandle
  | .abort _ =>
    match (w.interpreter i).handle with
    | some h => (w.abort h).answer t rest .aborting
    | none => w.answer t rest .noHandle
  | .history _ => w.answer t rest (.history (w.interpreter i).history.entries)
  | .debug _ => w.answer t rest (.text (w.interpreter i).debug)
  | .validate _ => w.answer t rest (.issues (w.interpreter i).machine.issues)
  | .machineDebug _ => w.answer t rest (.ofDebug (w.interpreter i).machine.debug?)
  | .script instr => w.setJob t (.control rest (.script [instr]))

/-- The interpreter that a step is about. -/
def stepTarget : Step → Option Nat
  | .run i _ | .start i | .join i _ | .abort i | .history i | .debug i | .validate i
  | .machineDebug i => some i
  | .script _ => none

/-- What happens when the controller comes to a step. -/
def beginStep (w : World) (t : TaskId) (rest : List Step) (step : Step) : World :=
  match stepTarget step with
  -- A step of a script is about no interpreter, so any number will do.
  | none => w.beginNamed t rest 0 step
  | some i =>
    match w.named? i with
    | some i => w.beginNamed t rest i step
    | none => w.answer t rest .null

/-! ## Waiting -/

/-- Ends the controller's turn until it is woken, at the latest by a deadline. -/
def parkUntil (w : World) (t : TaskId) (deadline : Nat) : World :=
  (w.modifyTask t fun x => { x with wait := some (.time deadline) }).park t

/-- A move of the controller while it drives a run: the run has its turn before the time is
looked at. -/
def moveRunning (w : World) (t : TaskId) (rest : List Step) (r : RunId) (deadline : Nat) :
    World :=
  match w.advance r with
  | (w, .busy) => w
  | (w, .returned result) => w.answer t rest (.ofResult result)
  | (w, .panicked) => w.answer t rest .panicked
  | (w, .parked) =>
    if w.now < deadline then w.parkUntil t deadline
    else
      match w.dropRun r with
      -- A cleanup that panics takes the controller with it.
      | (w, true) => w.endTask t .panicked
      | (w, false) => w.answer t rest .timeout

/-- A move of the controller while it waits for a task: the task is looked at before the time, and
put back in its place when the time is over. -/
def moveJoining (w : World) (t : TaskId) (rest : List Step) (i : InterpreterId) (h : TaskId)
    (deadline : Nat) : World :=
  match (w.task h).fate with
  | some fate => w.answer t rest (answerOfFate fate)
  | none =>
    let w := w.modifyTask h fun x => { x with joiner := some t }
    if w.now < deadline then w.parkUntil t deadline
    else (w.setHandle i h).answer t rest .timeout

/-- A move of the controller while it runs a script. -/
def moveControlScript (w : World) (t : TaskId) (steps : List Step) (s : Script) : World :=
  match w.stepScript t s with
  | (w, .going rest) => w.setJob t (.control steps (.script rest))
  | (w, .waiting rest) => (w.setJob t (.control steps (.script rest))).park t
  | (w, .finished _) =>
    (w.modifyTask t fun x => { x with guards := [] }).answer t steps .null
  | (w, .panicked) => w.endTask t .panicked

/-- A move of the controller. -/
def moveControl (w : World) (t : TaskId) (steps : List Step) : Doing → World
  | .nothing =>
    match steps with
    | [] => w.endTask t .returned
    | step :: rest => w.beginStep t rest step
  | .script s => w.moveControlScript t steps s
  | .running r deadline => w.moveRunning t steps r deadline
  | .joining i h deadline => w.moveJoining t steps i h deadline

end Statechart.World
