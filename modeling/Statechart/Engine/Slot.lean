import Statechart.Engine.Waking

/-!
# The slot of an interpreter

An interpreter has one slot for a run. Starting takes the slot, and the end of the run gives it
up; the start checks come in between, and a start that fails changes nothing.

## Main definitions

- `Interpreter.startCheck`: whether a run can start, and in which state.
- `World.begin`: takes the slot for a new run.
- `World.release`: gives the slot up.
- `World.forceStop`: stops the run in progress.
- `World.startInBackground`: starts an interpreter in a task of its own.
-/

namespace Statechart

/-- The state in which a run would start, or why it cannot. -/
def Machine.startState (m : Machine) : Except RunError State :=
  match m.states with
  | none => .error (.missingStates m.id)
  | some _ =>
    -- An empty list of states is bound, but lacks the initial one.
    match m.find? m.initialStateId with
    | none => .error (.initialStateNotFound m.id m.initialStateId)
    | some s => .ok s

/-- The state in which a run of the interpreter would start, or why it cannot start. -/
def Interpreter.startState (x : Interpreter) : Except RunError State :=
  if x.slot.isSome then .error (.alreadyRunning x.machine.id) else x.machine.startState

namespace World

/-- Takes the slot of an interpreter for a new run, whose number is that of the next run. -/
def takeSlot (w : World) (i : InterpreterId) (host : TaskId) (initial : State) : World :=
  let r := w.runs.size
  let w := { w with runs := w.runs.push { interpreter := i, host, phase := .begun initial } }
  (w.modifyInterpreter i fun x =>
    { x with slot := some r, status := .running, history := x.history.clear }).mark (.began r)

/-- Begins a run of an interpreter that a task will drive. -/
def begin (w : World) (i : InterpreterId) (host : TaskId) : Except RunError (World × RunId) :=
  (w.interpreter i).startState.map fun initial => (w.takeSlot i host initial, w.runs.size)

/-- Gives up the slot that a run holds, and ends the run. -/
def release (w : World) (r : RunId) (status : Status) : World :=
  let i := (w.run r).interpreter
  ((w.modifyRun r fun x => { x with phase := .ended }).modifyInterpreter i fun x =>
    { x with slot := none, status }).mark (.released r status)

/-- Stops the run in progress, if there is one. -/
def forceStop (w : World) (i : InterpreterId) : World :=
  let x := w.interpreter i
  match x.slot with
  | some r => ((w.trace (.stopping x.machine.id)).mark (.stopAsked r)).cancelRun r
  | none => w

/-- Stores the task of a run in the background; nobody waits for the one stored before. -/
def setHandle (w : World) (i : InterpreterId) (t : TaskId) : World :=
  let w := match (w.interpreter i).handle with
    | some old => w.modifyTask old fun x => { x with joiner := none }
    | none => w
  w.modifyInterpreter i fun x => { x with handle := some t }

/-- Takes the task of the run in the background out of its place. -/
def takeHandle (w : World) (i : InterpreterId) : World :=
  w.modifyInterpreter i fun x => { x with handle := none }

/-- Starts an interpreter in a task of its own. -/
def startInBackground (w : World) (i : InterpreterId) : Except RunError World :=
  let t := w.tasks.size
  (w.begin i t).map fun (w, r) => (w.spawn { job := .drive r none }).setHandle i t

end World

end Statechart
