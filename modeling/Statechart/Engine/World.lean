import Statechart.History.Path
import Statechart.History.Window
import Statechart.Scenario.Step
import Statechart.Table

/-!
# The world of a scenario

Interpreters, their runs, the visits of runs to states, and the tasks that share one thread: all
that the engine knows, as one value. Time is virtual and stands still while any task is ready.

Runs, visits and tasks are numbered and never forgotten, so a callback that outlives its visit
still finds it.

## Main definitions

- `Task`: what is left to do, what it holds, what it waits for, and how it ended.
- `Visit`: one stay of a run in a state, with its commit flag, its inbox and its tasks.
- `Run`: one run of an interpreter and how far it has come.
- `Interpreter`: a machine with a slot for one run, the history and the observers.
- `World`: everything together.

## Main statements

- `World.task_modifyTask` and its like for runs, visits and interpreters: what a change of one row
  does to each.
-/

namespace Statechart

/-! ## Tasks -/

/-- A token that a task can wait for. The token of an action is below the scope of its visit, and
the scope is below the run, so each is cancelled with what is above it. -/
inductive Token where
  | scope (visit : VisitId)
  | action (visit : VisitId)
deriving DecidableEq, Repr, Inhabited

/-- The visit that a token belongs to. -/
def Token.visit : Token → VisitId
  | .scope visit => visit
  | .action visit => visit

/-- What a script can reach: the callback of a visit, or the token of an action of one. -/
structure Reach where
  callback : Option VisitId := none
  action : Option VisitId := none
deriving DecidableEq, Repr, Inhabited

/-- The token whose cancellation a script can see: its own, or else the scope of its callback. -/
def Reach.token? (r : Reach) : Option Token :=
  match r.action with
  | some visit => some (.action visit)
  | none => r.callback.map .scope

/-- What a task waits for. -/
inductive Wait where
  | time (deadline : Nat)
  | token (token : Token)
  | timeOrToken (deadline : Nat) (token : Token)
  | turn
  | forever
deriving DecidableEq, Repr, Inhabited

/-- The time that ends the wait. -/
def Wait.deadline? : Wait → Option Nat
  | .time deadline => some deadline
  | .timeOrToken deadline _ => some deadline
  | _ => none

/-- What the controller is doing. -/
inductive Doing where
  | nothing
  | script (rest : Script)
  | running (run : RunId) (deadline : Nat)
  | joining (interpreter : InterpreterId) (task : TaskId) (deadline : Nat)
deriving Inhabited

/-- What a task has left to do. -/
inductive Job where
  /-- The rest of a script. -/
  | script (rest : Script)
  /-- A nested machine that has not begun yet. -/
  | nested (machine : Machine)
  /-- A run that the task drives; a nested one has a task that stops it. -/
  | drive (run : RunId) (hook : Option TaskId)
  /-- Stopping a nested interpreter once the token is cancelled. -/
  | stopHook (interpreter : InterpreterId)
  /-- The steps of the controller. -/
  | control (steps : List Step) (doing : Doing)
deriving Inhabited

/-- The run that a job drives. -/
def Job.run? : Job → Option RunId
  | .drive run _ => some run
  | .control _ (.running run _) => some run
  | _ => none

/-- The service whose success or failure a task raises when it returns. -/
structure Route where
  visit : VisitId
  service : Nat
deriving DecidableEq, Repr, Inhabited

/-- A task. -/
structure Task where
  job : Job
  reach : Reach := {}
  /-- The visit that the task works for and is aborted with. -/
  home : Option VisitId := none
  /-- Where the task's success or failure is raised; the task holds a callback until then. -/
  route : Option Route := none
  wait : Option Wait := none
  guards : List String := []
  aborted : Bool := false
  /-- Whether the task was woken during its own turn. -/
  rewoken : Bool := false
  /-- The task that waits for this one. -/
  joiner : Option TaskId := none
  fate : Option Fate := none

instance : Inhabited Task := ⟨{ job := .script [], fate := some .dropped }⟩

namespace Task

/-- Whether the task has not ended yet. -/
def isAlive (t : Task) : Bool :=
  t.fate.isNone

/-- Whether the task holds a clone of the callback of a visit. -/
def holds (t : Task) (v : VisitId) : Bool :=
  t.isAlive && (t.reach.callback = some v || t.route.any fun r => r.visit = v)

/-- The time at which the task wants to be woken. -/
def deadline? (t : Task) : Option Nat :=
  if t.isAlive then t.wait.bind Wait.deadline? else none

end Task

/-! ## Visits -/

/-- One stay of a run in a state. -/
structure Visit where
  state : State
  run : RunId
  /-- Whether some event took effect. -/
  fired : Bool := false
  /-- The event that was accepted. -/
  inbox : Option Decision := none
  /-- Whether news of the inbox wakes the task that drives the run. -/
  listening : Bool := false
  /-- Whether the scope was cancelled because the state is being left. -/
  torn : Bool := false
  /-- Whether the inbox is closed. -/
  closed : Bool := false
  /-- The tasks that have not ended. -/
  working : List TaskId := []
  /-- The tasks that have ended and were not looked at yet, in the order in which they ended. -/
  finished : List TaskId := []
  /-- Tasks that wait for the scope, in the order in which they came. -/
  scopeWaiters : List TaskId := []
  /-- Tasks that wait for the token of an action, in the order in which they came. -/
  actionWaiters : List TaskId := []
deriving Inhabited

/-! ## Runs and interpreters -/

/-- How far a run has come. -/
inductive Phase where
  /-- The slot is taken, and nothing has happened yet. -/
  | begun (initial : State)
  /-- A state is about to be entered. -/
  | arriving (state : State) (previous : Option String) (cause : Option Decision)
  /-- The work of a visit goes on. -/
  | waiting (visit : VisitId)
  /-- The wait is over, and the tasks of the visit are going. -/
  | draining (visit : VisitId) (ending : Ending)
  /-- The run has ended. -/
  | ended
deriving Inhabited

/-- One run of an interpreter. -/
structure Run where
  interpreter : InterpreterId
  /-- The task that drives the run. -/
  host : TaskId
  cancelled : Bool := false
  phase : Phase

instance : Inhabited Run := ⟨{ interpreter := 0, host := 0, phase := .ended }⟩

/-- A handler of state-changed notifications. -/
structure ChangeHandler where
  label : String
  verbose : Bool
  script : Script
deriving Inhabited

/-- A handler of machine-done notifications. -/
structure DoneHandler where
  label : String
  script : Script
deriving Inhabited

/-- A machine with a slot for one run at a time. -/
structure Interpreter where
  machine : Machine
  /-- The run in progress. -/
  slot : Option RunId := none
  status : Status := .idle
  history : Window Hop := .withLimit Window.defaultLimit
  changeHandlers : List ChangeHandler := []
  doneHandlers : List DoneHandler := []
  /-- The task of the run that was last started in the background. -/
  handle : Option TaskId := none
deriving Inhabited

namespace Interpreter

/-- Whether a run is in progress. -/
def isRunning (x : Interpreter) : Bool :=
  x.slot.isSome

/-- The states that the current or last run passed through. -/
def path (x : Interpreter) : List String :=
  pathOf Hop.source Hop.target x.history.entries

/-- The diagnostic form of an interpreter. -/
def debug (x : Interpreter) : String :=
  Text.record "Interpreter" [("machine", Text.quoted x.machine.id), ("status", x.status.debug)]

/-- The interpreter with the handlers of an observer after the ones it has. -/
def observe (x : Interpreter) (o : Observer Script) : Interpreter :=
  { x with
    changeHandlers := x.changeHandlers ++ (o.onChange.map fun s => ⟨o.label, o.verbose, s⟩).toList
    doneHandlers := x.doneHandlers ++ (o.onDone.map fun s => ⟨o.label, s⟩).toList }

end Interpreter

/-! ## The world -/

/-- Everything that a scenario consists of. -/
structure World where
  /-- Milliseconds since the scenario began. -/
  now : Nat := 0
  /-- The tasks that are ready, in the order of their turns. -/
  queue : List TaskId := []
  /-- The task whose turn it is. -/
  running : Option TaskId := none
  tasks : Table Task := .empty
  runs : Table Run := .empty
  visits : Table Visit := .empty
  interpreters : Table Interpreter := .empty
  /-- How many interpreters scripts can name; the others belong to services. -/
  named : Nat := 0
  values : List (String × Int) := []
  /-- Callbacks kept by scripts, by slot. -/
  kept : List (String × VisitId) := []
  journal : Array Entry := #[]
  reports : Array Report := #[]
deriving Inhabited

namespace World

/-! ### Rows -/

/-- A task. -/
def task (w : World) (t : TaskId) : Task :=
  w.tasks.get t

/-- A run. -/
def run (w : World) (r : RunId) : Run :=
  w.runs.get r

/-- A visit. -/
def visit (w : World) (v : VisitId) : Visit :=
  w.visits.get v

/-- An interpreter. -/
def interpreter (w : World) (i : InterpreterId) : Interpreter :=
  w.interpreters.get i

/-- Changes a task. -/
def modifyTask (w : World) (t : TaskId) (f : Task → Task) : World :=
  { w with tasks := w.tasks.modify t f }

/-- Changes a run. -/
def modifyRun (w : World) (r : RunId) (f : Run → Run) : World :=
  { w with runs := w.runs.modify r f }

/-- Changes a visit. -/
def modifyVisit (w : World) (v : VisitId) (f : Visit → Visit) : World :=
  { w with visits := w.visits.modify v f }

/-- Changes an interpreter. -/
def modifyInterpreter (w : World) (i : InterpreterId) (f : Interpreter → Interpreter) : World :=
  { w with interpreters := w.interpreters.modify i f }

/-- Changing a task changes that task and no other. -/
theorem task_modifyTask (w : World) (t u : TaskId) (f : Task → Task) :
    (w.modifyTask t f).task u = if u = t then f (w.task u) else w.task u :=
  w.tasks.get_modify t u f

/-- Changing a run changes that run and no other. -/
theorem run_modifyRun (w : World) (r s : RunId) (f : Run → Run) :
    (w.modifyRun r f).run s = if s = r then f (w.run s) else w.run s :=
  w.runs.get_modify r s f

/-- Changing a visit changes that visit and no other. -/
theorem visit_modifyVisit (w : World) (v u : VisitId) (f : Visit → Visit) :
    (w.modifyVisit v f).visit u = if u = v then f (w.visit u) else w.visit u :=
  w.visits.get_modify v u f

/-- Changing an interpreter changes that interpreter and no other. -/
theorem interpreter_modifyInterpreter (w : World) (i j : InterpreterId)
    (f : Interpreter → Interpreter) :
    (w.modifyInterpreter i f).interpreter j =
      if j = i then f (w.interpreter j) else w.interpreter j :=
  w.interpreters.get_modify i j f

/-- The run that a visit belongs to. -/
def runOf (w : World) (v : VisitId) : Run :=
  w.run (w.visit v).run

/-- The machine of a run. -/
def machineOf (w : World) (r : RunId) : Machine :=
  (w.interpreter (w.run r).interpreter).machine

/-! ### Journal and variables -/

/-- Writes an entry to the journal. -/
def log (w : World) (e : Entry) : World :=
  { w with journal := w.journal.push e }

/-- Writes a trace to the journal. -/
def trace (w : World) (t : Trace) : World :=
  w.log (.trace t)

/-- Writes a mark to the journal. -/
def mark (w : World) (m : Mark) : World :=
  w.log (.mark m)

/-- The value of a variable, zero until it is set. -/
def valueOf (w : World) (name : String) : Int :=
  (w.values.lookup name).getD 0

/-- Sets a variable. -/
def setVariable (w : World) (name : String) (value : Int) : World :=
  { w with values := (name, value) :: w.values.eraseP (·.1 = name) }

/-- Writes the drops of guards to the journal, one after the other. -/
def logDrops (w : World) (guards : List String) : World :=
  guards.foldl (fun w label => w.log (.drop label)) w

end World

end Statechart
