import Statechart.Fault
import Statechart.Json

/-!
# Scripts

What the actions, handlers, services and activities of a machine do, as programs of a small
language: they log, count, talk to interpreters and callbacks, and wait.

## Main definitions

- `Command`: one step that is over at once.
- `Pause`: a step at which a task may wait.
- `Instr`: a step of a script; scripts nest in branches, loops and detached tasks.
- `Observer`: handlers of an interpreter's notifications.
- `Work`: a task that is set up when it is created and then runs its body.
-/

namespace Statechart

/-! ## Commands -/

/-- A comparison of integers. -/
inductive Comparison where
  | lt | gt | le | ge | eq | ne
deriving DecidableEq, Repr, Inhabited

/-- Whether the comparison holds. -/
def Comparison.holds : Comparison → Int → Int → Bool
  | .lt, a, b => a < b
  | .gt, a, b => b < a
  | .le, a, b => a ≤ b
  | .ge, a, b => b ≤ a
  | .eq, a, b => a = b
  | .ne, a, b => a ≠ b

/-- One step that is over at once. Interpreters are meant by their position, callbacks kept for
later by the name of their slot. -/
inductive Command where
  /-- Logs a label. -/
  | log (label : Json)
  /-- Adds to a variable. -/
  | add (name : String) (amount : Int)
  /-- Sets a variable. -/
  | assign (name : String) (value : Int)
  /-- Logs the value of a variable. -/
  | showVariable (name : String)
  /-- Force-stops an interpreter. -/
  | stop (interpreter : Nat)
  /-- Starts an interpreter in the background. -/
  | start (interpreter : Nat)
  /-- Logs the status of an interpreter. -/
  | showStatus (interpreter : Nat)
  /-- Logs the path through the history of an interpreter. -/
  | showPath (interpreter : Nat)
  /-- Bounds the history of an interpreter. -/
  | limitHistory (interpreter limit : Nat)
  /-- Raises an event through the task's own callback. -/
  | raise (event : String)
  /-- Raises an event that carries an error through the task's own callback. -/
  | raiseFault (event : String) (fault : Fault)
  /-- Logs whether an event already took effect. -/
  | showFired
  /-- Logs the state of the task's own callback. -/
  | showState
  /-- Logs the diagnostic form of the task's own callback. -/
  | showCallback
  /-- Keeps a clone of the task's own callback. -/
  | keep (slot : String)
  /-- Logs whether the task's token is cancelled. -/
  | showCancelled
  /-- Gives up a kept callback. -/
  | release (slot : String)
  /-- Raises an event through a kept callback. -/
  | raiseKept (slot event : String)
  /-- Raises an event that carries an error through a kept callback. -/
  | raiseKeptFault (slot event : String) (fault : Fault)
  /-- Logs what a kept callback shows. -/
  | showKept (slot : String)
  /-- A step of an unknown name. -/
  | unknown (name : String)
deriving Repr, Inhabited

/-! ## Pauses -/

/-- A step at which a task may wait. -/
inductive Pause where
  /-- Waits for a number of milliseconds. -/
  | sleep (ms : Nat)
  /-- Lets every task that is ready go first. -/
  | yield
  /-- Waits until the task's token is cancelled. -/
  | untilCancelled
  /-- Waits for a number of milliseconds or until the task's token is cancelled. -/
  | sleepUnlessCancelled (ms : Nat)
  /-- Waits for ever. -/
  | forever
deriving DecidableEq, Repr, Inhabited

/-- The name under which a step is reported where no task can wait. -/
def Pause.name : Pause → String
  | .sleep _ => "sleep"
  | .yield => "yield"
  | .untilCancelled => "wait_cancel"
  | .sleepUnlessCancelled _ => "timeout"
  | .forever => "pending"

/-! ## Scripts -/

/-- Handlers of an interpreter's notifications, either of which may be missing. A handler for
state changes that is `verbose` also logs the diagnostic form of the change. -/
structure Observer (σ : Type) where
  label : String
  verbose : Bool
  onChange : Option σ
  onDone : Option σ
deriving Repr, Inhabited

/-- A step of a script. -/
inductive Instr where
  /-- Does a command. -/
  | act (command : Command)
  /-- Compares a variable with a number and goes on with one of two scripts. -/
  | branch (name : String) (comparison : Comparison) (value : Int) (yes no : List Instr)
  /-- Runs a script so many times. -/
  | loop (times : Nat) (body : List Instr)
  /-- Registers handlers with an interpreter. -/
  | observe (interpreter : Nat) (observer : Observer (List Instr))
  /-- Spawns a task of its own with clones of the callback and the token. -/
  | detach (body : List Instr)
  /-- Gives up the task's own callback. -/
  | dropCallback
  /-- Logs a label if the task is dropped or panics before its script ends. -/
  | guard (label : String)
  /-- Panics. -/
  | panic
  /-- Waits; only a task can. -/
  | pause (pause : Pause)
  /-- Ends the script, with an error or without; only a task can. -/
  | finish (failure : Option String)
deriving Repr, Inhabited

/-- A script is a list of steps. -/
abbrev Script := List Instr

/-- A task: its set-up runs when the task is created, its body when the task has its turns. -/
structure Work where
  setUp : Script := []
  body : Script := []
deriving Repr, Inhabited

end Statechart
