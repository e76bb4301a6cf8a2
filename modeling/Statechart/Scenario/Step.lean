import Statechart.Engine.Journal
import Statechart.Machine.Validation

/-!
# Scenario steps

What the controller of a scenario does, one step after the other, and how each step is answered.

## Main definitions

- `Step`: a step of the controller.
- `Answer`: what a step gives.
- `Report`: the answer with the time, the statuses and the journal at the end of the step.
-/

namespace Statechart

/-- A step of the controller. Interpreters are meant by their position. -/
inductive Step where
  /-- Runs an interpreter and waits for the run to return, for so many milliseconds. -/
  | run (interpreter ms : Nat)
  /-- Starts an interpreter in the background. -/
  | start (interpreter : Nat)
  /-- Waits for a run in the background to return, for so many milliseconds. -/
  | join (interpreter ms : Nat)
  /-- Aborts a run in the background. -/
  | abort (interpreter : Nat)
  /-- Shows the history of an interpreter. -/
  | history (interpreter : Nat)
  /-- Shows the diagnostic form of an interpreter. -/
  | debug (interpreter : Nat)
  /-- Validates the machine of an interpreter. -/
  | validate (interpreter : Nat)
  /-- Shows the diagnostic form of the machine of an interpreter. -/
  | machineDebug (interpreter : Nat)
  /-- Does a step of a script. -/
  | script (instr : Instr)
deriving Inhabited

/-- What a step gives. -/
inductive Answer where
  | null
  | outcome (outcome : Outcome)
  | error (error : RunError)
  | panicked
  | timeout
  | started
  | aborting
  | aborted
  | noHandle
  | history (hops : List Hop)
  | text (text : String)
  | unordered
  | issues (issues : List Issue)
deriving Inhabited

/-- What is reported at the end of a step. -/
structure Report where
  answer : Answer
  /-- Milliseconds since the scenario began. -/
  time : Nat
  /-- The status of each interpreter, and whether a run holds its slot. -/
  statuses : List (Status × Bool)
  /-- How much of the journal was written by then. -/
  written : Nat
deriving Inhabited

/-- The answer to a run that returned. -/
def Answer.ofResult : RunResult → Answer
  | .ok o => .outcome o
  | .error e => .error e

/-- The answer to a diagnostic form whose order may be open. -/
def Answer.ofDebug : Option String → Answer
  | some shown => .text shown
  | none => .unordered

end Statechart
