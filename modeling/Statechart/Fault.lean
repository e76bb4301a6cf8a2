import Statechart.Event
import Statechart.Text.Quoted

/-!
# Faults

What can go wrong: while a state or machine is put together, and while a machine is started or
run. An error raised by a service is either a plain message or the error of a nested run.

## Main definitions

- `BuildError`: a machine or state that cannot be put together.
- `RunError`: a run that could not start or did not end well.
- `Fault`: an error as a service raises it.
- `RunError.causes`: the texts of the errors below an error.
-/

namespace Statechart

open Text

/-! ## Building -/

/-- Why a machine or state cannot be put together. -/
inductive BuildError where
  | emptyMachineId
  | emptyMachineName
  | emptyInitialStateId
  | duplicateTransition (state event : String)
deriving DecidableEq, Repr, Inhabited

namespace BuildError

/-- The name of the kind of error. -/
def kind : BuildError → String
  | .emptyMachineId => "EmptyMachineId"
  | .emptyMachineName => "EmptyMachineName"
  | .emptyInitialStateId => "EmptyInitialStateId"
  | .duplicateTransition .. => "DuplicateTransition"

/-- The text of the error. -/
def message : BuildError → String
  | .emptyMachineId => "State machine id must not be empty"
  | .emptyMachineName => "State machine name must not be empty"
  | .emptyInitialStateId => "Initial state id must not be empty"
  | .duplicateTransition state event =>
    s!"State '{state}' already has a transition for event '{event}'"

/-- The diagnostic form of the error. -/
def debug : BuildError → String
  | .duplicateTransition state event =>
    record "DuplicateTransition" [("state", quoted state), ("event", quoted event)]
  | e => e.kind

end BuildError

/-! ## Running -/

mutual

/-- Why a run could not start, or what ended it. -/
inductive RunError where
  | alreadyRunning (machine : String)
  | missingStates (machine : String)
  | initialStateNotFound (machine state : String)
  | danglingTransition (source : String) (event : EventId) (target : String)
  | serviceFailed (state : String) (fault : Fault)
  | taskPanicked (state : String)
  | childMachineIncomplete (machine state : String)
deriving DecidableEq, Repr

/-- An error as a service raises it: a message, or the error of a nested run. -/
inductive Fault where
  | message (text : String)
  | run (error : RunError)
deriving DecidableEq, Repr

end

instance : Inhabited RunError := ⟨.alreadyRunning ""⟩
instance : Inhabited Fault := ⟨.message ""⟩

namespace RunError

/-- The name of the kind of error. -/
def kind : RunError → String
  | .alreadyRunning .. => "AlreadyRunning"
  | .missingStates .. => "MissingStates"
  | .initialStateNotFound .. => "InitialStateNotFound"
  | .danglingTransition .. => "DanglingTransition"
  | .serviceFailed .. => "ServiceFailed"
  | .taskPanicked .. => "TaskPanicked"
  | .childMachineIncomplete .. => "ChildMachineIncomplete"

/-- The text of the error. -/
def message : RunError → String
  | .alreadyRunning machine => s!"State machine '{machine}' is already running"
  | .missingStates machine => s!"States are not defined for state machine '{machine}'"
  | .initialStateNotFound machine state =>
    s!"Initial state '{state}' of state machine '{machine}' was not found"
  | .danglingTransition source event target =>
    s!"State '{source}' transitions on '{event.text}' to '{target}', "
      ++ "but no state with that id is registered"
  | .serviceFailed state _ => s!"Service of state '{state}' failed without an error route"
  | .taskPanicked state => s!"A service or activity of state '{state}' panicked"
  | .childMachineIncomplete machine state =>
    s!"Nested state machine '{machine}' stopped in non-final state '{state}'"

/-- The texts that the error names, in order. -/
def fields : RunError → List String
  | .alreadyRunning machine => [machine]
  | .missingStates machine => [machine]
  | .initialStateNotFound machine state => [machine, state]
  | .danglingTransition source event target => [source, event.text, target]
  | .serviceFailed state _ => [state]
  | .taskPanicked state => [state]
  | .childMachineIncomplete machine state => [machine, state]

end RunError

/-- The text of a fault. -/
def Fault.text : Fault → String
  | .message text => text
  | .run error => error.message

mutual

/-- The texts of the errors below an error: only a failed service has one below it. -/
def RunError.causes : RunError → List String
  | .serviceFailed _ fault => fault.text :: fault.causes
  | _ => []

/-- The texts of the errors below a fault. -/
def Fault.causes : Fault → List String
  | .message _ => []
  | .run error => error.causes

end

mutual

/-- The diagnostic form of an error. -/
def RunError.debug : RunError → String
  | .alreadyRunning machine => record "AlreadyRunning" [("machine", quoted machine)]
  | .missingStates machine => record "MissingStates" [("machine", quoted machine)]
  | .initialStateNotFound machine state =>
    record "InitialStateNotFound" [("machine", quoted machine), ("state", quoted state)]
  | .danglingTransition source event target =>
    record "DanglingTransition"
      [("from", quoted source), ("event", quoted event.text), ("target", quoted target)]
  | .serviceFailed state fault =>
    record "ServiceFailed" [("state", quoted state), ("source", fault.debug)]
  | .taskPanicked state => record "TaskPanicked" [("state", quoted state)]
  | .childMachineIncomplete machine state =>
    record "ChildMachineIncomplete" [("machine", quoted machine), ("state", quoted state)]

/-- The diagnostic form of a fault: a plain message is quoted. -/
def Fault.debug : Fault → String
  | .message text => quoted text
  | .run error => error.debug

end

end Statechart
