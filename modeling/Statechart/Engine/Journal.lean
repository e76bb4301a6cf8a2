import Statechart.Json
import Statechart.Machine.State
import Statechart.Outcome

/-!
# The journal

Everything that happens is written to one journal: what scripts log, what handlers see, what the
engine reports of its own doing, and marks of the moments that nothing else shows.

## Main definitions

- `Change`: the payload of a state-changed notification.
- `Trace`: what the engine reports of its own doing, with level, message and fields.
- `Mark`: a moment of a run that scripts cannot see.
- `Entry`: an entry of the journal.
-/

namespace Statechart

open Text

/-! ## Positions -/

/-- The number of a task. -/
abbrev TaskId := Nat

/-- The number of a run. -/
abbrev RunId := Nat

/-- The number of a visit: one stay of a run in a state. -/
abbrev VisitId := Nat

/-- The number of an interpreter. -/
abbrev InterpreterId := Nat

/-! ## Changes and decisions -/

/-- An event that was accepted, with the error it carries. -/
structure Decision where
  event : EventId
  fault : Option Fault
deriving DecidableEq, Repr, Inhabited

/-- A state has been entered: which one, from which one, and on what decision. The first state of
a run is entered from nowhere. -/
structure Change where
  state : String
  previous : Option String
  cause : Option Decision
deriving DecidableEq, Repr, Inhabited

namespace Change

/-- The event that caused the change. -/
def event (c : Change) : Option EventId :=
  c.cause.map (·.event)

/-- The error that the event carried. -/
def fault (c : Change) : Option Fault :=
  c.cause.bind (·.fault)

/-- The diagnostic form of a change. -/
def debug (c : Change) : String :=
  record "StateChange"
    [("state", quoted c.state), ("previous", optional (c.previous.map quoted)),
      ("event", optional (c.event.map fun e => quoted e.text)),
      ("error", optional (c.fault.map fun f => quoted f.text))]

end Change

/-- One transition of a run. -/
structure Hop where
  source : String
  event : EventId
  target : String
deriving DecidableEq, Repr, Inhabited

/-! ## Traces -/

/-- How important a trace is. -/
inductive Level where
  | debug | info | warn | error
deriving DecidableEq, Repr, Inhabited

/-- The written form of a level. -/
def Level.label : Level → String
  | .debug => "DEBUG"
  | .info => "INFO"
  | .warn => "WARN"
  | .error => "ERROR"

/-- What the engine reports of its own doing. -/
inductive Trace where
  | starting (machine initial : String)
  | finished (machine : String) (outcome : Outcome)
  | failed (machine : String) (error : RunError)
  | stopping (machine : String)
  | moving (hop : Hop)
  | entering (state : String) (mode : Mode)
  | finalFinished (state : String)
  | settled (state : String)
  | stopped (state : String)
  | latePanic (state : String)
  | noTarget (state : String) (event : EventId)
  | unrouted (state : String) (event : EventId)
  | alreadyFired (state : String) (event : EventId)
  | alreadyOver (state : String) (event : EventId)
  | accepted (state : String) (event : EventId)
  | actionFailed (state : String) (fault : Fault)
  | stoppingNested (machine : String)
deriving DecidableEq, Repr

namespace Trace

/-- How important the trace is. -/
def level : Trace → Level
  | .starting .. | .finished .. | .stopping .. => .info
  | .failed .. => .error
  | .latePanic .. | .noTarget .. | .unrouted .. => .warn
  | _ => .debug

/-- The text of the trace. -/
def message : Trace → String
  | .starting .. => "Starting state machine"
  | .finished .. => "State machine finished"
  | .failed .. => "State machine failed"
  | .stopping .. => "Force stopping state machine"
  | .moving .. => "Transition"
  | .entering .. => "Entering state"
  | .finalFinished .. => "Final state finished its work"
  | .settled .. => "State settled without raising an event"
  | .stopped .. => "Run stopped while in state"
  | .latePanic .. => "Task panicked while state was being left"
  | .noTarget .. => "Transition has no target state"
  | .unrouted .. => "No transition registered for event, ignoring"
  | .alreadyFired .. => "State already transitioning, ignoring event"
  | .alreadyOver .. => "State entry already finished, ignoring event"
  | .accepted .. => "Event accepted"
  | .actionFailed .. => "Service action failed"
  | .stoppingNested .. => "Stopping nested machine"

/-- What the trace is about, by name. -/
def fields : Trace → List (String × String)
  | .starting machine initial => [("machine", machine), ("initial", initial)]
  | .finished machine outcome => [("machine", machine), ("outcome", outcome.debug)]
  | .failed machine error => [("machine", machine), ("error", error.message)]
  | .stopping machine | .stoppingNested machine => [("machine", machine)]
  | .moving hop => [("from", hop.source), ("to", hop.target), ("event", hop.event.text)]
  | .entering state mode => [("state", state), ("mode", mode.debug)]
  | .finalFinished state | .settled state | .stopped state | .latePanic state =>
    [("state", state)]
  | .noTarget state event | .unrouted state event | .alreadyFired state event
  | .alreadyOver state event | .accepted state event =>
    [("state", state), ("event", event.text)]
  | .actionFailed state fault => [("state", state), ("error", fault.text)]

end Trace

/-! ## Marks -/

/-- The lists of actions of a state. -/
inductive Phrase where
  | enter | cleanup | exit
deriving DecidableEq, Repr, Inhabited

/-- A part of the work of a state, by position. -/
inductive Part where
  | service (position : Nat)
  | activity (position : Nat)
deriving DecidableEq, Repr, Inhabited

/-- How a task ended: it returned, a run that it drove returned, it panicked, or it was dropped
before it could return. -/
inductive Fate where
  | returned
  | ran (result : RunResult)
  | panicked
  | dropped
deriving DecidableEq

/-- What ended the wait of a visit. -/
inductive Ending where
  | decided (decision : Decision)
  | settled
  | stopped
  | panicked
deriving DecidableEq, Repr, Inhabited

/-- A moment that scripts cannot see. -/
inductive Mark where
  /-- A run took the slot of its interpreter. -/
  | began (run : RunId)
  /-- A stop of the run was asked for. -/
  | stopAsked (run : RunId)
  /-- The run's observers are told of a change. -/
  | notified (run : RunId) (change : Change)
  /-- A visit begins. -/
  | entered (run : RunId) (visit : VisitId)
  /-- An action of a visit begins. -/
  | acted (visit : VisitId) (phrase : Phrase) (position : Nat)
  /-- Every enter action of a visit is done. -/
  | arrived (visit : VisitId)
  /-- A service or activity of a visit is set up. -/
  | launched (visit : VisitId) (part : Part)
  /-- A task takes a turn. -/
  | turn (task : TaskId)
  /-- A task is gone. -/
  | ended (task : TaskId) (fate : Fate)
  /-- An event was raised on a visit, and whether it was accepted. -/
  | raised (visit : VisitId) (decision : Decision) (accepted : Bool)
  /-- The wait of a visit is over. -/
  | concluded (visit : VisitId) (ending : Ending)
  /-- A visit is over. -/
  | left (visit : VisitId)
  /-- A run went from one state to the next. -/
  | moved (run : RunId) (hop : Hop)
  /-- The run's observers are told that the machine is done. -/
  | announced (run : RunId)
  /-- A run returned. -/
  | returned (run : RunId) (result : RunResult)
  /-- A run gave up the slot of its interpreter. -/
  | released (run : RunId) (status : Status)
  /-- The limit on the history of an interpreter was set, whether or not it changed. -/
  | limited (interpreter : InterpreterId) (before after : Nat)
deriving DecidableEq

/-! ## Entries -/

/-- An entry of the journal. -/
inductive Entry where
  | label (value : Json)
  | value (name : String) (value : Int)
  | start (error : Option RunError)
  | status (status : Status) (running : Bool)
  | path (states : List String)
  | raise (event : String) (accepted : Option Bool)
  | raiseFault (event : String) (accepted : Option Bool)
  | fired (value : Option Bool)
  | state (id : Option String)
  | debug (text : Option String)
  | cancelled (value : Option Bool)
  | release (kept : Bool)
  | kept (shown : Option (String × Bool × Bool))
  | badStep (name : String)
  | changed (label : String) (change : Change)
  | done (label : String)
  | drop (label : String)
  | trace (trace : Trace)
  | mark (mark : Mark)

namespace Entry

/-- Whether an entry is shown; traces are only on request, and marks never. -/
def isShown (tracing : Bool) : Entry → Bool
  | .trace _ => tracing
  | .mark _ => false
  | _ => true

/-- Puts the drop of a guard among the drops at the head of a list, by label. -/
def insertDrop (guard : String) : List Entry → List Entry
  | .drop other :: rest =>
    if other < guard then .drop other :: insertDrop guard rest
    else .drop guard :: .drop other :: rest
  | rest => .drop guard :: rest

/-- Entries with every run of adjacent drops of guards in the order of their labels. -/
def inListedOrder : List Entry → List Entry
  | [] => []
  | .drop guard :: rest => insertDrop guard (inListedOrder rest)
  | e :: rest => e :: inListedOrder rest

end Entry

end Statechart
