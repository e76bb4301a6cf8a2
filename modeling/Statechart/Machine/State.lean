import Statechart.Event
import Statechart.Machine.Chain

/-!
# States and machines

A machine is a list of states, one of them the initial one. A state knows the targets of its
events, its actions, and the services and activities that run while it is active; a service may
be a whole machine of its own.

## Main definitions

- `Mode`: how a state behaves once it has been entered.
- `State`, `Service`, `Machine`: the definition of a machine.
- `State.apply`: one step of configuring a state.
- `State.targetOf`: where an event leads.
- `Machine.find?`: the state of an id.
-/

namespace Statechart

open Text

/-! ## Definitions -/

/-- How a state behaves once its enter actions have run: it waits for an event, it is left at
once, or finishing it completes the machine. -/
inductive Mode where
  | normal
  | transient
  | final
deriving DecidableEq, Repr, Inhabited

mutual

/-- Work that runs while a state is active and may move the machine. -/
inductive Service where
  /-- Raises events itself, through its callback. -/
  | free (work : Work)
  /-- Its success or failure is raised as an event of its own. -/
  | routed (work : Work)
  /-- Runs a machine of its own, whose end is raised as success or failure. -/
  | nested (machine : Machine)

/-- A state of a machine. -/
structure State where
  id : String
  mode : Mode
  routes : List (EventId × String)
  enterActions : ActionChain
  exitActions : ActionChain
  services : List Service
  activities : List Work
  cleanup : ActionChain

/-- A machine: `none` in place of the states means that none have been bound yet. -/
structure Machine where
  id : String
  name : String
  initialStateId : String
  states : Option (List State)

end

instance : Inhabited State := ⟨⟨"", .normal, [], .empty, .empty, [], [], .empty⟩⟩
instance : Inhabited Machine := ⟨⟨"", "", "", none⟩⟩

namespace Mode

/-- Every mode. -/
def all : List Mode := [.normal, .transient, .final]

/-- The written form of a mode. -/
def label : Mode → String
  | .normal => "normal"
  | .transient => "transient"
  | .final => "final"

/-- The diagnostic form of a mode. -/
def debug : Mode → String
  | .normal => "Normal"
  | .transient => "Transient"
  | .final => "Final"

end Mode

/-! ## States -/

namespace State

/-- A normal state that does nothing. -/
def new (id : String) : State :=
  ⟨id, .normal, [], .empty, .empty, [], [], .empty⟩

/-- The target registered for an event, which may be empty. -/
def route? (s : State) (event : EventId) : Option String :=
  s.routes.lookup event

/-- Where an event leads: an empty target is none. -/
def targetOf (s : State) (event : EventId) : Option String :=
  (s.route? event).filter (· ≠ "")

/-- The routes as they are listed: named events by name, then the others by target. -/
def listedRoutes (s : State) : List (EventId × String) :=
  s.routes.mergeSort fun a b =>
    a.1.before b.1 || (!b.1.before a.1 && (a.2 < b.2 || a.2 = b.2))

/-! ### Configuration -/

/-- Registers the target of a named event, which must not have one yet. -/
def withTransition (s : State) (event target : String) : Except BuildError State :=
  match s.route? (.named event) with
  -- An empty target is registered like any other, although it leads nowhere.
  | some _ => .error (.duplicateTransition s.id event)
  | none => .ok { s with routes := s.routes ++ [(.named event, target)] }

/-- Makes the state transient: it is left for the target as soon as it has been entered. -/
def asTransient (s : State) (target : String) : Except BuildError State :=
  { s with mode := .transient }.withTransition "" target

/-- Registers a target for the outcome of a service, if one is given. -/
def routeOutcome (s : State) (event : EventId) (target : Option String) : State :=
  match target with
  | some target => { s with routes := s.routes ++ [(event, target)] }
  | none => s

/-- Adds a service whose success and failure are events of their own. -/
def invoke (s : State) (service : Service) (done failed : Option String) : State :=
  -- The events belong to the position, so those of two services never meet.
  let position := s.services.length
  let s := (s.routeOutcome (.succeeded position) done).routeOutcome (.failed position) failed
  { s with services := s.services ++ [service] }

/-- Adds an action to the cleanup, if one is given. -/
def withCleanup (s : State) (action : Option Script) : State :=
  match action with
  | some action => { s with cleanup := s.cleanup.push action }
  | none => s

/-- One step of configuring a state. -/
inductive Directive where
  | transition (event target : String)
  | transient (target : String)
  | final
  | onEnter (action : Script)
  | onExit (action : Script)
  | service (work : Work) (cleanup : Option Script)
  | activity (work : Work) (cleanup : Option Script)
  | action (work : Work) (done failed : Option String)
  | machine (machine : Machine) (done failed : Option String)
  | timeout (ms : Nat) (target : String)

/-- The work of a timeout: to wait, unless the state is left before. -/
def timer (ms : Nat) : Work :=
  { body := [.pause (.sleepUnlessCancelled ms)] }

/-- The state after one step of configuration. -/
def apply (s : State) : Directive → Except BuildError State
  | .transition event target => s.withTransition event target
  | .transient target => s.asTransient target
  | .final => .ok { s with mode := .final }
  | .onEnter action => .ok { s with enterActions := s.enterActions.push action }
  | .onExit action => .ok { s with exitActions := s.exitActions.push action }
  | .service work cleanup =>
    .ok (withCleanup { s with services := s.services ++ [.free work] } cleanup)
  | .activity work cleanup =>
    .ok (withCleanup { s with activities := s.activities ++ [work] } cleanup)
  | .action work done failed => .ok (s.invoke (.routed work) done failed)
  | .machine machine done failed => .ok (s.invoke (.nested machine) done failed)
  | .timeout ms target => .ok (s.invoke (.routed (timer ms)) (some target) none)

/-- A state configured step by step; the first step that fails decides the error. -/
def configure (s : State) (steps : List Directive) : Except BuildError State :=
  steps.foldlM apply s

/-! ### Diagnostic form -/

/-- The diagnostic form of the routes, none if their order is open. -/
def routesDebug? (s : State) : Option String :=
  match s.routes with
  | [] => some "\x7b\x7d"
  | [(event, target)] => some ("\x7b" ++ quoted event.text ++ ": " ++ quoted target ++ "\x7d")
  | _ => none

/-- The diagnostic form of a state, none if the order of its routes is open. -/
def debug? (s : State) : Option String := do
  let routes ← s.routesDebug?
  return record "State"
    [("id", quoted s.id), ("mode", s.mode.debug), ("transitions", routes),
      ("enter_actions", toString s.enterActions.length),
      ("exit_actions", toString s.exitActions.length),
      ("services", toString s.services.length),
      ("activities", toString s.activities.length)]

/-- The diagnostic form of the lists of services and activities. -/
def workDebug (s : State) : String × String :=
  (bracketed (s.services.map fun _ => "Service"), bracketed (s.activities.map fun _ => "Activity"))

end State

/-! ## Machines -/

namespace Machine

/-- A machine without states. -/
def new (id name initialStateId : String) : Except BuildError Machine :=
  if id = "" then .error .emptyMachineId
  else if name = "" then .error .emptyMachineName
  else if initialStateId = "" then .error .emptyInitialStateId
  else .ok ⟨id, name, initialStateId, none⟩

/-- The machine with these states in place of any it had. -/
def withStates (m : Machine) (states : List State) : Machine :=
  { m with states := some states }

/-- The machine without its states. -/
def clearStates (m : Machine) : Machine :=
  { m with states := none }

/-- The states of the machine, none if none are bound. -/
def stateList (m : Machine) : List State :=
  m.states.getD []

/-- The first state of an id. -/
def find? (m : Machine) (id : String) : Option State :=
  m.stateList.find? (·.id = id)

/-- The position of the first state of an id. -/
def findIdx? (m : Machine) (id : String) : Option Nat :=
  m.stateList.findIdx? (·.id = id)

/-- The diagnostic form of a machine, none if the order of some state's routes is open. -/
def debug? (m : Machine) : Option String := do
  let states ← match m.states with
    | none => some none
    | some states => (states.mapM State.debug?).map fun texts => some (bracketed texts)
  return record "StateMachine"
    [("id", quoted m.id), ("name", quoted m.name),
      ("initial_state_id", quoted m.initialStateId), ("states", optional states)]

end Machine

end Statechart
