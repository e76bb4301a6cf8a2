import Statechart.Machine.State

/-!
# Validation

What can be seen to be wrong with a machine without running it: states that are missing. Every
problem is reported, in the order of the states.

## Main definitions

- `Issue`: a problem of a machine.
- `Machine.issues`: the problems of a machine; it is valid if there are none.
- `Issue.inListedOrder`: the issues with those on events without a name last among their like.
-/

namespace Statechart

open Text

/-- A problem that shows in the definition of a machine. -/
inductive Issue where
  | missingStates (machine : String)
  | initialStateNotFound (machine state : String)
  | danglingTransition (state : String) (event : EventId) (target : String)
deriving DecidableEq, Repr, Inhabited

namespace Issue

/-- The name of the kind of problem. -/
def kind : Issue → String
  | .missingStates .. => "MissingStates"
  | .initialStateNotFound .. => "InitialStateNotFound"
  | .danglingTransition .. => "DanglingTransition"

/-- The text of the problem. -/
def message : Issue → String
  | .missingStates machine => s!"States are not defined for state machine '{machine}'"
  | .initialStateNotFound machine state =>
    s!"Initial state '{state}' of state machine '{machine}' was not found"
  | .danglingTransition state event target =>
    s!"State '{state}' transitions on '{event.text}' to unknown state '{target}'"

/-- The diagnostic form of the problem. -/
def debug : Issue → String
  | .missingStates machine => record "MissingStates" [("machine", quoted machine)]
  | .initialStateNotFound machine state =>
    record "InitialStateNotFound" [("machine", quoted machine), ("state", quoted state)]
  | .danglingTransition state event target =>
    record "DanglingTransition"
      [("state", quoted state), ("event", quoted event.text), ("target", quoted target)]

end Issue

/-! ## The problems of a machine -/

/-- The problem with the initial state, if no state has its id. -/
def Machine.initialIssues (m : Machine) : List Issue :=
  match m.find? m.initialStateId with
  | some _ => []
  | none => [.initialStateNotFound m.id m.initialStateId]

/-- The routes of a state that lead to no state of the machine. -/
def Machine.danglingRoutes (m : Machine) (s : State) : List (EventId × String) :=
  -- An empty target is none, so it does not dangle.
  s.listedRoutes.filter fun r => r.2 ≠ "" ∧ (m.find? r.2).isNone

/-- The problems with the routes of a state. -/
def Machine.stateIssues (m : Machine) (s : State) : List Issue :=
  (m.danglingRoutes s).map fun r => .danglingTransition s.id r.1 r.2

/-- The problems of a machine: without states there is nothing else to say; otherwise that of the
initial state comes first, and then those of each state. -/
def Machine.issues (m : Machine) : List Issue :=
  match m.states with
  | none => [.missingStates m.id]
  | some states => m.initialIssues ++ states.flatMap m.stateIssues

/-! ## Order

Events without a name have no place in an order by event, so the issues on them are listed last,
by target, in each block of adjacent issues on states of the same id.
-/

namespace Issue

/-- Whether two issues belong to one block: both are on routes of states of the same id. -/
def sameState : Issue → Issue → Bool
  | .danglingTransition s _ _, .danglingTransition t _ _ => s = t
  | _, _ => false

/-- Whether the issue is on an event without a name. -/
def isAnonymous : Issue → Bool
  | .danglingTransition _ event _ => event.name?.isNone
  | _ => false

/-- The target of the route that the issue is on. -/
def target : Issue → String
  | .danglingTransition _ _ target => target
  | _ => ""

/-- A block of issues with those on events without a name last, by target. -/
def blockInOrder (block : List Issue) : List Issue :=
  let (anonymous, named) := block.partition isAnonymous
  named ++ anonymous.mergeSort fun a b => a.target < b.target || a.target = b.target

/-- Issues as they are listed. -/
def inListedOrder (issues : List Issue) : List Issue :=
  (issues.splitBy sameState).flatMap blockInOrder

end Issue

end Statechart
