import Statechart.Text.Quoted

/-!
# Events

An event is what a state is left by. Most events have a name; the events by which a state hears
of the outcome of its own services have none, so that no name can collide with them.

## Main definitions

- `EventId`: a named event, or the success or failure of the service at some position of a state.
- `EventId.text`: how an event is shown.
- `EventId.transient`: the event by which transient states are left.
-/

namespace Statechart

/-- What an event is known by within a state. -/
inductive EventId where
  | named (name : String)
  | succeeded (service : Nat)
  | failed (service : Nat)
deriving DecidableEq, Repr, Inhabited

namespace EventId

/-- The reserved event by which a transient state is left at once. -/
def transient : EventId := .named ""

/-- The name of an event that has one. -/
def name? : EventId → Option String
  | .named name => some name
  | _ => none

/-- The event in texts: its name, or a stand-in for the outcome of a service. -/
def text : EventId → String
  | .named name => name
  | _ => "<generated>"

/-- The order in which events are listed: named ones by name, then those without a name. -/
def before (a b : EventId) : Bool :=
  match a, b with
  | .named x, .named y => x < y
  | .named _, _ => true
  | _, _ => false

end EventId

end Statechart
