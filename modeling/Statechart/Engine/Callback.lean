import Statechart.Engine.Waking

/-!
# Raising events

A callback raises events for one visit. The first event that has an effect commits the visit, and
no later one is accepted.

## Main definitions

- `State.admits`: whether an event can have an effect on a state.
- `World.raise`: raises an event on a visit, and says whether it was accepted.
- `World.callbackDebug`: the diagnostic form of a callback.
-/

namespace Statechart

/-- Whether an event can have an effect on a state: it carries an error, the state is final, or
the event leads somewhere. -/
def State.admits (s : State) (d : Decision) : Bool :=
  d.fault.isSome || s.mode = .final || (s.targetOf d.event).isSome

namespace World

/-- Raises an event on a visit. It is accepted if it can have an effect, no event did before, and
the inbox of the visit is open. The visit is committed even if it is closed. -/
def raise (w : World) (v : VisitId) (d : Decision) : World × Bool :=
  let x := w.visit v
  if !x.state.admits d then
    ((w.trace (.unrouted x.state.id d.event)).mark (.raised v d false), false)
  else if x.fired then
    ((w.trace (.alreadyFired x.state.id d.event)).mark (.raised v d false), false)
  -- The visit is committed before the inbox turns out to be closed.
  else if x.closed then
    let w := w.modifyVisit v fun x => { x with fired := true }
    ((w.trace (.alreadyOver x.state.id d.event)).mark (.raised v d false), false)
  else
    let w := w.modifyVisit v fun x => { x with fired := true, inbox := some d }
    (((w.notifyInbox v).trace (.accepted x.state.id d.event)).mark (.raised v d true), true)

/-- The diagnostic form of the callback of a visit. -/
def callbackDebug (w : World) (v : VisitId) : String :=
  let x := w.visit v
  Text.record "Callback" [("state", Text.quoted x.state.id), ("fired", toString x.fired)]

end World

end Statechart
