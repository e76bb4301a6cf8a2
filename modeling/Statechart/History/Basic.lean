import Statechart.Calendar.Timestamp
import Statechart.History.Path
import Statechart.Text.Quoted

/-!
# Transition histories

What a machine went through, as values that do not change: recording a transition makes a new
history.

## Main definitions

- `Transition`: one transition and when it was taken.
- `History`: transitions, oldest first.
- `History.path`: the states passed through.
- `History.duration`: the time from the first transition to the last.
-/

namespace Statechart

open Text

/-- A transition taken: from which state to which, on what event, and when. -/
structure Transition where
  source : String
  target : String
  event : String
  time : Instant
deriving DecidableEq

/-- Transitions, oldest first. -/
structure History where
  transitions : List Transition := []
deriving DecidableEq

instance : Inhabited History := ⟨{}⟩

namespace Transition

/-- The diagnostic form of a transition. -/
def debug (t : Transition) : String :=
  record "StateTransition"
    [("from", quoted t.source), ("to", quoted t.target), ("event", quoted t.event),
      ("timestamp", t.time.timestamp)]

end Transition

namespace History

/-- The history with one more transition. -/
def record (h : History) (t : Transition) : History :=
  ⟨h.transitions ++ [t]⟩

/-- The history of given transitions. -/
def ofList (transitions : List Transition) : History :=
  ⟨transitions⟩

/-- The number of transitions. -/
def length (h : History) : Nat :=
  h.transitions.length

/-- Whether there is no transition. -/
def isEmpty (h : History) : Bool :=
  h.transitions.isEmpty

/-- The newest transition. -/
def last? (h : History) : Option Transition :=
  h.transitions.getLast?

/-- The states passed through: where the first transition left, then every state reached. -/
def path (h : History) : List String :=
  pathOf Transition.source Transition.target h.transitions

/-- The time from the first transition to the last, unless there is none or it is negative. -/
def duration (h : History) : Option Instant.Elapsed := do
  let first ← h.transitions.head?
  let last ← h.transitions.getLast?
  last.time.since first.time

/-- The diagnostic form of a history. -/
def debug (h : History) : String :=
  Text.record "StateHistory" [("transitions", bracketed (h.transitions.map Transition.debug))]

end History

end Statechart
