import Statechart.Fault

/-!
# Outcomes

How a run ends when it ends well, and what an interpreter shows of its current or last run.

## Main definitions

- `Outcome`: how a run ended without error.
- `RunResult`: how a run ended.
- `Status`: the lifecycle of an interpreter.
- `RunResult.status`: the status that a run leaves behind.
-/

namespace Statechart

open Text

/-! ## Outcomes -/

/-- How a run ended without error: in a final state, by being stopped, or in a state that ran out
of work. -/
inductive Outcome where
  | done
  | stopped
  | settled (state : String)
deriving DecidableEq, Repr, Inhabited

/-- The diagnostic form of an outcome. -/
def Outcome.debug : Outcome → String
  | .done => "Done"
  | .stopped => "Stopped"
  | .settled state => record "Settled" [("state_id", quoted state)]

/-- How a run ended. -/
abbrev RunResult := Except RunError Outcome

instance RunResult.decidableEq : DecidableEq RunResult
  | .ok a, .ok b => decidable_of_iff (a = b) (by simp)
  | .error a, .error b => decidable_of_iff (a = b) (by simp)
  | .ok _, .error _ => .isFalse (by simp)
  | .error _, .ok _ => .isFalse (by simp)

/-! ## Status -/

/-- The lifecycle of an interpreter: never started, running, or how the last run ended. -/
inductive Status where
  | idle
  | running
  | done
  | faulted
  | stopped
  | settled
deriving DecidableEq, Repr, Inhabited

namespace Status

/-- Every status. -/
def all : List Status := [.idle, .running, .done, .faulted, .stopped, .settled]

/-- The written form of a status. -/
def label : Status → String
  | .idle => "idle"
  | .running => "running"
  | .done => "done"
  | .faulted => "faulted"
  | .stopped => "stopped"
  | .settled => "settled"

/-- The diagnostic form of a status. -/
def debug : Status → String
  | .idle => "Idle"
  | .running => "Running"
  | .done => "Done"
  | .faulted => "Faulted"
  | .stopped => "Stopped"
  | .settled => "Settled"

end Status

/-- The status that a run leaves behind when it returns. -/
def RunResult.status : RunResult → Status
  | .ok .done => .done
  | .ok .stopped => .stopped
  | .ok (.settled _) => .settled
  | .error _ => .faulted

end Statechart
