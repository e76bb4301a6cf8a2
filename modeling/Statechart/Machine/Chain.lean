import Statechart.Script
import Statechart.Text.Quoted

/-!
# Action chains

Ordered lists of actions that run one after the other, each to its end before the next begins:
the enter actions, the exit actions and the cleanup of a state.

## Main definitions

- `ActionChain`: the actions, in the order in which they were added.
- `ActionChain.asAction`: a whole chain as one action of another.
-/

namespace Statechart

/-- Actions in the order in which they run. -/
structure ActionChain where
  actions : List Script := []
deriving Repr, Inhabited

namespace ActionChain

/-- The chain without actions. -/
def empty : ActionChain := {}

/-- The chain with one more action at its end. -/
def push (chain : ActionChain) (action : Script) : ActionChain :=
  { actions := chain.actions ++ [action] }

/-- The number of actions. -/
def length (chain : ActionChain) : Nat :=
  chain.actions.length

/-- Whether there is no action. -/
def isEmpty (chain : ActionChain) : Bool :=
  chain.actions.isEmpty

/-- The action that runs the whole chain. -/
def asAction (chain : ActionChain) : Script :=
  chain.actions.flatten

/-- The diagnostic form of a chain. -/
def debug (chain : ActionChain) : String :=
  Text.record "ActionChain" [("len", toString chain.length)]

end ActionChain

end Statechart
