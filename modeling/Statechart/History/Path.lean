/-!
# Paths

The states that a list of moves passes through.

## Main definitions

- `pathOf`: the first source, then every target.
-/

namespace Statechart

/-- The states that moves pass through: the source of the first, then every target. -/
def pathOf {α : Type} (source target : α → String) : List α → List String
  | [] => []
  | a :: rest => source a :: target a :: rest.map target

end Statechart
