import Statechart.History.Basic
import Statechart.Json
import Statechart.Machine.State
import Statechart.Outcome

/-!
# JSON forms

How modes, statuses, outcomes and histories are written as JSON values and read back.

A record is written as an object of its fields; it is read from an object that has at least these
fields, or from an array of exactly their values in order. A choice without content is written as
its label; it is read from the label, or from an object that gives the label no content. A choice
with content is an object with the label as its one field.

## Main definitions

- `Mode.toJson`, `Status.toJson`, `Outcome.toJson`, `Transition.toJson`, `History.toJson`.
- `Mode.ofJson?`, `Status.ofJson?`, `Outcome.ofJson?`, `Transition.ofJson?`, `History.ofJson?`.
-/

namespace Statechart

namespace Json

/-- The label of a choice without content. -/
def label? : Json → Option String
  | .text label => some label
  | .object [(label, .null)] => some label
  | _ => none

/-- The choice among `choices` that a value names. -/
def choice? {α : Type} (label : α → String) (choices : List α) (v : Json) : Option α :=
  v.label?.bind fun name => choices.find? fun c => label c = name

end Json

/-! ## Modes and statuses -/

/-- A mode as a JSON value. -/
def Mode.toJson (m : Mode) : Json :=
  .text m.label

/-- The mode of a JSON value. -/
def Mode.ofJson? (v : Json) : Option Mode :=
  v.choice? label all

/-- A status as a JSON value. -/
def Status.toJson (s : Status) : Json :=
  .text s.label

/-- The status of a JSON value. -/
def Status.ofJson? (v : Json) : Option Status :=
  v.choice? label all

/-! ## Outcomes -/

/-- An outcome as a JSON value. -/
def Outcome.toJson : Outcome → Json
  | .done => .text "done"
  | .stopped => .text "stopped"
  | .settled state => .object [("settled", .object [("state_id", .text state)])]

/-- The label of an outcome that has no content. -/
def Outcome.ofLabel? (label : String) : Option Outcome :=
  if label = "done" then some .done
  else if label = "stopped" then some .stopped
  else none

/-- The outcome of a JSON value. The content of a settled outcome is an object. -/
def Outcome.ofJson? : Json → Option Outcome
  -- Unlike a record, the content is not read from an array.
  | .object [("settled", .object fields)] =>
    ((fields.lookup "state_id").bind Json.text?).map .settled
  | v => v.label?.bind ofLabel?

/-! ## Histories -/

/-- A transition as a JSON value. -/
def Transition.toJson (t : Transition) : Json :=
  .object [("from", .text t.source), ("to", .text t.target), ("event", .text t.event),
    ("timestamp", .text t.time.timestamp)]

/-- The transition of a JSON value. -/
def Transition.ofJson? (v : Json) : Option Transition := do
  match ← v.fields? ["from", "to", "event", "timestamp"] with
  | [source, target, event, time] =>
    return ⟨← source.text?, ← target.text?, ← event.text?,
      ← time.text?.bind Instant.ofTimestamp?⟩
  | _ => none

/-- A history as a JSON value. -/
def History.toJson (h : History) : Json :=
  .object [("transitions", .array (h.transitions.map Transition.toJson))]

/-- The history of a JSON value. -/
def History.ofJson? (v : Json) : Option History := do
  match ← v.fields? ["transitions"] with
  | [transitions] => return ⟨← (← transitions.items?).mapM Transition.ofJson?⟩
  | _ => none

end Statechart
