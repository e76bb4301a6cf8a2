import Statechart.Engine.Callback
import Statechart.Engine.Slot

/-!
# Running scripts

Commands, and scripts that run to their end at once: actions, handlers and the set-up of tasks.
Where nothing can wait, a step that would wait is reported and passed over. A panic ends the
script, and the guards set by then are dropped in the order in which they were set.

## Main definitions

- `World.perform`: what a command does.
- `World.runScript`: runs a script to its end, or to a panic.
- `World.runAction`: runs a script with guards of its own.
- `World.runChain`: runs actions one after the other.
-/

namespace Statechart.World

/-! ## Commands -/

/-- An interpreter that scripts can name. -/
def named? (w : World) (i : Nat) : Option InterpreterId :=
  if i < w.named then some i else none

/-- Does something with an interpreter that scripts can name, if there is one. -/
def withNamed (w : World) (i : Nat) (f : InterpreterId → World) : World :=
  match w.named? i with
  | some i => f i
  | none => w

/-- The callback kept in a slot. -/
def keptIn (w : World) (slot : String) : Option VisitId :=
  w.kept.lookup slot

/-- Empties a slot. -/
def emptySlot (w : World) (slot : String) : World :=
  let old := w.keptIn slot
  let w := { w with kept := w.kept.eraseP (·.1 = slot) }
  w.letGoAll old.toList

/-- Keeps a clone of a callback in a slot, in place of the one there. -/
def keep (w : World) (slot : String) (v : VisitId) : World :=
  let old := w.keptIn slot
  let w := { w with kept := (slot, v) :: w.kept.eraseP (·.1 = slot) }
  w.letGoAll old.toList

/-- Raises an event through a callback, if there is one, and says whether it was accepted. -/
def raiseThrough (w : World) (callback : Option VisitId) (d : Decision) : World × Option Bool :=
  match callback with
  | some v =>
    let (w, accepted) := w.raise v d
    (w, some accepted)
  | none => (w, none)

/-- Raises a plain event and logs whether it was accepted. -/
def raiseEvent (w : World) (callback : Option VisitId) (event : String) : World :=
  let (w, accepted) := w.raiseThrough callback ⟨.named event, none⟩
  w.log (.raise event accepted)

/-- Raises an event that carries an error and logs whether it was accepted. -/
def raiseFault (w : World) (callback : Option VisitId) (event : String) (fault : Fault) : World :=
  let (w, accepted) := w.raiseThrough callback ⟨.named event, some fault⟩
  w.log (.raiseFault event accepted)

/-- Starts an interpreter and logs how that went. -/
def startAndLog (w : World) (i : InterpreterId) : World :=
  match w.startInBackground i with
  | .ok w => w.log (.start none)
  | .error e => w.log (.start (some e))

/-- What a kept callback shows: its state, whether an event took effect, and whether its scope is
cancelled. -/
def shownKept (w : World) (v : VisitId) : String × Bool × Bool :=
  ((w.visit v).state.id, (w.visit v).fired, w.isCancelled v)

/-- Limits the history of an interpreter. -/
def limitHistory (w : World) (i : InterpreterId) (limit : Nat) : World :=
  (w.modifyInterpreter i fun x => { x with history := x.history.setLimit limit }).mark
    (.limited i (w.interpreter i).history.limit limit)

/-- What a command does for a script of the given reach. -/
def perform (w : World) (reach : Reach) : Command → World
  | .log label => w.log (.label label)
  | .add name amount => w.setVariable name (w.valueOf name + amount)
  | .assign name value => w.setVariable name value
  | .showVariable name => w.log (.value name (w.valueOf name))
  | .stop i => w.withNamed i w.forceStop
  | .start i => w.withNamed i w.startAndLog
  | .showStatus i =>
    w.withNamed i fun i =>
      w.log (.status (w.interpreter i).status (w.interpreter i).isRunning)
  | .showPath i => w.withNamed i fun i => w.log (.path (w.interpreter i).path)
  | .limitHistory i limit => w.withNamed i fun i => w.limitHistory i limit
  | .raise event => w.raiseEvent reach.callback event
  | .raiseFault event fault => w.raiseFault reach.callback event fault
  | .showFired => w.log (.fired (reach.callback.map fun v => (w.visit v).fired))
  | .showState => w.log (.state (reach.callback.map fun v => (w.visit v).state.id))
  | .showCallback => w.log (.debug (reach.callback.map w.callbackDebug))
  | .keep slot =>
    match reach.callback with
    | some v => w.keep slot v
    | none => w
  | .showCancelled =>
    w.log (.cancelled (reach.token?.map fun token => w.isCancelled token.visit))
  | .release slot => (w.emptySlot slot).log (.release (w.keptIn slot).isSome)
  | .raiseKept slot event => w.raiseEvent (w.keptIn slot) event
  | .raiseKeptFault slot event fault => w.raiseFault (w.keptIn slot) event fault
  | .showKept slot => w.log (.kept ((w.keptIn slot).map w.shownKept))
  | .unknown name => w.log (.badStep name)

/-- Registers an observer with an interpreter that scripts can name. -/
def observe (w : World) (i : Nat) (o : Observer Script) : World :=
  w.withNamed i fun i => w.modifyInterpreter i (·.observe o)

/-- Spawns a task that belongs to no visit, with clones of a callback and a token. -/
def detach (w : World) (reach : Reach) (body : Script) : World :=
  w.spawn { job := .script body, reach }

/-! ## Scripts -/

/-- What a script holds while it runs. -/
structure Frame where
  reach : Reach := {}
  guards : List String := []
deriving Inhabited

/-- The frame without its callback. -/
def Frame.dropCallback (f : Frame) : Frame :=
  { f with reach := { f.reach with callback := none } }

/-- The name under which the end of a script is reported where it is not allowed. -/
def finishName : Option String → String
  | some _ => "fail"
  | none => "return"

mutual

/-- Runs a step of a script; the last component says whether it panicked. -/
def runInstr (w : World) (f : Frame) : Instr → World × Frame × Bool
  | .act c => (w.perform f.reach c, f, false)
  | .branch name comparison value yes no =>
    if comparison.holds (w.valueOf name) value then runScript w f yes else runScript w f no
  | .loop times body =>
    -- A panic in one round leaves the others out.
    times.repeat (fun s => if s.2.2 then s else runScript s.1 s.2.1 body) (w, f, false)
  | .observe i o => (w.observe i o, f, false)
  | .detach body => (w.detach f.reach body, f, false)
  | .dropCallback => (w.letGoAll f.reach.callback.toList, f.dropCallback, false)
  | .guard label => (w, { f with guards := f.guards ++ [label] }, false)
  | .panic => (w, f, true)
  -- Nothing can wait here, nor end on its own account.
  | .pause p => (w.log (.badStep p.name), f, false)
  | .finish failure => (w.log (.badStep (finishName failure)), f, false)

/-- Runs a script to its end, or to a panic; the last component says which. -/
def runScript (w : World) (f : Frame) : Script → World × Frame × Bool
  | [] => (w, f, false)
  | i :: rest =>
    match runInstr w f i with
    | (w, f, true) => (w, f, true)
    | (w, f, false) => runScript w f rest

end

/-- Runs a script with guards of its own: what it can reach afterwards, and whether it
panicked. -/
def runAction (w : World) (reach : Reach) (s : Script) : World × Reach × Bool :=
  match w.runScript { reach } s with
  -- Guards show only if the script does not come to its end.
  | (w, f, true) => (w.logDrops f.guards, f.reach, true)
  | (w, f, false) => (w, f.reach, false)

/-- Runs actions one after the other, each of them announced first; the last component says
whether one panicked. -/
def runChain (w : World) (announce : Nat → Mark) (position : Nat) : List Script → World × Bool
  | [] => (w, false)
  | s :: rest =>
    match (w.mark (announce position)).runAction {} s with
    | (w, _, true) => (w, true)
    | (w, _, false) => runChain w announce (position + 1) rest

/-- Runs the actions of a visit of one kind. -/
def runPhrase (w : World) (v : VisitId) (phrase : Phrase) : World × Bool :=
  let s := (w.visit v).state
  let chain := match phrase with
    | .enter => s.enterActions
    | .cleanup => s.cleanup
    | .exit => s.exitActions
  w.runChain (.acted v phrase) 0 chain.actions

/-- Runs a chain outside any visit: what it logs, and whether it panicked. -/
def runAlone (w : World) (chain : ActionChain) : World × List Entry × Bool :=
  let written := w.journal.size
  let (w, panicked) := w.runChain (.acted w.visits.size .enter) 0 chain.actions
  (w, (w.journal.toList.drop written).filter (·.isShown false), panicked)

/-! ## Handlers -/

/-- Tells handlers of a change, one after the other; the last component says whether one
panicked. -/
def notifyChange (w : World) (change : Change) : List ChangeHandler → World × Bool
  | [] => (w, false)
  | h :: rest =>
    let w := w.log (.changed h.label change)
    let w := if h.verbose then w.log (.debug (some change.debug)) else w
    match w.runAction {} h.script with
    | (w, _, true) => (w, true)
    | (w, _, false) => notifyChange w change rest

/-- Tells handlers that the machine is done, one after the other; the last component says whether
one panicked. -/
def notifyDone (w : World) : List DoneHandler → World × Bool
  | [] => (w, false)
  | h :: rest =>
    match (w.log (.done h.label)).runAction {} h.script with
    | (w, _, true) => (w, true)
    | (w, _, false) => notifyDone w rest

end Statechart.World
