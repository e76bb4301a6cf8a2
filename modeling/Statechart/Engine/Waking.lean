import Statechart.Engine.World

/-!
# Waking tasks

Tasks take turns in the order in which they became ready. A task that is woken goes to the end of
the queue, once, while it is queued; one that is woken during its own turn goes there when the
turn ends. Cancelling a token wakes its waiters in the order in which they came.

## Main definitions

- `World.wake`, `World.park`, `World.spawn`, `World.abort`: how tasks enter and leave the queue.
- `World.isCancelled`: whether a token is cancelled.
- `World.tearScope`, `World.cancelRun`: the two ways in which tokens are cancelled.
- `World.isHeld`, `World.letGo`: the clones of a callback.
-/

namespace Statechart.World

/-! ## The queue -/

/-- Puts a task at the end of the queue, unless it is queued. -/
def enqueue (w : World) (t : TaskId) : World :=
  if t ∈ w.queue then w else { w with queue := w.queue ++ [t] }

/-- Wakes a task: one that is taking its turn is queued again when the turn ends. -/
def wake (w : World) (t : TaskId) : World :=
  if !(w.task t).isAlive then w
  else if w.running = some t then w.modifyTask t fun x => { x with rewoken := true }
  else w.enqueue t

/-- Wakes tasks in order. -/
def wakeAll (w : World) (ts : List TaskId) : World :=
  ts.foldl wake w

/-- Ends the turn of a task that has more to do later. -/
def park (w : World) (t : TaskId) : World :=
  let again := (w.task t).rewoken
  let w := { w.modifyTask t fun x => { x with rewoken := false } with running := none }
  if again then w.enqueue t else w

/-- Adds a task, ready to take its first turn. -/
def spawn (w : World) (task : Task) : World :=
  { w with tasks := w.tasks.push task, queue := w.queue ++ [w.tasks.size] }

/-- Aborts a task: it takes no more turns, and is dropped when its turn would come. -/
def abort (w : World) (t : TaskId) : World :=
  if !(w.task t).isAlive || (w.task t).aborted then w
  else (w.modifyTask t fun x => { x with aborted := true }).enqueue t

/-! ## Tokens -/

/-- Whether the tokens of a visit are cancelled: the state is being left, or the run was
stopped. -/
def isCancelled (w : World) (v : VisitId) : Bool :=
  (w.visit v).torn || (w.runOf v).cancelled

/-- Lets a task wait for a token. -/
def register (w : World) (token : Token) (t : TaskId) : World :=
  match token with
  | .scope v => w.modifyVisit v fun x => { x with scopeWaiters := x.scopeWaiters ++ [t] }
  | .action v => w.modifyVisit v fun x => { x with actionWaiters := x.actionWaiters ++ [t] }

/-- Ends a task's wait for a token. -/
def deregister (w : World) (token : Token) (t : TaskId) : World :=
  match token with
  | .scope v => w.modifyVisit v fun x => { x with scopeWaiters := x.scopeWaiters.erase t }
  | .action v => w.modifyVisit v fun x => { x with actionWaiters := x.actionWaiters.erase t }

/-- Forgets who waits for the tokens of a visit. -/
def clearWaiters (w : World) (v : VisitId) : World :=
  w.modifyVisit v fun x => { x with scopeWaiters := [], actionWaiters := [] }

/-- Cancels the scope of a visit: tokens below the scope wake their waiters first. -/
def tearScope (w : World) (v : VisitId) : World :=
  let x := w.visit v
  let w := (w.clearWaiters v).modifyVisit v fun x => { x with torn := true }
  (w.wakeAll x.actionWaiters).wakeAll x.scopeWaiters

/-- Cancels a run and every token below it. Those who wait for the scope of its visit are woken
first, then those who wait for tokens below the scope, and last the task that drives the run, if
it waits. -/
def cancelRun (w : World) (r : RunId) : World :=
  if (w.run r).cancelled then w
  else
    let w := w.modifyRun r fun x => { x with cancelled := true }
    match (w.run r).phase with
    | .waiting v =>
      let x := w.visit v
      (((w.clearWaiters v).wakeAll x.scopeWaiters).wakeAll x.actionWaiters).wake (w.run r).host
    -- In any other phase nobody waits for a token of the run.
    | _ => w

/-! ## Clones of callbacks -/

/-- Whether any clone of the callback of a visit is left, with a task or in a slot. -/
def isHeld (w : World) (v : VisitId) : Bool :=
  w.tasks.toList.any (·.holds v) || w.kept.any fun k => k.2 = v

/-- Wakes the task that drives the run of a visit, if it listens for news of the inbox. -/
def notifyInbox (w : World) (v : VisitId) : World :=
  if (w.visit v).listening then
    (w.modifyVisit v fun x => { x with listening := false }).wake (w.runOf v).host
  else w

/-- A clone of the callback of a visit was given up: the end of the last one is news. -/
def letGo (w : World) (v : VisitId) : World :=
  if w.isHeld v then w else w.notifyInbox v

/-- What a task held was given up. -/
def letGoAll (w : World) (vs : List VisitId) : World :=
  vs.foldl letGo w

end Statechart.World
