import Statechart.Scenario.Controller

/-!
# Scenarios

A scenario has some interpreters over one machine, observers, and a controller with steps. It
runs by itself: the task at the head of the queue takes its turn, and when no task is ready, time
goes on to the next moment that a task waits for.

## Main definitions

- `Scenario`: what a scenario consists of.
- `World.beginTurn`, `World.move`, `World.advanceClock?`: the moves of the world.
- `World.step?`: the next move, with turns in the order of the queue.
- `Scenario.reports`: the reports on the steps of a scenario.
-/

namespace Statechart

/-! ## Moves -/

namespace World

/-- A move of the task whose turn it is. -/
def move (w : World) (t : TaskId) : World :=
  match (w.task t).job with
  | .script s => w.moveScript t s
  | .nested machine => w.beginNested t machine
  | .drive r hook => w.moveDrive t r hook
  | .stopHook i => w.moveStopHook t i
  | .control steps doing => w.moveControl t steps doing

/-- Begins the turn of a task that is ready; one that was aborted is dropped instead. -/
def beginTurn (w : World) (t : TaskId) : World :=
  let w := { w with queue := w.queue.erase t }
  if (w.task t).aborted then w.dropTask t else { w.mark (.turn t) with running := some t }

/-- The next moment that some task waits for. -/
def nextDeadline? (w : World) : Option Nat :=
  (w.tasks.toList.filterMap Task.deadline?).min?

/-- The tasks that wait for a moment not after `time`, in order. -/
def dueTasks (w : World) (time : Nat) : List TaskId :=
  (List.range w.tasks.size).filter fun t => (w.task t).deadline?.any (· ≤ time)

/-- Lets time go on to the next moment that some task waits for, if there is one. -/
def advanceClock? (w : World) : Option World :=
  w.nextDeadline?.map fun time =>
    -- A moment that has passed does not set the clock back.
    { w with now := max w.now time }.wakeAll (w.dueTasks time)

/-- The next move: of the task whose turn it is, or else of the first task that is ready, or
else of the clock. There is none when every task waits for ever. -/
def step? (w : World) : Option World :=
  match w.running with
  | some t => some (w.move t)
  | none =>
    match w.queue with
    | t :: _ => some (w.beginTurn t)
    | [] => w.advanceClock?

/-- Makes moves while there are steps to report on, at most so many. -/
def makeMoves (steps : Nat) : Nat → World → World
  | 0, w => w
  | n + 1, w =>
    if steps ≤ w.reports.size then w
    else
      match w.step? with
      | some w => makeMoves steps n w
      | none => w

end World

/-! ## Scenarios -/

/-- A scenario. -/
structure Scenario where
  machine : Machine
  interpreters : Nat
  /-- The limit on the histories, if it is not the usual one. -/
  limit : Option Nat
  /-- Observers with the interpreters that they are registered with. -/
  observers : List (Nat × Observer Script)
  steps : List Step

namespace Scenario

/-- The world at the beginning of a scenario: the controller is ready. -/
def start (s : Scenario) : World :=
  let history := Window.withLimit (s.limit.getD Window.defaultLimit)
  let blank : Interpreter := { machine := s.machine, history }
  let w : World :=
    { interpreters := ⟨Array.replicate s.interpreters blank⟩, named := s.interpreters }
  let w := s.observers.foldl (fun w o => w.observe o.1 o.2) w
  w.spawn { job := .control s.steps .nothing }

/-- The world after at most so many moves. -/
def play (s : Scenario) (moves : Nat) : World :=
  s.start.makeMoves s.steps.length moves

/-- The entries that a report shows: those written since the report before. -/
def shownEntries (w : World) (tracing : Bool) (previous : Nat) (r : Report) : List Entry :=
  Entry.inListedOrder ((w.journal.extract previous r.written).toList.filter (·.isShown tracing))

/-- The reports of a world with the entries that each shows. -/
def reportsFrom (w : World) (tracing : Bool) (previous : Nat) :
    List Report → List (Report × List Entry)
  | [] => []
  | r :: rest => (r, shownEntries w tracing previous r) :: reportsFrom w tracing r.written rest

/-- The reports on the steps of a scenario, each with the entries that it shows. -/
def reports (s : Scenario) (tracing : Bool) (moves : Nat) : List (Report × List Entry) :=
  let w := s.play moves
  reportsFrom w tracing 0 w.reports.toList

end Scenario

end Statechart
