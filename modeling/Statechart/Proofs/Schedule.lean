import Mathlib.Logic.Relation
import Statechart.Scenario.Basic

/-!
# Every schedule

A scenario plays with turns in the order of the queue and time that moves when nobody is ready.
Here turns are taken in any order, time moves whenever no task has the turn, and everybody who
holds an interpreter may use it at such a moment: stop it, start it, run it from a task of its
own, abort a run in the background, or give up a run that it waits for.

## Main definitions

- `World.giveUp`: the controller drops the run that it waits for.
- `World.Next`: the moves of a world under every schedule.
- `Scenario.Reaches`: the worlds that a scenario comes to.

## Main statements

- `Scenario.reaches_play`: playing a scenario is one of its schedules.
-/

namespace Statechart

/-- Whether a run waits: for an event, or for tasks to be gone. Only then can it be dropped. -/
def Phase.isSuspended : Phase → Bool
  | .waiting _ => true
  | .draining _ _ => true
  | _ => false

namespace World

/-- The controller drops the run that it waits for, instead of going on with it. -/
def giveUp (w : World) (t : TaskId) (rest : List Step) (r : RunId) : World :=
  match w.dropRun r with
  | (w, true) => w.endTask t .panicked
  | (w, false) => w.answer t rest .timeout

/-- One move of a world. Between turns, anything may happen that those who hold an interpreter
can do. -/
inductive Next : World → World → Prop where
  /-- The task whose turn it is goes on. -/
  | move {w : World} {t : TaskId} (turn : w.running = some t) : Next w (w.move t)
  /-- The task whose turn it is drops the run that it waits for. -/
  | giveUp {w : World} {t : TaskId} {rest : List Step} {r : RunId} {deadline : Nat}
      (turn : w.running = some t) (job : (w.task t).job = .control rest (.running r deadline))
      (waits : (w.run r).phase.isSuspended = true) : Next w (w.giveUp t rest r)
  /-- A task that is ready has its turn. -/
  | turn {w : World} {t : TaskId} (free : w.running = none) (ready : t ∈ w.queue) :
      Next w (w.beginTurn t)
  /-- Time goes on. -/
  | tick {w w' : World} (free : w.running = none) (later : w.advanceClock? = some w') :
      Next w w'
  /-- A task is woken. -/
  | wake {w : World} (t : TaskId) (free : w.running = none) : Next w (w.wake t)
  /-- An interpreter is stopped. -/
  | stop {w : World} (i : InterpreterId) (free : w.running = none) : Next w (w.forceStop i)
  /-- An interpreter is started in the background. -/
  | start {w w' : World} (i : InterpreterId) (free : w.running = none)
      (started : w.startInBackground i = .ok w') : Next w w'
  /-- A task that works for no visit is aborted; the tasks that stop nested interpreters are out
  of reach. -/
  | abort {w : World} (t : TaskId) (free : w.running = none) (own : (w.task t).home = none)
      (reach : ∀ i, (w.task t).job ≠ .stopHook i) : Next w (w.abort t)
  /-- One more controller comes. -/
  | call {w : World} (steps : List Step) (free : w.running = none) :
      Next w (w.spawn { job := .control steps .nothing })

/-- The next move in the order of the queue is a move. -/
theorem Next.of_step? {w w' : World} (h : w.step? = some w') : w.Next w' := by
  unfold step? at h
  split at h
  · next t turn => exact Option.some.inj h ▸ .move turn
  · next free =>
    split at h
    · next t rest queue => exact Option.some.inj h ▸ .turn free (by simp [queue])
    · exact .tick free h

end World

namespace Scenario

/-- The worlds that a scenario comes to, under every schedule. -/
def Reaches (s : Scenario) : World → Prop :=
  Relation.ReflTransGen World.Next s.start

theorem reaches_makeMoves {s : Scenario} (steps n : Nat) {w : World} (h : s.Reaches w) :
    s.Reaches (w.makeMoves steps n) := by
  induction n generalizing w with
  | zero => exact h
  | succ n ih =>
    unfold World.makeMoves
    split
    · exact h
    · split
      · next w' step => exact ih (h.tail (.of_step? step))
      · exact h

/-- Playing a scenario is one of its schedules. -/
theorem reaches_play (s : Scenario) (n : Nat) : s.Reaches (s.play n) :=
  reaches_makeMoves _ n .refl

end Scenario

end Statechart
