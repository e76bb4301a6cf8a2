import Statechart.Proofs.Callbacks

/-!
# Strokes

Whatever a task does in a turn comes down to a few elementary changes: a *stroke* writes an entry,
changes or adds a row, raises an event, wakes, spawns or aborts a task, or ends the turn. The task
may change its own row in any way, and of the rows of other tasks no more than what waking, joining
and aborting them comes to. So what no stroke touches, no turn does: the clock, and what other tasks
are about to do.

## Main definitions

- `Stroke`, `Strokes`: an elementary change in the turn of a task, and any number of them.
- `Task.Minds`: what a task is about to do.

## Main statements

- `Strokes.move`, `Strokes.beginTurn`: turns are strokes.
- `Strokes.now`: no stroke takes time.
- `Strokes.running`: no stroke gives the turn to somebody else.
- `Strokes.minds`, `Strokes.queued`: what a task is about to do, and its place in the queue, are its
  own affair.
-/

namespace Statechart

/-! ## Definitions -/

/-- Whether an entry tells that a task takes a turn, that a visit begins or is left, or that an
event is raised. -/
def Entry.isWatched : Entry → Bool
  | .mark (.turn _) | .mark (.entered _ _) | .mark (.left _) | .mark (.raised _ _ _) => true
  | _ => false

/-- What raising events on a visit depends on and changes, and no other change of it does. -/
structure Visit.Keeps (x y : Visit) : Prop where
  state : y.state = x.state
  fired : y.fired = x.fired
  closed : y.closed = x.closed

/-- An elementary change in the turn of a task. -/
inductive Stroke (t : TaskId) (w : World) : World → Prop where
  | log (e : Entry) (aside : e.isWatched = false) : Stroke t w (w.log e)
  /-- Only the task itself takes a turn. -/
  | takes : Stroke t w (w.mark (.turn t))
  /-- The task changes its own row. -/
  | own (f : Task → Task) : Stroke t w (w.modifyTask t f)
  | wake (u : TaskId) : Stroke t w (w.wake u)
  | abort (u : TaskId) : Stroke t w (w.abort u)
  | join (u : TaskId) (joiner : Option TaskId) :
      Stroke t w (w.modifyTask u fun x => { x with joiner })
  | spawn (x : Task) : Stroke t w (w.spawn x)
  | run (r : RunId) (f : Run → Run) : Stroke t w (w.modifyRun r f)
  | newRun (x : Run) : Stroke t w { w with runs := w.runs.push x }
  | visit (v : VisitId) (f : Visit → Visit) (keeps : ∀ x : Visit, x.Keeps (f x)) :
      Stroke t w (w.modifyVisit v f)
  | enter (r : RunId) (s : State) : Stroke t w (w.pushVisit r s)
  | raise (v : VisitId) (d : Decision) : Stroke t w (w.raise v d).1
  | close (v : VisitId) : Stroke t w (w.closeVisit v)
  | interpreter (i : InterpreterId) (f : Interpreter → Interpreter) :
      Stroke t w (w.modifyInterpreter i f)
  | newInterpreter (x : Interpreter) :
      Stroke t w { w with interpreters := w.interpreters.push x }
  | keep (kept : List (String × VisitId)) : Stroke t w { w with kept }
  | tally (values : List (String × Int)) (reports : Array Report) :
      Stroke t w { w with values, reports }
  /-- The turn is taken, or given up. -/
  | turn (running : Option TaskId)
      (own : running = none ∨ running = some t ∨ running = w.running) : Stroke t w { w with running }
  | unqueue : Stroke t w { w with queue := w.queue.erase t }
  | again : Stroke t w (w.enqueue t)

/-- Any number of elementary changes in the turn of a task. -/
abbrev Strokes (t : TaskId) : World → World → Prop :=
  Relation.ReflTransGen (Stroke t)

/-- What a task is about to do, and for whom. -/
structure Task.Minds (x y : Task) : Prop where
  job : y.job = x.job
  reach : y.reach = x.reach
  home : y.home = x.home
  route : y.route = x.route
  wait : y.wait = x.wait
  fate : y.fate = x.fate

@[refl]
theorem Task.Minds.refl (x : Task) : x.Minds x :=
  ⟨rfl, rfl, rfl, rfl, rfl, rfl⟩

theorem Task.Minds.trans {x y z : Task} (h : x.Minds y) (h' : y.Minds z) : x.Minds z :=
  ⟨h'.job.trans h.job, h'.reach.trans h.reach, h'.home.trans h.home, h'.route.trans h.route,
    h'.wait.trans h.wait, h'.fate.trans h.fate⟩

/-! ## Turns are strokes -/

namespace Strokes

variable {w w' w'' : World} {t u : TaskId}

@[refl]
theorem refl (w : World) : Strokes t w w :=
  Relation.ReflTransGen.refl

theorem single (h : Stroke t w w') : Strokes t w w' :=
  Relation.ReflTransGen.single h

theorem trans (h : Strokes t w w') (h' : Strokes t w' w'') : Strokes t w w'' :=
  Relation.ReflTransGen.trans h h'

theorem tail (h : Strokes t w w') (h' : Stroke t w' w'') : Strokes t w w'' :=
  Relation.ReflTransGen.tail h h'

/-- A function that also says how it went is taken by its world. -/
theorem of_fst {α : Type} {x : World × α} (h : Strokes t w x.1) {a : α} (eq : x = (w', a)) :
    Strokes t w w' := by
  rw [eq] at h
  exact h

theorem log (h : Strokes t w w') (e : Entry) (aside : e.isWatched = false) : Strokes t w (w'.log e) :=
  h.tail (.log e aside)

/-- An entry is written. -/
theorem wrote (w : World) (e : Entry) (aside : e.isWatched = false) : Strokes t w (w.log e) :=
  single (.log e aside)

theorem mark (h : Strokes t w w') (m : Mark) (aside : (Entry.mark m).isWatched = false) :
    Strokes t w (w'.mark m) :=
  h.log _ aside

theorem trace (h : Strokes t w w') (tr : Trace) : Strokes t w (w'.trace tr) :=
  h.log _ rfl

theorem own (h : Strokes t w w') (f : Task → Task) : Strokes t w (w'.modifyTask t f) :=
  h.tail (.own f)

theorem run (h : Strokes t w w') (r : RunId) (f : Run → Run) : Strokes t w (w'.modifyRun r f) :=
  h.tail (.run r f)

theorem visit (h : Strokes t w w') (v : VisitId) (f : Visit → Visit)
    (keeps : ∀ x : Visit, x.Keeps (f x) := by exact fun _ => ⟨rfl, rfl, rfl⟩) :
    Strokes t w (w'.modifyVisit v f) :=
  h.tail (.visit v f keeps)

theorem visited (w : World) (v : VisitId) (f : Visit → Visit)
    (keeps : ∀ x : Visit, x.Keeps (f x) := by exact fun _ => ⟨rfl, rfl, rfl⟩) :
    Strokes t w (w.modifyVisit v f) :=
  single (.visit v f keeps)

theorem interpreter (h : Strokes t w w') (i : InterpreterId) (f : Interpreter → Interpreter) :
    Strokes t w (w'.modifyInterpreter i f) :=
  h.tail (.interpreter i f)

theorem wake (h : Strokes t w w') (u : TaskId) : Strokes t w (w'.wake u) :=
  h.tail (.wake u)

/-! ### Waking -/

theorem wakeAll (w : World) (ts : List TaskId) : Strokes t w (w.wakeAll ts) := by
  unfold World.wakeAll
  induction ts generalizing w with
  | nil => exact .refl _
  | cons u ts ih => exact (single (.wake u)).trans (ih _)

theorem abortWork (w : World) (v : VisitId) : Strokes t w (w.abortWork v) := by
  unfold World.abortWork
  induction (w.visit v).working generalizing w with
  | nil => exact .refl _
  | cons u ts ih => exact (single (.abort u)).trans (ih _)

theorem park (w : World) : Strokes t w (w.park t) := by
  have rested : Strokes t w
      { w.modifyTask t fun x => { x with rewoken := false } with running := none } :=
    (single (.own _)).tail (.turn none (.inl rfl))
  unfold World.park
  simp only
  split
  · exact rested.tail .again
  · exact rested

theorem logDrops (w : World) (guards : List String) : Strokes t w (w.logDrops guards) := by
  unfold World.logDrops
  induction guards generalizing w with
  | nil => exact .refl _
  | cons g gs ih => exact (wrote _ _ rfl).trans (ih _)

theorem notifyInbox (w : World) (v : VisitId) : Strokes t w (w.notifyInbox v) := by
  unfold World.notifyInbox
  split
  · exact (visited _ v _).wake _
  · exact .refl _

theorem letGoAll (w : World) (vs : List VisitId) : Strokes t w (w.letGoAll vs) := by
  unfold World.letGoAll
  induction vs generalizing w with
  | nil => exact .refl _
  | cons v vs ih =>
    refine trans ?_ (ih _)
    unfold World.letGo
    split
    · exact .refl _
    · exact notifyInbox w v

theorem tearScope (w : World) (v : VisitId) : Strokes t w (w.tearScope v) := by
  have torn : Strokes t w ((w.clearWaiters v).modifyVisit v fun x => { x with torn := true }) :=
    (visited _ v _).visit v _
  exact (torn.trans (wakeAll _ _)).trans (wakeAll _ _)

/-! ### Events and interpreters -/

theorem raise (w : World) (v : VisitId) (d : Decision) : Strokes t w (w.raise v d).1 :=
  single (.raise v d)

theorem raiseThrough (w : World) (callback : Option VisitId) (d : Decision) :
    Strokes t w (w.raiseThrough callback d).1 := by
  cases callback with
  | none => exact .refl _
  | some v => exact raise w v d

theorem raiseEvent (w : World) (callback : Option VisitId) (event : String) :
    Strokes t w (w.raiseEvent callback event) :=
  (raiseThrough w callback ⟨.named event, none⟩).log _ rfl

theorem raiseFault (w : World) (callback : Option VisitId) (event : String) (fault : Fault) :
    Strokes t w (w.raiseFault callback event fault) :=
  (raiseThrough w callback ⟨.named event, some fault⟩).log _ rfl

theorem cancelRun (w : World) (r : RunId) : Strokes t w (w.cancelRun r) := by
  have cancelled : Strokes t w (w.modifyRun r fun x => { x with cancelled := true }) :=
    single (.run r _)
  unfold World.cancelRun
  split
  · exact .refl _
  · simp only
    split
    · exact (((cancelled.visit _ _).trans (wakeAll _ _)).trans (wakeAll _ _)).wake _
    · exact cancelled

theorem forceStop (w : World) (i : InterpreterId) : Strokes t w (w.forceStop i) := by
  unfold World.forceStop
  simp only
  split
  · exact ((wrote _ _ rfl).mark _ rfl).trans (cancelRun _ _)
  · exact .refl _

theorem takeSlot (w : World) (i : InterpreterId) (host : TaskId) (s : State) :
    Strokes t w (w.takeSlot i host s) :=
  ((single (.newRun _)).interpreter i _).mark _ rfl

theorem release (w : World) (r : RunId) (status : Status) : Strokes t w (w.release r status) :=
  ((single (.run r _)).interpreter _ _).mark _ rfl

theorem setHandle (w : World) (i : InterpreterId) (u : TaskId) :
    Strokes t w (w.setHandle i u) := by
  unfold World.setHandle
  simp only
  split
  · exact (single (.join _ none)).interpreter i _
  · exact single (.interpreter i _)

/-- Whoever begins a run takes the slot for it. -/
theorem begin {i : InterpreterId} {host : TaskId} {r : RunId}
    (h : w.begin i host = .ok (w', r)) : Strokes t w w' := by
  unfold World.begin at h
  cases first : (w.interpreter i).startState with
  | error e =>
    rw [first] at h
    cases h
  | ok s =>
    rw [first] at h
    cases h
    exact takeSlot w i host s

theorem startInBackground {i : InterpreterId} (h : w.startInBackground i = .ok w') :
    Strokes t w w' := by
  simp only [World.startInBackground] at h
  cases begun : w.begin i w.tasks.size with
  | error e =>
    rw [begun] at h
    cases h
  | ok pair =>
    obtain ⟨w₁, r⟩ := pair
    rw [begun] at h
    cases h
    exact ((begin begun).tail (.spawn _)).trans (setHandle _ _ _)

theorem startAndLog (w : World) (i : InterpreterId) : Strokes t w (w.startAndLog i) := by
  unfold World.startAndLog
  split
  · next started => exact (startInBackground started).log _ rfl
  · exact wrote _ _ rfl

theorem withNamed (w : World) (i : Nat) (f : InterpreterId → World)
    (h : ∀ j, Strokes t w (f j)) : Strokes t w (w.withNamed i f) := by
  unfold World.withNamed
  split
  · exact h _
  · exact .refl _

theorem observe (w : World) (i : Nat) (o : Observer Script) : Strokes t w (w.observe i o) :=
  withNamed w i _ fun j => single (.interpreter j _)

/-! ### Scripts -/

theorem perform (w : World) (reach : Reach) (command : Command) :
    Strokes t w (w.perform reach command) := by
  cases command with
  | log | showVariable | showFired | showState | showCallback | showCancelled | showKept
  | unknown => exact wrote _ _ rfl
  | add | assign => exact single (.tally _ w.reports)
  | stop i => exact withNamed w i _ fun j => forceStop w j
  | start i => exact withNamed w i _ fun j => startAndLog w j
  | showStatus i | showPath i => exact withNamed w i _ fun j => wrote _ _ rfl
  | limitHistory i limit => exact withNamed w i _ fun j => (single (.interpreter j _)).mark _ rfl
  | raise => exact raiseEvent w _ _
  | raiseFault => exact raiseFault w _ _ _
  | keep slot =>
    cases callback : reach.callback with
    | none =>
      simp only [World.perform, callback]
      exact .refl _
    | some v =>
      simp only [World.perform, callback]
      exact (single (.keep _)).trans (letGoAll _ _)
  | release slot => exact ((single (.keep _)).trans (letGoAll _ _)).log _ rfl
  | raiseKept => exact raiseEvent w _ _
  | raiseKeptFault => exact raiseFault w _ _ _

mutual

theorem runInstr (w : World) (f : World.Frame) : ∀ i : Instr, Strokes t w (w.runInstr f i).1
  | .act command => perform w _ command
  | .branch name comparison value yes no => by
    unfold World.runInstr
    split
    · exact runScript w f yes
    · exact runScript w f no
  | .loop times body => by
    unfold World.runInstr
    -- Each round is a run of the body, unless one before has panicked.
    have once := fun w₁ f₁ => runScript w₁ f₁ body
    induction times with
    | zero => exact .refl _
    | succ n ih =>
      simp only [Nat.repeat]
      split
      · exact ih
      · exact ih.trans (once _ _)
  | .observe i o => observe w i o
  | .detach body => single (.spawn _)
  | .dropCallback => letGoAll w _
  | .guard label => .refl _
  | .panic => .refl _
  | .pause p => wrote _ _ rfl
  | .finish failure => wrote _ _ rfl

theorem runScript (w : World) (f : World.Frame) : ∀ s : Script, Strokes t w (w.runScript f s).1
  | [] => .refl _
  | i :: rest => by
    have first := runInstr w f i
    unfold World.runScript
    split
    · next h => exact first.of_fst h
    · next w₁ f₁ h => exact (first.of_fst h).trans (runScript w₁ f₁ rest)

end

theorem runAction (w : World) (reach : Reach) (s : Script) :
    Strokes t w (w.runAction reach s).1 := by
  have ran := runScript (t := t) w { reach } s
  unfold World.runAction
  split
  · next h => exact (ran.of_fst h).trans (logDrops _ _)
  · next h => exact ran.of_fst h

theorem runChain (w : World) (announce : Nat → Mark)
    (aside : ∀ k, (Entry.mark (announce k)).isWatched = false) (k : Nat) (actions : List Script) :
    Strokes t w (w.runChain announce k actions).1 := by
  induction actions generalizing w k with
  | nil => exact .refl _
  | cons s rest ih =>
    have ran := (wrote w (.mark (announce k)) (aside k)).trans (runAction (t := t) _ {} s)
    unfold World.runChain
    split
    · next h => exact ran.of_fst h
    · next h => exact (ran.of_fst h).trans (ih _ _)

theorem runPhrase (w : World) (v : VisitId) (phrase : Phrase) :
    Strokes t w (w.runPhrase v phrase).1 :=
  runChain w _ (fun _ => rfl) 0 _

theorem notifyChange (w : World) (change : Change) (handlers : List ChangeHandler) :
    Strokes t w (w.notifyChange change handlers).1 := by
  induction handlers generalizing w with
  | nil => exact .refl _
  | cons h rest ih =>
    have told : Strokes t w (if h.verbose then
        (w.log (.changed h.label change)).log (.debug (some change.debug))
        else w.log (.changed h.label change)) := by
      split
      · exact (wrote _ _ rfl).log _ rfl
      · exact wrote _ _ rfl
    unfold World.notifyChange
    simp only
    split
    · next ran => exact told.trans ((runAction _ {} h.script).of_fst ran)
    · next ran => exact (told.trans ((runAction _ {} h.script).of_fst ran)).trans (ih _)

theorem notifyDone (w : World) (handlers : List DoneHandler) :
    Strokes t w (w.notifyDone handlers).1 := by
  induction handlers generalizing w with
  | nil => exact .refl _
  | cons h rest ih =>
    have ran := (wrote w (.done h.label) rfl).trans (runAction (t := t) _ {} h.script)
    unfold World.notifyDone
    split
    · next eq => exact ran.of_fst eq
    · next eq => exact (ran.of_fst eq).trans (ih _)

/-! ### The end of a run -/

theorem conclude (w : World) (r : RunId) (result : RunResult) :
    Strokes t w (w.conclude r result).1 := by
  cases result with
  | ok outcome => exact ((wrote _ _ rfl).mark _ rfl).trans (release _ _ _)
  | error e => exact ((wrote _ _ rfl).mark _ rfl).trans (release _ _ _)

theorem closeVisit (w : World) (v : VisitId) : Strokes t w (w.closeVisit v) :=
  single (.close v)

theorem abandon (w : World) (v : VisitId) : Strokes t w (w.abandon v).1 :=
  (((abortWork w v).trans (closeVisit _ v)).trans (tearScope _ v)).trans (runPhrase _ v .cleanup)

theorem dropRun (w : World) (r : RunId) : Strokes t w (w.dropRun r).1 := by
  have ended : Strokes t w (w.modifyRun r fun x => { x with phase := .ended }) :=
    single (.run r _)
  unfold World.dropRun
  cases (w.run r).phase with
  | begun | ended => exact ended
  | arriving => exact ended.trans (release _ _ _)
  | waiting v => exact (ended.trans (abandon _ _)).trans (release _ _ _)
  | draining v e => exact (ended.trans (closeVisit _ _)).trans (release _ _ _)

/-! ### Leaving a state -/

theorem tearDown (w : World) (r : RunId) (v : VisitId) (e : Ending) :
    Strokes t w (w.tearDown r v e).1 := by
  have torn : Strokes t w (((w.modifyRun r fun x => { x with phase := .draining v e }).mark
      (.concluded v e)).tearScope v) := ((single (.run r _)).mark _ rfl).trans (tearScope _ v)
  have ran := torn.trans (runPhrase _ v .cleanup)
  unfold World.tearDown
  simp only
  split
  · next h =>
    exact (((ran.of_fst h).trans (abortWork _ v)).trans (closeVisit _ v)).trans (release _ _ _)
  · next h => exact (ran.of_fst h).trans (abortWork _ v)

theorem announceDone (w : World) (r : RunId) : Strokes t w (w.announceDone r).1 := by
  have told := (wrote w (.mark (.announced r)) rfl).trans
    (notifyDone (t := t) _ (w.interpreter (w.run r).interpreter).doneHandlers)
  unfold World.announceDone
  simp only
  split
  · next h => exact (told.of_fst h).trans (release _ _ _)
  · next h => exact (told.of_fst h).trans (conclude _ r _)

theorem takeTransition (w : World) (r : RunId) (source : State) (d : Decision) (target : String) :
    Strokes t w (w.takeTransition r source d target).1 := by
  unfold World.takeTransition
  split
  · exact conclude w r _
  · exact (((wrote _ _ rfl).mark _ rfl).interpreter _ _).run r _

theorem follow (w : World) (r : RunId) (v : VisitId) (d : Decision) :
    Strokes t w (w.follow r v d).1 := by
  unfold World.follow
  simp only
  split
  · exact (closeVisit w v).trans (takeTransition _ r _ d _)
  · exact (closeVisit w v).trans (announceDone _ r)
  · exact ((wrote _ _ rfl).trans (closeVisit _ v)).trans (conclude _ r _)
  · exact (closeVisit w v).trans (conclude _ r _)

theorem exitThen (w : World) (r : RunId) (v : VisitId) (next : World → World × Signal)
    (goOn : ∀ w, Strokes t w (next w).1) : Strokes t w (w.exitThen r v next).1 := by
  have ran := runPhrase (t := t) w v .exit
  unfold World.exitThen
  split
  · next h => exact ((ran.of_fst h).trans (closeVisit _ v)).trans (release _ _ _)
  · next h => exact (ran.of_fst h).trans (goOn _)

theorem leave (w : World) (r : RunId) (v : VisitId) (e : Ending) :
    Strokes t w (w.leave r v e).1 := by
  cases e with
  | decided d => exact exitThen w r v _ fun w => follow w r v d
  | settled =>
    simp only [World.leave]
    split
    · exact (wrote _ _ rfl).trans
        (exitThen _ r v _ fun w => (closeVisit w v).trans (announceDone _ r))
    · exact ((wrote _ _ rfl).trans (closeVisit _ v)).trans (conclude _ r _)
  | stopped => exact ((wrote _ _ rfl).trans (closeVisit _ v)).trans (conclude _ r _)
  | panicked => exact (closeVisit w v).trans (conclude _ r _)

theorem drain (w : World) (r : RunId) (v : VisitId) (e : Ending) :
    Strokes t w (w.drain r v e).1 := by
  unfold World.drain
  split
  · next u rest next =>
    have looked : Strokes t w (w.modifyVisit v fun x => { x with finished := rest }) :=
      visited _ v _
    simp only
    split
    · exact looked.trace _
    · exact looked
  · split
    · exact leave w r v e
    · exact .refl _

theorem inspect (w : World) (r : RunId) (v : VisitId) : Strokes t w (w.inspect r v).1 := by
  have listening : Strokes t w (w.modifyVisit v fun x => { x with listening := w.isHeld v }) :=
    visited _ v _
  unfold World.inspect
  split
  · exact tearDown w r v _
  · split
    · exact tearDown w r v _
    · simp only
      split
      · split
        · exact (listening.visit v _).trans (tearDown _ r v _)
        · exact listening.visit v _
      · split
        · exact listening
        · exact listening.trans (tearDown _ r v _)

/-! ### Entering a state -/

theorem spawnFor (w : World) (v : VisitId) (x : Task) : Strokes t w (w.spawnFor v x) :=
  (visited _ v _).tail (.spawn _)

theorem launchWork (w : World) (v : VisitId) (part : Part) (reach : Reach) (route : Option Route)
    (work : Work) : Strokes t w (w.launchWork v part reach route work).1 := by
  have set := (wrote w (.mark (.launched v part)) rfl).trans
    (runAction (t := t) _ reach work.setUp)
  unfold World.launchWork
  split
  · next h => exact set.of_fst h
  · next h => exact (set.of_fst h).trans (spawnFor _ v _)

theorem launchService (w : World) (v : VisitId) (k : Nat) (service : Service) :
    Strokes t w (w.launchService v k service).1 := by
  cases service with
  | free work => exact launchWork ..
  | routed work => exact launchWork ..
  | nested m => exact (wrote _ _ rfl).trans (spawnFor _ v _)

theorem launchServices (w : World) (v : VisitId) (k : Nat) (rest : List Service) :
    Strokes t w (w.launchServices v k rest).1 := by
  induction rest generalizing w k with
  | nil => exact .refl _
  | cons service rest ih =>
    have launched := launchService (t := t) w v k service
    unfold World.launchServices
    split
    · next h => exact launched.of_fst h
    · next h => exact (launched.of_fst h).trans (ih _ _)

theorem launchActivities (w : World) (v : VisitId) (k : Nat) (rest : List Work) :
    Strokes t w (w.launchActivities v k rest).1 := by
  induction rest generalizing w k with
  | nil => exact .refl _
  | cons work rest ih =>
    have launched := launchWork (t := t) w v (.activity k) {} none work
    unfold World.launchActivities
    split
    · next h => exact launched.of_fst h
    · next h => exact (launched.of_fst h).trans (ih _ _)

theorem launchAll (w : World) (v : VisitId) : Strokes t w (w.launchAll v).1 := by
  have served := launchServices (t := t) w v 0 (w.visit v).state.services
  unfold World.launchAll
  simp only
  split
  · next h => exact served.of_fst h
  · next h => exact (served.of_fst h).trans (launchActivities _ v 0 _)

theorem launch (w : World) (r : RunId) (v : VisitId) : Strokes t w (w.launch r v).1 := by
  have launched := launchAll (t := t) w v
  unfold World.launch
  split
  · next h => exact ((launched.of_fst h).trans (abandon _ v)).trans (release _ _ _)
  · next h => exact (launched.of_fst h).run r _

theorem enter (w : World) (r : RunId) (s : State) : Strokes t w (w.enter r s).1 := by
  have entered : Strokes t w (w.pushVisit r s) := single (.enter r s)
  have ran := entered.trans (runPhrase _ w.visits.size .enter)
  unfold World.enter
  simp only
  split
  · next h => exact ((ran.of_fst h).trans (closeVisit _ _)).trans (release _ _ _)
  · next h =>
    split
    · exact ((ran.of_fst h).mark _ rfl).trans (tearDown _ r _ _)
    · exact ((ran.of_fst h).mark _ rfl).trans (launch _ r _)

theorem arrive (w : World) (r : RunId) (s : State) (previous : Option String)
    (cause : Option Decision) : Strokes t w (w.arrive r s previous cause).1 := by
  have told := (wrote w (.mark (.notified r ⟨s.id, previous, cause⟩)) rfl).trans
    (notifyChange (t := t) _ ⟨s.id, previous, cause⟩
      (w.interpreter (w.run r).interpreter).changeHandlers)
  unfold World.arrive
  split
  · exact conclude w r _
  · simp only
    split
    · next h => exact (told.of_fst h).trans (release _ _ _)
    · next h => exact (told.of_fst h).trans (enter _ r s)

theorem advance (w : World) (r : RunId) : Strokes t w (w.advance r).1 := by
  unfold World.advance
  cases (w.run r).phase with
  | begun s => exact (wrote _ _ rfl).run r _
  | arriving s previous cause => exact arrive ..
  | waiting v => exact inspect ..
  | draining v e => exact drain ..
  | ended => exact .refl _

/-! ### The end of a task -/

theorem endTask (w : World) (fate : Fate) : Strokes t w (w.endTask t fate) := by
  have dropped : Strokes t w (if fate = .panicked ∨ fate = .dropped
      then w.logDrops (w.task t).guards else w) := by
    split
    · exact logDrops w _
    · exact refl w
  have buried (w : World) : Strokes t w (w.bury t fate) :=
    (((single .unqueue).tail (.turn (if w.running = some t then none else w.running) (by
      split
      · exact .inl rfl
      · exact .inr (.inr rfl)))).own _).mark _ rfl
  have withdrawn (w : World) (home : Option VisitId) : Strokes t w (w.withdraw t home) := by
    cases home with
    | none => exact refl w
    | some v => exact visited _ v _
  have told (w : World) (home : Option VisitId) : Strokes t w (w.tellHome home) := by
    unfold World.tellHome
    split
    · split
      · exact refl w
      · exact single (.wake _)
    · exact refl w
  have joined (w : World) (joiner : Option TaskId) : Strokes t w (w.tellJoiner joiner) := by
    cases joiner with
    | none => exact refl w
    | some u => exact single (.wake u)
  -- The task logs what it drops, is buried, lets its callbacks go, leaves its visit, tells the
  -- host, -- and last whoever waits for it.
  rw [World.endTask_eq]
  have left := (dropped.trans (buried _)).trans (letGoAll _
    ((w.task t).reach.callback.toList ++ ((w.task t).route.map (·.visit)).toList))
  exact ((left.trans (withdrawn _ _)).trans (told _ _)).trans (joined _ _)

theorem raiseOutcome (w : World) (route : Route) (failure : Option Fault) :
    Strokes t w (w.raiseOutcome route failure) := by
  unfold World.raiseOutcome
  simp only
  split
  · split
    · exact .refl _
    · exact raise ..
  · split
    · exact wrote _ _ rfl
    · exact (wrote _ _ rfl).trans (raise _ _ _)

theorem finish (w : World) (failure : Option Fault) : Strokes t w (w.finish t failure) := by
  unfold World.finish
  simp only
  split
  · exact (raiseOutcome w _ failure).trans (endTask _ _)
  · exact endTask w _

theorem dropTask (w : World) : Strokes t w (w.dropTask t) := by
  unfold World.dropTask
  split
  · next r _ =>
    have dropped := dropRun (t := t) w r
    split
    · next h => exact (dropped.of_fst h).trans (endTask _ _)
    · next h => exact (dropped.of_fst h).trans (endTask _ _)
  · exact endTask w _

/-! ### Scripts that may wait -/

theorem endWait (w : World) : Strokes t w (w.endWait t) := by
  have deregistered (token : Token) : Strokes t w (w.deregister token t) := by
    cases token <;> exact visited _ _ _
  simp only [World.endWait]
  split
  · exact (deregistered _).own _
  · exact (deregistered _).own _
  · exact single (.own _)

theorem beginWait (w : World) (wait : Wait) : Strokes t w (w.beginWait t wait) := by
  have registered (token : Token) : Strokes t w (w.register token t) := by
    cases token <;> exact visited _ _ _
  simp only [World.beginWait]
  split
  · exact (registered _).own _
  · exact (registered _).own _
  · exact single (.own _)

theorem stepInstr (w : World) (rest : Script) (i : Instr) :
    Strokes t w (w.stepInstr t rest i).1 := by
  cases i with
  | act c => exact perform w _ _
  | loop times body => cases times <;> exact .refl _
  | observe i o => exact observe w _ _
  | detach body => exact single (.spawn _)
  | dropCallback => exact (single (.own _)).trans (letGoAll _ _)
  | guard label => exact single (.own _)
  | pause p =>
    simp only [World.stepInstr]
    split
    · exact beginWait w _
    · exact .refl _
  | branch | panic | finish => exact .refl _

theorem stepScript (w : World) (s : Script) : Strokes t w (w.stepScript t s).1 := by
  unfold World.stepScript
  split
  · split
    · exact endWait w
    · exact .refl _
  · split
    · exact .refl _
    · exact stepInstr ..

theorem moveScript (w : World) (s : Script) : Strokes t w (w.moveScript t s) := by
  have stepped := stepScript (t := t) w s
  unfold World.moveScript
  split
  · next h => exact (stepped.of_fst h).own _
  · next h => exact ((stepped.of_fst h).own _).trans (park _)
  · next h => exact (stepped.of_fst h).trans (finish _ _)
  · next h => exact (stepped.of_fst h).trans (endTask _ _)

/-! ### Nested machines -/

theorem withNested (w : World) (m : Machine) : Strokes t w (w.withNested t m) :=
  (single (.newInterpreter { machine := m })).tail (.spawn _)

theorem beginNested (w : World) (m : Machine) : Strokes t w (w.beginNested t m) := by
  have founded := withNested (t := t) w m
  rw [World.beginNested_eq]
  split
  · next begun => exact (founded.trans (begin begun)).own _
  · exact (founded.tail (.abort w.tasks.size)).trans (finish _ _)

theorem moveDrive (w : World) (r : RunId) (hook : Option TaskId) :
    Strokes t w (w.moveDrive t r hook) := by
  have advanced := advance (t := t) w r
  unfold World.moveDrive
  simp only
  split
  · next h => exact advanced.of_fst h
  · next h => exact (advanced.of_fst h).trans (park _)
  · next h => exact (advanced.of_fst h).trans (endTask _ _)
  · next h =>
    split
    · exact ((advanced.of_fst h).tail (.abort _)).trans (finish _ _)
    · exact (advanced.of_fst h).trans (endTask _ _)

theorem moveStopHook (w : World) (i : InterpreterId) : Strokes t w (w.moveStopHook t i) := by
  unfold World.moveStopHook
  split
  · split
    · exact park w
    · exact (beginWait w _).trans (park _)
  · exact (((wrote _ _ rfl).trans (forceStop _ i)).trans (endWait _)).trans (finish _ _)

/-! ### The controller -/

theorem answer (w : World) (steps : List Step) (a : Answer) :
    Strokes t w (w.answer t steps a) :=
  ((single (.tally w.values _)).trans (endWait _)).own _

theorem takeHandle (w : World) (i : InterpreterId) : Strokes t w (w.takeHandle i) :=
  single (.interpreter i _)

theorem beginNamed (w : World) (rest : List Step) (i : InterpreterId) (step : Step) :
    Strokes t w (w.beginNamed t rest i step) := by
  cases step with
  | run _ ms =>
    simp only [World.beginNamed]
    split
    · next begun => exact (begin begun).own _
    · exact answer ..
  | start _ =>
    simp only [World.beginNamed]
    split
    · next started => exact (startInBackground started).trans (answer _ _ _)
    · exact answer ..
  | join _ ms =>
    simp only [World.beginNamed]
    split
    · exact (takeHandle w i).own _
    · exact answer ..
  | abort _ =>
    simp only [World.beginNamed]
    split
    · next h _ => exact (single (.abort h)).trans (answer _ _ _)
    · exact answer ..
  | history | debug | validate | machineDebug => exact answer ..
  | script instr => exact single (.own _)

theorem beginStep (w : World) (rest : List Step) (step : Step) :
    Strokes t w (w.beginStep t rest step) := by
  unfold World.beginStep
  split
  · exact beginNamed ..
  · split
    · exact beginNamed ..
    · exact answer ..

theorem parkUntil (w : World) (deadline : Nat) : Strokes t w (w.parkUntil t deadline) :=
  (single (.own _)).trans (park _)

theorem moveRunning (w : World) (rest : List Step) (r : RunId) (deadline : Nat) :
    Strokes t w (w.moveRunning t rest r deadline) := by
  have advanced := advance (t := t) w r
  unfold World.moveRunning
  split
  · next h => exact advanced.of_fst h
  · next h => exact (advanced.of_fst h).trans (answer _ _ _)
  · next h => exact (advanced.of_fst h).trans (answer _ _ _)
  · next w₁ h =>
    split
    · exact (advanced.of_fst h).trans (parkUntil _ _)
    · have dropped := (advanced.of_fst h).trans (dropRun w₁ r)
      split
      · next h' => exact (dropped.of_fst h').trans (endTask _ _)
      · next h' => exact (dropped.of_fst h').trans (answer _ _ _)

theorem moveJoining (w : World) (rest : List Step) (i : InterpreterId) (h : TaskId)
    (deadline : Nat) : Strokes t w (w.moveJoining t rest i h deadline) := by
  have joined : Strokes t w (w.modifyTask h fun x => { x with joiner := some t }) :=
    single (.join h (some t))
  unfold World.moveJoining
  split
  · exact answer ..
  · simp only
    split
    · exact joined.trans (parkUntil _ _)
    · exact (joined.trans (setHandle _ i h)).trans (answer _ _ _)

theorem moveControlScript (w : World) (steps : List Step) (s : Script) :
    Strokes t w (w.moveControlScript t steps s) := by
  have stepped := stepScript (t := t) w s
  unfold World.moveControlScript
  split
  · next h => exact (stepped.of_fst h).own _
  · next h => exact ((stepped.of_fst h).own _).trans (park _)
  · next h => exact ((stepped.of_fst h).own _).trans (answer _ _ _)
  · next h => exact (stepped.of_fst h).trans (endTask _ _)

theorem moveControl (w : World) (steps : List Step) (doing : Doing) :
    Strokes t w (w.moveControl t steps doing) := by
  cases doing with
  | nothing =>
    cases steps with
    | nil => exact endTask ..
    | cons step rest => exact beginStep ..
  | script s => exact moveControlScript ..
  | running r deadline => exact moveRunning ..
  | joining i h deadline => exact moveJoining ..

/-! ### Turns -/

theorem move (w : World) : Strokes t w (w.move t) := by
  unfold World.move
  cases (w.task t).job with
  | script s => exact moveScript ..
  | nested m => exact beginNested ..
  | drive r hook => exact moveDrive ..
  | stopHook i => exact moveStopHook ..
  | control steps doing => exact moveControl ..

theorem giveUp (w : World) (rest : List Step) (r : RunId) :
    Strokes t w (w.giveUp t rest r) := by
  have dropped := dropRun (t := t) w r
  unfold World.giveUp
  split
  · next h => exact (dropped.of_fst h).trans (endTask _ _)
  · next h => exact (dropped.of_fst h).trans (answer _ _ _)

theorem beginTurn (w : World) : Strokes t w (w.beginTurn t) := by
  have unqueued : Strokes t w { w with queue := w.queue.erase t } := single .unqueue
  unfold World.beginTurn
  simp only
  split
  · exact unqueued.trans (dropTask _)
  · exact (unqueued.tail .takes).tail (.turn _ (.inr (.inl rfl)))

end Strokes

/-! ## What no stroke touches -/

section

variable {w w' : World} {t u : TaskId}

theorem World.now_enqueue (w : World) (t : TaskId) : (w.enqueue t).now = w.now := by
  unfold enqueue
  split <;> rfl

theorem World.now_wake (w : World) (t : TaskId) : (w.wake t).now = w.now := by
  unfold wake
  split
  · rfl
  · split
    · rfl
    · exact now_enqueue w t

/-- But for visits and the journal, raising an event does no more than to wake a task. -/
theorem World.raise_wakes (w : World) (v : VisitId) (d : Decision) :
    ∃ w₁, (w₁ = w ∨ ∃ u, w₁ = w.wake u) ∧
      ∃ visits journal, (w.raise v d).1 = { w₁ with visits, journal } := by
  unfold World.raise
  simp only
  split
  · exact ⟨w, .inl rfl, _, _, rfl⟩
  · split
    · exact ⟨w, .inl rfl, _, _, rfl⟩
    · split
      · exact ⟨w, .inl rfl, _, _, rfl⟩
      -- News of the inbox wakes the host of the run, if it listens.
      · obtain ⟨w₁, woken, visits, told⟩ : ∃ w₁, (w₁ = w ∨ ∃ u, w₁ = w.wake u) ∧
            ∃ visits, (w.commit v d).notifyInbox v = { w₁ with visits } := by
          unfold notifyInbox
          split
          · refine ⟨w.wake ((w.commit v d).runOf v).host, .inr ⟨_, rfl⟩, ?_⟩
            rw [commit, wake_modifyVisit, wake_modifyVisit]
            exact ⟨_, rfl⟩
          · exact ⟨w, .inl rfl, _, rfl⟩
        have told' : (w.modifyVisit v fun x => { x with fired := true, inbox := some d }).notifyInbox
            v = { w₁ with visits } := told
        refine ⟨w₁, woken, visits, ?_⟩
        rw [told']
        exact ⟨_, rfl⟩

theorem Stroke.now (h : Stroke t w w') : w'.now = w.now := by
  cases h with
  | wake u => exact w.now_wake u
  | raise v d =>
    obtain ⟨w₁, woken, visits, journal, same⟩ := w.raise_wakes v d
    rw [same]
    rcases woken with rfl | ⟨u, rfl⟩
    · rfl
    · exact w.now_wake u
  | abort u =>
    unfold World.abort
    split
    · rfl
    · exact World.now_enqueue _ u
  | again => exact World.now_enqueue w t
  | _ => rfl

/-- No turn takes time. -/
theorem Strokes.now (h : Strokes t w w') : w'.now = w.now := by
  induction h with
  | refl => rfl
  | tail _ stroke ih => exact stroke.now.trans ih

theorem World.minds_modifyTask {f : Task → Task} (same : ∀ x : Task, x.Minds (f x)) :
    (w.task u).Minds ((w.modifyTask t f).task u) := by
  rw [task_modifyTask]
  split
  · exact same _
  · exact .refl _

theorem World.task_enqueue (w : World) (t u : TaskId) : (w.enqueue t).task u = w.task u := by
  unfold enqueue
  split <;> rfl

theorem Stroke.minds (h : Stroke t w w') (other : u ≠ t) (known : u < w.tasks.size) :
    u < w'.tasks.size ∧ (w.task u).Minds (w'.task u) := by
  have flagged {v : TaskId} {f : Task → Task} (same : ∀ x : Task, x.Minds (f x)) :
      u < (w.modifyTask v f).tasks.size ∧ (w.task u).Minds ((w.modifyTask v f).task u) :=
    ⟨Nat.lt_of_lt_of_le known (Table.size_le_modify ..), World.minds_modifyTask same⟩
  have queued {w₁ : World} {v : TaskId}
      (h : u < w₁.tasks.size ∧ (w.task u).Minds (w₁.task u)) :
      u < (w₁.enqueue v).tasks.size ∧ (w.task u).Minds ((w₁.enqueue v).task u) := by
    rw [World.task_enqueue]
    refine ⟨?_, h.2⟩
    unfold World.enqueue
    split <;> exact h.1
  have woken (v : TaskId) : u < (w.wake v).tasks.size ∧ (w.task u).Minds ((w.wake v).task u) := by
    unfold World.wake
    split
    · exact ⟨known, .refl _⟩
    · split
      · exact flagged fun x => ⟨rfl, rfl, rfl, rfl, rfl, rfl⟩
      · exact queued ⟨known, .refl _⟩
  -- Whatever the turn is used for, another task is flagged at most.
  cases h with
  | own f =>
    rw [World.task_modifyTask, if_neg other]
    exact ⟨Nat.lt_of_lt_of_le known (Table.size_le_modify ..), .refl _⟩
  | wake v => exact woken v
  | raise v d =>
    obtain ⟨w₁, rfl | ⟨x, rfl⟩, visits, journal, raised⟩ := w.raise_wakes v d
    · rw [raised]
      exact ⟨known, .refl _⟩
    · rw [raised]
      exact woken x
  | abort v =>
    unfold World.abort
    split
    · exact ⟨known, .refl _⟩
    · exact queued (flagged fun x => ⟨rfl, rfl, rfl, rfl, rfl, rfl⟩)
  | join v joiner => exact flagged fun x => ⟨rfl, rfl, rfl, rfl, rfl, rfl⟩
  | spawn x =>
    simp only [World.spawn, World.task_mk, Table.get_push, Table.size_push,
      if_neg (Nat.ne_of_lt known)]
    exact ⟨Nat.lt_succ_of_lt known, .refl _⟩
  | again => exact queued ⟨known, .refl _⟩
  | _ => exact ⟨known, .refl _⟩

/-- What a task is about to do is left to it in the turns of others. -/
theorem Strokes.minds (h : Strokes t w w') (other : u ≠ t) (known : u < w.tasks.size) :
    u < w'.tasks.size ∧ (w.task u).Minds (w'.task u) := by
  induction h with
  | refl => exact ⟨known, .refl _⟩
  | tail _ stroke ih =>
    obtain ⟨known, minds⟩ := ih
    obtain ⟨known', minds'⟩ := stroke.minds other known
    exact ⟨known', minds.trans minds'⟩

theorem World.queue_enqueue (w : World) (t : TaskId) : w.queue ⊆ (w.enqueue t).queue := by
  unfold enqueue
  split
  · exact fun _ => id
  · exact fun _ => List.mem_append_left _

theorem World.mem_enqueue (w : World) (t : TaskId) : t ∈ (w.enqueue t).queue := by
  unfold enqueue
  split
  · assumption
  · exact List.mem_append_right _ List.mem_cons_self

theorem World.queue_wake (w : World) (t : TaskId) : w.queue ⊆ (w.wake t).queue := by
  unfold wake
  split
  · exact fun _ => id
  · split
    · exact fun _ => id
    · exact queue_enqueue w t

theorem Stroke.queued (h : Stroke t w w') (other : u ≠ t) (here : u ∈ w.queue) : u ∈ w'.queue := by
  cases h with
  | wake v => exact World.queue_wake w v here
  | raise v d =>
    obtain ⟨w₁, rfl | ⟨x, rfl⟩, visits, journal, raised⟩ := w.raise_wakes v d
    · rw [raised]
      exact here
    · rw [raised]
      exact World.queue_wake _ x here
  | abort v =>
    unfold World.abort
    split
    · exact here
    · exact World.queue_enqueue _ v here
  | spawn x => exact List.mem_append_left _ here
  | unqueue => exact (List.mem_erase_of_ne other).2 here
  | again => exact World.queue_enqueue w t here
  | _ => exact here

/-- A task keeps its place in the queue until its turn comes. -/
theorem Strokes.queued (h : Strokes t w w') (other : u ≠ t) (here : u ∈ w.queue) :
    u ∈ w'.queue := by
  induction h with
  | refl => exact here
  | tail _ stroke ih => exact stroke.queued other ih

/-- Whoever is told to go is put into the queue. -/
theorem Stroke.told (h : Stroke t w w') (other : u ≠ t) (known : u < w.tasks.size)
    (whole : (w.task u).aborted = false) (aborted : (w'.task u).aborted = true) : u ∈ w'.queue := by
  have never {P : Prop} (same : (w'.task u).aborted = (w.task u).aborted) : P := by
    rw [same, whole] at aborted
    cases aborted
  have flagged {v : TaskId} {f : Task → Task} (same : ∀ x : Task, (f x).aborted = x.aborted) :
      ((w.modifyTask v f).task u).aborted = (w.task u).aborted := by
    rw [World.task_modifyTask]
    split
    · exact same _
    · rfl
  have woken (v : TaskId) : ((w.wake v).task u).aborted = (w.task u).aborted := by
    unfold World.wake
    split
    · rfl
    · split
      · exact flagged fun _ => rfl
      · rw [World.task_enqueue]
  -- Only an abort tells a task to go, and puts it into the queue.
  cases h with
  | own f =>
    refine never ?_
    rw [World.task_modifyTask, if_neg other]
  | wake v => exact never (woken v)
  | raise v d =>
    refine never ?_
    obtain ⟨w₁, rfl | ⟨x, rfl⟩, visits, journal, raised⟩ := w.raise_wakes v d
    · rw [raised]
      rfl
    · rw [raised]
      exact woken x
  | abort v =>
    by_cases mine : u = v
    · subst mine
      unfold World.abort at aborted ⊢
      split at aborted
      · cases whole.symm.trans aborted
      · next gone =>
        rw [if_neg gone]
        exact World.mem_enqueue _ u
    · refine never ?_
      unfold World.abort
      split
      · rfl
      · rw [World.task_enqueue, World.task_modifyTask, if_neg mine]
  | join v joiner => exact never (flagged fun _ => rfl)
  | spawn x =>
    refine never ?_
    simp only [World.spawn, World.task_mk, Table.get_push, if_neg (Nat.ne_of_lt known)]
    rfl
  | again =>
    refine never ?_
    rw [World.task_enqueue]
  | _ => exact never rfl

theorem Strokes.told (h : Strokes t w w') (other : u ≠ t) (known : u < w.tasks.size)
    (whole : (w.task u).aborted = false) (aborted : (w'.task u).aborted = true) : u ∈ w'.queue := by
  induction h with
  | refl => cases whole.symm.trans aborted
  | @tail w₁ w₂ before stroke ih =>
    cases past : (w₁.task u).aborted with
    | true => exact stroke.queued other (ih past)
    | false => exact stroke.told other (Strokes.minds before other known).1 past aborted

/-- Nobody else takes a turn in the turn of a task. -/
theorem Stroke.turns (h : Stroke t w w') :
    ∃ news, w'.marks = w.marks ++ news ∧ ∀ u, .turn u ∈ news → u = t := by
  have silent (marks : w'.marks = w.marks) :
      ∃ news, w'.marks = w.marks ++ news ∧ ∀ u, .turn u ∈ news → u = t :=
    ⟨[], by rw [marks, List.append_nil], fun u here => by cases here⟩
  -- Marks of turns are none that scripts or runs write.
  cases h with
  | log e aside =>
    refine ⟨_, w.marks_log e, fun u here => ?_⟩
    rw [Option.mem_toList] at here
    cases e with
    | mark m =>
      cases here
      cases aside
    | _ => cases here
  | takes =>
    refine ⟨_, w.marks_mark _, fun u here => ?_⟩
    cases List.mem_singleton.1 here
    rfl
  | raise v d => exact ⟨_, w.marks_raise v d, by simp⟩
  | enter r s => exact ⟨_, w.marks_pushVisit r s, by simp⟩
  | close v => exact ⟨_, w.marks_closeVisit v, by simp⟩
  | wake v => exact silent (Frame.wake w v).1.marks
  | abort v => exact silent (Frame.abort w v).marks
  | again =>
    refine silent ?_
    unfold World.enqueue
    split <;> rfl
  | _ => exact silent rfl

theorem Strokes.turns (h : Strokes t w w') :
    ∃ news, w'.marks = w.marks ++ news ∧ ∀ u, .turn u ∈ news → u = t := by
  induction h with
  | refl => exact ⟨[], (List.append_nil _).symm, fun u here => by cases here⟩
  | tail _ stroke ih =>
    obtain ⟨news, marks, mine⟩ := ih
    obtain ⟨news', marks', mine'⟩ := stroke.turns
    refine ⟨news ++ news', by rw [marks', marks, List.append_assoc], fun u here => ?_⟩
    exact (List.mem_append.1 here).elim (mine u) (mine' u)

theorem World.running_wake (w : World) (t : TaskId) : (w.wake t).running = w.running := by
  unfold wake enqueue
  split
  · rfl
  · split
    · rfl
    · split <;> rfl

/-- A task may give up its turn, and takes nobody else's. -/
theorem Stroke.running (h : Stroke t w w') :
    w'.running = none ∨ w'.running = some t ∨ w'.running = w.running := by
  cases h with
  | turn _ own => exact own
  | wake u => exact .inr (.inr (w.running_wake u))
  | raise v d =>
    obtain ⟨w₁, rfl | ⟨x, rfl⟩, visits, journal, raised⟩ := w.raise_wakes v d
    · rw [raised]
      exact .inr (.inr rfl)
    · rw [raised]
      exact .inr (.inr (World.running_wake _ x))
  | abort u =>
    refine .inr (.inr ?_)
    unfold World.abort World.enqueue
    split
    · rfl
    · split <;> rfl
  | again =>
    refine .inr (.inr ?_)
    unfold World.enqueue
    split <;> rfl
  | _ => exact .inr (.inr rfl)

theorem Strokes.running (h : Strokes t w w') :
    w'.running = none ∨ w'.running = some t ∨ w'.running = w.running := by
  induction h with
  | refl => exact .inr (.inr rfl)
  | tail _ stroke ih =>
    rcases stroke.running with ended | mine | same
    · exact .inl ended
    · exact .inr (.inl mine)
    · exact same ▸ ih

/-- However many moves a task makes in its turn, they take no time. -/
theorem World.now_move (w : World) (t : TaskId) : (w.move t).now = w.now :=
  (Strokes.move w).now

/-- A task that was not told to go takes its turn. -/
theorem World.beginTurn_of_whole (whole : (w.task t).aborted = false) : w.beginTurn t =
    { { w with queue := w.queue.erase t }.mark (.turn t) with running := some t } :=
  if_neg (show ¬ (w.task t).aborted = true by simp [whole])

end

end Statechart
