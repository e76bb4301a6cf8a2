import Mathlib
import Statechart.Proofs.Tandem

/-!
# Two manners of running

A run that is awaited and one that is started in the background are the same run. The background
one gets a task of its own, and the caller parks until that task ends; the awaited one is driven by
the caller itself. From there on the two worlds go on in tandem: they show the same, the run ends
with the same result at the same time, and the caller that waits is told so.

For that, the caller must not have been woken in the turn in which it starts the run, and no
callback of an earlier run may be kept. Either would give an extra turn to the caller, which is to
drive the run in the one world and not in the other.

## Main definitions

- `World.Delegates`: a run has begun in a task of its own, for which the caller waits.
- `World.drives`: a run has begun that the caller drives.
- `World.EndAlike`: the two show the same once the run has ended.

## Main statements

- `World.Embarks.delegates`: how a run gets a task of its own.
- `World.Delegates.tandem`: it goes on in tandem with one that the caller drives.
- `Scenario.manners_accord`: both manners of running accord.
- `Scenario.exists_manners_apart`: they need not if there are wake-ups or callbacks left over.
-/

namespace Statechart

/-! ## Definitions -/

/-- A run has begun in a task of its own, which has the turn, and the caller waits for it. -/
structure World.Delegates (w x : World) (i : InterpreterId) (t : TaskId) (st : State)
    (rest : List Step) (τ : Nat) : Prop where
  now : x.now = w.now
  values : x.values = w.values
  named : x.named = w.named
  kept : x.kept = w.kept
  visits : x.visits = w.visits
  queue : x.queue = []
  running : x.running = some w.tasks.size
  size : x.tasks.size = w.tasks.size + 1
  driver : x.task w.tasks.size = { job := .drive w.runs.size none, joiner := some t }
  caller : (x.task t).core =
    { job := .control rest (.joining i w.tasks.size τ), wait := some (.time τ) }
  others : ∀ u, u ≠ t → u ≠ w.tasks.size → (x.task u).core = (w.task u).core
  runs : x.runs = w.runs.push { interpreter := i, host := w.tasks.size, phase := .begun st }
  interpreters : ∀ j, x.interpreter j = if j = i then
    { w.interpreter j with
      slot := some w.runs.size, status := .running, history := (w.interpreter j).history.clear
      handle := none } else w.interpreter j
  rows : w.interpreters.size ≤ x.interpreters.size
  journal : x.journal = (w.journal.push (.mark (.began w.runs.size))).push
    (.mark (.turn w.tasks.size))
  reports : x.reports.size = w.reports.size + 1

/-- A run has begun that the caller drives. -/
def World.drives (w : World) (t : TaskId) (i : InterpreterId) (st : State) (rest : List Step)
    (τ : Nat) : World :=
  (w.takeSlot i t st).setJob t (.control rest (.running w.runs.size τ))

/-- A task that drives a run in one world corresponds to the caller that drives one in the other,
and nothing else does but the interpreters that scripts can name. -/
def Pairing.drivers (w w' : World) (t' : TaskId) : Pairing :=
  { Pairing.callers w w' w.tasks.size t' with
    run := fun r r' => r = w.runs.size ∧ r' = w'.runs.size
    unique_run := ⟨fun _ _ _ h h' => h.1.trans h'.1.symm, fun _ _ _ h h' => h.2.trans h'.2.symm⟩ }

section

variable {s s' : Scenario} {w w' : World} {i : InterpreterId} {t t' : TaskId} {ms : Nat}
  {steps steps' rest rest' : List Step} {st : State}

/-! ## How a run is delegated -/

theorem World.interpreter_setHandle (w : World) (i j : InterpreterId) (u : TaskId) :
    (w.setHandle i u).interpreter j =
      if j = i then { w.interpreter j with handle := some u } else w.interpreter j := by
  unfold setHandle
  split <;> exact World.interpreter_modifyInterpreter _ i j _

/-- Nobody waits any more for the task that was stored before. -/
theorem World.task_setHandle (w : World) (i : InterpreterId) (u v : TaskId) :
    ∃ joiner, (w.setHandle i u).task v = { w.task v with joiner } := by
  unfold setHandle
  split
  · rw [show (modifyInterpreter _ i _).task v = (World.modifyTask _ _ _).task v from rfl,
      task_modifyTask]
    split
    · exact ⟨none, rfl⟩
    · exact ⟨_, rfl⟩
  · exact ⟨_, rfl⟩

theorem World.size_setHandle (w : World) (i : InterpreterId) (u : TaskId)
    (old : ∀ v, (w.interpreter i).handle = some v → v < w.tasks.size) :
    (w.setHandle i u).tasks.size = w.tasks.size := by
  unfold setHandle
  split
  · next v here => exact Table.size_modify_of_lt (old v here) _
  · rfl

theorem World.rows_setHandle (w : World) (i : InterpreterId) (u : TaskId) :
    w.interpreters.size ≤ (w.setHandle i u).interpreters.size := by
  unfold setHandle
  split <;> exact Table.size_le_modify ..

/-- A caller that starts a run in the background has the turn still. -/
theorem World.startNew_setHandle (w : World) (i : InterpreterId) (st : State)
    (old : ∀ v, (w.interpreter i).handle = some v → v < w.tasks.size) :
    ∃ (tasks : Table Task) (interpreters : Table Interpreter),
      (w.startNew i st).setHandle i w.tasks.size =
        { w.startNew i st with tasks, interpreters } ∧
      tasks.size = w.tasks.size + 1 ∧
      (∃ joiner, tasks.get w.tasks.size = { job := .drive w.runs.size none, joiner }) ∧
      (∀ u, u ≠ w.tasks.size → ∃ joiner, tasks.get u = { w.task u with joiner }) ∧
      w.interpreters.size ≤ interpreters.size ∧
      ∀ j, interpreters.get j = if j = i then
        { w.interpreter j with
          slot := some w.runs.size, status := .running, history := (w.interpreter j).history.clear
          handle := some w.tasks.size } else w.interpreter j := by
  obtain ⟨tasks, interpreters, set⟩ := (w.startNew i st).setHandle_mk i w.tasks.size
  -- The handle is put in its place, which may relieve another task of its joiner.
  have task (u : TaskId) : ∃ joiner, tasks.get u = { (w.startNew i st).task u with joiner } := by
    have := (w.startNew i st).task_setHandle i w.tasks.size u
    rwa [set] at this
  have slot (j : InterpreterId) : (w.startNew i st).interpreter j = if j = i then
      { w.interpreter j with
        slot := some w.runs.size, status := .running, history := (w.interpreter j).history.clear }
      else w.interpreter j := w.interpreter_modifyInterpreter i j _
  have size : (w.startNew i st).tasks.size = w.tasks.size + 1 := Table.size_push ..
  refine ⟨tasks, interpreters, set, ?_, ?_, fun u other => ?_, ?_, fun j => ?_⟩
  · have kept := (w.startNew i st).size_setHandle i w.tasks.size fun v here => by
      rw [slot, if_pos rfl] at here
      exact size ▸ Nat.lt_succ_of_lt (old v here)
    rw [set] at kept
    exact kept.trans size
  · obtain ⟨joiner, here⟩ := task w.tasks.size
    refine ⟨joiner, here.trans ?_⟩
    simp [startNew, takeSlot, modifyInterpreter, mark, log, spawn]
  · obtain ⟨joiner, here⟩ := task u
    refine ⟨joiner, here.trans ?_⟩
    simp [startNew, takeSlot, modifyInterpreter, mark, log, spawn, Table.get_push, other]
  · have more := (w.startNew i st).rows_setHandle i w.tasks.size
    rw [set] at more
    exact Nat.le_trans (Table.size_le_modify ..) more
  · have row := (w.startNew i st).interpreter_setHandle i j w.tasks.size
    rw [set, slot] at row
    refine (show interpreters.get j = _ from row).trans ?_
    split <;> rfl

/-- A task that was not told to go has its turn when it comes first. -/
theorem World.step?_of_first {d : TaskId} (free : w.running = none) (first : w.queue = [d])
    (whole : (w.task d).aborted = false) :
    w.step? = some { { w with queue := [] }.mark (.turn d) with running := some d } := by
  rw [World.step?, free, first]
  exact congrArg some ((beginTurn_of_whole whole).trans
    (by rw [first, List.erase_cons_head]; rfl))

/-- A caller that has not been woken before parks until the task ends that it waits for. -/
theorem World.step?_of_joining {u : TaskId} {τ : Nat} (turn : w.running = some t)
    (job : (w.task t).job = .control rest (.joining i u τ)) (alive : (w.task u).fate = none)
    (rested : (w.task t).rewoken = false) (other : t ≠ u) (early : w.now < τ) :
    w.step? = some { w with
      running := none
      tasks := (w.tasks.modify u fun x => { x with joiner := some t }).modify t fun x =>
        { x with wait := some (.time τ), rewoken := false } } := by
  have still : (({ w with tasks := w.tasks.modify u fun x => { x with joiner := some t } } :
      World).task t).rewoken = false := by
    rw [task_mk, Table.get_modify, if_neg other]
    exact rested
  simp only [step?, turn, move, job, moveControl, moveJoining, alive, modifyTask, if_pos early,
    parkUntil, park, Table.get_modify, Table.modify_modify, task_mk, if_neg other]
  simp [get_tasks, rested]

/-- A caller that starts a run in the background and waits for it parks, and the task that drives
the run has the turn. -/
theorem World.Embarks.delegates
    (calls : w.Embarks t (.start i :: .join i ms :: rest) ms) (closed : w.Closed)
    (known : i < w.named) (rested : (w.task t).rewoken = false)
    (first : (w.interpreter i).startState = .ok st) (positive : 0 < ms) :
    ∃ x, (∀ n, w.makeMoves (w.reports.size + 2) (n + 4) = x.makeMoves (w.reports.size + 2) n) ∧
      (∀ s : Scenario, s.Reaches w → s.Reaches x) ∧ w.Delegates x i t st rest (w.now + ms) := by
  have lt := closed.running calls.turn
  have other : t ≠ w.tasks.size := Nat.ne_of_lt lt
  obtain ⟨tasks, interpreters, set, size, ⟨joiner, driver⟩, others, rows, row⟩ :=
    w.startNew_setHandle i st fun v here => closed.handled (closed.mirrors.names i known).2 here
  obtain ⟨joiner', caller⟩ := others t other
  have core : (tasks.get t).core =
      { job := .control (.start i :: .join i ms :: rest) .nothing } := by
    rw [caller]
    exact calls.task
  have still : (tasks.get t).rewoken = false := by
    rw [caller]
    exact rested
  have turn := calls.turn
  -- The run begins in a task of its own, and the caller is told.
  have plain : ({ w.startNew i st with tasks, interpreters } : World).Plain t :=
    ⟨_, none, core, nofun⟩
  have step₁ := calls.step? rfl known
  rw [beginNamed_start first, set, answer_eq plain] at step₁
  generalize hw₁ : World.modifyTask _ t _ = w₁ at step₁
  -- It is about to wait for the task.
  have job₁ : (w₁.task t).job = .control (.join i ms :: rest) .nothing := by
    rw [← hw₁, task_modifyTask, if_pos rfl]
  have handle : (w₁.interpreter i).handle = some w.tasks.size := by
    rw [← hw₁]
    exact (congrArg Interpreter.handle (row i)).trans (by rw [if_pos rfl])
  have step₂ := step?_of_nothing (by rw [← hw₁]; exact turn) job₁ rfl (by rw [← hw₁]; exact known)
  rw [beginNamed_join handle] at step₂
  generalize hw₂ : World.setJob _ t _ = w₂ at step₂
  -- The task is not over, and the caller parks.
  have now : w₁.now = w.now := by rw [← hw₁]; rfl
  have task₂ : (w₂.task t).job = .control rest (.joining i w.tasks.size (w.now + ms)) ∧
      (w₂.task t).rewoken = false := by
    rw [← hw₂, ← hw₁]
    simp [takeHandle, setJob, modifyTask, modifyInterpreter, Table.get_modify, still]
    rfl
  have driver₂ : w₂.task w.tasks.size = { job := .drive w.runs.size none, joiner } := by
    rw [← hw₂, ← hw₁]
    simp [takeHandle, setJob, modifyTask, modifyInterpreter, Table.get_modify, driver, Ne.symm other]
  have step₃ := step?_of_joining (by rw [← hw₂, ← hw₁]; exact turn) task₂.1 (by rw [driver₂])
    task₂.2 other (by rw [← hw₂]; exact now ▸ Nat.lt_add_of_pos_right positive)
  generalize hw₃ : World.mk _ _ _ _ _ _ _ _ _ _ _ _ = w₃ at step₃
  -- The task is next.
  have driver₃ : w₃.task w.tasks.size =
      { job := .drive w.runs.size none, joiner := some t } := by
    rw [← hw₃]
    simp [Table.get_modify, driver₂, get_tasks, Ne.symm other]
  have step₄ := step?_of_first (w := w₃) (d := w.tasks.size) (by rw [← hw₃])
    (by rw [← hw₃, ← hw₂, ← hw₁]; exact congrArg (· ++ [w.tasks.size]) calls.idle) (by rw [driver₃])
  have told : w₁.reports.size = w.reports.size + 1 := by
    rw [← hw₁]
    exact Array.size_push ..
  have told₂ : w₂.reports = w₁.reports := by rw [← hw₂]; rfl
  have told₃ : w₃.reports = w₁.reports := by rw [← hw₃, ← told₂]
  generalize hx : World.mk _ _ _ _ _ _ _ _ _ _ _ _ = x at step₄
  have driver₄ : x.task w.tasks.size = { job := .drive w.runs.size none, joiner := some t } := by
    rw [← hx]
    exact driver₃
  refine ⟨x, fun n => ?_, fun s reached => ?_, ?_⟩
  · rw [makeMoves_of_step? (by omega) step₁, makeMoves_of_step? (by omega) step₂,
      makeMoves_of_step? (by rw [told₂]; omega) step₃,
      makeMoves_of_step? (by rw [told₃]; omega) step₄]
  · exact (((reached.tail (.of_step? step₁)).tail (.of_step? step₂)).tail (.of_step? step₃)).tail
      (.of_step? step₄)
  · subst hx hw₃ hw₂ hw₁
    exact {
      now := rfl
      values := rfl
      named := rfl
      kept := rfl
      visits := rfl
      queue := rfl
      running := rfl
      size := by
        simp only [setJob, modifyTask, takeHandle, modifyInterpreter, mark, log, Table.size_modify,
          size, Nat.max_self, Nat.max_eq_left (show t + 1 ≤ w.tasks.size + 1 from Nat.le_succ_of_le lt)]
      driver := driver₄
      caller := by
        simp only [setJob, modifyTask, takeHandle, modifyInterpreter, mark, log, task_mk,
          Table.get_modify, if_pos, if_neg other]
        show { (tasks.get t).core with
          job := Job.control rest (.joining i w.tasks.size (w.now + ms))
          wait := some (.time (w.now + ms)) } = _
        rw [core]
      others := fun u notCaller notDriver => by
        obtain ⟨joiner, same⟩ := others u notDriver
        simp only [setJob, modifyTask, takeHandle, modifyInterpreter, mark, log, task_mk,
          Table.get_modify, if_neg notCaller, if_neg notDriver, same]
        rfl
      runs := rfl
      interpreters := fun j => by
        simp only [setJob, modifyTask, takeHandle, modifyInterpreter, mark, log, interpreter_mk,
          Table.get_modify]
        rw [row j]
        split <;> rfl
      rows := Nat.le_trans rows (Table.size_le_modify ..)
      journal := rfl
      reports := told }

/-! ## Delegated runs and others -/

/-- Where a run has been delegated, only callbacks of visits that there are are held. -/
theorem World.Delegates.held {x : World} {τ : Nat} (d : w.Delegates x i t st rest τ)
    (closed : w.Closed) {u : TaskId} {v : VisitId} (held : (x.task u).holds v = true) :
    v < x.visits.size := by
  by_cases driver : u = w.tasks.size
  · rw [driver, d.driver] at held
    simp [Task.holds] at held
  · by_cases caller : u = t
    · rw [caller, ← Task.holds_core, d.caller] at held
      simp [Task.holds] at held
    · rw [← Task.holds_core, d.others u caller driver, Task.holds_core] at held
      exact d.visits ▸ closed.held held

theorem World.task_drives (w : World) (t : TaskId) (i : InterpreterId) (st : State)
    (rest : List Step) (τ : Nat) (u : TaskId) : (w.drives t i st rest τ).task u = if u = t then
      { w.task u with job := .control rest (.running w.runs.size τ) } else w.task u :=
  World.task_modifyTask _ t u _

/-- The driver corresponds to the caller that drives the run itself, and to nobody else. -/
theorem World.Delegates.tasks {x : World} {τ τ' : Nat} (d : w.Delegates x i t st rest τ)
    (calls' : w'.Embarks t' steps' ms) (rested' : (w'.task t').rewoken = false)
    (closed' : w'.Closed) :
    (Pairing.drivers w w' t').Tasks x.tasks (w'.drives t' i st rest' τ').tasks := by
  -- The driver is secret, and nobody else corresponds to anybody.
  have unknown {u u' : TaskId} : ¬ (Pairing.drivers w w' t').known u u' := fun hu => hu.2 hu.1.1
  have size' : w'.tasks.size ≤ (w'.drives t' i st rest' τ').tasks.size := Table.size_le_modify ..
  constructor
  case size =>
    rintro _ _ ⟨rfl, rfl⟩
    exact ⟨d.size ▸ Nat.lt_succ_self _, Nat.lt_of_lt_of_le (closed'.running calls'.turn) size'⟩
  case like =>
    rintro u u' ⟨rfl, rfl⟩
    rw [World.get_tasks, World.get_tasks, d.driver, World.task_drives, if_pos rfl]
    have fate : (w'.task u').fate = none := congrArg Task.fate calls'.task
    have whole : (w'.task u').aborted = false := congrArg Task.aborted calls'.task
    exact ⟨fate, whole, rested'⟩
  case pairs => exact fun u u' hu => absurd hu unknown
  case secret =>
    rintro _ rfl
    exact d.size ▸ Nat.lt_succ_self _
  case stale => exact fun u lt => ⟨d.size ▸ Nat.lt_succ_of_lt lt, fun _ => unknown⟩
  case stale' => exact fun u lt => ⟨Nat.lt_of_lt_of_le lt size', fun _ => unknown⟩
  case total => exact False.elim

theorem World.run_drives (w : World) (t : TaskId) (i : InterpreterId) (st : State)
    (rest : List Step) (τ : Nat) : (w.drives t i st rest τ).run w.runs.size =
      { interpreter := i, host := t, phase := .begun st } :=
  (Table.get_push ..).trans (if_pos rfl)

theorem World.Delegates.run {x : World} {τ : Nat} (d : w.Delegates x i t st rest τ) :
    x.run w.runs.size = { interpreter := i, host := w.tasks.size, phase := .begun st } := by
  unfold World.run
  rw [d.runs, Table.get_push, if_pos rfl]

/-- The new runs correspond, and no others. -/
theorem World.Delegates.pairRuns {x : World} {τ τ' : Nat} (d : w.Delegates x i t st rest τ)
    (known : i < w.named) :
    (Pairing.drivers w w' t').Runs x.runs (w'.drives t' i st rest' τ').runs := by
  constructor
  case size =>
    rintro _ _ ⟨rfl, rfl⟩
    rw [d.runs, Table.size_push]
    exact ⟨Nat.lt_succ_self _, Nat.lt_of_lt_of_eq (Nat.lt_succ_self _) (Table.size_push ..).symm⟩
  case pairs =>
    rintro _ _ ⟨rfl, rfl⟩
    rw [World.get_runs, World.get_runs, d.run, World.run_drives]
    exact ⟨⟨rfl, known⟩, rfl, .begun st⟩
  case lost => exact fun _ => False.elim
  case veiled => exact fun _ => False.elim
  case plain => exact fun _ _ _ _ _ _ => id
  case total => exact False.elim

/-- The interpreter that runs shows the same in both worlds, and the others are as they were. -/
theorem World.Delegates.pairInterpreters {x : World} {τ τ' : Nat} (d : w.Delegates x i t st rest τ)
    (h : w.Resembles i w') (closed : w.Closed) (closed' : w'.Closed) :
    (Pairing.drivers w w' t').Interpreters x.interpreters
      (w'.drives t' i st rest' τ').interpreters := by
  constructor
  case size =>
    rintro j _ ⟨rfl, lt⟩
    exact ⟨Nat.lt_of_lt_of_le (closed.mirrors.names _ lt).2 d.rows,
      Nat.lt_of_lt_of_le (closed'.mirrors.names _ (h.named ▸ lt)).2 (Table.size_le_modify ..)⟩
  case pairs =>
    rintro j j' ⟨same, lt⟩
    subst same
    have row := h.rows j' lt
    have ties := h.ties closed closed' (P := .drivers w w' t') (fun _ => id) (fun _ => id) lt
    have slot' : (w'.drives t' i st rest' τ').interpreter j' = _ :=
      w'.interpreter_modifyInterpreter i j' _
    rw [World.get_interpreters, World.get_interpreters, d.interpreters, slot']
    split
    · -- Both slots hold the new runs; the task of the one that is stored is not compared.
      refine ⟨row.machine, .some ⟨rfl, rfl⟩, rfl, ?_, row.changeHandlers, row.doneHandlers,
        .inr ⟨nofun, ?_⟩⟩
      · simp [Window.clear, row.limit]
      · exact fun u hu => closed'.handled (closed'.mirrors.names _ (h.named ▸ lt)).2 hu
    · next other => exact h.pairs lt other ties
  case total => exact False.elim

/-- A run that has a task of its own in one world mirrors one that the caller drives in another. -/
theorem World.Delegates.twins {x : World} {τ τ' : Nat} (d : w.Delegates x i t st rest τ)
    (h : w.Resembles i w') (calls : w.Embarks t steps ms) (calls' : w'.Embarks t' steps' ms)
    (rested' : (w'.task t').rewoken = false) (closed : w.Closed) (closed' : w'.Closed) :
    Twins (.drivers w w' t') w w' x (w'.drives t' i st rest' τ') where
  -- In one world a task has got its turn in between.
  told := ⟨[.mark (.began w.runs.size), .mark (.turn w.tasks.size)],
    [.mark (.began w'.runs.size)], by simp [World.dated, d.journal], Array.toList_push .., rfl⟩
  still := rfl
  reports := .inr ⟨rfl, rfl⟩
  ready _ _ := id
  joiner _ _ _ := rfl
  left := ⟨fun _ _ => rfl, fun _ _ => rfl, fun u _ v held => ⟨d.held closed held, fun _ => And.left⟩⟩
  right := ⟨fun _ _ => rfl, fun _ _ => rfl, fun u _ v held => by
    rw [World.task_drives] at held
    have held' : (w'.task u).holds v = true := by
      split at held <;> exact held
    exact ⟨closed'.held held', fun _ => And.left⟩⟩
  now := h.now.trans d.now.symm
  values := h.values.trans d.values.symm
  named := h.named.trans d.named.symm
  names j lt := ⟨rfl, d.named ▸ lt⟩
  kept := by
    rw [d.kept, calls.kept, show (w'.drives t' i st rest' τ').kept = [] from calls'.kept]
    exact .nil
  queue := by
    rw [d.queue, show (w'.drives t' i st rest' τ').queue = [] from calls'.idle]
    exact .nil
  running := by
    rw [d.running, show (w'.drives t' i st rest' τ').running = some t' from calls'.turn]
    exact .some ⟨rfl, rfl⟩
  tasks := d.tasks calls' rested' closed'
  runs := d.pairRuns h.known
  visits := .of_none (fun _ _ => id) (fun _ => id) False.elim
  interpreters := d.pairInterpreters h closed closed'
  host := by
    rintro _ _ ⟨⟨rfl, rfl⟩, -⟩
    exact ⟨congrArg Run.host d.run, congrArg Run.host (World.run_drives ..)⟩

/-- A run that has a task of its own goes on in tandem with one that the caller drives. -/
theorem World.Delegates.tandem {x : World} (d : w.Delegates x i t st rest (w.now + ms))
    (h : w.Resembles i w') (calls : w.Embarks t steps ms) (calls' : w'.Embarks t' steps' ms)
    (rested' : (w'.task t').rewoken = false) (positive : 0 < ms) (closed : w.Closed)
    (closed' : w'.Closed) :
    Tandem (.drivers w w' t') w w' x (w'.drives t' i st rest' (w.now + ms)) w.tasks.size t t' i
      rest rest' w.runs.size w'.runs.size (w.now + ms) where
  twins := d.twins h calls calls' rested' closed closed'
  pair := ⟨rfl, rfl⟩
  secret _ := .rfl
  lax strict := strict.left t (closed.running calls.turn)
  unveiled _ := id
  live := ⟨⟨rfl, rfl⟩, id⟩
  fresh := Nat.lt_irrefl _
  stale := closed.running calls.turn
  driver := by rw [d.driver]; rfl
  joiner := by rw [d.driver]
  caller := d.caller
  -- The other caller drives the run itself.
  abides' := by
    refine ⟨none, ?_, .inr ⟨rfl, calls'.turn⟩⟩
    rw [World.drives, World.core_setJob, if_pos rfl]
    show { (w'.task t').core with job := Job.control rest' (.running w'.runs.size (w.now + ms)) } = _
    rw [calls'.task]
  -- Nobody in either world waits for a moment before the time is up, but the run.
  quiet σ lt := {
    left := fun u alone δ due => by
      have driver : u ≠ w.tasks.size := fun same => alone t' ⟨same, rfl⟩
      by_cases caller : u = t
      · rw [caller, ← Task.deadline?_core, d.caller] at due
        obtain rfl := Option.some.inj due
        exact lt
      · rw [← Task.deadline?_core, d.others u caller driver, Task.deadline?_core] at due
        exact Nat.lt_trans lt (calls.others u caller δ due)
    right := fun u alone δ due => by
      have other : u ≠ t' := fun same => alone w.tasks.size ⟨rfl, same⟩
      rw [← Task.deadline?_core, World.drives, World.core_setJob, if_neg other,
        Task.deadline?_core] at due
      exact Nat.lt_trans lt (h.now ▸ calls'.others u other δ due) }
  early := d.now ▸ Nat.lt_add_of_pos_right positive
  reports' := rfl

/-- Whether a run is awaited or gets a task of its own, it is the same run: it cannot begin for the
same reason, and otherwise the two show the same up to its end, and return the same at the same
time. The caller that waits for the task is told so, unless somebody else keeps the turn for good. -/
theorem Scenario.manners_accord (reached : s.Reaches w) (reached' : s'.Reaches w')
    (h : w.Resembles i w') (calls : w.Embarks t (Manner.background.steps i ms ++ rest) ms)
    (calls' : w'.Embarks t' (Manner.awaited.steps i ms ++ rest') ms)
    (rested : (w.task t).rewoken = false) (rested' : (w'.task t').rewoken = false) :
    (∀ e, (w.interpreter i).startState = .error e →
      w.step? = some (w.answer t (.join i ms :: rest) (.error e)) ∧
      w'.step? = some (w'.answer t' rest' (.error e))) ∧
    ∀ st, (w.interpreter i).startState = .ok st → ∀ n,
      (∀ m ≤ n, (w'.makeMoves (w'.reports.size + 1) m).reports.size = w'.reports.size) →
      (w'.makeMoves (w'.reports.size + 1) (n + 1)).now < w.now + ms →
      World.Accords w w' (w.makeMoves (w.reports.size + 2) (n + 4))
        (w'.makeMoves (w'.reports.size + 1) (n + 1)) w.tasks.size t rest := by
  refine ⟨fun e first => ⟨calls.refused h.known first,
    calls'.refused (h.named ▸ h.known) (h.startState.trans first)⟩, fun st first n going early => ?_⟩
  -- The caller that drives the run itself begins it in one move.
  have step' := calls'.step? rfl (h.named ▸ h.known)
  rw [World.beginNamed_run (h.startState.trans first), h.now] at step'
  have moves' : ∀ n, w'.makeMoves (w'.reports.size + 1) (n + 1) =
      (w'.drives t' i st rest' (w.now + ms)).makeMoves (w'.reports.size + 1) n :=
    World.makeMoves_of_step? (Nat.lt_succ_self _) step'
  rw [moves'] at early ⊢
  -- There is time for the run, or it would be over at once.
  have positive : 0 < ms := by
    have := World.now_le_makeMoves (w'.drives t' i st rest' (w.now + ms)) (w'.reports.size + 1) n
    have : w.now ≤ (w'.drives t' i st rest' (w.now + ms)).now := Nat.le_of_eq h.now.symm
    omega
  -- The other one needs four moves until the task has the turn, and from then on the two go in
  -- tandem.
  obtain ⟨x, moves, reaches, d⟩ := calls.delegates reached.closed h.known rested first positive
  have total : w.reports.size + 2 = x.reports.size + 1 := by rw [d.reports]
  rw [moves, total]
  refine (d.tandem h calls calls' rested' positive reached.closed reached'.closed).accords
    (reaches s reached) n (fun m lt => ?_) early
  exact (congrArg (·.reports.size) (moves' m)).symm.trans (going (m + 1) lt)

end

/-! ## Wake-ups and callbacks that are left over -/

/-- Whether a command keeps away from interpreters. -/
def Command.isAloof : Command → Bool
  | .stop _ | .start _ | .showStatus _ | .showPath _ | .limitHistory .. => false
  | _ => true

mutual

/-- Whether a step of a script keeps away from interpreters. -/
def Instr.isAloof : Instr → Bool
  | .act c => c.isAloof
  | .branch _ _ _ yes no => Script.isAloof yes && Script.isAloof no
  | .loop _ body | .detach body => Script.isAloof body
  | .observe .. => false
  | .dropCallback | .guard _ | .panic | .pause _ | .finish _ => true

/-- Whether a script keeps away from interpreters. -/
def Script.isAloof : Script → Bool
  | [] => true
  | i :: rest => i.isAloof && Script.isAloof rest

end

/-- Whether the work of a service keeps away from interpreters, and is not that of a machine. -/
def Service.isAloof : Service → Bool
  | .free x | .routed x => x.setUp.isAloof && x.body.isAloof
  | .nested _ => false

/-- Whether all that a state does keeps away from interpreters. -/
def State.isAloof (s : State) : Bool :=
  (s.enterActions.actions ++ s.exitActions.actions ++ s.cleanup.actions).all Script.isAloof &&
    s.services.all Service.isAloof && s.activities.all fun x => x.setUp.isAloof && x.body.isAloof

/-- Whether all that the machine of a scenario does keeps away from interpreters, and nobody
observes it. -/
def Scenario.isAloof (s : Scenario) : Bool :=
  (s.machine.states.getD []).all State.isAloof && s.observers.isEmpty

/-- Once a run has ended that has a task of its own in one world and is awaited in another, and it
is not late, the two worlds concur. -/
def World.EndAlike (w w' : World) (ms : Nat) : Prop :=
  ∀ n n',
    ((w.makeMoves (w.reports.size + 2) n).task w.tasks.size).isAlive = true →
    ((w.makeMoves (w.reports.size + 2) (n + 1)).task w.tasks.size).isAlive = false →
    (w.makeMoves (w.reports.size + 2) (n + 1)).now < w.now + ms →
    (w'.makeMoves (w'.reports.size + 1) n').reports.size = w'.reports.size →
    (w'.makeMoves (w'.reports.size + 1) (n' + 1)).reports.size = w'.reports.size + 1 →
    (w'.makeMoves (w'.reports.size + 1) (n' + 1)).now < w'.now + ms →
    World.Concurs w w' (w.makeMoves (w.reports.size + 2) (n + 1))
      (w'.makeMoves (w'.reports.size + 1) (n' + 1))

/-- A caller embarks if it would but for the callbacks that are kept, and none is. -/
theorem World.Embarks.of_kept {w : World} {t : TaskId} {steps : List Step} {ms : Nat}
    (h : World.Embarks { w with kept := [] } t steps ms) (kept : w.kept = []) :
    w.Embarks t steps ms :=
  ⟨h.turn, h.task, h.idle, h.others, kept⟩

namespace Scenario

/-- A run that is awaited for as long as it takes. -/
def waited : Scenario :=
  errand [.script (.pause (.sleep 2)), .run 0 100]

theorem retried_resembles_waited : (retried.play 19).Resembles 0 (waited.play 7) :=
  .of_one (by decide +kernel) (by decide +kernel) (by decide +kernel) (by decide +kernel)
    (.of_unobserved (retried.reaches_play 19) (waited.reaches_play 7) rfl (by decide +kernel)
      (by decide +kernel) (by decide +kernel) (by decide +kernel))

theorem waited_embarks :
    (waited.play 7).Embarks 0 (Manner.awaited.steps 0 100 ++ []) 100 :=
  .of_idle 100 (by decide +kernel) (by rfl) (by decide +kernel) (by decide +kernel)
    (by decide +kernel)

theorem retried_accords :
    (((retried.play 19).makeMoves 5 21).task 2).fate = some (.ran (.ok .done)) ∧
    World.Accords (retried.play 19) (waited.play 7) ((retried.play 19).makeMoves 5 21)
      ((waited.play 7).makeMoves 2 18) 2 0 [] := by
  have size : (retried.play 19).reports.size = 3 := by decide +kernel
  have size' : (waited.play 7).reports.size = 1 := by decide +kernel
  have tasks : (retried.play 19).tasks.size = 2 := by decide +kernel
  obtain ⟨-, goes⟩ := manners_accord (retried.reaches_play 19) (waited.reaches_play 7)
    retried_resembles_waited retried_embarks waited_embarks (by decide +kernel) (by decide +kernel)
  rw [size, size', tasks] at goes
  cases first : ((retried.play 19).interpreter 0).startState with
  | ok st => exact ⟨by decide +kernel, goes st first 17 (by decide +kernel) (by decide +kernel)⟩
  | error e =>
    rw [Interpreter.startState, retried_resembles_waited.free,
      (retried.reaches_play 19).machine (by decide)] at first
    cases first

/-- A run in which, the first time, one service keeps its callback and another one panics; later
on, one service gives the callback up and writes something in its second turn, and another one has
the state left in its first. If it is tidied up, the cleanup of the first time gives the callback
up. -/
def relapse (tidied : Bool) (manner : Manner) : Scenario where
  machine := ⟨"m", "M", "a", some [
    { State.new "a" with
      routes := [(.named "go", "b")]
      services := [
        .free { body := [.branch "n" .eq 0 [.act (.keep "k")]
          [.act (.release "k"), .pause .yield, .act (.log (.text "late")), .pause .forever]] },
        .free { body := [.branch "n" .eq 0 [.act (.add "n" 1), .panic]
          [.act (.raise "go"), .pause .forever]] }]
      cleanup := ⟨if tidied then [[.act (.release "k")]] else []⟩ },
    { State.new "b" with mode := .final }]⟩
  interpreters := 1
  limit := none
  observers := []
  steps := .run 0 100 :: manner.steps 0 100

theorem relapse_resembles (tidied : Bool) :
    ((relapse tidied .background).play 17).Resembles 0 ((relapse tidied .awaited).play 17) := by
  have reached (manner : Manner) := (relapse tidied manner).reaches_play 17
  cases tidied <;>
    exact .of_one (by decide +kernel) (by decide +kernel) (by decide +kernel) (by decide +kernel)
      (.of_unobserved (reached .background) (reached .awaited) rfl (by decide +kernel)
        (by decide +kernel) (by decide +kernel) (by decide +kernel))

theorem relapse_embarks (tidied : Bool) (manner : Manner) :
    World.Embarks { (relapse tidied manner).play 17 with kept := [] } 0 (manner.steps 0 100 ++ [])
      100 := by
  cases tidied <;> cases manner <;>
    exact .of_idle 100 (by decide +kernel) (by cbv) (by decide +kernel) rfl (by decide +kernel)

/-- One service writes something only if the task that drives the run is not woken early. -/
theorem relapse_apart (tidied : Bool) :
    ¬ ((relapse tidied .background).play 17).EndAlike ((relapse tidied .awaited).play 17) 100 := by
  intro alike
  have concurs := alike 32 23
  cases tidied <;>
    exact absurd (congrArg List.length (concurs (by decide +kernel) (by decide +kernel)
      (by decide +kernel) (by decide +kernel) (by decide +kernel) (by decide +kernel)).shown)
      (by decide +kernel)

/-- Without the conditions on wake-ups and on callbacks, a run need not go on alike: a caller that
drives the run may have been woken for the sake of an earlier run, or may be woken yet. -/
theorem exists_manners_apart :
    (¬ ∀ (s s' : Scenario) (w w' : World) (i : InterpreterId) (t t' : TaskId) (ms : Nat)
      (rest rest' : List Step), s.isAloof = true → s'.isAloof = true → s.Reaches w →
      s'.Reaches w' → w.Resembles i w' → w.Embarks t (Manner.background.steps i ms ++ rest) ms →
      w'.Embarks t' (Manner.awaited.steps i ms ++ rest') ms → w.EndAlike w' ms) ∧
    ¬ ∀ (s s' : Scenario) (w w' : World) (i : InterpreterId) (t t' : TaskId) (ms : Nat)
      (rest rest' : List Step), s.isAloof = true → s'.isAloof = true → s.Reaches w →
      s'.Reaches w' → w.Resembles i w' →
      World.Embarks { w with kept := [] } t (Manner.background.steps i ms ++ rest) ms →
      World.Embarks { w' with kept := [] } t' (Manner.awaited.steps i ms ++ rest') ms →
      (w.task t).rewoken = false → (w'.task t').rewoken = false → w.EndAlike w' ms := by
  have aloof (tidied : Bool) (manner : Manner) : (relapse tidied manner).isAloof = true := by
    cases tidied <;> cases manner <;> decide +kernel
  constructor
  · intro all
    have kept (manner : Manner) : ((relapse true manner).play 17).kept = [] := by
      cases manner <;> decide +kernel
    have embarks (manner : Manner) := (relapse_embarks true manner).of_kept (kept manner)
    exact relapse_apart true (all _ _ _ _ 0 0 0 100 [] [] (aloof _ _) (aloof _ _)
      (reaches_play _ 17) (reaches_play _ 17) (relapse_resembles true) (embarks .background)
      (embarks .awaited))
  · intro all
    exact relapse_apart false (all _ _ _ _ 0 0 0 100 [] [] (aloof _ _) (aloof _ _)
      (reaches_play _ 17) (reaches_play _ 17) (relapse_resembles false)
      (relapse_embarks false .background) (relapse_embarks false .awaited) (by decide +kernel)
      (by decide +kernel))

end Scenario

end Statechart
