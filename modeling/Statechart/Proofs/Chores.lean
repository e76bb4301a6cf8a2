import Mathlib.Logic.Relation
import Statechart.Proofs.Schedule

/-!
# Chores

Most of what happens in a world is of no account to its runs: entries in the journal, tasks that
are woken, variables that are set. Such a change is a *chore*, and `Frame` says all that chores
keep.

## Main definitions

- `World.marks`: the marks of the journal.
- `World.notices`: what is written of runs, the marks and what their observers are told.
- `Task.Akin` and its like for runs, visits and interpreters: rows that the runs cannot tell apart.
- `Still`: nobody comes or goes, and no run goes further.
- `Chore`: a change of no account.
- `Frame`: what chores keep.

## Main statements

- `Chore.frame`: chores keep what `Frame` says.
-/

namespace Statechart

/-! ## Marks -/

/-- The mark that an entry of the journal is, if it is one. -/
def Entry.mark? : Entry → Option Mark
  | .mark m => some m
  | _ => none

/-- Whether an entry is written of a run: a mark, or what one of its observers is told. -/
def Entry.isNotice : Entry → Bool
  | .mark _ | .changed _ _ | .done _ => true
  | _ => false

theorem Entry.mark?_of_isNotice {e : Entry} (h : e.isNotice = false) : e.mark? = none := by
  cases e <;> first | rfl | cases h

namespace World

/-- The marks of the journal. -/
def marks (w : World) : List Mark :=
  w.journal.toList.filterMap Entry.mark?

/-- What the journal says of runs. -/
def notices (w : World) : List Entry :=
  w.journal.toList.filter Entry.isNotice

@[simp]
theorem notices_log (w : World) (e : Entry) :
    (w.log e).notices = w.notices ++ if e.isNotice then [e] else [] := by
  simp only [notices, log, Array.toList_push, List.filter_append]
  split <;> simp [*]

@[simp]
theorem marks_log (w : World) (e : Entry) : (w.log e).marks = w.marks ++ e.mark?.toList := by
  cases h : e.mark? <;> simp [marks, log, h]

@[simp]
theorem marks_mark (w : World) (m : Mark) : (w.mark m).marks = w.marks ++ [m] :=
  w.marks_log (.mark m)

end World

/-! ## Looking things up

Every change of the world is a change of some of its tables; what the others hold is read off.
-/

namespace World

variable {now : Nat} {queue : List TaskId} {running : Option TaskId} {tasks : Table Task}
  {runs : Table Run} {visits : Table Visit} {interpreters : Table Interpreter} {named : Nat}
  {values : List (String × Int)} {kept : List (String × VisitId)} {journal : Array Entry}
  {reports : Array Report}

@[simp]
theorem task_mk (t : TaskId) :
    task ⟨now, queue, running, tasks, runs, visits, interpreters, named, values, kept, journal,
      reports⟩ t = tasks.get t := rfl

@[simp]
theorem run_mk (r : RunId) :
    run ⟨now, queue, running, tasks, runs, visits, interpreters, named, values, kept, journal,
      reports⟩ r = runs.get r := rfl

@[simp]
theorem visit_mk (v : VisitId) :
    visit ⟨now, queue, running, tasks, runs, visits, interpreters, named, values, kept, journal,
      reports⟩ v = visits.get v := rfl

@[simp]
theorem interpreter_mk (i : InterpreterId) :
    interpreter ⟨now, queue, running, tasks, runs, visits, interpreters, named, values, kept,
      journal, reports⟩ i = interpreters.get i := rfl

@[simp]
theorem marks_mk :
    marks ⟨now, queue, running, tasks, runs, visits, interpreters, named, values, kept, journal,
      reports⟩ = journal.toList.filterMap Entry.mark? := rfl

/-- What a change of a visit leaves of that visit it leaves of all visits. -/
theorem data_modifyVisit {α : Type} {w : World} {v : VisitId} {f : Visit → Visit}
    (data : Visit → α) (same : data (f (w.visit v)) = data (w.visit v)) (u : VisitId) :
    data ((w.modifyVisit v f).visit u) = data (w.visit u) := by
  rw [visit_modifyVisit]
  split
  · next here => exact here ▸ same
  · rfl

/-- A new visit has of some data as much as a visit that is not there. -/
theorem data_pushVisit {α : Type} (w : World) (x : Visit) (data : Visit → α)
    (blank : data x = data default) (v : VisitId) :
    data (({ w with visits := w.visits.push x } : World).visit v) = data (w.visit v) := by
  simp only [visit_mk, Table.get_push]
  split
  · next new =>
    have old : w.visit v = default := Table.get_of_size_le (Nat.le_of_eq new.symm)
    rw [old, blank]
  · rfl

theorem get_tasks (w : World) (t : TaskId) : w.tasks.get t = w.task t := rfl

theorem get_runs (w : World) (r : RunId) : w.runs.get r = w.run r := rfl

theorem get_visits (w : World) (v : VisitId) : w.visits.get v = w.visit v := rfl

theorem get_interpreters (w : World) (i : InterpreterId) :
    w.interpreters.get i = w.interpreter i := rfl

theorem filterMap_journal (w : World) : w.journal.toList.filterMap Entry.mark? = w.marks := rfl

@[simp]
theorem marks_modifyTask (w : World) (t : TaskId) (f : Task → Task) :
    (w.modifyTask t f).marks = w.marks := rfl

@[simp]
theorem marks_modifyRun (w : World) (r : RunId) (f : Run → Run) :
    (w.modifyRun r f).marks = w.marks := rfl

@[simp]
theorem marks_modifyVisit (w : World) (v : VisitId) (f : Visit → Visit) :
    (w.modifyVisit v f).marks = w.marks := rfl

@[simp]
theorem marks_modifyInterpreter (w : World) (i : InterpreterId) (f : Interpreter → Interpreter) :
    (w.modifyInterpreter i f).marks = w.marks := rfl

@[simp]
theorem marks_takeSlot (w : World) (i : InterpreterId) (t : TaskId) (s : State) :
    (w.takeSlot i t s).marks = w.marks ++ [.began w.runs.size] :=
  marks_mark ..

@[simp]
theorem marks_setJob (w : World) (t : TaskId) (job : Job) : (w.setJob t job).marks = w.marks := rfl

@[simp]
theorem marks_spawn (w : World) (x : Task) : (w.spawn x).marks = w.marks := rfl

attribute [simp] get_tasks get_runs get_visits get_interpreters filterMap_journal
attribute [simp] Table.get_modify Table.get_push Table.size_push

end World

/-! ## Rows that the runs cannot tell apart -/

/-- What a task is to the runs stays the same: it may be aborted and give up callbacks, and no
more. -/
structure Task.Akin (x y : Task) : Prop where
  run? : y.job.run? = x.job.run?
  home : y.home = x.home
  fate : y.fate = x.fate
  aborted : x.aborted = true → y.aborted = true
  holds : ∀ v, y.holds v = true → x.holds v = true

/-- A run goes no further, and may be stopped. -/
structure Run.Akin (x y : Run) : Prop where
  interpreter : y.interpreter = x.interpreter
  host : y.host = x.host
  phase : y.phase = x.phase
  cancelled : x.cancelled = true → y.cancelled = true

/-- What a visit is to its run stays the same, but for events. -/
structure Visit.Akin (x y : Visit) : Prop where
  state : y.state = x.state
  run : y.run = x.run
  torn : y.torn = x.torn
  closed : y.closed = x.closed
  working : y.working = x.working

/-- What an interpreter shows of its runs stays the same. -/
structure Interpreter.Akin (x y : Interpreter) : Prop where
  slot : y.slot = x.slot
  status : y.status = x.status

@[refl]
theorem Task.Akin.refl (x : Task) : x.Akin x :=
  ⟨rfl, rfl, rfl, id, fun _ => id⟩

@[refl]
theorem Run.Akin.refl (x : Run) : x.Akin x :=
  ⟨rfl, rfl, rfl, id⟩

@[refl]
theorem Visit.Akin.refl (x : Visit) : x.Akin x :=
  ⟨rfl, rfl, rfl, rfl, rfl⟩

@[refl]
theorem Interpreter.Akin.refl (x : Interpreter) : x.Akin x :=
  ⟨rfl, rfl⟩

theorem Task.Akin.trans {x y z : Task} (h : x.Akin y) (h' : y.Akin z) : x.Akin z :=
  ⟨h'.run?.trans h.run?, h'.home.trans h.home, h'.fate.trans h.fate,
    fun hx => h'.aborted (h.aborted hx), fun v hz => h.holds v (h'.holds v hz)⟩

theorem Run.Akin.trans {x y z : Run} (h : x.Akin y) (h' : y.Akin z) : x.Akin z :=
  ⟨h'.interpreter.trans h.interpreter, h'.host.trans h.host, h'.phase.trans h.phase,
    fun hx => h'.cancelled (h.cancelled hx)⟩

theorem Visit.Akin.trans {x y z : Visit} (h : x.Akin y) (h' : y.Akin z) : x.Akin z :=
  ⟨h'.state.trans h.state, h'.run.trans h.run, h'.torn.trans h.torn, h'.closed.trans h.closed,
    h'.working.trans h.working⟩

theorem Interpreter.Akin.trans {x y z : Interpreter} (h : x.Akin y) (h' : y.Akin z) : x.Akin z :=
  ⟨h'.slot.trans h.slot, h'.status.trans h.status⟩

theorem Task.Akin.isAlive {x y : Task} (h : x.Akin y) : y.isAlive = x.isAlive := by
  simp [Task.isAlive, h.fate]

/-! ## What stays -/

/-- Whether a task is up: it has the turn, or will have one. -/
def World.IsUp (w : World) (t : TaskId) : Prop :=
  w.running = some t ∨ t ∈ w.queue

/-- No task comes, goes or loses its turn. -/
structure Calm (w w' : World) : Prop where
  tasks : w.tasks.size ≤ w'.tasks.size
  task : ∀ t, (w.task t).Akin (w'.task t)
  running : w'.running = w.running
  queue : ∀ t, t ∈ w.queue → t ∈ w'.queue
  alive : ∀ t, t ∈ w'.queue → t ∈ w.queue ∨ (w.task t).isAlive = true
  nodup : w.queue.Nodup → w'.queue.Nodup

/-- The interpreters that are there keep their machines. -/
structure Fixed (w w' : World) : Prop where
  interpreters : w.interpreters.size ≤ w'.interpreters.size
  machine : ∀ i, i < w.interpreters.size → (w'.interpreter i).machine = (w.interpreter i).machine

/-- No task comes or goes, and no run goes further. -/
structure Still (w w' : World) : Prop extends Calm w w', Fixed w w' where
  runs : w.runs.size ≤ w'.runs.size
  run : ∀ r, (w.run r).Akin (w'.run r)
  visits : w.visits.size ≤ w'.visits.size
  visit : ∀ v, (w.visit v).Akin (w'.visit v)
  interpreter : ∀ i, (w.interpreter i).Akin (w'.interpreter i)

/-- What chores keep: nobody sees a mark, a stop or an event, and a task that hears news of an
inbox no more is up. -/
structure Frame (w w' : World) : Prop extends Still w w' where
  cancelled : ∀ r, (w'.run r).cancelled = (w.run r).cancelled
  fired : ∀ v, (w'.visit v).fired = (w.visit v).fired
  inbox : ∀ v, (w'.visit v).inbox = (w.visit v).inbox
  marks : w'.marks = w.marks
  notices : w'.notices = w.notices
  kept : w'.kept = w.kept
  history : ∀ i, (w'.interpreter i).history = (w.interpreter i).history
  news : ∀ v, (w.visit v).listening = true →
    (w'.visit v).listening = true ∨ (w.task (w.runOf v).host).isAlive = false ∨
      w'.IsUp (w.runOf v).host

namespace Calm

variable {w w' w'' : World}

@[refl]
theorem refl (w : World) : Calm w w where
  tasks := Nat.le_refl _
  task _ := .refl _
  running := rfl
  queue _ := id
  alive _ := .inl
  nodup := id

theorem of_eq (tasks : w'.tasks = w.tasks) (queue : w'.queue = w.queue)
    (running : w'.running = w.running) : Calm w w' where
  tasks := Nat.le_of_eq (congrArg Table.size tasks.symm)
  task t := by
    unfold World.task
    rw [tasks]
  running := running
  queue t ht := queue ▸ ht
  alive t ht := .inl (queue ▸ ht)
  nodup h := queue ▸ h

theorem trans (h : Calm w w') (h' : Calm w' w'') : Calm w w'' where
  tasks := Nat.le_trans h.tasks h'.tasks
  task t := (h.task t).trans (h'.task t)
  running := h'.running.trans h.running
  queue t ht := h'.queue t (h.queue t ht)
  alive t ht := by
    rcases h'.alive t ht with ht | ht
    · exact h.alive t ht
    · exact .inr ((h.task t).isAlive ▸ ht)
  nodup := h'.nodup ∘ h.nodup

theorem isUp (h : Calm w w') {t : TaskId} (up : w.IsUp t) : w'.IsUp t := by
  rcases up with up | up
  · exact .inl (h.running.trans up)
  · exact .inr (h.queue t up)

end Calm

namespace Fixed

variable {w w' w'' : World}

@[refl]
theorem refl (w : World) : Fixed w w :=
  ⟨Nat.le_refl _, fun _ _ => rfl⟩

theorem trans (h : Fixed w w') (h' : Fixed w' w'') : Fixed w w'' where
  interpreters := Nat.le_trans h.interpreters h'.interpreters
  machine i hi :=
    (h'.machine i (Nat.lt_of_lt_of_le hi h.interpreters)).trans (h.machine i hi)

end Fixed

namespace Still

variable {w w' w'' : World}

@[refl]
theorem refl (w : World) : Still w w :=
  { Calm.refl w, Fixed.refl w with
    runs := Nat.le_refl _
    run := fun _ => .refl _
    visits := Nat.le_refl _
    visit := fun _ => .refl _
    interpreter := fun _ => .refl _ }

theorem trans (h : Still w w') (h' : Still w' w'') : Still w w'' :=
  { h.toCalm.trans h'.toCalm, h.toFixed.trans h'.toFixed with
    runs := Nat.le_trans h.runs h'.runs
    run := fun r => (h.run r).trans (h'.run r)
    visits := Nat.le_trans h.visits h'.visits
    visit := fun v => (h.visit v).trans (h'.visit v)
    interpreter := fun i => (h.interpreter i).trans (h'.interpreter i) }

theorem runOf (h : Still w w') (v : VisitId) : (w.runOf v).Akin (w'.runOf v) := by
  unfold World.runOf
  rw [(h.visit v).run]
  exact h.run _

end Still

namespace Frame

variable {w w' w'' : World}

/-- Chores leave the runs as they are. -/
theorem run_eq (h : Frame w w') (r : RunId) : w'.run r = w.run r := by
  obtain ⟨interpreter, host, phase, -⟩ := h.run r
  have cancelled := h.cancelled r
  cases hx : w.run r
  cases hy : w'.run r
  simp_all

@[refl]
theorem refl (w : World) : Frame w w :=
  { Still.refl w with
    cancelled := fun _ => rfl
    fired := fun _ => rfl
    inbox := fun _ => rfl
    marks := rfl
    notices := rfl
    kept := rfl
    history := fun _ => rfl
    news := fun _ => .inl }

theorem trans (h : Frame w w') (h' : Frame w' w'') : Frame w w'' :=
  { h.toStill.trans h'.toStill with
    cancelled := fun r => (h'.cancelled r).trans (h.cancelled r)
    fired := fun v => (h'.fired v).trans (h.fired v)
    inbox := fun v => (h'.inbox v).trans (h.inbox v)
    marks := h'.marks.trans h.marks
    notices := h'.notices.trans h.notices
    kept := h'.kept.trans h.kept
    history := fun i => (h'.history i).trans (h.history i)
    news := fun v hv => by
      rcases h.news v hv with hv | hv | hv
      · have := h'.news v hv
        rwa [(h.runOf v).host, (h.task _).isAlive] at this
      · exact .inr (.inl hv)
      · exact .inr (.inr (h'.isUp hv)) }

end Frame

theorem Table.size_le_modify {α : Type} [Inhabited α] (t : Table α) (i : Nat) (f : α → α) :
    t.size ≤ (t.modify i f).size := by
  by_cases h : i < t.size
  · simp [size_modify_of_lt h]
  · simp only [size] at h
    simp only [modify, h, if_false, size, Array.size_push, Array.size_append]
    omega

namespace Fixed

variable {w : World}

theorem modifyInterpreter {i : InterpreterId} {f : Interpreter → Interpreter}
    (machine : (f (w.interpreter i)).machine = (w.interpreter i).machine) :
    Fixed w (w.modifyInterpreter i f) where
  interpreters := Table.size_le_modify ..
  machine j _ := by
    rw [World.interpreter_modifyInterpreter]
    split
    · next h => exact h ▸ machine
    · rfl

/-- A new interpreter comes after those that are there. -/
theorem found (w : World) (machine : Machine) :
    Fixed w { w with interpreters := w.interpreters.push { machine } } where
  interpreters := by simp
  machine j hj := by
    simp [Nat.ne_of_lt hj]

end Fixed

namespace Still

variable {w : World}

theorem log (w : World) (e : Entry) : Still w (w.log e) :=
  { refl w with }

theorem modifyTask {t : TaskId} {f : Task → Task} (akin : (w.task t).Akin (f (w.task t))) :
    Still w (w.modifyTask t f) :=
  { refl w with
    tasks := Table.size_le_modify ..
    task := fun u => by
      rw [World.task_modifyTask]
      split
      · next h => exact h ▸ akin
      · exact .refl _ }

theorem modifyRun {r : RunId} {f : Run → Run} (akin : (w.run r).Akin (f (w.run r))) :
    Still w (w.modifyRun r f) :=
  { refl w with
    runs := Table.size_le_modify ..
    run := fun q => by
      rw [World.run_modifyRun]
      split
      · next h => exact h ▸ akin
      · exact .refl _ }

theorem modifyVisit {v : VisitId} {f : Visit → Visit} (akin : (w.visit v).Akin (f (w.visit v))) :
    Still w (w.modifyVisit v f) :=
  { refl w with
    visits := Table.size_le_modify ..
    visit := fun u => by
      rw [World.visit_modifyVisit]
      split
      · next h => exact h ▸ akin
      · exact .refl _ }

theorem modifyInterpreter {i : InterpreterId} {f : Interpreter → Interpreter}
    (akin : (w.interpreter i).Akin (f (w.interpreter i)))
    (machine : (f (w.interpreter i)).machine = (w.interpreter i).machine) :
    Still w (w.modifyInterpreter i f) :=
  { Fixed.modifyInterpreter machine, refl w with
    interpreter := fun j => by
      rw [World.interpreter_modifyInterpreter]
      split
      · next h => exact h ▸ akin
      · exact .refl _ }

/-- A limit on a history is of no account to runs, tasks and visits. -/
theorem limitHistory (w : World) (i : InterpreterId) (n : Nat) : Still w (w.limitHistory i n) :=
  (modifyInterpreter ⟨rfl, rfl⟩ rfl).trans (log ..)

end Still

/-! ## Chores -/

/-- A change that is of no account to the runs. -/
inductive Chore : World → World → Prop where
  | note {w : World} (e : Entry) (plain : e.isNotice = false) : Chore w (w.log e)
  | tally {w : World} (now : Nat) (values : List (String × Int)) (reports : Array Report) :
      Chore w { w with now, values, reports }
  | task {w : World} (t : TaskId) (f : Task → Task) (akin : (w.task t).Akin (f (w.task t))) :
      Chore w (w.modifyTask t f)
  | visit {w : World} (v : VisitId) (f : Visit → Visit) (akin : (w.visit v).Akin (f (w.visit v)))
      (fired : (f (w.visit v)).fired = (w.visit v).fired)
      (inbox : (f (w.visit v)).inbox = (w.visit v).inbox)
      (listening : (f (w.visit v)).listening = (w.visit v).listening) :
      Chore w (w.modifyVisit v f)
  | interpreter {w : World} (i : InterpreterId) (f : Interpreter → Interpreter)
      (akin : (w.interpreter i).Akin (f (w.interpreter i)))
      (machine : (f (w.interpreter i)).machine = (w.interpreter i).machine)
      (history : (f (w.interpreter i)).history = (w.interpreter i).history) :
      Chore w (w.modifyInterpreter i f)
  | found {w : World} (machine : Machine) :
      Chore w { w with interpreters := w.interpreters.push { machine } }
  | wake {w : World} (t : TaskId) : Chore w (w.wake t)
  | notify {w : World} (v : VisitId) : Chore w (w.notifyInbox v)
  | abort {w : World} (t : TaskId) : Chore w (w.abort t)

namespace Frame

variable {w : World}

theorem modifyTask {t : TaskId} {f : Task → Task} (akin : (w.task t).Akin (f (w.task t))) :
    Frame w (w.modifyTask t f) :=
  { Still.modifyTask akin, refl w with }

theorem modifyVisit {v : VisitId} {f : Visit → Visit} (akin : (w.visit v).Akin (f (w.visit v)))
    (fired : (f (w.visit v)).fired = (w.visit v).fired)
    (inbox : (f (w.visit v)).inbox = (w.visit v).inbox)
    (news : (w.visit v).listening = true → (f (w.visit v)).listening = true ∨
      (w.task (w.runOf v).host).isAlive = false ∨ w.IsUp (w.runOf v).host) :
    Frame w (w.modifyVisit v f) :=
  { Still.modifyVisit akin, refl w with
    fired := World.data_modifyVisit Visit.fired fired
    inbox := World.data_modifyVisit Visit.inbox inbox
    news := fun u hu => by
      rw [World.visit_modifyVisit]
      split
      · next h => exact h ▸ news (h ▸ hu)
      · exact .inl hu }

/-- A task at the end of the queue. -/
theorem enqueue {t : TaskId} (alive : (w.task t).isAlive = true) :
    Frame w (w.enqueue t) ∧ t ∈ (w.enqueue t).queue := by
  unfold World.enqueue
  split
  · next h => exact ⟨.refl _, h⟩
  · next h =>
    refine ⟨{ refl w with
      queue := fun u hu => by simp [hu]
      alive := fun u hu => ?_
      nodup := fun hn => List.nodup_append.2
        ⟨hn, by simp, fun u hu u' hu' he => h (List.mem_singleton.1 hu' ▸ he ▸ hu)⟩
      news := fun u hu => .inl hu }, by simp⟩
    rcases List.mem_append.1 hu with hu | hu
    · exact .inl hu
    · exact .inr (List.mem_singleton.1 hu ▸ alive)

/-- A task that is alive is up once it is woken. -/
theorem wake (w : World) (t : TaskId) :
    Frame w (w.wake t) ∧ ((w.task t).isAlive = false ∨ (w.wake t).IsUp t) := by
  unfold World.wake
  split
  · next h => exact ⟨.refl w, .inl (by simpa using h)⟩
  · next h =>
    have alive : (w.task t).isAlive = true := by simpa using h
    split
    · next turn =>
      exact ⟨.modifyTask ⟨rfl, rfl, rfl, id, fun _ => id⟩, .inr (.inl turn)⟩
    · exact ⟨(enqueue alive).1, .inr (.inr (enqueue alive).2)⟩

theorem wakeAll (w : World) (ts : List TaskId) : Frame w (w.wakeAll ts) := by
  unfold World.wakeAll
  induction ts generalizing w with
  | nil => exact .refl w
  | cons t ts ih => exact (wake w t).1.trans (ih _)

theorem abort (w : World) (t : TaskId) : Frame w (w.abort t) := by
  unfold World.abort
  split
  · exact .refl w
  · next h =>
    have alive : (w.task t).isAlive = true := by
      simp only [Bool.or_eq_true, Bool.not_eq_true', not_or, Bool.not_eq_false] at h
      exact h.1
    have aborted := modifyTask (w := w) (t := t) (f := fun x => { x with aborted := true })
      ⟨rfl, rfl, rfl, fun _ => rfl, fun _ => id⟩
    exact aborted.trans (enqueue ((aborted.task t).isAlive.trans alive)).1

theorem abortAll (w : World) (ts : List TaskId) : Frame w (ts.foldl World.abort w) := by
  induction ts generalizing w with
  | nil => exact .refl w
  | cons t ts ih => exact (abort w t).trans (ih _)

/-- Aborting the tasks of a visit is of no account. -/
theorem abortWork (w : World) (v : VisitId) : Frame w (w.abortWork v) :=
  abortAll ..

end Frame

/-- Waking a task and changing a visit do not get in each other's way. -/
theorem World.wake_modifyVisit (w : World) (t : TaskId) (v : VisitId) (f : Visit → Visit) :
    (w.modifyVisit v f).wake t = (w.wake t).modifyVisit v f := by
  unfold World.wake World.enqueue World.modifyVisit
  simp only [World.task_mk, World.get_tasks]
  split
  · rfl
  · split
    · rfl
    · split <;> rfl

/-- Whoever listens for news of an inbox is up once there are some. -/
theorem Frame.notify (w : World) (v : VisitId) : Frame w (w.notifyInbox v) := by
  unfold World.notifyInbox
  split
  · next h =>
    rw [World.wake_modifyVisit]
    obtain ⟨woken, up⟩ := Frame.wake w (w.runOf v).host
    refine woken.trans (.modifyVisit ⟨rfl, rfl, rfl, rfl, rfl⟩ rfl rfl fun _ => .inr ?_)
    rwa [(woken.runOf v).host, (woken.task _).isAlive]
  · exact .refl w

/-- Chores are of no account. -/
theorem Chore.frame {w w' : World} (h : Chore w w') : Frame w w' := by
  cases h with
  -- What is noted, counted or changed in a row stays within what runs cannot tell apart.
  | note e plain =>
    exact { Frame.refl w with
      marks := by simp [Entry.mark?_of_isNotice plain]
      notices := by simp [plain] }
  | tally => exact { Frame.refl w with }
  | task t f akin => exact .modifyTask akin
  | visit v f akin fired inbox listening =>
    exact .modifyVisit akin fired inbox fun h => .inl (listening.trans h)
  | interpreter i f akin machine history =>
    refine { Still.modifyInterpreter akin machine, Frame.refl w with history := fun j => ?_ }
    rw [World.interpreter_modifyInterpreter]
    split
    · next h => exact h ▸ history
    · rfl
  | found machine =>
    -- An interpreter that is not there yet looks like a new one.
    have blank (j : InterpreterId) (h : j = w.interpreters.size) : w.interpreter j = default :=
      Table.get_of_size_le (Nat.le_of_eq h.symm)
    refine { Fixed.found w machine, Frame.refl w with
      interpreter := fun j => ?_
      history := fun j => ?_ }
    · simp only [World.interpreter_mk, Table.get_push]
      split
      · next h => exact blank j h ▸ ⟨rfl, rfl⟩
      · exact .refl _
    · simp only [World.interpreter_mk, Table.get_push]
      split
      · next h => exact blank j h ▸ rfl
      · rfl
  -- The chores of the scheduler are steps of which this was shown one by one.
  | wake t => exact (Frame.wake w t).1
  | notify v => exact Frame.notify w v
  | abort t => exact Frame.abort w t

/-- Giving up callbacks is a number of chores. -/
theorem Chore.letGoAll (w : World) (vs : List VisitId) :
    Relation.ReflTransGen Chore w (w.letGoAll vs) := by
  unfold World.letGoAll
  induction vs generalizing w with
  | nil => exact .refl
  | cons v vs ih =>
    refine .trans ?_ (ih _)
    unfold World.letGo
    split
    · exact .refl
    · exact .single (.notify v)

/-- Any number of chores are of no account. -/
theorem Frame.of_chores {w w' : World} (h : Relation.ReflTransGen Chore w w') : Frame w w' := by
  induction h with
  | refl => exact .refl w
  | tail _ chore ih => exact ih.trans chore.frame

end Statechart
