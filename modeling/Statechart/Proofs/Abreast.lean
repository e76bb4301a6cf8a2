import Statechart.Proofs.Closed

/-!
# Controllers side by side

Two worlds mirror each other but for their controllers, which are kept from everybody else and are
at the same step, until the same time. Whoever has no counterpart sleeps beyond that time, so the
two worlds take the same moves, and show the same, until the step is answered.

## Main definitions

- `World.Echoes`: what two worlds show since two others is the same.
- `World.Abides`: a controller is at a step that takes until a deadline.
- `Abreast`: two worlds whose controllers are at the same step.
- `Onwards`: what becomes of them with the next move.

## Main statements

- `Abreast.step`: the next moves of two worlds are alike.
- `Abreast.echoes`: up to the end of the step, two worlds show the same.
-/

namespace Statechart

/-! ## What is shown -/

/-- What was written since a world and is shown, traces included. -/
def World.shownSince (b w : World) : List Entry :=
  (w.journal.toList.drop b.journal.size).filter (·.isShown true)

/-- What a report says, but for how much was written by then. -/
def Report.gist (r : Report) : Answer × Nat × List (Status × Bool) :=
  (r.answer, r.time, r.statuses)

/-- What was reported since a world. -/
def World.gistsSince (b w : World) : List (Answer × Nat × List (Status × Bool)) :=
  (w.reports.toList.drop b.reports.size).map Report.gist

/-- What two worlds show since two others is the same: what is written and reported, the time, the
variables, and the interpreters that scripts can name. -/
structure World.Echoes (b b' w w' : World) : Prop where
  shown : b'.shownSince w' = b.shownSince w
  gists : b'.gistsSince w' = b.gistsSince w
  now : w'.now = w.now
  values : w'.values = w.values
  statuses : w'.statuses = w.statuses
  histories : ∀ i, i < w.named → (w'.interpreter i).history = (w.interpreter i).history

/-- The same was reported since two worlds. -/
def Reported (b b' w w' : World) : Prop :=
  ∃ rs rs', w.reports.toList = b.reports.toList ++ rs ∧
    w'.reports.toList = b'.reports.toList ++ rs' ∧ rs'.map Report.gist = rs.map Report.gist

section

variable {P Q : Pairing} {b b' w w' w₁ w₁' : World} {t t' : TaskId} {τ : Nat}

theorem Mirrors.statuses (h : Mirrors P b b' w w') : w'.statuses = w.statuses := by
  unfold World.statuses
  rw [h.named]
  refine List.map_congr_left fun i hi => ?_
  have row := h.interpreter (h.names i (List.mem_range.1 hi))
  rw [row.status, Interpreter.isRunning, Interpreter.isRunning, rel_isSome row.slot]

theorem Reported.refl (b b' : World) : Reported b b' b b' :=
  ⟨[], [], by simp⟩

theorem Reported.push (h : Reported b b' w w') {r r' : Report} (same : r'.gist = r.gist)
    (reports : w₁.reports = w.reports.push r) (reports' : w₁'.reports = w'.reports.push r') :
    Reported b b' w₁ w₁' := by
  obtain ⟨rs, rs', list, list', gists⟩ := h
  refine ⟨rs ++ [r], rs' ++ [r'], ?_, ?_, ?_⟩
  · rw [reports, Array.toList_push, list, List.append_assoc]
  · rw [reports', Array.toList_push, list', List.append_assoc]
  · rw [List.map_append, List.map_append, gists, List.map_singleton, List.map_singleton, same]

/-- Worlds that mirror each other show the same. -/
theorem Twins.echoes (h : Twins P b b' w w') (reported : Reported b b' w w') :
    World.Echoes b b' w w' where
  -- What was shown since then is what the mirrors have told each other.
  shown := by
    obtain ⟨es, es', journal, journal', shown⟩ := h.told
    have written : (w.dated b).journal = b.journal := rfl
    have written' : (w'.dated b').journal = b'.journal := rfl
    rw [written] at journal
    rw [written'] at journal'
    rw [World.shownSince, World.shownSince, journal, journal', ← Array.length_toList,
      ← Array.length_toList, List.drop_left, List.drop_left, shown]
  gists := by
    obtain ⟨rs, rs', list, list', gists⟩ := reported
    rw [World.gistsSince, World.gistsSince, list, list', ← Array.length_toList,
      ← Array.length_toList, List.drop_left, List.drop_left, gists]
  now := h.now
  values := h.values
  statuses := h.mirrors.statuses
  histories i hi := (h.interpreter (h.names i hi)).history

theorem World.shownSince_push (w : World) (size : b.journal.size ≤ w.journal.size) (m : Mark) :
    b.shownSince { w with journal := w.journal.push (.mark m) } = b.shownSince w := by
  have long : b.journal.size ≤ w.journal.toList.length := by simpa using size
  simp only [shownSince, Array.toList_push, List.drop_append_of_le_length long, List.filter_append]
  simp [Entry.isShown]

/-- Marks are not shown, and neither are tasks. -/
theorem World.Echoes.mark (h : World.Echoes b b' w w') (size : b.journal.size ≤ w.journal.size)
    (size' : b'.journal.size ≤ w'.journal.size) (m m' : Mark) (running running' : Option TaskId)
    (queue queue' : List TaskId) (tasks tasks' : Table Task) :
    World.Echoes b b' { w with running, queue, tasks, journal := w.journal.push (.mark m) }
      { w' with
        running := running', queue := queue', tasks := tasks'
        journal := w'.journal.push (.mark m') } :=
  { h with
    shown := (World.shownSince_push w' size' m').trans
      (h.shown.trans (World.shownSince_push w size m).symm) }

end

/-! ## Controllers at a step -/

/-- The time at which a controller gives up what it does. -/
def Doing.deadline? : Doing → Option Nat
  | .running _ deadline | .joining _ _ deadline => some deadline
  | _ => none

namespace World

/-- A controller holds nothing, and waits for a time at most. -/
def Plain (w : World) (t : TaskId) : Prop :=
  ∃ job wait, (w.task t).core = { job, wait } ∧ ∀ x, wait = some x → ∃ d, x = .time d

/-- A controller is at a step that takes until a deadline: it has the turn, or it waits. -/
def Abides (w : World) (t : TaskId) (steps : List Step) (d : Doing) (deadline : Nat) : Prop :=
  ∃ wait, (w.task t).core = { job := .control steps d, wait } ∧
    (wait = some (.time deadline) ∨ wait = none ∧ w.running = some t)

end World

namespace World

variable {w w₁ : World} {t : TaskId} {steps : List Step} {d : Doing} {τ : Nat}

theorem Plain.of_core (h : w.Plain t) (core : (w₁.task t).core = (w.task t).core) : w₁.Plain t := by
  obtain ⟨job, wait, row, plain⟩ := h
  exact ⟨job, wait, core.trans row, plain⟩

theorem Abides.plain (h : w.Abides t steps d τ) : w.Plain t := by
  obtain ⟨wait, row, rfl | ⟨rfl, -⟩⟩ := h
  · exact ⟨_, _, row, fun x hx => ⟨τ, (Option.some.inj hx).symm⟩⟩
  · exact ⟨_, _, row, fun x hx => by cases hx⟩

theorem Abides.job (h : w.Abides t steps d τ) : (w.task t).job = .control steps d := by
  obtain ⟨wait, row, -⟩ := h
  exact congrArg Task.job row

theorem Abides.of_core (h : w.Abides t steps d τ) (core : (w₁.task t).core = (w.task t).core)
    (stay : w.running = some t → w₁.running = some t) : w₁.Abides t steps d τ := by
  obtain ⟨wait, row, waits⟩ := h
  exact ⟨wait, core.trans row, waits.imp_right fun h => ⟨h.1, stay h.2⟩⟩

/-- A controller that does not have the turn waits for its deadline. -/
theorem Abides.deadline? (h : w.Abides t steps d τ) (turn : w.running ≠ some t) :
    (w.task t).deadline? = some τ := by
  obtain ⟨wait, row, rfl | ⟨-, here⟩⟩ := h
  · rw [← Task.deadline?_core, row]
    rfl
  · exact absurd here turn

theorem exists_nextDeadline? {δ : Nat} (h : (w.task t).deadline? = some δ) :
    ∃ σ ≤ δ, w.nextDeadline? = some σ := by
  cases next : w.nextDeadline? with
  | some σ => exact ⟨σ, (nextDeadline?_eq_some.1 next).2 t δ h, rfl⟩
  | none =>
    have none := List.min?_eq_none_iff.1 next
    have here : δ ∈ w.tasks.toList.filterMap Task.deadline? :=
      List.mem_filterMap.2 ⟨_, Table.mem_toList.2
        ⟨t, lt_size_of_isAlive (isAlive_of_deadline? h), rfl⟩, h⟩
    rw [none] at here
    cases here

/-- A controller that waits for no token answers without touching any visit. -/
theorem answer_eq (h : w.Plain t) (steps : List Step) (a : Answer) :
    w.answer t steps a =
      { w with reports := w.reports.push ⟨a, w.now, w.statuses, w.journal.size⟩ }.modifyTask t
        fun x => { x with wait := none, job := .control steps .nothing } := by
  obtain ⟨job, wait, row, plain⟩ := h
  have own : (w.task t).wait = wait := congrArg Task.wait row
  have waits : ∀ x, (w.task t).wait = some x → ∃ d, x = .time d := own ▸ plain
  -- It waits for time at most, so there is no token from which it is taken off.
  have endWait : ({ w with
      reports := w.reports.push ⟨a, w.now, w.statuses, w.journal.size⟩ } : World).endWait t =
      { w with reports := w.reports.push ⟨a, w.now, w.statuses, w.journal.size⟩ }.modifyTask t
        fun x => { x with wait := none } := by
    unfold World.endWait
    simp only [task_mk, get_tasks]
    cases hx : (w.task t).wait with
    | none => rfl
    | some x =>
      obtain ⟨d, rfl⟩ := waits x hx
      rfl
  rw [World.answer, endWait, setJob, modifyTask, modifyTask, modifyTask, Table.modify_modify]

/-- Who is woken is ready, or is noted to be. -/
theorem wake_eq (w : World) (t : TaskId) : ∃ queue tasks, w.wake t = { w with queue, tasks } := by
  unfold wake enqueue
  split
  · exact ⟨_, _, rfl⟩
  · split
    · exact ⟨_, _, rfl⟩
    · split
      · exact ⟨_, _, rfl⟩
      · exact ⟨_, _, rfl⟩

/-- A controller that is gone leaves a mark, and whoever waited for it may be ready. -/
theorem endTask_controller (h : w.Plain t) (fate : Fate) :
    ∃ running queue tasks, w.endTask t fate =
        { w with running, queue, tasks, journal := w.journal.push (.mark (.ended t fate)) } ∧
      ((w.endTask t fate).task t).isAlive = false := by
  obtain ⟨job, wait, row, -⟩ := h
  have guards : (w.task t).guards = [] := congrArg Task.guards row
  have reach : (w.task t).reach = {} := congrArg Task.reach row
  have route : (w.task t).route = none := congrArg Task.route row
  have home : (w.task t).home = none := congrArg Task.home row
  -- A controller has nothing to give up, and no visit to leave.
  have buried : w.endTask t fate = (w.bury t fate).tellJoiner (w.task t).joiner := by
    rw [endTask_eq, guards, reach, route, home]
    simp [logDrops, letGoAll, withdraw, tellHome]
  have gone : ((w.bury t fate).task t).isAlive = false := by
    simp [bury, modifyTask, mark, log, Task.isAlive]
  rw [buried]
  cases (w.task t).joiner with
  | none => exact ⟨_, _, _, rfl, gone⟩
  | some j =>
    obtain ⟨queue, tasks, woken⟩ := (w.bury t fate).wake_eq j
    exact ⟨_, queue, tasks, woken, ((Frame.wake _ j).1.task t).isAlive.trans gone⟩

theorem core_park (w : World) (t u : TaskId) : ((w.park t).task u).core = (w.task u).core := by
  obtain ⟨queue, -, parked⟩ := w.park_eq t
  rw [parked, task_mk, modifyTask, Table.get_modify]
  split <;> rfl

theorem reports_parkUntil (w : World) (t : TaskId) (deadline : Nat) :
    (w.parkUntil t deadline).reports = w.reports := by
  unfold parkUntil
  obtain ⟨queue, -, parked⟩ :=
    (w.modifyTask t fun x => { x with wait := some (.time deadline) }).park_eq t
  rw [parked]
  rfl

theorem core_setJob (w : World) (t u : TaskId) (job : Job) :
    ((w.setJob t job).task u).core =
      if u = t then { (w.task u).core with job } else (w.task u).core := by
  rw [setJob, task_modifyTask]
  split <;> rfl

theorem core_answer (h : w.Plain t) (steps : List Step) (a : Answer) (u : TaskId) :
    ((w.answer t steps a).task u).core =
      if u = t then { (w.task u).core with wait := none, job := .control steps .nothing }
      else (w.task u).core := by
  rw [answer_eq h, task_modifyTask]
  split <;> rfl

theorem core_parkUntil (w : World) (t u : TaskId) (deadline : Nat) :
    ((w.parkUntil t deadline).task u).core =
      if u = t then { (w.task u).core with wait := some (.time deadline) } else (w.task u).core := by
  rw [parkUntil, core_park, task_modifyTask]
  split <;> rfl

end World

section

variable {P Q : Pairing} {b b' w w' w₁ w₁' : World} {t t' : TaskId} {steps steps' : List Step}
  {d d' : Doing} {τ : Nat}

theorem Told.size_le (h : Told b b' w w') :
    b.journal.size ≤ w.journal.size ∧ b'.journal.size ≤ w'.journal.size := by
  obtain ⟨es, es', journal, journal', -⟩ := h
  rw [← Array.length_toList, ← Array.length_toList, ← Array.length_toList, ← Array.length_toList,
    journal, journal', List.length_append, List.length_append]
  omega

/-- Controllers that are kept from all others answer alike. -/
theorem Twins.answer (h : Twins P b b' w w') (pair : P.task t t') (secret : P.secret t)
    (plain : w.Plain t) (plain' : w'.Plain t') (reported : Reported b b' w w')
    (steps steps' : List Step) (a : Answer) :
    Twins P b b' (w.answer t steps a) (w'.answer t' steps' a) ∧
      Reported b b' (w.answer t steps a) (w'.answer t' steps' a) := by
  have same : Report.gist ⟨a, w'.now, w'.statuses, w'.journal.size⟩ =
      Report.gist ⟨a, w.now, w.statuses, w.journal.size⟩ := by
    simp only [Report.gist, h.now, h.mirrors.statuses]
  rw [World.answer_eq plain, World.answer_eq plain']
  refine ⟨(h.report _ _).modifySecret pair secret ?_ ?_, reported.push same rfl rfl⟩
  · exact fun _ => ⟨⟨rfl, rfl, rfl⟩, fun _ => rfl⟩
  · exact fun _ => ⟨⟨rfl, rfl, rfl⟩, fun _ => rfl⟩

/-- Controllers end alike. -/
theorem Twins.ends (h : Twins P b b' w w') (plain : w.Plain t) (plain' : w'.Plain t')
    (reported : Reported b b' w w') (fate : Fate) :
    World.Echoes b b' (w.endTask t fate) (w'.endTask t' fate) := by
  obtain ⟨running, queue, tasks, ended, -⟩ := World.endTask_controller plain fate
  obtain ⟨running', queue', tasks', ended', -⟩ := World.endTask_controller plain' fate
  obtain ⟨size, size'⟩ := h.told.size_le
  rw [ended, ended']
  exact (h.echoes reported).mark size size' _ _ _ _ _ _ _ _

/-- Two worlds go on alike, a controller of each has the turn or is at a step until a deadline, and
whoever has no counterpart sleeps beyond it. -/
structure Abreast (P : Pairing) (b b' w w' : World) (t t' : TaskId) (steps steps' : List Step)
    (d d' : Doing) (τ : Nat) : Prop where
  twins : Twins P b b' w w'
  pair : P.task t t'
  secret : ∀ u, P.secret u ↔ u = t
  lax : ¬ P.Strict
  unveiled : ∀ r, ¬ P.veiled r
  doing : d.Pairs P d'
  deadline : ∀ δ, d.deadline? = some δ → δ = τ
  abides : w.Abides t steps d τ
  abides' : w'.Abides t' steps' d' τ
  quiet : Quiet P τ w w'
  reported : Reported b b' w w'

namespace Abreast

/-- Nothing happens to the controllers while others have their turns. -/
theorem cores (h : Abreast P b b' w w' t t' steps steps' d d' τ)
    (a : Alongside P Q b b' w w' w₁ w₁') :
    (w₁.task t).core = (w.task t).core ∧ (w₁'.task t').core = (w'.task t').core := by
  have secret : Q.secret t := a.le.secret ▸ (h.secret t).2 rfl
  refine ⟨a.left t fun _ known => known.2 secret, a.right t' fun u known => known.2 ?_⟩
  exact Q.unique_task.1 known.1 (a.le.task h.pair) ▸ secret

theorem reported_along (h : Abreast P b b' w w' t t' steps steps' d d' τ)
    (a : Alongside P Q b b' w w' w₁ w₁') : Reported b b' w₁ w₁' := by
  obtain ⟨reports, reports'⟩ := a.reports.resolve_left h.lax
  obtain ⟨rs, rs', list, list', gists⟩ := h.reported
  exact ⟨rs, rs', reports ▸ list, reports' ▸ list', gists⟩

theorem along (h : Abreast P b b' w w' t t' steps steps' d d' τ)
    (a : Alongside P Q b b' w w' w₁ w₁') (stay : w.running = some t → w₁.running = some t) :
    Abreast Q b b' w₁ w₁' t t' steps steps' d d' τ where
  twins := a.twins
  pair := a.le.task h.pair
  secret := a.le.secret ▸ h.secret
  lax strict := h.lax
    ⟨by rw [← a.le.stale]; exact strict.left, by rw [← a.le.stale']; exact strict.right⟩
  unveiled := a.le.veiled ▸ h.unveiled
  doing := h.doing.mono a.le
  deadline := h.deadline
  abides := h.abides.of_core (h.cores a).1 stay
  abides' := h.abides'.of_core (h.cores a).2 fun here =>
    (a.twins.mirrors.running_iff (a.le.task h.pair)).1
      (stay ((h.twins.mirrors.running_iff h.pair).2 here))
  quiet := h.quiet.alongside a
  reported := h.reported_along a

/-- Everybody but the controllers goes on. -/
theorem others (h : Abreast P b b' w w' t t' steps steps' d d' τ) (turn : w.running ≠ some t) :
    ∃ Q w₁ w₁', w.step? = some w₁ ∧ w'.step? = some w₁' ∧ Alongside P Q b b' w w' w₁ w₁' ∧
      Abreast Q b b' w₁ w₁' t t' steps steps' d d' τ := by
  have turn' : w'.running ≠ some t' := mt (h.twins.mirrors.running_iff h.pair).2 turn
  have known {u u' : TaskId} (hu : P.task u u') (other : u ≠ t) : P.known u u' :=
    ⟨hu, mt (h.secret u).1 other⟩
  have whole : (w.task t).aborted = false := by
    obtain ⟨wait, row, -⟩ := h.abides
    exact congrArg Task.aborted row
  obtain ⟨Q, w₁, w₁', step, step', a, -⟩ := h.twins.step? h.unveiled
    (fun u u' running hu => known hu fun same => turn (same ▸ running))
    (fun u u' _ _ aborted hu => known hu fun same => by rw [same, whole] at aborted; cases aborted)
    -- The controllers sleep until the same moment, so the clocks go on alike.
    fun _ _ => by
      obtain ⟨σ, le, next⟩ := World.exists_nextDeadline? (h.abides.deadline? turn)
      refine ⟨σ, next, h.quiet.timely h.twins le fun u u' secret hu δ _ => ?_⟩
      obtain rfl := (h.secret u).1 secret
      obtain rfl := P.unique_task.2 hu h.pair
      rw [h.abides.deadline? turn, h.abides'.deadline? turn']
  exact ⟨Q, w₁, w₁', step, step', a, h.along a fun here => absurd here turn⟩

/-- The controllers take up another step. -/
theorem setDoing (h : Abreast P b b' w w' t t' steps steps' d d' τ) {e e' : Doing}
    (he : e.Pairs P e') (deadline : ∀ δ, e.deadline? = some δ → δ = τ) (rest rest' : List Step) :
    Abreast P b b' (w.setJob t (.control rest e)) (w'.setJob t' (.control rest' e')) t t' rest rest'
      e e' τ where
  twins := h.twins.setJob h.pair ((h.secret t).2 rfl) _ _
  pair := h.pair
  secret := h.secret
  lax := h.lax
  unveiled := h.unveiled
  doing := he
  deadline := deadline
  abides := by
    obtain ⟨wait, row, waits⟩ := h.abides
    exact ⟨wait, by rw [World.core_setJob, if_pos rfl, row], waits⟩
  abides' := by
    obtain ⟨wait, row, waits⟩ := h.abides'
    exact ⟨wait, by rw [World.core_setJob, if_pos rfl, row], waits⟩
  quiet := h.quiet.of_core h.pair (fun u other => by rw [World.core_setJob, if_neg other])
    fun u other => by rw [World.core_setJob, if_neg other]
  reported := h.reported

/-- The controllers answer, and keep the turn. -/
theorem answer (h : Abreast P b b' w w' t t' steps steps' d d' τ) (turn : w.running = some t)
    (rest rest' : List Step) (a : Answer) :
    Abreast P b b' (w.answer t rest a) (w'.answer t' rest' a) t t' rest rest' .nothing .nothing
      τ where
  twins := (h.twins.answer h.pair ((h.secret t).2 rfl) h.abides.plain h.abides'.plain h.reported
    rest rest' a).1
  pair := h.pair
  secret := h.secret
  lax := h.lax
  unveiled := h.unveiled
  doing := .nothing
  deadline := fun δ hδ => by cases hδ
  abides := by
    obtain ⟨wait, row, -⟩ := h.abides
    refine ⟨none, by rw [World.core_answer h.abides.plain, if_pos rfl, row], .inr ⟨rfl, ?_⟩⟩
    rw [World.answer_eq h.abides.plain]
    exact turn
  abides' := by
    obtain ⟨wait, row, -⟩ := h.abides'
    refine ⟨none, by rw [World.core_answer h.abides'.plain, if_pos rfl, row], .inr ⟨rfl, ?_⟩⟩
    rw [World.answer_eq h.abides'.plain]
    exact (h.twins.mirrors.running_iff h.pair).1 turn
  quiet := h.quiet.of_core h.pair
    (fun u other => by rw [World.core_answer h.abides.plain, if_neg other])
    fun u other => by rw [World.core_answer h.abides'.plain, if_neg other]
  reported := (h.twins.answer h.pair ((h.secret t).2 rfl) h.abides.plain h.abides'.plain h.reported
    rest rest' a).2

/-- The controllers wait until they are woken. -/
theorem parks (h : Abreast P b b' w w' t t' steps steps' d d' τ) :
    Abreast P b b' (w.parkUntil t τ) (w'.parkUntil t' τ) t t' steps steps' d d' τ where
  twins := h.twins.parkUntil h.pair ((h.secret t).2 rfl) τ τ
  pair := h.pair
  secret := h.secret
  lax := h.lax
  unveiled := h.unveiled
  doing := h.doing
  deadline := h.deadline
  abides := by
    obtain ⟨wait, row, -⟩ := h.abides
    exact ⟨_, by rw [World.core_parkUntil, if_pos rfl, row], .inl rfl⟩
  abides' := by
    obtain ⟨wait, row, -⟩ := h.abides'
    exact ⟨_, by rw [World.core_parkUntil, if_pos rfl, row], .inl rfl⟩
  quiet := h.quiet.of_core h.pair (fun u other => by rw [World.core_parkUntil, if_neg other])
    fun u other => by rw [World.core_parkUntil, if_neg other]
  reported := by
    rw [Reported, World.reports_parkUntil, World.reports_parkUntil]
    exact h.reported

end Abreast

/-- How two worlds go on: the controllers are at their step still, or they have answered it, or they
are gone. -/
inductive Onwards (b b' w w' : World) (t t' : TaskId) (steps steps' : List Step) (d d' : Doing)
    (τ : Nat) (w₁ w₁' : World) : Prop where
  | going {Q : Pairing} (h : Abreast Q b b' w₁ w₁' t t' steps steps' d d' τ)
      (reports : w₁.reports = w.reports) (reports' : w₁'.reports = w'.reports)
  | answered (echoes : World.Echoes b b' w₁ w₁') (size : w₁.reports.size = w.reports.size + 1)
      (size' : w₁'.reports.size = w'.reports.size + 1)
  | gone (echoes : World.Echoes b b' w₁ w₁') (dead : (w₁.task t).isAlive = false)

namespace Abreast

/-- The controllers answer. -/
theorem answers (h : Abreast P b b' w w' t t' steps steps' d d' τ)
    (a : Alongside P Q b b' w w' w₁ w₁') (answer : Answer) :
    Onwards b b' w w' t t' steps steps' d d' τ (w₁.answer t steps answer)
      (w₁'.answer t' steps' answer) := by
  have plain := h.abides.plain.of_core (h.cores a).1
  have plain' := h.abides'.plain.of_core (h.cores a).2
  obtain ⟨reports, reports'⟩ := a.reports.resolve_left h.lax
  obtain ⟨twins, reported⟩ := a.twins.answer (a.le.task h.pair)
    (a.le.secret ▸ (h.secret t).2 rfl) plain plain' (h.reported_along a) steps steps' answer
  refine .answered (twins.echoes reported) ?_ ?_
  · rw [World.answer_eq plain]
    simp [World.modifyTask, reports]
  · rw [World.answer_eq plain']
    simp [World.modifyTask, reports']

/-- The controllers are gone. -/
theorem ends (h : Abreast P b b' w w' t t' steps steps' d d' τ)
    (a : Alongside P Q b b' w w' w₁ w₁') (fate : Fate) :
    Onwards b b' w w' t t' steps steps' d d' τ (w₁.endTask t fate) (w₁'.endTask t' fate) := by
  have plain := h.abides.plain.of_core (h.cores a).1
  have plain' := h.abides'.plain.of_core (h.cores a).2
  obtain ⟨-, -, -, -, dead⟩ := World.endTask_controller plain fate
  exact .gone (a.twins.ends plain plain' (h.reported_along a) fate) dead

/-- The controllers wait, unless their time is over. -/
theorem waits (h : Abreast P b b' w w' t t' steps steps' d d' τ)
    (a : Alongside P Q b b' w w' w₁ w₁') (stay : w.running = some t → w₁.running = some t) :
    Onwards b b' w w' t t' steps steps' d d' τ (w₁.parkUntil t τ) (w₁'.parkUntil t' τ) := by
  obtain ⟨reports, reports'⟩ := a.reports.resolve_left h.lax
  exact .going (h.along a stay).parks ((World.reports_parkUntil ..).trans reports)
    ((World.reports_parkUntil ..).trans reports')

/-- The controllers take the runs that they wait for further. -/
theorem runs (h : Abreast P b b' w w' t t' steps steps' d d' τ) {r r' : RunId} (hr : P.live r r')
    (stay : (w.advance r).1.running = w.running) :
    Onwards b b' w w' t t' steps steps' d d' τ (w.moveRunning t steps r τ)
      (w'.moveRunning t' steps' r' τ) := by
  obtain ⟨Q, le, advanced⟩ := h.twins.mirrors.advance hr (h.unveiled r)
  unfold World.moveRunning
  obtain ⟨w₁, w₁', signal, hx, hx', h₁⟩ := advanced.exists_eq
  rw [hx] at stay
  rw [hx, hx']
  have a : Alongside P Q b b' w w' w₁ w₁' := .of_mirrors le h₁
  replace stay : w.running = some t → w₁.running = some t := fun here => stay.trans here
  -- Both controllers get the same signal, so they do the same about it.
  cases signal with
  | busy =>
    obtain ⟨reports, reports'⟩ := a.reports.resolve_left h.lax
    exact .going (h.along a stay) reports reports'
  | returned result => exact h.answers a _
  | panicked => exact h.answers a _
  | parked =>
    have now : w₁'.now = w₁.now := h₁.now
    simp only [now]
    split
    · exact h.waits a stay
    -- Time is up for both of them, and the runs are dropped.
    · obtain ⟨S, le', dropped⟩ := Mirrors.dropRun a.twins (a.le.live hr)
        (a.le.veiled ▸ h.unveiled r)
      obtain ⟨w₂, w₂', panicked, hx, hx', h₂⟩ := dropped.exists_eq
      rw [hx, hx']
      have a' : Alongside P S b b' w w' w₂ w₂' := a.trans (.of_mirrors le' h₂)
      cases panicked with
      | true => exact h.ends a' _
      | false => exact h.answers a' _

/-- The controllers look at the tasks that they wait for. -/
theorem joins (h : Abreast P b b' w w' t t' steps steps' d d' τ) {i i' : InterpreterId}
    (hi : P.interpreter i i') {u u' : TaskId} (hu : P.known u u') :
    Onwards b b' w w' t t' steps steps' d d' τ (w.moveJoining t steps i u τ)
      (w'.moveJoining t' steps' i' u' τ) := by
  have joined := h.twins.mirrors.modifyTask hu (f := fun x => { x with joiner := some t })
    (g := fun x => { x with joiner := some t' })
    { h.twins.mirrors.task hu with joiner := .some h.pair }
  have a := Alongside.of_mirrors (.refl P) joined
  have now : (w'.modifyTask u' fun x => { x with joiner := some t' }).now =
      (w.modifyTask u fun x => { x with joiner := some t }).now := h.twins.now
  simp only [World.moveJoining, (h.twins.mirrors.like hu.1).fate, now]
  split
  · exact h.answers (.of_mirrors (.refl P) h.twins) _
  · split
    · exact h.waits a id
    · exact h.answers (.of_mirrors (.refl P) (joined.setHandle hi hu)) _

/-- The controllers go on. -/
theorem move (h : Abreast P b b' w w' t t' steps steps' d d' τ) (deadline : d.deadline? = some τ)
    (turn : w.running = some t) (sound : Sound w .rest) :
    Onwards b b' w w' t t' steps steps' d d' τ (w.move t) (w'.move t') := by
  have alive := sound.turn t turn
  have job := h.abides.job
  rw [World.move, World.move, job, h.abides'.job]
  cases h.doing with
  | nothing => cases deadline
  | script => cases deadline
  | running hr δ =>
    obtain rfl : δ = τ := Option.some.inj deadline
    have drives : w.Drives t _ := ⟨turn, congrArg Job.run? job⟩
    have going := (sound.driver t _ alive drives.job).2.resolve_right fun here => by cases here
    exact h.runs hr (Paces.advance drives going).running
  | joining hi hu δ =>
    obtain rfl : δ = τ := Option.some.inj deadline
    exact h.joins hi hu

/-- The two worlds take a step. -/
theorem step (h : Abreast P b b' w w' t t' steps steps' d d' τ) (deadline : d.deadline? = some τ)
    (sound : Sound w .rest) :
    ∃ w₁ w₁', w.step? = some w₁ ∧ w'.step? = some w₁' ∧
      Onwards b b' w w' t t' steps steps' d d' τ w₁ w₁' := by
  by_cases turn : w.running = some t
  · have turn' := (h.twins.mirrors.running_iff h.pair).1 turn
    exact ⟨w.move t, w'.move t', by rw [World.step?, turn], by rw [World.step?, turn'],
      h.move deadline turn sound⟩
  · obtain ⟨Q, w₁, w₁', step, step', a, h₁⟩ := h.others turn
    obtain ⟨reports, reports'⟩ := a.reports.resolve_left h.lax
    exact ⟨w₁, w₁', step, step', .going h₁ reports reports'⟩

end Abreast

end

/-! ## Runs of controllers -/

namespace World

variable {w w₁ : World} {steps : Nat}

theorem makeMoves_of_le (h : steps ≤ w.reports.size) (n : Nat) : w.makeMoves steps n = w := by
  cases n with
  | zero => rfl
  | succ n => rw [makeMoves, if_pos h]

theorem makeMoves_of_step? (h : w.reports.size < steps) (step : w.step? = some w₁) (n : Nat) :
    w.makeMoves steps (n + 1) = w₁.makeMoves steps n := by
  rw [makeMoves, if_neg (Nat.not_le.2 h), step]

end World

section

variable {P : Pairing} {s : Scenario} {b b' w w' : World} {t t' : TaskId}
  {steps steps' : List Step} {d d' : Doing} {τ : Nat}

/-- Up to the end of the step of the controllers, two worlds show the same. -/
theorem Abreast.echoes (h : Abreast P b b' w w' t t' steps steps' d d' τ)
    (deadline : d.deadline? = some τ) (reached : s.Reaches w) (n : Nat)
    (there : ∀ m < n, ((w.makeMoves (w.reports.size + 1) m).task t).isAlive = true) :
    World.Echoes b b' (w.makeMoves (w.reports.size + 1) n)
      (w'.makeMoves (w'.reports.size + 1) n) := by
  -- By induction on the moves; the controllers go side by side until they answer or are gone.
  induction n generalizing P w w' with
  | zero => exact h.twins.echoes h.reported
  | succ n ih =>
    obtain ⟨w₁, w₁', step, step', onwards⟩ := h.step deadline reached.sound
    have first := World.makeMoves_of_step? (Nat.lt_succ_self _) step
    have first' := World.makeMoves_of_step? (Nat.lt_succ_self _) step'
    rw [first, first']
    cases onwards with
    | going h₁ reports reports' =>
      rw [← reports, ← reports']
      refine ih h₁ (reached.tail (.of_step? step)) fun m hm => ?_
      rw [reports, ← first]
      exact there (m + 1) (Nat.succ_lt_succ hm)
    | answered echoes size size' =>
      rw [World.makeMoves_of_le (Nat.le_of_eq size.symm),
        World.makeMoves_of_le (Nat.le_of_eq size'.symm)]
      exact echoes
    | gone echoes dead =>
      cases n with
      | zero => exact echoes
      | succ n =>
        have alive := there 1 (by omega)
        rw [first, World.makeMoves, dead] at alive
        cases alive

end

end Statechart
