import Statechart.Proofs.Departures
import Statechart.Proofs.Flags
import Statechart.Proofs.Fostering
import Statechart.Proofs.Scopes
import Statechart.Proofs.Tenure
import Statechart.Proofs.Turns

/-!
# Tasks that run a machine for a visit

The task of a visit that fosters a machine begins one run, in a turn of its own, and goes on with
it in its turns. It ends when the run has returned, or could not begin, and then raises what has
come of it, unless nobody waits for that any more.

## Main definitions

- `World.Fares`: what a move of the world is to a task that runs a machine for a visit.
- `World.Devoted`: such a task has one run at most.
- `World.Lapses`, `World.Told`: what is raised when such a task returns.

## Main statements

- `Scenario.Reaches.fares`: what can become of such a task in a move.
- `Scenario.Reaches.devoted`: it has one run at most.
- `Scenario.Reaches.told`: what it has come to was raised, unless that had no effect.
- `Scenario.Reaches.heedful`: when it is gone, the host of the visit's run is up.
-/

namespace Statechart

/-! ## Definitions -/

/-- What a move of the world is to a task that runs a machine for a visit. -/
inductive World.Fares (w : World) (t : TaskId) : World → Prop where
  /-- It has no part in the move, or its run goes on. -/
  | goesOn {w' : World} (job : (w'.task t).job = (w.task t).job)
      (fate : (w'.task t).fate = (w.task t).fate) : w.Fares t w'
  | begins {w' : World} {m : Machine} (job : (w.task t).job = .nested m)
      (driven : (w'.task t).job = .drive w.runs.size (some w.tasks.size))
      (fate : (w'.task t).fate = none) (marks : w'.marks = w.marks ++ [.began w.runs.size]) :
      w.Fares t w'
  | returns {w₁ : World} {failure : Option Fault} (turn : w.running = some t)
      (returns : w.Returns t w₁ failure) : w.Fares t (w₁.finish t failure)
  | panics {r : RunId} (turn : w.running = some t) (job : (w.task t).job.run? = some r)
      (broken : (w.advance r).2 = .panicked) : w.Fares t ((w.advance r).1.endTask t .panicked)
  | dropped (free : w.running = none) (aborted : (w.task t).aborted = true) :
      w.Fares t (w.beginTurn t)

/-- A task that runs a machine for a visit has one run at most: none before it begins, and then the
one that it goes on with. -/
structure World.Devoted (w : World) (t : TaskId) : Prop where
  fresh : ∀ m, (w.task t).isAlive = true → (w.task t).job = .nested m →
    ∀ r, .began r ∈ w.marks → (w.run r).host ≠ t
  driving : ∀ c hook, (w.task t).isAlive = true → (w.task t).job = .drive c hook →
    ∀ r, .began r ∈ w.marks → (w.run r).host = t → r = c
  one : ∀ r q, .began r ∈ w.marks → .began q ∈ w.marks → (w.run r).host = t →
    (w.run q).host = t → r = q

/-- Nobody waits any more for what the tasks of a visit come to. -/
inductive World.Lapses (w : World) (v : VisitId) : Prop where
  | stopped (asked : .stopAsked (w.visit v).run ∈ w.marks)
  | ended (ended : (w.runOf v).phase = .ended)
  | concluded {e : Ending} (past : .concluded v e ∈ w.marks)
  | left (left : .left v ∈ w.marks)

/-- What the first service of a visit has come to was raised, unless that has no effect on the
state, or nobody waits for it any more. -/
inductive World.Told (w : World) (v : VisitId) (failure : Option Fault) : Prop where
  | raised (raised : .raised v (.outcome 0 failure) true ∈ w.marks)
  | aimless (aimless : (w.visit v).state.admits (.outcome 0 failure) = false)
  | lapsed (lapsed : w.Lapses v)

section

variable {scn : Scenario} {w w' : World} {σ σ' : Stage} {x y : World × Stage} {t : TaskId}
  {r c : RunId} {v : VisitId} {m : Machine}

/-! ## Who drives the runs that begin -/

/-- Who has the turn after a beat had it before, unless the beat gives it. -/
theorem Beat.gains (b : Beat (w, σ) (w', σ')) (turn : w'.running = some t) :
    w.running = some t ∨ w'.marks = w.marks ++ [.turn t] := by
  -- Only a shift changes who has the turn.
  cases b with
  | stir b => exact .inl (b.running ▸ turn)
  | stride b => exact .inl (b.running ▸ turn)
  | shift b =>
    cases b with
    | turn free ready whole =>
      cases turn
      exact .inr (by simp)
    | unqueue | begin | resume => exact .inl turn
    | @park _ _ u =>
      obtain ⟨queue, -, parked⟩ := w.park_eq u
      rw [parked] at turn
      cases turn
    | retire alive ease late chores =>
      rw [(Retired.of_chores chores).running] at turn
      split at turn
      · cases turn
      · exact .inl turn

theorem Beats.gains (b : Beats x y) (o : Orderly x.1 x.2) (turn : y.1.running = some t) :
    x.1.running = some t ∨ ∃ news, y.1.marks = x.1.marks ++ news ∧ .turn t ∈ news := by
  induction b with
  | refl => exact .inl turn
  | @tail u y before beat ih =>
    obtain ⟨news, marks⟩ := Beats.marks before o.toSound
    rcases Beat.gains beat turn with old | gained
    · refine (ih old).imp_right fun ⟨early, marks, here⟩ => ?_
      obtain ⟨late, marks'⟩ := beat.marks (o.beats before).toStaged
      refine ⟨early ++ late, ?_, List.mem_append_left _ here⟩
      rw [marks', marks, List.append_assoc]
    · refine .inr ⟨news ++ [.turn t], ?_, by simp⟩
      rw [gained, marks, List.append_assoc]

/-- Who drives a run that has begun has had the turn, if it works for a visit. -/
theorem Beats.founder (b : Beats x y) (o : Orderly x.1 x.2) (home : (x.1.task t).home = some v)
    (began : .began r ∈ y.1.marks) (new : .began r ∉ x.1.marks) (host : (y.1.run r).host = t) :
    x.1.running = some t ∨ ∃ news, y.1.marks = x.1.marks ++ news ∧ .turn t ∈ news := by
  induction b with
  | refl => exact absurd began new
  | @tail u y before beat ih =>
    have ou := o.beats before
    obtain ⟨late, marks'⟩ := beat.marks ou.toStaged
    have onward (h : x.1.running = some t ∨
        ∃ news, u.1.marks = x.1.marks ++ news ∧ .turn t ∈ news) :
        x.1.running = some t ∨ ∃ news, y.1.marks = x.1.marks ++ news ∧ .turn t ∈ news := by
      refine h.imp_right fun ⟨early, marks, here⟩ => ?_
      refine ⟨early ++ late, ?_, List.mem_append_left _ here⟩
      rw [marks', marks, List.append_assoc]
    -- By induction on the beats: the run began before, or does so in the last one.
    rcases beat.begins ou.toStaged began with old | ⟨-, s, begins⟩
    · exact onward (ih old (beat.host (ou.rooted.run r old) ▸ host))
    · rcases begins.host with fresh | turn
      · rw [host] at fresh
        have there := (Beats.lasting before).homes home
        cases (World.home_of_size_le (Nat.le_of_eq fresh.symm)).symm.trans there
      · rw [host] at turn
        exact onward (Beats.gains before o turn)

/-- Scripts begin runs for new tasks only. -/
theorem Stir.founder (b : Stir σ w w') (began : .began r ∈ w'.marks) (new : .began r ∉ w.marks) :
    r < w'.runs.size ∧ (w'.run r).host = w.tasks.size := by
  have old {news : List Mark} (marks : w'.marks = w.marks ++ news)
      (other : ∀ m ∈ news, m ≠ .began r) : .began r ∈ w.marks := by
    rw [marks] at began
    exact (List.mem_append.1 began).resolve_right fun here => other _ here rfl
  -- Only a start in the background begins a run.
  cases b with
  | start i s free first =>
    have begins : Begins w (w.startNew i s) w.runs.size s :=
      (Begins.takeSlot first (.inl rfl)).congr rfl rfl
    rw [begins.marks] at began
    cases List.mem_singleton.1 ((List.mem_append.1 began).resolve_left new)
    refine ⟨begins.known, ?_⟩
    simp [World.startNew, World.takeSlot, World.mark, World.log, World.modifyInterpreter,
      World.spawn]
  | spawn | miss | keep => exact absurd began new
  | chore c => exact absurd (old (by simp [c.frame.marks]) (List.forall_mem_nil _)) new
  | refuse | ask | limit => exact absurd (old (World.marks_mark ..) (by simp)) new
  | cancel i q => exact absurd (old (w.marks_stopRun q) (by simp)) new
  | accept v d => exact absurd (old (w.accept_eq v d).2.2.2.2 (by simp)) new

/-- While a run is taken further, runs begin for new tasks only. -/
theorem Paces.founder {q : RunId} (p : Paces t r x y) (o : Orderly x.1 x.2)
    (began : .began q ∈ y.1.marks) (new : .began q ∉ x.1.marks) :
    q < y.1.runs.size ∧ x.1.tasks.size ≤ (y.1.run q).host := by
  induction p with
  | refl => exact absurd began new
  | @tail u y before pace ih =>
    have ou := o.beats (Paces.beats before)
    have lasting := Beats.lasting (Paces.beats before)
    cases pace with
    | @stir u w' σ b =>
      by_cases old : .began q ∈ u.marks
      · obtain ⟨known, host⟩ := ih old
        have still := b.steady.run q known
        exact ⟨Nat.lt_of_lt_of_le known (Beat.runs (.stir b)), still.host ▸ host⟩
      · obtain ⟨known, host⟩ := b.founder began old
        exact ⟨known, host ▸ lasting.tasks⟩
    | @stride u y b =>
      obtain ⟨news, marks, speaks⟩ := b.speaks ou.toStaged
      -- What a stride marks is about its own run, which is there already.
      have old : .began q ∈ u.1.marks := by
        rw [marks] at began
        refine (List.mem_append.1 began).resolve_right fun here => ?_
        cases (speaks _ here).way
      obtain ⟨known, host⟩ := ih old
      have beat : Beat u y := .stride b
      exact ⟨Nat.lt_of_lt_of_le known beat.runs, Beat.host beat known ▸ host⟩

/-- Who drives a run and works for a visit has had a turn. -/
theorem Beat.polled (b : Beat (w, σ) (w', σ')) (o : Orderly w σ)
    (founded : ∀ r v, .began r ∈ w.marks → (w.task (w.run r).host).home = some v →
      w.Polled (w.run r).host)
    (began : .began r ∈ w'.marks) (home : (w'.task (w'.run r).host).home = some v) :
    w'.Polled (w'.run r).host := by
  have stays {u : TaskId} (polled : w.Polled u) : w'.Polled u := b.mem_marks o.toStaged polled
  rcases b.begins o.toStaged began with old | ⟨-, s, begins⟩
  · have known := (o.slotted.known r old).2
    rw [b.host (o.rooted.run r old)] at home ⊢
    rw [b.lasting.home _ known] at home
    exact stays (founded r v old home)
  · rcases begins.host with fresh | turn
    · -- A new task works for no visit, unless a visit has hired it.
      have crews : Crews w w' := by
        cases b with
        | stir b => exact b.crews
        | shift b => exact b.crews
        | stride b =>
          obtain ⟨news, marks, speaks⟩ := b.speaks o.toStaged
          cases List.append_cancel_left (marks.symm.trans begins.marks)
          cases (speaks _ List.mem_cons_self).way
      rw [crews.home, fresh] at home
      cases (World.home_of_size_le (Nat.le_refl _)).symm.trans home
    · exact stays (o.slotted.turn _ turn)

theorem Scenario.Reaches.polled_of_home (h : scn.Reaches w) (began : .began r ∈ w.marks)
    (home : (w.task (w.run r).host).home = some v) : w.Polled (w.run r).host :=
  h.moment.invariant (I := fun w _ => ∀ r v, .began r ∈ w.marks →
      (w.task (w.run r).host).home = some v → w.Polled (w.run r).host)
    (fun r v began => by cases began)
    (fun o founded beat r v began home => beat.polled o founded began home) r v began home

/-! ## What becomes of a task that runs a machine -/

namespace World

/-- Until it has returned, a task that runs a machine goes on as it was. -/
theorem Returns.minds {w₁ : World} {failure : Option Fault} (returns : w.Returns t w₁ failure)
    (known : t < w.tasks.size) (machine : ∀ s, (w.task t).job ≠ .script s) :
    t < w₁.tasks.size ∧ (w.task t).Minds (w₁.task t) := by
  have strokes : Strokes (t + 1) w w₁ := by
    cases returns with
    | script job => exact absurd job (machine _)
    | unbegun => exact ((Strokes.single (.newInterpreter _)).tail (.spawn _)).tail (.abort _)
    | nested job returned =>
      exact ((Strokes.advance w _).of_fst returned).tail (.abort _)
  exact strokes.minds (Nat.succ_ne_self t).symm known

theorem fate_eq_of_isAlive (alive : (w.task t).isAlive = true)
    (alive' : (w'.task t).isAlive = true) : (w'.task t).fate = (w.task t).fate := by
  rw [Task.isAlive, Option.isNone_iff_eq_none] at alive alive'
  rw [alive, alive']

/-- A task that is to run a machine cannot begin, or goes on with a run. -/
theorem move_nested (alive : (w.task t).isAlive = true) (job : (w.task t).job = .nested m) :
    (∃ e, w.Returns t ((w.withNested t m).abort w.tasks.size) (some (.run e))) ∨
      (w.move t).task t = { w.task t with job := .drive w.runs.size (some w.tasks.size) } ∧
        (w.move t).marks = w.marks ++ [.began w.runs.size] := by
  have old := lt_size_of_isAlive alive
  cases begun : (w.withNested t m).begin w.interpreters.size t with
  | error e => exact .inl ⟨e, .unbegun job begun⟩
  | ok pair =>
    obtain ⟨w₁, r⟩ := pair
    have moved : w.move t = w₁.setJob t (.drive r (some w.tasks.size)) := by
      simp only [World.move, job, beginNested_eq, begun]
    obtain ⟨s, -, -, rfl, rfl⟩ := begin_ok begun
    have row : ((w.withNested t m).takeSlot w.interpreters.size t s).task t = w.task t := by
      simp [takeSlot, mark, log, modifyInterpreter, withNested, spawn, Nat.ne_of_lt old]
    refine .inr ⟨?_, ?_⟩
    · rw [moved, setJob, task_modifyTask, if_pos rfl, row]
      rfl
    · rw [moved, marks_setJob, marks_takeSlot]
      rfl

/-- A task that drives a run goes on with it, until it is over. -/
theorem fares_drive {hook : TaskId} (o : Orderly w .rest) (turn : w.running = some t)
    (alive : (w.task t).isAlive = true) (job : (w.task t).job = .drive c (some hook)) :
    w.Fares t (w.move t) := by
  have run : (w.task t).job.run? = some c := congrArg Job.run? job
  obtain ⟨-, job', alive', -⟩ := Deeds.drive o alive run
  have goesOn := fate_eq_of_isAlive alive alive'
  cases eq : w.advance c with
  | mk w₁ signal =>
    rw [eq] at job' goesOn
    -- The move of the task is that of its run, and what comes of its signal.
    have moved : w.move t = match signal with
        | .busy => w₁
        | .parked => w₁.park t
        | .panicked => w₁.endTask t .panicked
        | .returned result =>
          (w₁.abort hook).finish t (nestedFailure (w.machineOf c).id result) := by
      simp only [World.move, job, moveDrive, eq]
      cases signal <;> rfl
    rw [moved]
    cases signal with
    | busy => exact .goesOn job' goesOn
    | parked =>
      obtain ⟨queue, -, parked⟩ := w₁.park_eq t
      have row : (w₁.park t).task t = { w₁.task t with rewoken := false } := by
        rw [parked]
        exact (w₁.task_modifyTask t t _).trans (if_pos rfl)
      exact .goesOn (by rw [row, ← job']) (by rw [row, ← goesOn])
    | panicked =>
      have panics : w.Fares t ((w.advance c).1.endTask t .panicked) :=
        .panics turn run (by rw [eq])
      rwa [eq] at panics
    | returned result => exact .returns turn (.nested job eq)

end World

/-- What can become of a task that runs a machine for a visit in a move of the world. -/
theorem Scenario.Reaches.fares (h : scn.Reaches w) (next : w.Next w')
    (fosters : (w.visit v).state.Fosters m) (home : (w.task t).home = some v)
    (alive : (w.task t).isAlive = true) : w.Fares t w' := by
  have job := (h.fostered.nursed v m fosters).job t home alive
  by_cases turn : w.running = some t
  · have free {P : Prop} (none : w.running = none) : P := by cases none.symm.trans turn
    cases next with
    | move turn' =>
      cases turn.symm.trans turn'
      rcases job with here | ⟨c, hook, here, -⟩
      · rcases World.move_nested alive here with ⟨e, returns⟩ | ⟨driven, marks⟩
        · rw [returns.move]
          exact .returns turn returns
        · refine .begins here (by rw [driven]) ?_ marks
          rw [driven]
          exact Option.isNone_iff_eq_none.1 alive
      · exact World.fares_drive h.orderly turn alive here
    | giveUp turn' control =>
      cases turn.symm.trans turn'
      rcases job with here | ⟨c, hook, here, -⟩ <;> cases here.symm.trans control
    | turn none | tick none | wake _ none | stop _ none | start _ none | abort _ none
    | call _ none => exact free none
  -- The task does not have the turn: it is dropped as its turn comes, or goes on as it is.
  · rcases next.bystander turn (World.lt_size_of_isAlive alive) with ⟨free, -, rfl⟩ | ⟨-, minds, -⟩
    · by_cases aborted : (w.task t).aborted = true
      · exact .dropped free aborted
      · have row : (w.beginTurn t).task t = w.task t := by
          rw [World.beginTurn_of_whole (by simpa using aborted)]
          rfl
        exact .goesOn (by rw [row]) (by rw [row])
    · exact .goesOn minds.job minds.fate

theorem World.fate_finish (w : World) (known : t < w.tasks.size) (failure : Option Fault) :
    ((w.finish t failure).task t).fate = some .returned :=
  fate_endTask _ (Nat.lt_of_lt_of_le known (w.raiseFor_spec t failure).1.tasks) .returned

/-- As long as it is there, it goes on with what it does, or begins. -/
theorem World.Fares.alive (fares : w.Fares t w') (known : t < w.tasks.size)
    (machine : ∀ s, (w.task t).job ≠ .script s) (alive : (w.task t).isAlive = true)
    (alive' : (w'.task t).isAlive = true) :
    (w'.task t).job = (w.task t).job ∨ (∃ m, (w.task t).job = .nested m) ∧
      (w'.task t).job = .drive w.runs.size (some w.tasks.size) := by
  have gone {fate : Fate} {P : Prop} (ended : (w'.task t).fate = some fate) : P := by
    rw [Task.isAlive, ended] at alive'
    cases alive'
  -- In every other way that it may fare, it is gone.
  cases fares with
  | goesOn job => exact .inl job
  | begins job driven => exact .inr ⟨⟨_, job⟩, driven⟩
  | returns turn returns =>
    exact gone (fate_finish _ (returns.minds known machine).1 _)
  | panics =>
    exact gone (fate_endTask _ ((Strokes.advance (t := t + 1) w _).minds (Nat.succ_ne_self t).symm
      known).1 _)
  | dropped free aborted => cases (isAlive_beginTurn alive aborted).symm.trans alive'

/-! ## Marks of tasks that return -/

namespace World

/-- A task whose outcome is to be raised returns: if its token is not cancelled, it raises what has
come of it. -/
theorem marks_finish_of_route {route : Route} (routed : (w.task t).route = some route)
    (failure : Option Fault) :
    w.isCancelled route.visit = true ∧
        (w.finish t failure).marks = w.marks ++ [.ended t .returned] ∨
      w.isCancelled route.visit = false ∧ (w.finish t failure).marks = w.marks ++
        [.raised route.visit (.outcome route.service failure)
          ((w.visit route.visit).state.admits (.outcome route.service failure) &&
            !(w.visit route.visit).closed && !(w.visit route.visit).fired),
          .ended t .returned] := by
  cases cancelled : w.isCancelled route.visit with
  | true => exact .inl ⟨rfl, marks_finish_of_isCancelled routed cancelled failure⟩
  | false =>
    have raised : (w.raiseOutcome route failure).marks = w.marks ++
        [.raised route.visit (.outcome route.service failure)
          ((w.visit route.visit).state.admits (.outcome route.service failure) &&
            !(w.visit route.visit).closed && !(w.visit route.visit).fired)] := by
      unfold raiseOutcome
      cases failure with
      | none =>
        obtain ⟨-, -, -, -, -, answer⟩ := w.raise_spec route.visit ⟨.succeeded route.service, none⟩
        simp only [cancelled, Bool.false_eq_true, if_false]
        exact (marks_raise ..).trans (by rw [answer]; rfl)
      -- A failure is traced first, which changes nothing about the visit.
      | some fault =>
        obtain ⟨w₁, traced⟩ : ∃ w₁, w₁ =
            w.trace (.actionFailed (w.visit route.visit).state.id fault) := ⟨_, rfl⟩
        have marks : w₁.marks = w.marks := by simp [traced, trace, Entry.mark?]
        have visit : w₁.visit route.visit = w.visit route.visit := by rw [traced]; rfl
        have free : w₁.isCancelled route.visit = false := by rw [traced]; exact cancelled
        obtain ⟨-, -, -, -, -, answer⟩ :=
          w₁.raise_spec route.visit ⟨.failed route.service, some fault⟩
        simp only [← traced, free, Bool.false_eq_true, if_false]
        exact (marks_raise ..).trans (by rw [answer, marks, visit]; rfl)
    refine .inr ⟨rfl, ?_⟩
    unfold finish
    simp only [routed]
    rw [marks_endTask, raised, List.append_assoc]
    rfl

/-- No run begins when a task returns. -/
theorem began_of_finish {route : Route} {failure : Option Fault}
    (routed : (w.task t).route = some route)
    (began : .began r ∈ (w.finish t failure).marks) : .began r ∈ w.marks := by
  rcases marks_finish_of_route routed failure with ⟨-, marks⟩ | ⟨-, marks⟩ <;>
    simpa [marks] using began

/-- Once its run has moved, a task that drives a run begins no other. -/
theorem began_of_move {hook : TaskId} {route : Route}
    (alive : (w.task t).isAlive = true) (job : (w.task t).job = .drive c (some hook))
    (routed : (w.task t).route = some route) (began : .began r ∈ (w.move t).marks) :
    .began r ∈ (w.advance c).1.marks := by
  obtain ⟨known, minds⟩ := (Strokes.advance (t := t + 1) w c).minds (Nat.succ_ne_self t).symm
    (lt_size_of_isAlive alive)
  have kept := minds.route.trans routed
  simp only [World.move, job, moveDrive] at began
  -- Whatever the signal says, the task itself marks no beginning.
  split at began
  · next eq => exact eq ▸ began
  · next w₁ eq =>
    obtain ⟨queue, -, parked⟩ := w₁.park_eq t
    rw [parked] at began
    exact eq ▸ began
  · next eq =>
    rw [eq]
    simpa [marks_endTask] using began
  · next w₁ result eq =>
    rw [eq] at kept known ⊢
    have told := (Strokes.single (t := t + 1) (.abort (w := w₁) hook)).minds
      (Nat.succ_ne_self t).symm known
    exact (Frame.abort w₁ hook).marks ▸ began_of_finish (told.2.route.trans kept) began

end World

/-- A task that works for a visit begins a run only if it is to run a machine, in a move of its
own. -/
theorem Scenario.Reaches.founder (h : scn.Reaches w) (next : w.Next w')
    (fosters : (w.visit v).state.Fosters m) (home : (w.task t).home = some v)
    (began : .began r ∈ w'.marks) (new : .began r ∉ w.marks) (host : (w'.run r).host = t) :
    w.running = some t ∧ w' = w.move t ∧ (w.task t).job = .nested m := by
  have nursed := h.fostered.nursed v m fosters
  have beats := Beats.next h.sound next
  by_cases turn : w.running = some t
  · have alive := h.sound.turn t turn
    have job := nursed.job t home alive
    have free {P : Prop} (none : w.running = none) : P := by cases none.symm.trans turn
    cases next with
    | move turn' =>
      cases turn.symm.trans turn'
      rcases job with here | ⟨c, hook, here, -⟩
      · exact ⟨turn, rfl, here⟩
      -- A task that drives a run already begins none: in its move, hosts of new runs are new as
      -- well.
      · have run : (w.task t).job.run? = some c := congrArg Job.run? here
        obtain ⟨paces, after⟩ := Beats.drive h.sound ⟨turn, run⟩
        have early := World.began_of_move alive here (nursed.route t home) began
        obtain ⟨known, fresh⟩ := Paces.founder paces h.orderly early new
        rw [(Beats.host after known).2] at host
        exact absurd (host ▸ fresh) (Nat.not_le.2 (World.lt_size_of_isAlive alive))
    | giveUp turn' control =>
      cases turn.symm.trans turn'
      rcases job with here | ⟨c, hook, here, -⟩ <;> cases here.symm.trans control
    | turn none | tick none | wake _ none | stop _ none | start _ none | abort _ none
    | call _ none => exact free none
  · obtain ⟨news, marks, here⟩ := (beats.founder h.orderly home began new host).resolve_left turn
    rcases next.turns turn with rfl | ⟨news', marks', never⟩
    · by_cases aborted : (w.task t).aborted = true
      · -- Whoever was told to go has no turn in which it could begin a run.
        exact absurd (beats.founded h.orderly home (fun _ => ⟨aborted, turn⟩) began host).1 new
      · rw [World.beginTurn_of_whole (by simpa using aborted)] at began
        exact absurd (by simpa using began) new
    · cases List.append_cancel_left (marks.symm.trans marks')
      exact absurd here never

namespace Scenario.Reaches

/-- As long as a task that runs a machine is there, it goes on with what it does, or begins. -/
theorem fares_alive (h : scn.Reaches w) (next : w.Next w') (fosters : (w.visit v).state.Fosters m)
    (home : (w.task t).home = some v) (alive : (w.task t).isAlive = true)
    (alive' : (w'.task t).isAlive = true) :
    (w'.task t).job = (w.task t).job ∨ (∃ m, (w.task t).job = .nested m) ∧
      (w'.task t).job = .drive w.runs.size (some w.tasks.size) := by
  refine (h.fares next fosters home alive).alive (World.lt_size_of_isAlive alive) (fun s job => ?_)
    alive alive'
  rcases (h.fostered.nursed v m fosters).job t home alive with here | ⟨c, hook, here, -⟩ <;>
    cases here.symm.trans job

/-- What is left of a task that is to run a machine, when a run of it has begun. -/
theorem begets (h : scn.Reaches w) (next : w.Next w') (fosters : (w.visit v).state.Fosters m)
    (home : (w.task t).home = some v) (began : .began r ∈ w'.marks) (new : .began r ∉ w.marks)
    (host : (w'.run r).host = t) :
    (w.task t).isAlive = true ∧ (w.task t).job = .nested m ∧ r = w.runs.size ∧
      w'.task t = { w.task t with job := .drive w.runs.size (some w.tasks.size) } := by
  obtain ⟨turn, rfl, job⟩ := h.founder next fosters home began new host
  have alive := h.sound.turn t turn
  rcases World.move_nested alive job with ⟨e, returns⟩ | ⟨driven, marks⟩
  · have routed := (h.fostered.nursed v m fosters).route t home
    have known := World.lt_size_of_isAlive alive
    have route := (returns.minds known (by simp [job])).2.route.trans routed
    rw [returns.move] at began
    have early := World.began_of_finish route began
    rw [(Frame.abort ..).marks] at early
    exact absurd early new
  · rw [marks] at began
    cases List.mem_singleton.1 ((List.mem_append.1 began).resolve_left new)
    exact ⟨alive, job, rfl, driven⟩

/-- A task that has just come to work for a visit has had no turn. -/
theorem unpolled (h : scn.Reaches w) (next : w.Next w') (fresh : w.tasks.size ≤ t)
    (home : (w'.task t).home = some v) : ¬ w'.Polled t := by
  intro polled
  -- It was not there before, so it cannot have had the turn.
  have off : w.running ≠ some t := fun turn =>
    absurd (World.lt_size_of_isAlive (h.sound.turn t turn)) (Nat.not_lt.2 fresh)
  have blank : w.task t = default := Table.get_of_size_le fresh
  rcases next.turns off with same | ⟨news, marks, never⟩
  · have whole : (w.task t).aborted = false := by rw [blank]; rfl
    have row : w'.task t = w.task t := by
      rw [same, World.beginTurn_of_whole whole]
      rfl
    rw [row, blank] at home
    cases home
  · have early : .turn t ∉ w.marks := fun past =>
      absurd (h.orderly.recorded.task _ past t rfl) (Nat.not_lt.2 fresh)
    rw [World.Polled, marks] at polled
    exact (List.mem_append.1 polled).elim early never

/-- It drives no run. -/
theorem unfounded (h : scn.Reaches w) (next : w.Next w') (fresh : w.tasks.size ≤ t)
    (home : (w'.task t).home = some v) (began : .began r ∈ w'.marks) : (w'.run r).host ≠ t := by
  rintro rfl
  have h' : scn.Reaches w' := h.tail next
  exact h.unpolled next fresh home (h'.polled_of_home began home)

/-- A task that runs a machine for a visit has one run at most. -/
theorem devoted (h : scn.Reaches w) (fosters : (w.visit v).state.Fosters m)
    (home : (w.task t).home = some v) : w.Devoted t := by
  -- The induction is on the moves. A run that begins with this host begins in a move of the task,
  -- while the task has no run yet.
  induction h generalizing v m with
  | refl => cases ((scn.spares_start.fresh t (Nat.zero_le _)).home).symm.trans home
  | @tail u w reach next ih =>
    have reach : scn.Reaches u := reach
    have o := reach.orderly
    have beats := Beats.next reach.sound next
    rcases Nat.lt_or_ge t u.tasks.size with known | fresh
    · have mine := (beats.lasting.home t known).symm.trans home
      have fosters' := beats.lasting.state v (o.crewed.home t v mine).1 ▸ fosters
      have devoted := ih fosters' mine
      have old (r : RunId) (began : .began r ∈ u.marks) (host : (w.run r).host = t) :
          (u.run r).host = t := (Beats.host beats (o.rooted.run r began)).2 ▸ host
      have begets (r : RunId) (began : .began r ∈ w.marks) (host : (w.run r).host = t)
          (new : .began r ∉ u.marks) := reach.begets next fosters' mine began new host
      refine ⟨fun m' alive job r began host => ?_, fun c hook alive job r began host => ?_,
        fun r q began began' host host' => ?_⟩
      · by_cases past : .began r ∈ u.marks
        · have alive' := Beats.alive beats mine alive
          rcases reach.fares_alive next fosters' mine alive' alive with same | ⟨-, driven⟩
          · exact devoted.fresh m' alive' (same.symm.trans job) r past (old r past host)
          · cases job.symm.trans driven
        · obtain ⟨-, -, -, driven⟩ := begets r began host past
          rw [driven] at job
          cases job
      · by_cases past : .began r ∈ u.marks
        · have alive' := Beats.alive beats mine alive
          rcases reach.fares_alive next fosters' mine alive' alive with same | ⟨⟨m', here⟩, -⟩
          · exact devoted.driving c hook alive' (same.symm.trans job) r past (old r past host)
          · exact absurd (old r past host) (devoted.fresh m' alive' here r past)
        · obtain ⟨-, -, rfl, driven⟩ := begets r began host past
          rw [driven] at job
          cases job
          rfl
      -- Of two runs, one at most can be new.
      · by_cases past : .began r ∈ u.marks <;> by_cases past' : .began q ∈ u.marks
        · exact devoted.one r q past past' (old r past host) (old q past' host')
        · obtain ⟨alive, job, -⟩ := begets q began' host' past'
          exact absurd (old r past host) (devoted.fresh m alive job r past)
        · obtain ⟨alive, job, -⟩ := begets r began host past
          exact absurd (old q past' host') (devoted.fresh m alive job q past')
        · exact (begets r began host past).2.2.1.trans (begets q began' host' past').2.2.1.symm
    · have never (r : RunId) (began : .began r ∈ w.marks) : (w.run r).host ≠ t :=
        reach.unfounded next fresh home began
      exact ⟨fun m' _ _ r began host => never r began host,
        fun c hook _ _ r began host => absurd host (never r began),
        fun r q began _ host _ => absurd host (never r began)⟩

end Scenario.Reaches

/-! ## What is raised when such a task returns -/

theorem Beats.anchored (b : Beats x y) : Anchored x.1 y.1 := by
  induction b with
  | refl => exact .refl _
  | tail _ beat ih =>
    exact ih.trans ⟨Beat.runs beat, fun r known => Beat.host beat known,
      fun r known => Beat.interpreter beat known, (Beat.fixed beat).interpreters,
      fun i known => (Beat.fixed beat).machine i known⟩

/-- A task returns at a moment of its move, and what it raises is raised then. -/
theorem World.Returns.moment {w₁ : World} {failure : Option Fault}
    (returns : w.Returns t w₁ failure) (sound : Sound w .rest) (turn : w.running = some t)
    (machine : ∀ s, (w.task t).job ≠ .script s) (v : VisitId) :
    ∃ x σ, Beats (w, .rest) (x, σ) ∧ Beats (x, σ) (w.move t, .rest) ∧
      (x.visit v).Keeps (w₁.visit v) ∧ w₁.isCancelled v = x.isCancelled v := by
  -- Telling the other task to go changes nothing that a raise depends on.
  have aborted (x : World) (hook : TaskId) : (x.visit v).Keeps ((x.abort hook).visit v) ∧
      (x.abort hook).isCancelled v = x.isCancelled v := by
    have frame := Statechart.Frame.abort x hook
    refine ⟨⟨(frame.visit v).state, frame.fired v, (frame.visit v).closed⟩, ?_⟩
    unfold isCancelled runOf
    rw [(frame.visit v).torn, (frame.visit v).run, frame.cancelled]
  cases returns with
  | script job => exact absurd job (machine _)
  | @unbegun m' => exact ⟨w, .rest, .refl, Beats.move sound turn, aborted (w.withNested t m') _⟩
  | @nested r hook x result job returned =>
    obtain ⟨paces, after⟩ := Beats.drive sound ⟨turn, congrArg Job.run? job⟩
    rw [returned] at paces after
    exact ⟨x, _, paces.beats, after, aborted x hook⟩

/-- The marks tell how a task of a visit has ended. -/
theorem Fated.told {fate : Fate} (h : Fated w) (home : (w.task t).home = some v)
    (gone : (w.task t).fate = some fate) : .ended t fate ∈ w.marks := by
  have told : fate ∈ w.fates t := by
    rw [h t v home, gone]
    exact List.mem_singleton.2 rfl
  obtain ⟨m, here, ends⟩ := List.mem_filterMap.1 told
  exact Mark.fate?_eq_some.1 ends ▸ here

/-- A task has had a turn when it returns. -/
theorem Beat.polled_of_ended (b : Beat (w, σ) (w', σ')) (o : Orderly w σ)
    (early : .ended t .returned ∈ w.marks → w.Polled t) (ended : .ended t .returned ∈ w'.marks) :
    w'.Polled t := by
  have stays (polled : w.Polled t) : w'.Polled t := b.mem_marks o.toStaged polled
  by_cases past : .ended t .returned ∈ w.marks
  · exact stays (early past)
  -- Only the end of a task is marked as such.
  have never {news : List Mark} (marks : w'.marks = w.marks ++ news)
      (other : .ended t .returned ∉ news) : w'.Polled t := by
    rw [marks] at ended
    exact absurd ended (by simp [past, other])
  cases b with
  | stride b =>
    obtain ⟨news, marks, speaks⟩ := b.speaks o.toStaged
    exact never marks fun here => by cases (speaks _ here).way
  | stir b =>
    obtain ⟨news, marks, talk⟩ := b.marks
    exact never marks fun here => by cases (talk _ here).2
  | shift b =>
    cases b with
    | @turn _ u =>
      have told : .ended t .returned ∈ w.marks ++ [.turn u] := by
        rw [← World.marks_mark]
        exact ended
      exact absurd ((List.mem_append.1 told).resolve_left past) (by simp)
    | unqueue | resume => exact absurd ended past
    | @park _ _ u =>
      obtain ⟨queue, -, parked⟩ := w.park_eq u
      rw [parked] at ended
      exact absurd ended past
    | begin i s => exact never (World.marks_takeSlot w i _ s) (by simp)
    | @retire _ _ _ u fate alive ease late chores =>
      rw [(Retired.of_chores chores).marks, List.mem_append, List.mem_singleton] at ended
      cases ended.resolve_left past
      -- Whoever ends out of turn does not return.
      refine stays (o.slotted.turn t (Classical.not_not.1 fun off => ?_))
      rcases late off with other | other <;> cases other

namespace Scenario.Reaches

theorem polled_of_returned (h : scn.Reaches w) (home : (w.task t).home = some v)
    (returned : (w.task t).fate = some .returned) : w.Polled t := by
  have ended := h.orderly.fated.told home returned
  exact h.moment.invariant (I := fun w _ => ∀ t, .ended t .returned ∈ w.marks → w.Polled t)
    (fun t ended => by cases ended) (fun o early beat t => beat.polled_of_ended o (early t)) t ended

/-- What a task raises that runs a machine is what that has come to. -/
theorem came (h : scn.Reaches w) (fosters : (w.visit v).state.Fosters m)
    (home : (w.task t).home = some v) (turn : w.running = some t) {w₁ : World}
    {failure : Option Fault} (returns : w.Returns t w₁ failure) :
    (w.move t).Came t m failure := by
  have alive := h.sound.turn t turn
  have job := (h.fostered.nursed v m fosters).job t home alive
  -- The machine could not start, or its run has returned.
  cases returns with
  | script here => rcases job with job | ⟨c, hook, job, -⟩ <;> cases here.symm.trans job
  | unbegun here failed =>
    rcases job with job | ⟨c, hook, job, -⟩ <;> cases here.symm.trans job
    rw [World.begin_eq_error] at failed
    refine .refused ?_
    have blank : (w.withNested t m).interpreter w.interpreters.size = { machine := m } := by
      simp [World.withNested, World.spawn]
    rw [blank] at failed
    exact failed
  | @nested r hook x result here returned =>
    rcases job with job | ⟨c, hook', job, carries⟩ <;> cases here.symm.trans job
    have beats := Beats.move h.sound turn
    obtain ⟨paces, after⟩ := Beats.drive h.sound ⟨turn, congrArg Job.run? job⟩
    have told := (w.returned_of_advance r).returned result (by rw [returned])
    rw [carries.machine]
    exact .ran (carries.mono beats.anchored fun _ => beats.mem h.orderly)
      (after.mem (h.orderly.beats paces.beats) told)

/-- As long as somebody waits for it, what such a task comes to is raised when it returns. -/
theorem told_of_returns (h : scn.Reaches w) (fosters : (w.visit v).state.Fosters m)
    (home : (w.task t).home = some v) (turn : w.running = some t) {w₁ : World}
    {failure : Option Fault} (returns : w.Returns t w₁ failure) :
    ∃ f, (w.move t).Came t m f ∧ (w.move t).Told v f := by
  have o := h.orderly
  have h' : scn.Reaches (w.move t) := h.tail (.move turn)
  have beats := Beats.move h.sound turn
  have alive := h.sound.turn t turn
  have nursed := h.fostered.nursed v m fosters
  have waits := o.loyal.turn t v turn home
  have own := h.sound.waits _ v (congrArg Phase.visit? waits)
  have machine (s : Script) : (w.task t).job ≠ .script s := fun job => by
    rcases nursed.job t home alive with here | ⟨c, hook, here, -⟩ <;> cases here.symm.trans job
  obtain ⟨known, minds⟩ := returns.minds (World.lt_size_of_isAlive alive) machine
  have same : ((w.move t).visit v).state = (w.visit v).state :=
    beats.lasting.state v own.known
  -- If anything was accepted by the end of the move, it is what the task has come to.
  by_cases raised : ∃ d, .raised v d true ∈ (w.move t).marks
  · obtain ⟨d, hd⟩ := raised
    have fate : ((w.move t).task t).fate = some .returned := by
      rw [returns.move]
      exact World.fate_finish w₁ known failure
    cases (h'.fostered.nursed v m (same ▸ fosters)).went t _ (beats.lasting.homes home) fate with
    | returned came raised => exact ⟨_, came, .raised (raised d hd ▸ hd)⟩
  refine ⟨failure, h.came fosters home turn returns, ?_⟩
  by_cases lapsed : (w.move t).Lapses v
  · exact .lapsed lapsed
  -- Otherwise the inbox is open at the moment in which it raises.
  obtain ⟨x, σ, early, late, keeps, cancelled⟩ := returns.moment h.sound turn machine v
  have moment : scn.Moment x σ := h.moment.trans early
  have ox := o.beats early
  have owner : (x.visit v).run = (w.visit v).run := early.lasting.owner v own.known
  have ended (last : (x.run (w.visit v).run).phase = .ended) : (w.move t).Lapses v := by
    refine .ended ?_
    have there := early.anchored.runs
    unfold World.runOf
    rw [beats.lasting.owner v own.known]
    exact late.ended ox (Nat.lt_of_lt_of_le (o.crewed.home t v home).2.1 there) last
  have past {n : Mark} (here : n ∈ x.marks) : n ∈ (w.move t).marks := late.mem ox here
  -- Somebody waits, so the token is not cancelled, and nothing has been raised so far.
  have still : (x.run (w.visit v).run).phase = .waiting v := by
    rcases early.of_waiting o waits with last | ⟨e, here⟩ | ⟨still, -⟩
    · exact absurd (ended last) lapsed
    · exact absurd (.concluded (past here)) lapsed
    · exact still
  have tokens : Scoped x σ := moment.invariant (I := Scoped) (.opening scn) fun o s b => s.beat o b
  have free : w₁.isCancelled v = false := by
    rw [cancelled, World.isCancelled, tokens.waits _ v still, Bool.false_or, ← Bool.not_eq_true]
    intro stop
    have asked := past (ox.asked _ stop)
    rw [owner, ← beats.lasting.owner v own.known] at asked
    exact lapsed (.stopped asked)
  obtain ⟨enclosed, committed⟩ := moment.enclosed
  have opened : (x.visit v).closed = false := by
    rw [← Bool.not_eq_true, enclosed.shut v]
    exact fun left => lapsed (.left (past left))
  have first : (x.visit v).fired = false := by
    rw [← Bool.not_eq_true]
    intro fired
    refine (committed v fired).elim (fun news => ?_) fun closed => by cases closed.symm.trans opened
    obtain ⟨d, news⟩ := Option.ne_none_iff_exists'.1 news
    refine raised ⟨d, past ?_⟩
    rw [← World.mem_accepted, (raced_of_beats moment).1.accepted v, news]
    exact List.mem_singleton.2 rfl
  have routed : (w₁.task t).route = some ⟨v, 0⟩ := minds.route.trans (nursed.route t home)
  have state : (w₁.visit v).state = ((w.move t).visit v).state := by
    rw [keeps.state, early.lasting.state v own.known, same]
  rw [returns.move] at same raised ⊢
  rcases World.marks_finish_of_route routed failure with ⟨stop, -⟩ | ⟨-, marks⟩
  · cases free.symm.trans stop
  · cases aim : (w₁.visit v).state.admits (.outcome 0 failure) with
    | false => exact .aimless (by rw [← returns.move, ← state, aim])
    | true =>
      refine .raised ?_
      rw [marks]
      simp [aim, keeps.closed.trans opened, keeps.fired.trans first]

end Scenario.Reaches

/-- Nobody comes back to wait. -/
theorem World.Lapses.mono (lapses : x.1.Lapses v) (b : Beats x y) (o : Orderly x.1 x.2)
    (home : (x.1.task t).home = some v) : y.1.Lapses v := by
  obtain ⟨known, there, -⟩ := o.crewed.home t v home
  have owner := b.lasting.owner v known
  cases lapses with
  | stopped asked => exact .stopped (owner ▸ b.mem o asked)
  | ended ended =>
    refine .ended ?_
    unfold World.runOf
    rw [owner]
    exact b.ended o there ended
  | concluded past => exact .concluded (b.mem o past)
  | left left => exact .left (b.mem o left)

theorem World.Told.mono {failure : Option Fault} (told : x.1.Told v failure) (b : Beats x y)
    (o : Orderly x.1 x.2) (home : (x.1.task t).home = some v) : y.1.Told v failure := by
  cases told with
  | raised raised => exact .raised (b.mem o raised)
  | aimless aimless =>
    rw [← b.lasting.state v (o.crewed.home t v home).1] at aimless
    exact .aimless aimless
  | lapsed lapsed => exact .lapsed (lapsed.mono b o home)

/-- Who has gone stays so. -/
theorem Beats.fate (b : Beats x y) (o : Orderly x.1 x.2) (home : (x.1.task t).home = some v)
    (gone : (x.1.task t).isAlive = false) : (y.1.task t).fate = (x.1.task t).fate := by
  induction b with
  | refl => rfl
  | tail before beat ih =>
    have gone' := (congrArg Option.isNone ih).trans gone
    exact (beat.fate (o.beats before) ((Beats.lasting before).homes home) gone').trans ih

namespace Scenario.Reaches

/-- What a task that runs a machine for a visit has come to was raised when it returned, unless that
has no effect on the state, or nobody waits for it any more. -/
theorem told (h : scn.Reaches w) (fosters : (w.visit v).state.Fosters m)
    (home : (w.task t).home = some v) (returned : (w.task t).fate = some .returned) :
    ∃ failure, w.Came t m failure ∧ w.Told v failure := by
  induction h generalizing m with
  | refl => cases ((scn.spares_start.fresh t (Nat.zero_le _)).home).symm.trans home
  | @tail u w reach next ih =>
    have reach : scn.Reaches u := reach
    have o := reach.orderly
    have beats := Beats.next reach.sound next
    have h' : scn.Reaches w := reach.tail next
    -- By induction on the moves: the move in which the task returns is the one that raises, and
    -- what -- was told before stays told.
    rcases Nat.lt_or_ge t u.tasks.size with known | fresh
    · have mine := (beats.lasting.home t known).symm.trans home
      have fosters' := beats.lasting.state v (o.crewed.home t v mine).1 ▸ fosters
      by_cases alive : (u.task t).isAlive = true
      · cases reach.fares next fosters' mine alive with
        | goesOn job fate =>
          rw [fate] at returned
          rw [Task.isAlive, returned] at alive
          cases alive
        | begins job driven fate => cases fate.symm.trans returned
        | @returns w₁ failure turn returns =>
          rw [← returns.move]
          exact reach.told_of_returns fosters' mine turn returns
        | @panics q =>
          have known := ((Strokes.advance (t := t + 1) u q).minds (Nat.succ_ne_self t).symm known).1
          cases (World.fate_endTask _ known .panicked).symm.trans returned
        -- A task is aborted only after its visit was left or its wait is over.
        | dropped free aborted =>
          have lapses : u.Lapses v := by
            rcases reach.staffed.dismissed t v mine aborted with ⟨e, past⟩ | left
            · exact .concluded past
            · exact .left left
          cases (h'.fostered.nursed v m fosters).went t _ home returned with
          | returned came => exact ⟨_, came, .lapsed (lapses.mono beats o mine)⟩
      -- The task had returned before.
      · have gone : (u.task t).isAlive = false := by simpa using alive
        have fate := beats.fate o mine gone
        obtain ⟨failure, came, told⟩ := ih fosters' mine (fate ▸ returned)
        exact ⟨failure, came.mono beats.anchored fun n hn => beats.mem o hn,
          told.mono beats o mine⟩
    -- No task returns in the move that makes it.
    · exact absurd (h'.polled_of_returned home returned) (reach.unpolled next fresh home)

end Scenario.Reaches

/-! ## When such a task is gone -/

/-- The host of a run that is there was not told to go, if it is not told so later on. -/
theorem Beats.whole (b : Beats x y) (o : Orderly x.1 x.2) (known : r < x.1.runs.size)
    (going : (y.1.run r).phase ≠ .ended) (whole : (y.1.task (y.1.run r).host).aborted = false) :
    (x.1.task (x.1.run r).host).aborted = false := by
  -- By induction on the beats, backwards: whoever is told to go stays so as long as it is there.
  induction b with
  | refl => exact whole
  | @tail u y before beat ih =>
    have ou := o.beats before
    have there := (Beats.host before known).1
    have early : (u.1.run r).phase ≠ .ended := fun ended =>
      going (Beats.ended (.single beat) ou there ended)
    have hosts := ou.host r early
    have host := Beat.host beat there
    refine ih early ?_
    rw [← Bool.not_eq_true]
    intro aborted
    rw [host] at whole
    have alive : (y.1.task (u.1.run r).host).isAlive = true :=
      host ▸ ((ou.beats (.single beat)).host r going).alive
    have known' := World.lt_size_of_isAlive hosts.alive
    cases whole.symm.trans (beat.aborted_of_known known' alive aborted)

/-- A run that is given up is over. -/
theorem World.ended_of_giveUp {rest : List Step} (o : Orderly w σ) (turn : w.running = some t)
    (job : (w.task t).job.run? = some r) (ease : σ = .rest ∨ σ = .busy t r .idle)
    (waits : (w.run r).phase.isSuspended = true) :
    ((w.giveUp t rest r).run r).phase = .ended := by
  have dropped := Paces.dropRun (o.turn t turn) job (.inr turn) (.inr ⟨ease, waits⟩)
  have ended := ((o.beats dropped.beats).placed t r _ rfl).suits
  have same {x : World} (spares : (w.dropRun r).1.Spares x) : (x.run r).phase = .ended := by
    unfold World.run
    rw [spares.runs]
    exact ended
  unfold giveUp
  split
  · next eq => exact same (eq ▸ .endTask ..)
  · next eq => exact same (eq ▸ .answer ..)

namespace Scenario.Reaches

/-- After a move of its host a run is over, or the host goes on, or there was nothing to do. -/
theorem rests (h : scn.Reaches w) (d : w.Drives t r) :
    ((w.move t).run r).phase = .ended ∨ (w.move t).running = some t ∨
      (w.advance r).2 = .parked ∧ (w.move t).visits = (w.advance r).1.visits ∧
        (w.move t).runs = (w.advance r).1.runs := by
  have o := h.orderly
  have alive := o.turn t d.turn
  have host := (o.driver t r alive d.job).1
  obtain ⟨paces, after⟩ := Beats.drive h.sound d
  have o' := o.beats paces.beats
  have known : r < (w.advance r).1.runs.size :=
    (Beats.host paces.beats (h.drives_goes d).1).1
  obtain ⟨x, signal, eq⟩ : ∃ x signal, w.advance r = (x, signal) := ⟨_, _, rfl⟩
  have ended (finished : (w.advance r).2.stage t r = .busy t r .finished) :
      ((w.move t).run r).phase = .ended :=
    after.ended o' known (o'.placed t r _ finished).suits
  cases signal with
  | busy => exact .inr (.inl (h.goesOn d (by rw [eq])).2.1.turn)
  | returned | panicked => exact .inl (ended (by rw [eq]; rfl))
  -- A host that parks leaves the run as it is, unless it has waited long enough and gives up.
  | parked =>
    by_cases patient : ∀ rest deadline,
        (w.task (w.run r).host).job = .control rest (.running r deadline) → w.now < deadline
    · have going := o.toSound.going alive d.job
      have still := h.sound.parks going eq patient
      rw [host] at still
      rw [eq]
      exact .inr (.inr ⟨rfl, still⟩)
    · obtain ⟨rest, deadline, job, late⟩ : ∃ rest deadline,
          (w.task t).job = .control rest (.running r deadline) ∧ ¬ w.now < deadline := by
        simpa [host] using patient
      have time : x.now = w.now := by
        have strokes : Strokes 0 w (w.advance r).1 := .advance w r
        rw [eq] at strokes
        exact strokes.now
      have moved : w.move t = x.giveUp t rest r := by
        simp only [World.move, job, World.moveControl, World.moveRunning, eq]
        rw [if_neg (time ▸ late)]
        rfl
      rw [eq] at o' paces
      refine .inl (moved ▸ World.ended_of_giveUp o' (paces.running.trans d.turn)
        (o'.busy t r _ rfl).job (.inr rfl) (o'.placed t r _ rfl).suits)

/-- A run that has nothing to do, and waits on a visit, has looked around in vain. -/
theorem waits_of_parked (h : scn.Reaches w) (d : w.Drives t r) (parks : (w.advance r).2 = .parked)
    (waits : ((w.advance r).1.run r).phase = .waiting v) :
    (w.run r).phase = .waiting v ∧ w.finding? v = none ∧ (w.visit v).finished = [] := by
  have o := h.orderly
  obtain ⟨known, founded⟩ := h.drives_goes d
  -- Every other phase goes on, or ends, or leads to another one.
  cases phase : (w.run r).phase with
  | begun s =>
    simp only [World.advance, phase] at parks
    cases parks
  | arriving s p c =>
    have arrives : w.advance r = w.arrive r s p c := by
      unfold World.advance
      rw [phase]
    rw [arrives] at parks
    rcases w.arrive_goes r s p c with other | ⟨result, other⟩ | ⟨other, -⟩ <;>
      cases other.symm.trans parks
  | waiting n =>
    have own := (o.waits r n (congrArg Phase.visit? phase)).run
    have inspects : w.advance r = w.inspect r n := by
      unfold World.advance
      rw [phase]
    rw [inspects, World.inspect_eq own] at parks waits
    -- Had it found anything, or had a task ended unheard, it would go on.
    cases found : w.finding? n with
    | some e =>
      rw [found, Option.elim_some] at parks
      rcases (w.looked n).tearDown_spec r n e with ⟨other, -⟩ | ⟨other, -⟩ <;>
        cases other.symm.trans parks
    | none =>
      rw [found, Option.elim_none] at parks waits
      have looked : ((w.looked n).run r).phase = .waiting n := by
        rw [← phase]
        unfold World.looked
        split
        · rfl
        · simp only
          split <;> rfl
      cases looked.symm.trans waits
      refine ⟨rfl, found, Classical.byContradiction fun more => ?_⟩
      simp only [more, if_false] at parks
      cases parks
  | draining n e =>
    have drains : w.advance r = w.drain r n e := by
      unfold World.advance
      rw [phase]
    rw [drains] at parks waits
    unfold World.drain at parks waits
    split at parks
    · simp only at parks
      split at parks <;> cases parks
    · split at parks
      · rcases w.leave_goes known founded n e with other | ⟨result, other⟩ | ⟨other, -⟩ <;>
          cases other.symm.trans parks
      · next finished working =>
        rw [finished, if_neg working] at waits
        cases phase.symm.trans waits
  | ended => exact absurd phase (o.toSound.going (o.turn t d.turn) d.job)

/-- A task that runs a machine for a visit, and is gone, has had a turn, or was told to go. -/
theorem polled_or_aborted (h : scn.Reaches w) (fosters : (w.visit v).state.Fosters m)
    (home : (w.task t).home = some v) (gone : (w.task t).isAlive = false) :
    w.Polled t ∨ (w.task t).aborted = true := by
  obtain ⟨fate, ended⟩ : ∃ fate, (w.task t).fate = some fate :=
    Option.ne_none_iff_exists'.1 fun none => by simp [Task.isAlive, none] at gone
  cases (h.fostered.nursed v m fosters).went t fate home ended with
  | returned => exact .inl (h.polled_of_returned home ended)
  | panicked carries =>
    have polled := h.polled_of_home carries.began (carries.host.symm ▸ home)
    exact .inl (carries.host ▸ polled)
  | dropped aborted => exact .inr aborted

/-- Nobody has the callback of a visit that fosters a machine, and whose task is gone. -/
theorem released_of_gone (h : scn.Reaches w) (fosters : (w.visit v).state.Fosters m)
    (home : (w.task t).home = some v) (gone : (w.task t).isAlive = false) :
    w.isHeld v = false := by
  have nursed := h.fostered.nursed v m fosters
  rw [← Bool.not_eq_true, World.isHeld_iff]
  rintro (⟨u, holds⟩ | ⟨k, hk, mine⟩)
  · simp only [Task.holds, Bool.and_eq_true, Bool.or_eq_true, decide_eq_true_eq,
      Option.any_eq_true] at holds
    obtain ⟨alive, lent | ⟨route, routed, rfl⟩⟩ := holds
    · exact nursed.callback u lent
    · cases nursed.one t u home (h.staffed.route u route routed)
      cases gone.symm.trans alive
  · exact nursed.kept k hk mine

/-- Such a visit waits for nothing more. -/
theorem finding?_of_gone (h : scn.Reaches w) (fosters : (w.visit v).state.Fosters m)
    (home : (w.task t).home = some v) (gone : (w.task t).isAlive = false)
    (finished : (w.visit v).finished = []) : w.finding? v ≠ none := by
  have working : (w.visit v).working = [] := by
    refine List.eq_nil_iff_forall_not_mem.2 fun u mem => ?_
    cases (h.fostered.nursed v m fosters).one t u home (h.staffed.listed u v mem)
    cases gone.symm.trans ((h.staffed.busy v).2 t mem)
  have released := h.released_of_gone fosters home gone
  unfold World.finding?
  rw [finished]
  split
  · nofun
  · split <;> simp_all

/-- While a run waits on a visit whose task is gone, its host is up, unless it was told to go. -/
theorem heedful (h : scn.Reaches w) (fosters : (w.visit v).state.Fosters m)
    (phase : (w.runOf v).phase = .waiting v) (home : (w.task t).home = some v)
    (gone : (w.task t).isAlive = false) (whole : (w.task (w.runOf v).host).aborted = false) :
    w.IsUp (w.runOf v).host := by
  induction h with
  | refl => cases ((scn.spares_start.fresh t (Nat.zero_le _)).home).symm.trans home
  | @tail u w reach next ih =>
    have reach : scn.Reaches u := reach
    have h' : scn.Reaches w := reach.tail next
    have o := reach.orderly
    have beats := Beats.next reach.sound next
    have awaited {P : Prop} (past : (∃ e, .concluded v e ∈ w.marks) ∨ .left v ∈ w.marks) : P := by
      rcases past with ⟨e, past⟩ | left
      · exact absurd past (h'.raced.2.unconcluded phase e)
      · exact absurd left (h'.not_left (congrArg Phase.visit? phase))
    -- A task that has just been hired is not gone.
    have known : t < u.tasks.size := Nat.lt_of_not_le fun fresh => by
      rcases h'.polled_or_aborted fosters home gone with polled | aborted
      · exact reach.unpolled next fresh home polled
      · exact awaited (h'.staffed.dismissed t v home aborted)
    have mine : (u.task t).home = some v := (beats.lasting.home t known).symm.trans home
    obtain ⟨there, ran, -⟩ := o.crewed.home t v mine
    have owner : (w.visit v).run = (u.visit v).run := beats.lasting.owner v there
    have fosters' : (u.visit v).state.Fosters m := beats.lasting.state v there ▸ fosters
    have nursed := reach.fostered.nursed v m fosters'
    obtain ⟨r, hr⟩ : ∃ r, r = (u.visit v).run := ⟨_, rfl⟩
    have run : w.runOf v = w.run r := by rw [hr, ← owner]; rfl
    have run' : u.runOf v = u.run r := by rw [hr]; rfl
    rw [run] at phase whole ⊢
    rw [run'] at ih
    rw [← hr] at ran
    have going' : (w.run r).phase ≠ .ended := by simp [phase]
    have going : (u.run r).phase ≠ .ended := fun ended => going' (beats.ended o ran ended)
    have host : (w.run r).host = (u.run r).host := (Beats.host beats ran).2
    have hosts := o.host r going
    have hosts' := h'.sound.host r going'
    have whole' := beats.whole o ran going' whole
    rw [host] at hosts' whole ⊢
    by_cases turn : u.running = some (u.run r).host
    · have d : u.Drives (u.run r).host r := ⟨turn, hosts.job⟩
      have other : u.running ≠ some t := fun mine => by
        cases turn.symm.trans mine
        cases gone.symm.trans hosts'.alive
      have dead : (u.task t).isAlive = false := by
        rcases next.bystander other known with ⟨free, -⟩ | ⟨-, minds, -⟩
        · cases free.symm.trans turn
        · exact (congrArg Option.isNone minds.fate).symm.trans gone
      cases next with
      | move turn' =>
        cases turn.symm.trans turn'
        rcases reach.rests d with ended | goes | ⟨parked, visits, runs⟩
        · exact absurd ended going'
        · exact .inl goes
        · have waits : ((u.advance r).1.run r).phase = .waiting v :=
            (congrArg (fun t : Table Run => (t.get r).phase) runs).symm.trans phase
          obtain ⟨-, found, finished⟩ := reach.waits_of_parked d parked waits
          exact absurd found (reach.finding?_of_gone fosters' mine dead finished)
      | giveUp turn' job waits =>
        cases turn.symm.trans turn'
        cases (congrArg Job.run? job).symm.trans hosts.job
        exact absurd (World.ended_of_giveUp o turn hosts.job (.inl rfl) waits) going'
      | turn free | tick free | wake _ free | stop _ free | start _ free | abort _ free
      | call _ free => cases free.symm.trans turn
    · have phase' : (u.run r).phase = .waiting v :=
        (reach.still next going turn whole').symm.trans phase
      by_cases alive : (u.task t).isAlive = true
      · have alive' := hosts'.alive
        have opened : (w.visit v).closed = false := by
          rw [← Bool.not_eq_true, h'.enclosed.1.shut v]
          exact fun left => awaited (.inr left)
        have there' : ((w.runOf v).host) = (u.run r).host := by rw [run, host]
        rw [← there'] at alive' ⊢
        have machine (s : Script) : (u.task t).job ≠ .script s := fun job => by
          rcases nursed.job t mine alive with here | ⟨c, hook, here, -⟩ <;>
            cases here.symm.trans job
        have known := World.lt_size_of_isAlive alive
        cases reach.fares next fosters' mine alive with
        | goesOn job fate => cases gone.symm.trans ((congrArg Option.isNone fate).trans alive)
        | begins job driven fate => simp [Task.isAlive, fate] at gone
        | @returns w₁ failure turn returns =>
          obtain ⟨known, minds⟩ := returns.minds known machine
          have raised := (w₁.raiseFor_spec t failure).1
          exact World.isUp_endTask (w := w₁.raiseFor t failure)
            (raised.task t known |>.home.trans (minds.home.trans mine)) opened alive'
        | @panics q turn job =>
          have minds := ((Strokes.advance (t := t + 1) u q).minds (Nat.succ_ne_self t).symm known).2
          exact World.isUp_endTask (minds.home.trans mine) opened alive'
        | dropped free aborted =>
          obtain ⟨x, fate, ended, same⟩ := World.beginTurn_eq_endTask alive aborted
          rw [ended] at opened alive' ⊢
          exact World.isUp_endTask (same.trans mine) opened alive'
      · have up := ih fosters' phase' mine (by simpa using alive) whole'
        rcases next.bystander turn (World.lt_size_of_isAlive hosts.alive) with
          ⟨free, -, rfl⟩ | ⟨-, -, stays⟩
        · refine .inl ?_
          rw [World.beginTurn_of_whole whole']
        · exact stays up

end Scenario.Reaches

end

end Statechart
