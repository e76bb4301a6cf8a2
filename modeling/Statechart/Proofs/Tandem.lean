import Statechart.Proofs.Afresh
import Statechart.Proofs.Bides
import Statechart.Proofs.Bystanders

/-!
# Runs in tandem

Two worlds mirror each other, but a run that is driven by a task of its own in one of them is driven
by the caller itself in the other. In place of the caller, the first world has a task that drives
the run, and its own caller sleeps until that task ends. Both callers wait until the same time, and
until then the two worlds take the same moves: where a caller parks in the one, the driver parks in
the other. With the end of the run, the caller of the one is answered, and the driver of the other
ends and wakes its caller.

## Main definitions

- `World.Concurs`: what two worlds show since two others is the same, but for what was reported.
- `World.Accords`: a run has returned in one world as the task that drives it has ended in another.
- `Tandem`: a run is driven by a task of its own in one world, and by the caller in another.
- `Tandem.Comes`: what becomes of them with the next move.

## Main statements

- `Tandem.step`: the next moves of the two worlds are alike.
- `Tandem.accords`: up to the end of the run, the two worlds show the same, and it ends alike.
-/

namespace Statechart

/-! ## Definitions -/

/-- What two worlds show since two others is the same, whatever was reported since. -/
structure World.Concurs (b b' w w' : World) : Prop where
  shown : b'.shownSince w' = b.shownSince w
  now : w'.now = w.now
  values : w'.values = w.values
  statuses : w'.statuses = w.statuses
  histories : ∀ i, i < w.named → (w'.interpreter i).history = (w.interpreter i).history

/-- Two worlds show the same, a run has returned in the second as the task that drives it has ended
in the first, if it has, and the caller that waits for the task is told so. -/
structure World.Accords (b b' w w' : World) (u c : TaskId) (rest : List Step) : Prop where
  concurs : World.Concurs b b' w w'
  answers : b'.gistsSince w' =
    (w.task u).fate.toList.map fun fate => (World.answerOfFate fate, w.now, w.statuses)
  informs : ∀ fate, (w.task u).fate = some fate → w.Informs c rest fate

/-- Two worlds go on alike, but a run is driven by a task of its own in the first, for which a caller
waits, and by the caller itself in the second; both wait until a deadline, and whoever has no
counterpart sleeps until then. -/
structure Tandem (P : Pairing) (b b' w w' : World) (u c t' : TaskId) (i : InterpreterId)
    (rest rest' : List Step) (r r' : RunId) (τ : Nat) : Prop where
  twins : Twins P b b' w w'
  pair : P.task u t'
  secret : ∀ t, P.secret t ↔ t = u
  lax : ¬ P.Strict
  unveiled : ∀ q, ¬ P.veiled q
  live : P.live r r'
  fresh : ¬ P.stale u
  stale : P.stale c
  driver : (w.task u).core = { job := .drive r none }
  joiner : (w.task u).joiner = some c
  caller : (w.task c).core =
    { job := .control rest (.joining i u τ), wait := some (.time τ) }
  abides' : w'.Abides t' rest' (.running r' τ) τ
  quiet : ∀ σ < τ, Quiet P σ w w'
  early : w.now < τ
  reports' : w'.reports = b'.reports

/-- How the two worlds go on: the run is under way still, or it has ended, or the time is over. -/
inductive Tandem.Comes (b b' w w' : World) (u c t' : TaskId) (i : InterpreterId)
    (rest rest' : List Step) (r r' : RunId) (τ : Nat) (w₁ w₁' : World) : Prop where
  | going {Q : Pairing} (h : Tandem Q b b' w₁ w₁' u c t' i rest rest' r r' τ)
      (reports : w₁.reports = w.reports)
  | ended {S : Pairing} {b₁ : World} {fate : Fate} (concurs : World.Concurs b b' w₁ w₁')
      (bides : Bides S b₁ w₁ c u i rest τ fate) (free : w₁.running = none) {written : Nat}
      (reports' : w₁'.reports =
        w'.reports.push ⟨World.answerOfFate fate, w₁'.now, w₁'.statuses, written⟩)
  | late (late : τ ≤ w₁'.now)

section

variable {P Q : Pairing} {b b' w w' w₁ w₁' : World} {u c t' : TaskId} {i : InterpreterId}
  {rest rest' : List Step} {r r' : RunId} {τ : Nat}

/-! ## What is shown -/

/-- Worlds that mirror each other show the same. -/
theorem Twins.concurs (h : Twins P b b' w w') : World.Concurs b b' w w' := by
  have echoes : World.Echoes { b with reports := w.reports } { b' with reports := w'.reports } w w' :=
    Twins.echoes (P := P) h ⟨[], [], by simp⟩
  exact ⟨echoes.shown, echoes.now, echoes.values, echoes.statuses, echoes.histories⟩

/-- Marks are not shown, and neither are tasks; what is reported is left aside. -/
theorem World.Concurs.ends (h : World.Concurs b b' w w') (size : b.journal.size ≤ w.journal.size)
    (m : Mark) (running : Option TaskId) (queue : List TaskId) (tasks tasks' : Table Task)
    (reports' : Array Report) :
    World.Concurs b b' { w with running, queue, tasks, journal := w.journal.push (.mark m) }
      { w' with tasks := tasks', reports := reports' } :=
  { h with shown := h.shown.trans (World.shownSince_push w size m).symm }

namespace Tandem

/-- What was reported before is of no account. -/
theorem Comes.of_reports {x x' : World} (h : Comes b b' x x' u c t' i rest rest' r r' τ w₁ w₁')
    (reports : x.reports = w.reports) (reports' : x'.reports = w'.reports) :
    Comes b b' w w' u c t' i rest rest' r r' τ w₁ w₁' := by
  cases h with
  | going h same => exact .going h (same.trans reports)
  | ended concurs bides free answered => exact .ended concurs bides free (reports' ▸ answered)
  | late late => exact .late late

/-! ## Moves of others -/

theorem alone (h : Tandem P b b' w w' u c t' i rest rest' r r' τ) (t : TaskId) : ¬ P.task c t := by
  intro pair
  refine (h.twins.tasks.stale c h.stale).2 t ⟨pair, fun secret => ?_⟩
  exact h.fresh ((h.secret c).1 secret ▸ h.stale)

/-- Neither the driver nor the callers have a part in what everybody else does. -/
theorem along (h : Tandem P b b' w w' u c t' i rest rest' r r' τ)
    (a : Alongside P Q b b' w w' w₁ w₁') (stay : w.running = some u → w₁.running = some u)
    (early : w₁.now < τ) : Tandem Q b b' w₁ w₁' u c t' i rest rest' r r' τ := by
  have secret : Q.secret u := a.le.secret ▸ (h.secret u).2 rfl
  have lone : Q.Lone u := fun _ known => known.2 secret
  have stale : Q.stale c := a.le.stale ▸ h.stale
  have lone' : Q.Lone' t' := fun t known =>
    known.2 (Q.unique_task.1 known.1 (a.le.task h.pair) ▸ secret)
  obtain ⟨-, reports'⟩ := a.reports.resolve_left h.lax
  exact {
    twins := a.twins
    pair := a.le.task h.pair
    secret := a.le.secret ▸ h.secret
    lax := fun strict => h.lax
      ⟨by rw [← a.le.stale]; exact strict.left, by rw [← a.le.stale']; exact strict.right⟩
    unveiled := a.le.veiled ▸ h.unveiled
    live := a.le.live h.live
    fresh := a.le.stale ▸ h.fresh
    stale
    driver := (a.left u lone).trans h.driver
    joiner := (a.joiner u lone (a.le.stale ▸ h.fresh)).trans h.joiner
    caller := (a.left c (a.twins.tasks.stale c stale).2).trans h.caller
    abides' := h.abides'.of_core (a.right t' lone') fun here =>
      (a.twins.mirrors.running_iff (a.le.task h.pair)).1
        (stay ((h.twins.mirrors.running_iff h.pair).2 here))
    quiet := fun σ lt => (h.quiet σ lt).alongside a
    early
    reports' := reports'.trans h.reports' }

/-- Nobody wants to be woken before the deadline but those who want so in both worlds. -/
theorem timely (h : Tandem P b b' w w' u c t' i rest rest' r r' τ) (turn : w.running ≠ some u)
    {σ : Nat} (lt : σ < τ) : Timely P σ w w' := by
  have turn' : w'.running ≠ some t' := mt (h.twins.mirrors.running_iff h.pair).2 turn
  refine (h.quiet σ lt).timely h.twins (Nat.le_refl σ) fun t t₁ secret pair δ le => ?_
  obtain rfl := (h.secret t).1 secret
  obtain rfl := P.unique_task.2 pair h.pair
  have awake : (w.task t).deadline? = none := by
    rw [← Task.deadline?_core, h.driver]
    rfl
  rw [awake, h.abides'.deadline? turn']
  refine iff_of_false nofun fun same => ?_
  obtain rfl := Option.some.inj same
  exact absurd le (Nat.not_le.2 lt)

/-- When nobody is ready, time goes on to the same moment, or to the deadline. -/
theorem clock (h : Tandem P b b' w w' u c t' i rest rest' r r' τ) (free : w.running = none) :
    (∃ σ, w.nextDeadline? = some σ ∧ Timely P σ w w') ∨ w'.nextDeadline? = some τ := by
  have turn : w.running ≠ some u := by simp [free]
  have turn' : w'.running ≠ some t' := mt (h.twins.mirrors.running_iff h.pair).2 turn
  have sleeps : (w.task c).deadline? = some τ := by
    rw [← Task.deadline?_core, h.caller]
    rfl
  obtain ⟨σ, le, next⟩ := World.exists_nextDeadline? sleeps
  rcases Nat.lt_or_eq_of_le le with lt | rfl
  · exact .inl ⟨σ, next, h.timely turn lt⟩
  · obtain ⟨σ', le', next'⟩ := World.exists_nextDeadline? (h.abides'.deadline? turn')
    rcases Nat.lt_or_eq_of_le le' with lt' | rfl
    · -- Whoever is due so early would be due in the first world, too.
      have timely := h.timely turn lt'
      obtain ⟨⟨t, due⟩, -⟩ := World.nextDeadline?_eq_some.1 next'
      obtain ⟨t₁, pair⟩ := timely.right t σ' (Nat.le_refl _) due
      have due₁ := (timely.pairs t₁ t pair σ' (Nat.le_refl _)).2 due
      exact absurd ((World.nextDeadline?_eq_some.1 next).2 t₁ σ' due₁) (Nat.not_le.2 lt')
    · exact .inr next'

/-- Everybody but the driver goes on. -/
theorem others (h : Tandem P b b' w w' u c t' i rest rest' r r' τ) (turn : w.running ≠ some u) :
    ∃ w₁ w₁', w.step? = some w₁ ∧ w'.step? = some w₁' ∧
      Comes b b' w w' u c t' i rest rest' r r' τ w₁ w₁' := by
  have known {t t₁ : TaskId} (pair : P.task t t₁) (other : t ≠ u) : P.known t t₁ :=
    ⟨pair, mt (h.secret t).1 other⟩
  have whole : (w.task u).aborted = false := congrArg Task.aborted h.driver
  have goes (ticks : w.running = none → w.queue = [] →
      ∃ σ, w.nextDeadline? = some σ ∧ Timely P σ w w') :
      ∃ w₁ w₁', w.step? = some w₁ ∧ w'.step? = some w₁' ∧
        Comes b b' w w' u c t' i rest rest' r r' τ w₁ w₁' := by
    obtain ⟨Q, w₁, w₁', step, step', a, -⟩ := h.twins.step? h.unveiled
      (fun t t₁ running pair => known pair fun same => turn (same ▸ running))
      (fun t t₁ _ _ aborted pair => known pair fun same => by
        rw [same, whole] at aborted
        cases aborted)
      ticks
    refine ⟨w₁, w₁', step, step', ?_⟩
    by_cases early : w₁.now < τ
    · exact .going (h.along a (fun here => absurd here turn) early)
        (a.reports.resolve_left h.lax).1
    · exact .late (a.twins.now ▸ Nat.not_lt.1 early)
  by_cases idle : w.running = none ∧ w.queue = []
  · rcases h.clock idle.1 with ticks | next'
    · exact goes fun _ _ => ticks
    · -- The time is over in the second world, and in the first as well.
      have free' : w'.running = none := by
        have running := h.twins.running
        rw [idle.1] at running
        cases hr : w'.running with
        | none => rfl
        | some t => rw [hr] at running; cases running
      have empty : w'.queue = [] := List.forall₂_nil_left_iff.1 (idle.2 ▸ h.twins.queue)
      have sleeps : (w.task c).deadline? = some τ := by
        rw [← Task.deadline?_core, h.caller]
        rfl
      obtain ⟨σ, -, next⟩ := World.exists_nextDeadline? sleeps
      refine ⟨_, _, by rw [World.step?, idle.1, idle.2]; exact congrArg (Option.map _) next,
        by rw [World.step?, free', empty]; exact congrArg (Option.map _) next', .late ?_⟩
      rw [World.now_wakeAll_dueTasks]
      exact Nat.le_max_right ..
  · exact goes fun free queue => absurd ⟨free, queue⟩ idle

/-! ## Moves of the run -/

/-- The first world's driver waits to be woken, and the caller of the second does. -/
theorem parks (h : Tandem P b b' w w' u c t' i rest rest' r r' τ) :
    Tandem P b b' (w.park u) (w'.parkUntil t' τ) u c t' i rest rest' r r' τ := by
  -- The caller notes first until when it waits, which nobody in the comparison sees.
  have parked : Twins P b b' (w.park u) (w'.parkUntil t' τ) := by
    have waits : Mirrors P (w.dated b) ((w'.modifyTask t' fun x =>
        { x with wait := some (.time τ) }).dated b') w
          (w'.modifyTask t' fun x => { x with wait := some (.time τ) }) := by
      have lone' : P.Lone' t' := fun t known =>
        known.2 ((h.secret t).2 (P.unique_task.1 known.1 h.pair))
      exact h.twins.mirrors.modifyRight lone' ⟨rfl, rfl, rfl⟩
        (.dated h.twins.told h.twins.left.holds
          (h.twins.right.holds_modifyTask fun _ _ held => held))
    exact Twins.next (waits.park h.pair)
  have core (t : TaskId) : ((w.park u).task t).core = (w.task t).core := w.core_park u t
  obtain ⟨queue, -, park⟩ := w.park_eq u
  exact { h with
    twins := parked
    driver := (core u).trans h.driver
    joiner := by
      rw [park, World.task_mk, World.modifyTask, Table.get_modify, if_pos rfl]
      exact h.joiner
    caller := (core c).trans h.caller
    abides' := by
      obtain ⟨wait, row, -⟩ := h.abides'
      exact ⟨_, by rw [World.core_parkUntil, if_pos rfl, row], .inl rfl⟩
    quiet := fun σ lt => (h.quiet σ lt).of_core h.pair (fun t _ => core t)
      fun t other => by rw [World.core_parkUntil, if_neg other]
    early := by
      rw [park]
      exact h.early
    reports' := (World.reports_parkUntil ..).trans h.reports' }

/-- The driver ends, and the caller of the second world is answered. -/
theorem ends (h : Tandem P b b' w w' u c t' i rest rest' r r' τ) (turn : w.running = some u)
    (fate : Fate) :
    Comes b b' w w' u c t' i rest rest' r r' τ (w.endTask u fate)
      (w'.answer t' rest' (World.answerOfFate fate)) := by
  obtain ⟨S, bides⟩ := h.twins.bides turn h.pair h.secret h.unveiled h.alone h.driver h.joiner
    h.caller fate
  have plain : w.Plain u := ⟨_, _, h.driver, nofun⟩
  obtain ⟨running, queue, tasks, ended, -⟩ := World.endTask_controller plain fate
  have free : (w.endTask u fate).running = none := by
    rw [World.endTask_driver h.driver h.joiner]
    obtain ⟨queue, tasks, woken⟩ := (w.bury u fate).wake_eq c
    rw [woken]
    simp [World.bury, turn, World.mark, World.log, World.modifyTask]
  rw [World.answer_eq h.abides'.plain]
  refine .ended ?_ bides free rfl
  rw [ended]
  exact h.twins.concurs.ends h.twins.told.size_le.1 _ _ _ _ _ _

/-- The driver takes the run further, and so does the caller of the second world. -/
theorem runs (h : Tandem P b b' w w' u c t' i rest rest' r r' τ) (turn : w.running = some u)
    (stay : (w.advance r).1.running = w.running) :
    Comes b b' w w' u c t' i rest rest' r r' τ (w.moveDrive u r none)
      (w'.moveRunning t' rest' r' τ) := by
  obtain ⟨Q, le, advanced⟩ := h.twins.mirrors.advance h.live (h.unveiled r)
  unfold World.moveDrive World.moveRunning
  obtain ⟨w₁, w₁', signal, hx, hx', h₁⟩ := advanced.exists_eq
  rw [hx] at stay
  rw [hx, hx']
  have a : Alongside P Q b b' w w' w₁ w₁' := .of_mirrors le h₁
  have early : w₁.now < τ := by
    have still : w₁.now = w.now := h₁.still
    exact still ▸ h.early
  have goes := h.along a (fun here => stay.trans here) early
  obtain ⟨reports, reports'⟩ := a.reports.resolve_left h.lax
  have turn₁ : w₁.running = some u := stay.trans turn
  cases signal with
  | busy => exact .going goes reports
  | parked =>
    have early' : w₁'.now < τ := a.twins.now.symm ▸ early
    simp only [if_pos early']
    obtain ⟨queue, -, park⟩ := w₁.park_eq u
    exact .going goes.parks (by rw [park]; exact reports)
  | panicked => exact (goes.ends turn₁ .panicked).of_reports reports reports'
  | returned result => exact (goes.ends turn₁ (.ran result)).of_reports reports reports'

/-- The two worlds take a step. -/
theorem step (h : Tandem P b b' w w' u c t' i rest rest' r r' τ) (sound : Sound w .rest) :
    ∃ w₁ w₁', w.step? = some w₁ ∧ w'.step? = some w₁' ∧
      Comes b b' w w' u c t' i rest rest' r r' τ w₁ w₁' := by
  by_cases turn : w.running = some u
  · have turn' := (h.twins.mirrors.running_iff h.pair).1 turn
    have job : (w.task u).job = .drive r none := congrArg Task.job h.driver
    have drives : w.Drives u r := ⟨turn, by rw [job]; rfl⟩
    have going := (sound.driver u r (sound.turn u turn) drives.job).2.resolve_right nofun
    refine ⟨w.move u, w'.move t', by rw [World.step?, turn], by rw [World.step?, turn'], ?_⟩
    rw [World.move, World.move, job, h.abides'.job]
    exact h.runs turn (Paces.advance drives going).running
  · exact h.others turn

end Tandem

/-! ## Runs of the two worlds -/

theorem World.now_le_makeMoves (w : World) (steps n : Nat) : w.now ≤ (w.makeMoves steps n).now := by
  induction n generalizing w with
  | zero => exact Nat.le_refl _
  | succ n ih =>
    unfold World.makeMoves
    split
    · exact Nat.le_refl _
    · split
      · next w₁ step => exact Nat.le_trans (World.Next.of_step? step).now_le (ih w₁)
      · exact Nat.le_refl _

theorem World.gistsSince_of_eq (same : w.reports = b.reports) : b.gistsSince w = [] := by
  rw [gistsSince, same, ← Array.length_toList, List.drop_length]
  rfl

theorem World.gistsSince_push {x : Report} (push : w.reports = b.reports.push x) :
    b.gistsSince w = [x.gist] := by
  rw [gistsSince, push, Array.toList_push, ← Array.length_toList, List.drop_left]
  rfl

namespace Tandem

/-- While the run is under way, it has returned in neither world. -/
theorem under_way (h : Tandem P b b' w w' u c t' i rest rest' r r' τ) :
    World.Accords b b' w w' u c rest := by
  have alive : (w.task u).fate = none := congrArg Task.fate h.driver
  refine ⟨h.twins.concurs, ?_, fun fate gone => ?_⟩
  · rw [World.gistsSince_of_eq h.reports', alive]
    rfl
  · rw [alive] at gone
    cases gone

/-- Up to the end of the run, the two worlds show the same, and it ends alike. -/
theorem accords {s : Scenario} (h : Tandem P b b' w w' u c t' i rest rest' r r' τ)
    (reached : s.Reaches w) (n : Nat)
    (going : ∀ m < n, (w'.makeMoves (w'.reports.size + 1) m).reports.size = w'.reports.size)
    (early : (w'.makeMoves (w'.reports.size + 1) n).now < τ) :
    World.Accords b b' (w.makeMoves (w.reports.size + 1) n)
      (w'.makeMoves (w'.reports.size + 1) n) u c rest := by
  induction n generalizing P w w' with
  | zero => exact h.under_way
  | succ n ih =>
    obtain ⟨w₁, w₁', step, step', comes⟩ := h.step reached.sound
    have reached₁ := reached.tail (.of_step? step)
    have first := World.makeMoves_of_step? (Nat.lt_succ_self _) step
    have first' := World.makeMoves_of_step? (Nat.lt_succ_self _) step'
    rw [first'] at early
    rw [first, first']
    cases comes with
    | going h₁ reports =>
      have reports' : w₁'.reports = w'.reports := h₁.reports'.trans h.reports'.symm
      rw [← reports'] at early
      rw [← reports, ← reports']
      refine ih h₁ reached₁ (fun m lt => ?_) early
      rw [reports', ← first']
      exact going (m + 1) (Nat.succ_lt_succ lt)
    | @ended S b₁ fate concurs bides free written answered =>
      -- Nothing was to be reported before.
      cases n with
      | zero =>
        refine ⟨concurs, ?_, fun fate' gone => ?_⟩
        · rw [World.makeMoves, World.makeMoves, World.gistsSince_push (h.reports' ▸ answered),
            bides.gone]
          simp only [Report.gist, concurs.now, concurs.statuses]
          rfl
        · obtain rfl := Option.some.inj (bides.gone.symm.trans gone)
          exact bides.informs reached₁ free
      | succ n =>
        have still := going 1 (by omega)
        rw [first', World.makeMoves, answered, Array.size_push] at still
        omega
    | late late => exact absurd early (Nat.not_lt.2 (Nat.le_trans late (w₁'.now_le_makeMoves _ _)))

end Tandem

end

end Statechart
