import Statechart.Proofs.Routing
import Statechart.Proofs.Strokes

/-!
# Visits that foster a machine

A state may have no other work than to run a machine. A visit of it hires one task, which begins a
run of the machine, drives it, and ends as that run does. Nobody else ever has the callback of the
visit, so nothing is raised on it but the outcome of that task.

## Main definitions

- `State.Fosters`: the only work of a state is to run a machine.
- `World.Carries`, `World.Came`: the run of a machine that a task drives, and what it has come to.
- `World.Nursed`: how the task of a visit stands that fosters a machine.

## Main statements

- `Fostered.deed`: whatever happens to tasks, visits that foster a machine are nursed.
- `Scenario.Reaches.fostered`: they are in every world that a scenario comes to.
-/

namespace Statechart

/-! ## Definitions -/

/-- The only work of a state is to run a machine. -/
structure State.Fosters (s : State) (m : Machine) : Prop where
  services : s.services = [.nested m]
  activities : s.activities = []

/-- A task is the host of a run, which is one of this machine. -/
structure World.Carries (w : World) (t : TaskId) (c : RunId) (m : Machine) : Prop where
  began : .began c ∈ w.marks
  known : c < w.runs.size
  founded : (w.run c).interpreter < w.interpreters.size
  host : (w.run c).host = t
  machine : w.machineOf c = m

/-- What the end of a task comes to that was to run a machine: the machine could not start, or its
run has returned. -/
inductive World.Came (w : World) (t : TaskId) (m : Machine) : Option Fault → Prop where
  | refused {e : RunError} (refused : m.startState = .error e) : w.Came t m (some (.run e))
  | ran {c : RunId} {result : RunResult} (carries : w.Carries t c m)
      (returned : .returned c result ∈ w.marks) : w.Came t m (nestedFailure m.id result)

/-- How a task has ended that was to run a machine for a visit. -/
inductive World.Went (w : World) (t : TaskId) (v : VisitId) (m : Machine) : Fate → Prop where
  | returned {failure : Option Fault} (came : w.Came t m failure)
      (raised : ∀ d, .raised v d true ∈ w.marks → d = .outcome 0 failure) : w.Went t v m .returned
  | panicked {c : RunId} (carries : w.Carries t c m) : w.Went t v m .panicked
  | dropped (aborted : (w.task t).aborted = true) : w.Went t v m .dropped

/-- How the task of a visit stands that fosters a machine. -/
structure World.Nursed (w : World) (v : VisitId) (m : Machine) : Prop where
  one : ∀ t u, (w.task t).home = some v → (w.task u).home = some v → t = u
  hired : .launched v (.service 0) ∈ w.marks → ∃ t, (w.task t).home = some v
  callback : ∀ t, (w.task t).reach.callback ≠ some v
  kept : ∀ k ∈ w.kept, k.2 ≠ v
  route : ∀ t, (w.task t).home = some v → (w.task t).route = some ⟨v, 0⟩
  job : ∀ t, (w.task t).home = some v → (w.task t).isAlive = true →
    (w.task t).job = .nested m ∨
      ∃ c hook, (w.task t).job = .drive c (some hook) ∧ w.Carries t c m
  went : ∀ t fate, (w.task t).home = some v → (w.task t).fate = some fate → w.Went t v m fate
  /-- Nothing is raised but the outcome of the task. -/
  silent : ∀ d, .raised v d true ∈ w.marks →
    ∃ t, (w.task t).home = some v ∧ (w.task t).fate = some .returned

/-- Visits that foster a machine are nursed. -/
structure Fostered (w : World) : Prop where
  known : ∀ v part, .launched v part ∈ w.marks → v < w.visits.size
  nursed : ∀ v m, (w.visit v).state.Fosters m → w.Nursed v m

/-- Something happens that the task of a visit has nothing to do with. -/
structure World.Bypasses (w : World) (v : VisitId) (w' : World) : Prop extends Anchored w w' where
  home : ∀ t, (w'.task t).home = some v ↔ (w.task t).home = some v
  task : ∀ t, (w.task t).home = some v → (w'.task t).route = (w.task t).route ∧
    (w'.task t).fate = (w.task t).fate ∧ ((w.task t).aborted = true → (w'.task t).aborted = true)
  job : ∀ t, (w.task t).home = some v → (w.task t).isAlive = true →
    (w'.task t).job = (w.task t).job
  callback : ∀ t, (w'.task t).reach.callback = some v → (w.task t).reach.callback = some v
  kept : ∀ k ∈ w'.kept, k.2 = v → ∃ k ∈ w.kept, k.2 = v
  marks : w.marks ⊆ w'.marks
  launched : .launched v (.service 0) ∈ w'.marks → .launched v (.service 0) ∈ w.marks
  raised : ∀ d, .raised v d true ∈ w'.marks → .raised v d true ∈ w.marks

section

variable {w w' w'' : World} {c : Option VisitId} {t u : TaskId} {v : VisitId} {m : Machine}
  {fate : Fate}

/-! ## States that foster a machine -/

namespace State.Fosters

variable {s : State} {k : Nat}

/-- A service of the state is the one that runs the machine. -/
theorem service (h : s.Fosters m) {service : Service} (part : s.services[k]? = some service) :
    k = 0 ∧ service = .nested m := by
  rw [h.services] at part
  cases k with
  | zero => exact ⟨rfl, (Option.some.inj part).symm⟩
  | succ k => simp at part

theorem activity (h : s.Fosters m) {work : Work} : s.activities[k]? ≠ some work := by
  simp [h.activities]

/-- Whoever works for a visit with other work is not what it has to hire. -/
theorem not_crew {x : Task} (h : (w.visit v).state.Fosters m) : ¬ w.Crew v x := by
  intro crew
  cases crew with
  | free part | routed part => cases (h.service part).2
  | active part => exact h.activity part

end State.Fosters

/-! ## What goes on -/

namespace World

theorem Carries.mono {c : RunId} (h : w.Carries t c m) (anchored : Anchored w w')
    (marks : w.marks ⊆ w'.marks) : w'.Carries t c m where
  began := marks h.began
  known := Nat.lt_of_lt_of_le h.known anchored.runs
  founded := by
    rw [anchored.interpreter c h.known]
    exact Nat.lt_of_lt_of_le h.founded anchored.interpreters
  host := (anchored.host c h.known).trans h.host
  machine := (anchored.machineOf h.known h.founded).trans h.machine

theorem Came.mono {failure : Option Fault} (h : w.Came t m failure) (anchored : Anchored w w')
    (marks : w.marks ⊆ w'.marks) : w'.Came t m failure := by
  cases h with
  | refused refused => exact .refused refused
  | ran carries returned => exact .ran (carries.mono anchored marks) (marks returned)

/-- The visit stays nursed. -/
theorem Nursed.keep (h : w.Nursed v m) (b : w.Bypasses v w') : w'.Nursed v m where
  one t u ht hu := h.one t u ((b.home t).1 ht) ((b.home u).1 hu)
  hired here := by
    obtain ⟨t, home⟩ := h.hired (b.launched here)
    exact ⟨t, (b.home t).2 home⟩
  callback t lent := h.callback t (b.callback t lent)
  kept k hk mine := by
    obtain ⟨k', hk', mine'⟩ := b.kept k hk mine
    exact h.kept k' hk' mine'
  route t home := (b.task t ((b.home t).1 home)).1.trans (h.route t ((b.home t).1 home))
  job t home alive := by
    have mine := (b.home t).1 home
    have alive : (w.task t).isAlive = true :=
      (congrArg Option.isNone (b.task t mine).2.1).symm.trans alive
    rw [b.job t mine alive]
    exact (h.job t mine alive).imp_right
      fun ⟨c, hook, job, carries⟩ => ⟨c, hook, job, carries.mono b.toAnchored b.marks⟩
  went t fate home gone := by
    have mine := (b.home t).1 home
    obtain ⟨-, same, aborted⟩ := b.task t mine
    cases h.went t fate mine (same.symm.trans gone) with
    | returned came raised =>
      exact .returned (came.mono b.toAnchored b.marks) fun d hd => raised d (b.raised d hd)
    | panicked carries => exact .panicked (carries.mono b.toAnchored b.marks)
    | dropped told => exact .dropped (aborted told)
  silent d hd := by
    obtain ⟨t, home, gone⟩ := h.silent d (b.raised d hd)
    exact ⟨t, (b.home t).2 home, (b.task t home).2.1.trans gone⟩

/-- A task that gets something else to do is the same otherwise. -/
theorem task_setJob (w : World) (t u : TaskId) (job : Job) :
    ∃ x, (w.setJob t job).task u = { w.task u with job := x } := by
  simp only [setJob, task_modifyTask]
  split
  · exact ⟨job, rfl⟩
  · exact ⟨(w.task u).job, rfl⟩

/-- The task of the visit goes on with a run of the machine. -/
theorem Nursed.drive {c : RunId} {hook : TaskId} (h : w.Nursed v m)
    (home : (w.task t).home = some v) (carries : w.Carries t c m) :
    (w.setJob t (.drive c (some hook))).Nursed v m := by
  have anchored : Anchored w (w.setJob t (.drive c (some hook))) := .of_eq rfl rfl
  have same (u : TaskId) : ((w.setJob t (.drive c (some hook))).task u).home = (w.task u).home ∧
      ((w.setJob t (.drive c (some hook))).task u).route = (w.task u).route ∧
      ((w.setJob t (.drive c (some hook))).task u).reach = (w.task u).reach ∧
      ((w.setJob t (.drive c (some hook))).task u).fate = (w.task u).fate ∧
      ((w.setJob t (.drive c (some hook))).task u).aborted = (w.task u).aborted := by
    obtain ⟨x, same⟩ := w.task_setJob t u (.drive c (some hook))
    rw [same]
    exact ⟨rfl, rfl, rfl, rfl, rfl⟩
  -- Only the job of one task changes, and it is still about the machine.
  exact { one := fun u u' hu hu' => h.one u u' ((same u).1 ▸ hu) ((same u').1 ▸ hu')
          hired := fun here => by
            obtain ⟨u, hu⟩ := h.hired here
            exact ⟨u, (same u).1.trans hu⟩
          callback := fun u lent => h.callback u ((same u).2.2.1 ▸ lent)
          kept := h.kept
          route := fun u hu => (same u).2.1.trans (h.route u ((same u).1 ▸ hu))
          job := fun u hu _ => by
            cases h.one t u home ((same u).1 ▸ hu)
            refine .inr ⟨c, hook, ?_, carries.mono anchored fun _ => id⟩
            rw [setJob, task_modifyTask, if_pos rfl]
          went := fun u fate hu gone => by
            obtain ⟨mine, -, -, fate', aborted⟩ := same u
            cases h.went u fate (mine ▸ hu) (fate'.symm.trans gone) with
            | returned came raised => exact .returned (came.mono anchored fun _ => id) raised
            | panicked carries => exact .panicked (carries.mono anchored fun _ => id)
            | dropped told => exact .dropped (aborted.trans told)
          silent := fun d hd => by
            obtain ⟨u, hu, gone⟩ := h.silent d hd
            exact ⟨u, (same u).1.trans hu, (same u).2.2.2.1.trans gone⟩ }

namespace Bypasses

/-- What scripts leave alone, unless they have the callback of the visit. -/
theorem of_spares (spares : Spares c w w') (aside : ¬ w.AtHand c v) : w.Bypasses v w' where
  toAnchored := spares.toAnchored
  home t := by
    rcases Nat.lt_or_ge t w.tasks.size with old | new
    · rw [(spares.task t old).home]
    · rw [(spares.fresh t new).home, home_of_size_le new]
  task t home := by
    have spared := spares.task t (lt_size_of_home home)
    exact ⟨spared.route, spared.fate, fun told => spared.aborted.trans told⟩
  job t home _ := (spares.task t (lt_size_of_home home)).job
  callback t lent := by
    rcases Nat.lt_or_ge t w.tasks.size with old | new
    · exact (spares.task t old).callback v lent
    · exact absurd ((spares.fresh t new).callback v lent) aside
  kept k hk mine := absurd (mine ▸ spares.kept k hk) aside
  marks := spares.marks.subset
  launched here := spares.silent _ here rfl
  raised d hd := (spares.raised v d hd).resolve_right fun ⟨hand, _⟩ => aside hand

/-- Somebody is told to go. -/
theorem of_dismisses {P : TaskId → Prop} (told : Dismisses P w w') (frame : Statechart.Frame w w') :
    w.Bypasses v w' := by
  have same (t : TaskId) : ∃ aborted, w'.task t = { w.task t with aborted } := by
    obtain ⟨aborted, same, -⟩ := told.task t
    exact ⟨aborted, same⟩
  exact { toAnchored := .of_eq told.runs told.interpreters
          home := fun t => by obtain ⟨_, same⟩ := same t; rw [same]
          task := fun t _ => ⟨by obtain ⟨_, same⟩ := same t; rw [same],
            by obtain ⟨_, same⟩ := same t; rw [same], (frame.task t).aborted⟩
          job := fun t _ _ => by obtain ⟨_, same⟩ := same t; rw [same]
          callback := fun t lent => by obtain ⟨_, same⟩ := same t; rwa [same] at lent
          kept := fun k hk mine => ⟨k, told.kept ▸ hk, mine⟩
          marks := fun _ hm => told.marks ▸ hm
          launched := fun here => told.marks ▸ here
          raised := fun d hd => told.marks ▸ hd }

/-- Nothing happens to tasks. -/
theorem of_eq (anchored : Anchored w w') (tasks : w'.tasks = w.tasks) (kept : w'.kept = w.kept)
    {news : List Mark} (marks : w'.marks = w.marks ++ news)
    (other : ∀ n ∈ news, n ≠ .launched v (.service 0) ∧ ∀ d, n ≠ .raised v d true) :
    w.Bypasses v w' := by
  have task (t : TaskId) : w'.task t = w.task t := congrArg (Table.get · t) tasks
  have old {n : Mark} (here : n ∈ w'.marks) (mine : n = .launched v (.service 0) ∨
      ∃ d, n = .raised v d true) : n ∈ w.marks := by
    rw [marks] at here
    refine (List.mem_append.1 here).resolve_right fun new => ?_
    obtain ⟨launched, raised⟩ := other n new
    rcases mine with same | ⟨d, same⟩
    · exact launched same
    · exact raised d same
  exact { toAnchored := anchored
          home := fun t => by rw [task]
          task := fun t _ => by rw [task]; exact ⟨rfl, rfl, id⟩
          job := fun t _ _ => by rw [task]
          callback := fun t lent => task t ▸ lent
          kept := fun k hk mine => ⟨k, kept ▸ hk, mine⟩
          marks := marks ▸ List.subset_append_left _ _
          launched := fun here => old here (.inl rfl)
          raised := fun d here => old here (.inr ⟨d, rfl⟩) }

/-- Another visit hires a task. -/
theorem spawnFor {x : Task} {other : VisitId} (apart : other ≠ v)
    (lent : x.reach.callback ≠ some v) : w.Bypasses v (w.spawnFor other x) := by
  have task := w.task_spawnFor other x
  have old {t : TaskId} (home : (w.task t).home = some v) :
      (w.spawnFor other x).task t = w.task t :=
    task_spawnFor_of_lt (lt_size_of_home home) other x
  exact { toAnchored := .of_eq rfl rfl
          home := fun t => by
            rw [task]
            split
            · next new =>
              rw [home_of_size_le (Nat.le_of_eq new.symm)]
              simp [apart]
            · rfl
          task := fun t home => by rw [old home]; exact ⟨rfl, rfl, id⟩
          job := fun t home _ => by rw [old home]
          callback := fun t here => by
            rw [task] at here
            split at here
            · exact absurd here lent
            · exact here
          kept := fun k hk mine => ⟨k, hk, mine⟩
          marks := fun _ => id
          launched := id
          raised := fun _ => id }

/-- A task ends that works for no visit or for another. -/
theorem of_ended (e : w.Ended t fate w') (apart : (w.task t).home ≠ some v)
    (aside : ¬ w.AtHand none v) : w.Bypasses v w' := by
  have spared {u : TaskId} (home : (w.task u).home = some v) : (w.task u).Spared (w'.task u) :=
    e.task u (fun same => apart (same ▸ home)) (lt_size_of_home home)
  have quiet {n : Mark} (here : n ∈ w.marks) : n ∈ w'.marks :=
    e.marks.subset (List.mem_append_left _ here)
  exact { toAnchored := e.toAnchored
          home := fun u => by
            by_cases mine : u = t
            · rw [mine, e.self.1]
            · rcases Nat.lt_or_ge u w.tasks.size with old | new
              · rw [(e.task u mine old).home]
              · rw [(e.fresh u new).home, home_of_size_le new]
          task := fun u home =>
            ⟨(spared home).route, (spared home).fate, fun told => (spared home).aborted.trans told⟩
          job := fun u home _ => (spared home).job
          callback := fun u lent => by
            by_cases mine : u = t
            · subst mine
              exact e.reach v lent
            · rcases Nat.lt_or_ge u w.tasks.size with old | new
              · exact (e.task u mine old).callback v lent
              · exact absurd ((e.fresh u new).callback v lent) aside
          kept := fun k hk mine => by
            obtain ⟨k', hk', same⟩ := e.kept k hk
            exact ⟨k', hk', same.trans mine⟩
          marks := fun _ => quiet
          launched := fun here => e.silent _ here rfl
          raised := fun d hd => (e.raised v d hd).resolve_right fun lent => aside lent.1 }

/-- A task that is gone, or one that works for no visit or for another, goes on to something
else. -/
theorem setJob {job : Job} (apart : (w.task t).home = some v → (w.task t).isAlive = false) :
    w.Bypasses v (w.setJob t job) := by
  have same (u : TaskId) := w.task_setJob t u job
  exact { toAnchored := .of_eq rfl rfl
          home := fun u => by obtain ⟨x, same⟩ := same u; rw [same]
          task := fun u _ => by obtain ⟨x, same⟩ := same u; rw [same]; exact ⟨rfl, rfl, id⟩
          job := fun u home alive => by
            refine congrArg Task.job ((task_modifyTask ..).trans (if_neg ?_))
            rintro rfl
            cases (apart home).symm.trans alive
          callback := fun u lent => by obtain ⟨x, same⟩ := same u; rwa [same] at lent
          kept := fun k hk mine => ⟨k, hk, mine⟩
          marks := fun _ => id
          launched := id
          raised := fun _ => id }

end Bypasses

/-! ## The end of the task -/

/-- Raising an event hands out no callback, and raises no other event. -/
theorem raise_aside (w : World) (v : VisitId) (d : Decision) :
    (∀ u, ((w.raise v d).1.task u).reach = (w.task u).reach) ∧ (w.raise v d).1.kept = w.kept ∧
      ∀ u d', .raised u d' true ∈ (w.raise v d).1.marks →
        .raised u d' true ∈ w.marks ∨ u = v ∧ d' = d := by
  have woken (u x : TaskId) : ((w.wake x).task u).reach = (w.task u).reach := by
    unfold wake enqueue
    split
    · rfl
    · split
      · rw [task_modifyTask]
        split <;> rfl
      · split <;> rfl
  have marks (u : VisitId) (d' : Decision) (here : .raised u d' true ∈ (w.raise v d).1.marks) :
      .raised u d' true ∈ w.marks ∨ u = v ∧ d' = d := by
    rw [marks_raise] at here
    refine (List.mem_append.1 here).imp_right fun new => ?_
    have same := List.mem_singleton.1 new
    rw [Mark.raised.injEq] at same
    exact ⟨same.1, same.2.1⟩
  obtain ⟨w₁, told, visits, journal, same⟩ := w.raise_wakes v d
  refine ⟨fun u => ?_, ?_, marks⟩
  · rw [same]
    rcases told with rfl | ⟨x, rfl⟩
    · rfl
    · exact woken u x
  · rw [same]
    rcases told with rfl | ⟨x, rfl⟩
    · rfl
    · exact (Statechart.Frame.wake w x).1.kept

/-- What raising the outcome of a task changes, and what it does not. -/
theorem raiseFor_spec (w : World) (t : TaskId) (failure : Option Fault) :
    Spares ((w.task t).route.map Route.visit) w (w.raiseFor t failure) ∧
    (∀ u, ((w.raiseFor t failure).task u).reach = (w.task u).reach) ∧
    (w.raiseFor t failure).kept = w.kept ∧
    ∀ v d, .raised v d true ∈ (w.raiseFor t failure).marks → .raised v d true ∈ w.marks ∨
      ∃ k, (w.task t).route = some ⟨v, k⟩ ∧ d = .outcome k failure := by
  unfold raiseFor
  cases (w.task t).route with
  | none => exact ⟨.refl _ w, fun _ => rfl, rfl, fun v d => .inl⟩
  | some route =>
    refine ⟨.raiseOutcome .., ?_⟩
    have traced (tr : Trace) : (w.trace tr).marks = w.marks := by simp [trace, Entry.mark?]
    -- Whatever is raised is raised on the visit of the route.
    have raised (w₁ : World) (same : ∀ u, (w₁.task u).reach = (w.task u).reach)
        (kept : w₁.kept = w.kept) (marks : w₁.marks = w.marks) (d : Decision)
        (mine : d = .outcome route.service failure) :
        (∀ u, ((w₁.raise route.visit d).1.task u).reach = (w.task u).reach) ∧
          (w₁.raise route.visit d).1.kept = w.kept ∧
          ∀ v d', .raised v d' true ∈ (w₁.raise route.visit d).1.marks →
            .raised v d' true ∈ w.marks ∨
              ∃ k, some route = some ⟨v, k⟩ ∧ d' = .outcome k failure := by
      obtain ⟨reach, kept', only⟩ := w₁.raise_aside route.visit d
      refine ⟨fun u => (reach u).trans (same u), kept'.trans kept, fun v d' here => ?_⟩
      refine (only v d' here).imp (fun old => marks ▸ old) ?_
      rintro ⟨rfl, rfl⟩
      exact ⟨route.service, rfl, mine⟩
    -- A success is raised unless its token is cancelled; a failure is traced in any case.
    unfold raiseOutcome
    cases failure with
    | none =>
      simp only
      split
      · exact ⟨fun _ => rfl, rfl, fun v d => .inl⟩
      · exact raised w (fun _ => rfl) rfl rfl _ rfl
    | some fault =>
      simp only
      split
      · exact ⟨fun _ => rfl, rfl, fun v d here => .inl (traced _ ▸ here)⟩
      · exact raised (w.trace (.actionFailed (w.visit route.visit).state.id fault))
          (fun _ => rfl) rfl (traced _) _ rfl

/-- A visit that nobody has worked for yet hires the task that is to run its machine. -/
theorem Nursed.hire (h : w.Nursed v m) (nobody : ∀ t, (w.task t).home ≠ some v) :
    ((w.mark (.launched v (.service 0))).spawnFor v
      { job := .nested m, route := some ⟨v, 0⟩ }).Nursed v m := by
  -- The mark is of no account to any row, so it is kept out of the way.
  obtain ⟨w₁, marked⟩ : ∃ w₁, w₁ = w.mark (.launched v (.service 0)) := ⟨_, rfl⟩
  have marks : w₁.marks = w.marks ++ [.launched v (.service 0)] := marked ▸ w.marks_mark _
  have task (t : TaskId) : (w₁.spawnFor v { job := .nested m, route := some ⟨v, 0⟩ }).task t =
      if t = w.tasks.size then
        { job := .nested m, route := some ⟨v, 0⟩, home := some v } else w.task t := by
    rw [marked]
    exact task_spawnFor ..
  rw [← marked]
  have never {d : Decision} (here : .raised v d true ∈ w₁.marks) : False := by
    rw [marks] at here
    rcases List.mem_append.1 here with old | new
    · obtain ⟨t, home, -⟩ := h.silent d old
      exact nobody t home
    · cases List.mem_singleton.1 new
  have new {t : TaskId}
      (home : ((w₁.spawnFor v { job := .nested m, route := some ⟨v, 0⟩ }).task t).home =
        some v) : t = w.tasks.size := by
    rw [task] at home
    split at home
    · assumption
    · exact absurd home (nobody t)
  exact { one := fun t u ht hu => (new ht).trans (new hu).symm
          hired := fun _ => ⟨w.tasks.size, by rw [task, if_pos rfl]⟩
          callback := fun t lent => by
            rw [task] at lent
            split at lent
            · cases lent
            · exact h.callback t lent
          kept := fun k hk mine => by
            subst marked
            exact h.kept k hk mine
          route := fun t home => by rw [task, if_pos (new home)]
          job := fun t home _ => .inl (by rw [task, if_pos (new home)])
          went := fun t fate home gone => by
            rw [task, if_pos (new home)] at gone
            cases gone
          silent := fun d here => (never here).elim }

/-- The task of the visit can only end with what its machine has come to. -/
theorem Nursed.came {failure : Option Fault} (h : w.Nursed v m) (home : (w.task t).home = some v)
    (alive : (w.task t).isAlive = true) (ends : w.Ends t failure) : w.Came t m failure := by
  rcases h.job t home alive with here | ⟨c, hook, here, carries⟩
  · -- The machine was not begun.
    cases ends with
    | refused job refused =>
      cases here.symm.trans job
      exact .refused refused
    | script job | ran job | stopped job => cases here.symm.trans job
  · cases ends with
    | ran job returned =>
      cases here.symm.trans job
      rw [carries.machine]
      exact .ran carries returned
    | script job | refused job | stopped job => cases here.symm.trans job

/-- The task of the visit ends, once its outcome has been raised. -/
theorem Nursed.ended {w₁ : World} (h : w.Nursed v m) (home : (w.task t).home = some v)
    (alive : (w.task t).isAlive = true) (spares : Spares c w w₁)
    (reach : ∀ u, (w₁.task u).reach = (w.task u).reach) (kept : w₁.kept = w.kept)
    (raised : ∀ d, .raised v d true ∈ w₁.marks → .raised v d true ∈ w.marks ∨ fate = .returned)
    (e : w₁.Ended t fate w') (went : w'.Went t v m fate) : w'.Nursed v m := by
  have old := lt_size_of_isAlive alive
  have spared := spares.task t old
  -- Nobody else has the callback of the visit.
  have aside : ¬ w₁.AtHand none v := by
    rintro (none | ⟨k, hk, mine⟩)
    · cases none
    · exact h.kept k (kept ▸ hk) mine
  have home' : (w'.task t).home = some v := e.self.1.trans (spared.home.trans home)
  -- Nobody else works for it either.
  have mine {u : TaskId} (hu : (w'.task u).home = some v) : u = t := by
    refine Classical.byContradiction fun other => ?_
    rcases Nat.lt_or_ge u w₁.tasks.size with known | new
    · rw [(e.task u other known).home] at hu
      rcases Nat.lt_or_ge u w.tasks.size with known | new
      · exact other (h.one u t ((spares.task u known).home.symm.trans hu) home)
      · cases (spares.fresh u new).home.symm.trans hu
    · cases (e.fresh u new).home.symm.trans hu
  exact { one := fun u u' hu hu' => (mine hu).trans (mine hu').symm
          hired := fun _ => ⟨t, home'⟩
          callback := fun u lent => by
            by_cases same : u = t
            · subst same
              exact h.callback u (reach u ▸ e.reach v lent)
            · rcases Nat.lt_or_ge u w₁.tasks.size with known | new
              · exact h.callback u (reach u ▸ (e.task u same known).callback v lent)
              · exact aside ((e.fresh u new).callback v lent)
          kept := fun k hk same => by
            obtain ⟨k', hk', there⟩ := e.kept k hk
            exact h.kept k' (kept ▸ hk') (there.trans same)
          route := fun u hu => by
            cases mine hu
            exact e.self.2.1.trans (spared.route.trans (h.route t home))
          job := fun u hu going => by
            cases mine hu
            rw [Task.isAlive, e.ended] at going
            cases going
          went := fun u fate' hu gone => by
            cases mine hu
            cases e.ended.symm.trans gone
            exact went
          silent := fun d hd => by
            refine ⟨t, home', e.ended.trans ?_⟩
            have hd := (e.raised v d hd).resolve_right fun lent => aside lent.1
            rcases raised d hd with past | rfl
            · obtain ⟨u, hu, gone⟩ := h.silent d past
              cases h.one t u home hu
              rw [Task.isAlive, gone] at alive
              cases alive
            · rfl }

end World

/-! ## What happens to tasks -/

namespace Fostered

variable {k : Nat}

/-- Nobody has the callback of a visit that fosters a machine. -/
theorem not_atHand (h : Fostered w) (fosters : (w.visit v).state.Fosters m)
    (reach : c ≠ some v) : ¬ w.AtHand c v := by
  rintro (mine | ⟨k, hk, mine⟩)
  · exact reach mine
  · exact (h.nursed v m fosters).kept k hk mine

theorem not_reachable (h : Fostered w) (fosters : (w.visit v).state.Fosters m) :
    ¬ w.Reachable v := by
  rintro (⟨t, callback⟩ | ⟨k, work, part⟩)
  · exact (h.nursed v m fosters).callback t callback
  · cases (fosters.service part).2

/-- Whatever visits that foster a machine have nothing to do with leaves them nursed. -/
theorem keep (h : Fostered w) (state : ∀ v, (w'.visit v).state = (w.visit v).state)
    (size : w.visits.size ≤ w'.visits.size)
    (known : ∀ v part, .launched v part ∈ w'.marks →
      .launched v part ∈ w.marks ∨ v < w.visits.size)
    (bypasses : ∀ v m, (w.visit v).state.Fosters m → w.Bypasses v w') : Fostered w' where
  known v part here := Nat.lt_of_lt_of_le ((known v part here).elim (h.known v part) id) size
  nursed v m fosters := by
    rw [state] at fosters
    exact (h.nursed v m fosters).keep (bypasses v m fosters)

theorem spares (h : Fostered w) (spares : Spares c w w')
    (reach : ∀ v m, (w.visit v).state.Fosters m → c ≠ some v) : Fostered w' :=
  h.keep spares.state spares.visits (fun _ _ here => .inl (spares.silent _ here rfl))
    fun v m fosters => .of_spares spares (h.not_atHand fosters (reach v m fosters))

/-- A visit begins that nobody works for. -/
theorem visit (h : Fostered w) (staffed : Staffed w) (r : RunId) (s : State) :
    Fostered { w with visits := w.visits.push { state := s, run := r } } where
  known v part here := by
    simp only [Table.size_push]
    exact Nat.lt_succ_of_lt (h.known v part here)
  nursed v m fosters := by
    by_cases new : v = w.visits.size
    · -- Whoever has to do with a visit has to do with one that is there.
      have never {P : Prop} (known : v < w.visits.size) : P := absurd known (new ▸ Nat.lt_irrefl _)
      exact { one := fun t _ home => never (staffed.home t v home)
              hired := fun here => never (h.known v _ here)
              callback := fun t lent => never (staffed.callback t v lent)
              kept := fun k hk mine => never (mine ▸ staffed.kept k hk)
              route := fun t home => never (staffed.home t v home)
              job := fun t home => never (staffed.home t v home)
              went := fun t _ home => never (staffed.home t v home)
              silent := fun d here => never (staffed.admitted v d here).1 }
    · have old : (w.visit v).state.Fosters m := by simpa [new] using fosters
      have bypasses : w.Bypasses v { w with visits := w.visits.push { state := s, run := r } } :=
        .of_eq (.of_eq rfl rfl) rfl rfl (List.append_nil _).symm (List.forall_mem_nil _)
      exact (h.nursed v m old).keep bypasses

/-- Something is said that has nothing to do with what visits foster. -/
theorem mark (h : Fostered w) (n : Mark)
    (launched : ∀ v m, (w.visit v).state.Fosters m → n ≠ .launched v (.service 0))
    (known : ∀ v part, n = .launched v part → v < w.visits.size)
    (refused : ∀ v d, n ≠ .raised v d true) : Fostered (w.mark n) := by
  refine h.keep (fun _ => rfl) (Nat.le_refl _) (fun v part here => ?_) fun v m fosters => ?_
  · rw [World.marks_mark] at here
    refine (List.mem_append.1 here).imp_right fun new => ?_
    exact known v part (List.mem_singleton.1 new).symm
  · refine .of_eq (.of_eq rfl rfl) rfl rfl (w.marks_mark n) fun n' new => ?_
    cases List.mem_singleton.1 new
    exact ⟨launched v m fosters, refused v⟩

/-- A visit hires the task that is to run its machine. -/
theorem foster (h : Fostered w) {other : VisitId} {m' : Machine} (known : other < w.visits.size)
    (part : (w.visit other).state.services[k]? = some (.nested m'))
    (first : k = 0 → ∀ t, (w.task t).home ≠ some other) :
    Fostered ((w.mark (.launched other (.service k))).spawnFor other
      { job := .nested m', route := some ⟨other, k⟩ }) := by
  obtain ⟨w₁, marked⟩ : ∃ w₁, w₁ = w.mark (.launched other (.service k)) := ⟨_, rfl⟩
  have marks : w₁.marks = w.marks ++ [.launched other (.service k)] := marked ▸ w.marks_mark _
  have state (v : VisitId) :
      ((w₁.spawnFor other { job := .nested m', route := some ⟨other, k⟩ }).visit v).state =
        (w.visit v).state := by
    rw [marked]
    exact World.data_modifyVisit Visit.state rfl v
  rw [← marked]
  refine ⟨fun v part' here => ?_, fun v m fosters => ?_⟩
  · have larger : w.visits.size ≤ (w₁.spawnFor other
        { job := .nested m', route := some ⟨other, k⟩ }).visits.size :=
      marked ▸ Table.size_le_modify ..
    refine Nat.lt_of_lt_of_le ?_ larger
    have here : .launched v part' ∈ w₁.marks := here
    rw [marks] at here
    rcases List.mem_append.1 here with old | new
    · exact h.known v part' old
    · cases List.mem_singleton.1 new
      exact known
  rw [state] at fosters
  by_cases mine : other = v
  · -- A visit that fosters a machine has no other service.
    subst mine
    obtain ⟨rfl, same⟩ := fosters.service part
    cases same
    exact marked ▸ (h.nursed other m' fosters).hire (first rfl)
  · have marked' : w.Bypasses v w₁ := by
      refine .of_eq (.of_eq (marked ▸ rfl) (marked ▸ rfl)) (marked ▸ rfl) (marked ▸ rfl) marks
        fun n new => ?_
      cases List.mem_singleton.1 new
      refine ⟨fun same => ?_, fun d same => ?_⟩
      · cases same
        exact mine rfl
      · cases same
    exact ((h.nursed v m fosters).keep marked').keep (.spawnFor mine (by simp))

/-- A visit hires a task for other work. -/
theorem crew (h : Fostered w) {x : Task} {other : VisitId} (crew : w.Crew other x) :
    Fostered (w.spawnFor other x) := by
  have state (v : VisitId) : ((w.spawnFor other x).visit v).state = (w.visit v).state :=
    World.data_modifyVisit Visit.state rfl v
  refine h.keep state (Table.size_le_modify ..) (fun _ _ => .inl) fun v m fosters => ?_
  have apart : other ≠ v := fun same => (same ▸ fosters).not_crew crew
  refine .spawnFor apart fun lent => apart ?_
  cases crew with
  | free part mine => exact (mine v lent).symm
  | routed part mine | active part mine => cases mine.symm.trans lent

theorem dismisses (h : Fostered w) {P : TaskId → Prop} (told : Dismisses P w w')
    (frame : Frame w w') : Fostered w' := by
  refine h.keep (fun v => ?_) (Nat.le_of_eq (congrArg Table.size told.visits.symm))
    (fun v part here => .inl (told.marks ▸ here)) fun v m _ => .of_dismisses told frame
  exact congrArg (fun visits => (Table.get visits v).state) told.visits

theorem modifyVisit (h : Fostered w) {f : Visit → Visit} {other : VisitId}
    (same : ∀ x : Visit, (f x).state = x.state) : Fostered (w.modifyVisit other f) := by
  refine h.keep (fun v => ?_) (Table.size_le_modify ..) (fun _ _ => .inl) fun v m _ =>
    .of_eq (.of_eq rfl rfl) rfl rfl (List.append_nil _).symm (List.forall_mem_nil _)
  exact World.data_modifyVisit Visit.state (same _) v

theorem tend (h : Fostered w) (staffed : Staffed w) (d : Tend w w') : Fostered w' := by
  cases d with
  | script reach spares =>
    exact h.spares spares fun v m fosters mine => h.not_reachable fosters (reach v mine)
  | visit r s => exact h.visit staffed r s
  | launch v part known other =>
    refine h.mark _ (fun u m fosters same => ?_) (fun u part' same => ?_) (by simp)
    · cases same
      exact other 0 m rfl (by simp [fosters.services])
    · cases same
      exact known
  | crew known waits crew => exact h.crew crew
  | foster known waits part first => exact h.foster known part first
  | look => exact h.modifyVisit fun _ => rfl
  | @mourn v _ rest =>
    have looked : Fostered (w.modifyVisit v fun x => { x with finished := rest }) :=
      h.modifyVisit fun _ => rfl
    exact looked.mark _ (by simp) (by simp) (by simp)
  | conclude => exact h.mark _ (by simp) (by simp) (by simp)
  | @relax v => exact h.dismisses (.abortWork w v) (.abortWork w v)

/-- The task of a visit begins the run of its machine. -/
theorem nest (h : Fostered w) {m' : Machine} {s : State} (job : (w.task t).job = .nested m') :
    Fostered (((w.withNested t m').takeSlot w.interpreters.size t s).setJob t
      (.drive w.runs.size (some w.tasks.size))) := by
  obtain ⟨w₁, hw₁⟩ : ∃ w₁, w₁ = (w.withNested t m').takeSlot w.interpreters.size t s := ⟨_, rfl⟩
  have hooks : Spares none w (w.withNested t m') :=
    (Spares.pushInterpreter w m').trans (.spawn ⟨rfl, rfl, rfl, fun v hv => by cases hv⟩)
  have founded : Spares none w w₁ := hw₁ ▸ hooks.trans (.takeSlot _ w.interpreters.size t s)
  have begun : Fostered w₁ := h.spares founded fun v m fosters => by simp
  have run : w₁.run w.runs.size = ⟨w.interpreters.size, t, false, .begun s⟩ := by
    rw [hw₁]
    simp [World.takeSlot, World.mark, World.log, World.modifyInterpreter, World.withNested,
      World.spawn]
  -- The new task will be the hook, the new interpreter the home of the machine.
  have carries : w₁.Carries t w.runs.size m' := by
    refine ⟨?_, ?_, ?_, by rw [run], ?_⟩
    · rw [hw₁]
      simp [World.takeSlot, World.withNested, World.spawn]
    · rw [hw₁]
      simp [World.takeSlot, World.mark, World.log, World.modifyInterpreter, World.withNested,
        World.spawn]
    · rw [run, hw₁]
      refine Nat.lt_of_lt_of_le ?_ (Table.size_le_modify ..)
      simp [World.withNested, World.spawn]
    · unfold World.machineOf
      rw [run, hw₁]
      simp [World.takeSlot, World.mark, World.log, World.modifyInterpreter, World.withNested,
        World.spawn]
  rw [← hw₁]
  refine ⟨begun.known, fun v m fosters => ?_⟩
  have nursed := begun.nursed v m fosters
  by_cases mine : (w₁.task t).home = some v ∧ (w₁.task t).isAlive = true
  · obtain ⟨home, alive⟩ := mine
    -- The machine is the one that the visit fosters.
    have old : t < w.tasks.size := by
      refine Nat.lt_of_not_le fun new => ?_
      cases (founded.fresh t new).home.symm.trans home
    have same : m' = m := by
      rcases nursed.job t home alive with here | ⟨_, _, here, -⟩
      · rw [(founded.task t old).job, job] at here
        exact Job.nested.inj here
      · rw [(founded.task t old).job, job] at here
        cases here
    exact nursed.drive home (same ▸ carries)
  · exact nursed.keep (.setJob fun home => by
      rw [← Bool.not_eq_true]
      exact fun alive => mine ⟨home, alive⟩)

/-- A task ends, once its outcome has been raised. -/
theorem ended {w₁ : World} (h : Fostered w) (staffed : Staffed w)
    (alive : (w.task t).isAlive = true)
    (spares : Spares ((w.task t).route.map Route.visit) w w₁)
    (reach : ∀ u, (w₁.task u).reach = (w.task u).reach) (kept : w₁.kept = w.kept)
    (e : w₁.Ended t fate w')
    (went : ∀ v m, (w.visit v).state.Fosters m → (w.task t).home = some v →
      w'.Went t v m fate ∧ ∀ d, .raised v d true ∈ w₁.marks →
        .raised v d true ∈ w.marks ∨ fate = .returned) : Fostered w' := by
  have old := World.lt_size_of_isAlive alive
  have quiet {v : VisitId} {part : Part} (here : .launched v part ∈ w'.marks) :
      .launched v part ∈ w.marks := spares.silent _ (e.silent _ here rfl) rfl
  refine ⟨fun v part here => ?_, fun v m fosters => ?_⟩
  · exact Nat.lt_of_lt_of_le (h.known v part (quiet here)) (Nat.le_trans spares.visits e.visits)
  rw [e.state, spares.state] at fosters
  have nursed := h.nursed v m fosters
  by_cases home : (w.task t).home = some v
  · obtain ⟨went, raised⟩ := went v m fosters home
    exact nursed.ended home alive spares reach kept raised e went
  · -- The outcome is raised on the visit that the task works for.
    have apart : (w.task t).route.map Route.visit ≠ some v := by
      intro same
      obtain ⟨route, routed, rfl⟩ := Option.map_eq_some_iff.1 same
      exact home (staffed.route t route routed)
    have nursed₁ := nursed.keep (.of_spares spares (h.not_atHand fosters apart))
    refine nursed₁.keep (.of_ended e ?_ ?_)
    · rw [(spares.task t old).home]
      exact home
    · rintro (none | ⟨k, hk, mine⟩)
      · cases none
      · exact nursed₁.kept k hk mine

/-- Whatever happens to tasks, visits that foster a machine are nursed. -/
theorem deed (h : Fostered w) (staffed : Staffed w) (d : Deed w w') : Fostered w' := by
  cases d with
  | tend d => exact h.tend staffed d
  | nest job => exact h.nest job
  | @job t job old =>
    refine h.keep (fun _ => rfl) (Nat.le_refl _) (fun _ _ => .inl) fun v m fosters =>
      .setJob fun home => ?_
    -- The task of a visit that fosters a machine has no other job.
    rw [← Bool.not_eq_true]
    intro alive
    rcases (h.nursed v m fosters).job t home alive with here | ⟨c, hook, here, -⟩
    · rw [here] at old
      cases old
    · rw [here] at old
      cases old
  | hang i =>
    refine h.keep (fun _ => rfl) (Nat.le_refl _) (fun _ _ => .inl) fun v m fosters =>
      .of_eq ?_ rfl rfl (List.append_nil _).symm (List.forall_mem_nil _)
    refine { Anchored.refl w with
      interpreters := Table.size_le_modify ..
      machine := fun j _ => ?_ }
    rw [World.interpreter_modifyInterpreter]
    split <;> rfl
  | @abort t => exact h.dismisses (P := (· = t)) (.abort w rfl) (.abort w t)
  | @finish _ t failure alive ends spares =>
    obtain ⟨raises, reach, kept, raised⟩ := w.raiseFor_spec t failure
    have spared := raises.task t (World.lt_size_of_isAlive alive)
    have ended := World.ended_of_bury ((congrArg Option.isNone spared.fate).trans alive) spares
    rw [spared.home] at ended
    refine h.ended staffed alive raises reach kept ended fun v m fosters home => ?_
    refine ⟨?_, fun d _ => .inr rfl⟩
    have nursed := h.nursed v m fosters
    have anchored := raises.toAnchored.trans ended.toAnchored
    have marks {n : Mark} (here : n ∈ w.marks) : n ∈ _ :=
      ended.marks.subset (List.mem_append_left _ (raises.marks.subset here))
    have came := nursed.came home alive ends
    refine .returned (came.mono anchored fun _ => marks) fun d hd => ?_
    -- An event that was raised on the visit is the outcome of its task, which is alive still.
    have hd := (ended.raised v d hd).resolve_right fun ⟨hand, _⟩ => by
      rcases hand with none | ⟨k, hk, mine⟩
      · cases none
      · exact nursed.kept k (kept ▸ hk) mine
    rcases raised v d hd with past | ⟨k, routed, same⟩
    · obtain ⟨u, hu, gone⟩ := nursed.silent d past
      cases nursed.one t u home hu
      rw [Task.isAlive, gone] at alive
      cases alive
    · cases (nursed.route t home).symm.trans routed
      exact same
  | @quit _ t fate alive quits spares =>
    have ended := World.ended_of_bury alive spares
    refine h.ended staffed alive (.refl _ w) (fun _ => rfl) rfl ended fun v m fosters home => ?_
    refine ⟨?_, fun d => .inl⟩
    have nursed := h.nursed v m fosters
    cases quits with
    | dropped aborted => exact .dropped (ended.self.2.2.trans aborted)
    | panicked begun =>
      rcases nursed.job t home alive with here | ⟨c, hook, -, carries⟩
      · exact absurd here (begun m)
      · exact .panicked (carries.mono ended.toAnchored fun _ here =>
          ended.marks.subset (List.mem_append_left _ here))
    | ran job | returned job =>
      rcases nursed.job t home alive with here | ⟨c, hook, here, -⟩ <;>
        cases here.symm.trans job

end Fostered

/-! ## The worlds that a scenario comes to -/

namespace Scenario

variable {s : Scenario}

theorem fostered_opening (s : Scenario) : Fostered s.opening where
  known v part here := by cases here
  nursed v m fosters := by
    -- There is no visit yet, and a visit that is not there has no work.
    have blank : s.opening.visit v = default := Table.get_of_size_le (Nat.zero_le _)
    rw [blank] at fosters
    cases fosters.services

/-- Visits that foster a machine are nursed in every world that a scenario comes to. -/
theorem Reaches.fostered (h : s.Reaches w) : Fostered w := by
  suffices Staffed w ∧ Fostered w from this.2
  have deeds := h.deeds
  clear h
  induction deeds with
  | refl => exact ⟨s.staffed_opening, s.fostered_opening⟩
  | tail _ deed ih => exact ⟨ih.1.deed deed, ih.2.deed ih.1 deed⟩

end Scenario

end

end Statechart
