import Statechart.Proofs.GraphErrors
import Statechart.Proofs.Spares

/-!
# What becomes of tasks, deed by deed

The moves of the world taken apart by what they do to the tasks of visits: who is hired, who is
told to go, who ends and why, who hears of it, and how a wait ends. Whatever else happens leaves
tasks alone, as scripts do, so an invariant about tasks has to be looked at once for each deed.

## Main definitions

- `World.Crew`: the tasks that a visit hires for its work.
- `World.Ends`, `World.Quits`: why a task returns as it does, and why it ends otherwise.
- `Tend`: one thing that a run does to the tasks of its visits.
- `Deed`: one thing that happens to tasks.

## Main statements

- `World.returned_of_advance`: a move of a run that returns concludes it.
- `Deeds.next`: a move of the world, under any schedule, is a number of deeds.
- `Scenario.Reaches.deeds`: so is everything that has happened since the opening.
-/

namespace Statechart

/-! ## Definitions -/

/-- The task that a job is to wait for or to abort. -/
def Job.other? : Job → Option TaskId
  | .drive _ hook => hook
  | .control _ (.joining _ t _) => some t
  | _ => none

/-- Whether a job is that of a service with a nested machine. -/
def Job.isNested : Job → Bool
  | .nested _ | .drive _ (some _) => true
  | _ => false

theorem Job.other?_of_isFree {job : Job} (h : job.isFree = true) : job.other? = none := by
  cases job with
  | drive r hook =>
    cases hook with
    | none => rfl
    | some u => cases h
  | control steps doing =>
    cases doing with
    | joining => cases h
    | nothing | script | running => rfl
  | script | nested | stopHook => rfl

namespace World

/-- A script can have the callback of a visit: some task has it, or a service of the visit is to
get it. -/
def Reachable (w : World) (v : VisitId) : Prop :=
  (∃ t, (w.task t).reach.callback = some v) ∨
    ∃ (k : Nat) (work : Work), (w.visit v).state.services[k]? = some (.free work)

/-- A task has a name: it is that of a run in the background, or another task is to wait for it or
to abort it. -/
inductive IsNamed (w : World) (t : TaskId) : Prop where
  | handle {i : InterpreterId} (handle : (w.interpreter i).handle = some t)
  | other {u : TaskId} (other : (w.task u).job.other? = some t)

/-- The tasks that a visit hires for its work, but for nested machines. -/
inductive Crew (w : World) (v : VisitId) : Task → Prop where
  | free {k : Nat} {work : Work} {job : Script} {reach : Reach}
      (part : (w.visit v).state.services[k]? = some (.free work))
      (mine : ∀ u, reach.callback = some u → u = v) :
      Crew w v { job := .script job, reach }
  | routed {k : Nat} {work : Work} {job : Script} {reach : Reach}
      (part : (w.visit v).state.services[k]? = some (.routed work))
      (mine : reach.callback = none) :
      Crew w v { job := .script job, reach, route := some ⟨v, k⟩ }
  | active {k : Nat} {work : Work} {job : Script} {reach : Reach}
      (part : (w.visit v).state.activities[k]? = some work) (mine : reach.callback = none) :
      Crew w v { job := .script job, reach }

/-- Why a task returns with a failure or without: its script ends, its nested machine cannot start
or has ended, or it has stopped one. -/
inductive Ends (w : World) (t : TaskId) : Option Fault → Prop where
  | script {s : Script} {failure : Option Fault} (job : (w.task t).job = .script s) :
      Ends w t failure
  | refused {m : Machine} {e : RunError} (job : (w.task t).job = .nested m)
      (refused : m.startState = .error e) : Ends w t (some (.run e))
  | ran {q : RunId} {hook : TaskId} {result : RunResult}
      (job : (w.task t).job = .drive q (some hook)) (returned : .returned q result ∈ w.marks) :
      Ends w t (nestedFailure (w.machineOf q).id result)
  | stopped {i : InterpreterId} (job : (w.task t).job = .stopHook i) : Ends w t none

/-- Why a task ends with nothing to raise. -/
inductive Quits (w : World) (t : TaskId) : Fate → Prop where
  | panicked (begun : ∀ m, (w.task t).job ≠ .nested m) : Quits w t .panicked
  | dropped (aborted : (w.task t).aborted = true) : Quits w t .dropped
  | ran {q : RunId} {result : RunResult} (job : (w.task t).job = .drive q none) :
      Quits w t (.ran result)
  | returned {steps : List Step} {doing : Doing} (job : (w.task t).job = .control steps doing) :
      Quits w t .returned

/-- The outcome of a task is raised where it is to be raised. -/
def raiseFor (w : World) (t : TaskId) (failure : Option Fault) : World :=
  match (w.task t).route with
  | some route => w.raiseOutcome route failure
  | none => w

end World

/-- One thing that a run does to the tasks of its visits, or something that leaves them alone. -/
inductive Tend : World → World → Prop where
  | script {w w' : World} {c : Option VisitId} (reach : ∀ v, c = some v → w.Reachable v)
      (spares : Spares c w w') : Tend w w'
  | visit {w : World} (r : RunId) (s : State) :
      Tend w { w with visits := w.visits.push { state := s, run := r } }
  -- Tasks are hired.
  | launch {w : World} (v : VisitId) (part : Part) (known : v < w.visits.size)
      (other : ∀ k m, part = .service k → (w.visit v).state.services[k]? ≠ some (.nested m)) :
      Tend w (w.mark (.launched v part))
  | crew {w : World} {v : VisitId} {x : Task} (known : v < w.visits.size)
      (waits : ∀ e, .concluded v e ∉ w.marks) (crew : w.Crew v x) : Tend w (w.spawnFor v x)
  | foster {w : World} {v : VisitId} {k : Nat} {m : Machine} (known : v < w.visits.size)
      (waits : ∀ e, .concluded v e ∉ w.marks)
      (part : (w.visit v).state.services[k]? = some (.nested m))
      (first : k = 0 → ∀ t, (w.task t).home ≠ some v) :
      Tend w ((w.mark (.launched v (.service k))).spawnFor v
        { job := .nested m, route := some ⟨v, k⟩ })
  -- They are heard of, one by one.
  | look {w : World} {v : VisitId} {t : TaskId} {rest : List TaskId}
      (next : (w.visit v).finished = t :: rest)
      (calm : (w.task t).fate ≠ some .panicked ∨ ∃ e, .concluded v e ∈ w.marks) :
      Tend w (w.modifyVisit v fun x => { x with finished := rest })
  | mourn {w : World} {v : VisitId} {t : TaskId} {rest : List TaskId}
      (next : (w.visit v).finished = t :: rest) (fate : (w.task t).fate = some .panicked) :
      Tend w ((w.modifyVisit v fun x => { x with finished := rest }).mark
        (.concluded v .panicked))
  | conclude {w : World} {v : VisitId} {e : Ending} (other : e ≠ .panicked)
      (settled : e = .settled → (w.visit v).working = [] ∧ (w.visit v).finished = []) :
      Tend w (w.mark (.concluded v e))
  -- They are told to go.
  | relax {w : World} {v : VisitId} (past : (∃ e, .concluded v e ∈ w.marks) ∨ .left v ∈ w.marks) :
      Tend w (w.abortWork v)

/-- One thing that happens to tasks. -/
inductive Deed : World → World → Prop where
  | tend {w w' : World} (h : Tend w w') : Deed w w'
  | nest {w : World} {t : TaskId} {m : Machine} {s : State} (job : (w.task t).job = .nested m)
      (first : m.startState = .ok s) :
      Deed w (((w.withNested t m).takeSlot w.interpreters.size t s).setJob t
        (.drive w.runs.size (some w.tasks.size)))
  | job {w : World} {t : TaskId} {job : Job} (old : (w.task t).job.isNested = false)
      (other : ∀ u, job.other? = some u → w.IsNamed u) : Deed w (w.setJob t job)
  | hang {w : World} {t : TaskId} (i : InterpreterId) (named : w.IsNamed t) :
      Deed w (w.modifyInterpreter i fun x => { x with handle := some t })
  | abort {w : World} {t : TaskId} (aside : (w.task t).home = none ∨ w.IsNamed t) :
      Deed w (w.abort t)
  | finish {w w' : World} {t : TaskId} {failure : Option Fault}
      (alive : (w.task t).isAlive = true) (ends : w.Ends t failure)
      (spares : Spares none ((w.raiseFor t failure).bury t .returned) w') :
      Deed w (w'.withdraw t (w.task t).home)
  | quit {w w' : World} {t : TaskId} {fate : Fate} (alive : (w.task t).isAlive = true)
      (quits : w.Quits t fate) (spares : Spares none (w.bury t fate) w') :
      Deed w (w'.withdraw t (w.task t).home)

/-- Any number of things that runs do to tasks. -/
abbrev Tends : World → World → Prop :=
  Relation.ReflTransGen Tend

/-- Any number of things that happen to tasks. -/
abbrev Deeds : World → World → Prop :=
  Relation.ReflTransGen Deed

/-! ## Who is told to go -/

/-- Some tasks are told to go, and nothing else happens to anybody. -/
structure Dismisses (P : TaskId → Prop) (w w' : World) : Prop where
  tasks : w.tasks.size ≤ w'.tasks.size
  task : ∀ t, ∃ aborted, w'.task t = { w.task t with aborted } ∧
    (aborted = (w.task t).aborted ∨ P t)
  runs : w'.runs = w.runs
  visits : w'.visits = w.visits
  interpreters : w'.interpreters = w.interpreters
  kept : w'.kept = w.kept
  marks : w'.marks = w.marks

namespace Dismisses

variable {P Q : TaskId → Prop} {w w' w'' : World}

theorem refl (w : World) : Dismisses P w w :=
  ⟨Nat.le_refl _, fun _ => ⟨_, rfl, .inl rfl⟩, rfl, rfl, rfl, rfl, rfl⟩

theorem trans (h : Dismisses P w w') (h' : Dismisses P w' w'') : Dismisses P w w'' where
  tasks := Nat.le_trans h.tasks h'.tasks
  task t := by
    obtain ⟨a, same, told⟩ := h.task t
    obtain ⟨a', same', told'⟩ := h'.task t
    rw [same] at same' told'
    refine ⟨a', same', ?_⟩
    rcases told' with rfl | told'
    · exact told
    · exact .inr told'
  runs := h'.runs.trans h.runs
  visits := h'.visits.trans h.visits
  interpreters := h'.interpreters.trans h.interpreters
  kept := h'.kept.trans h.kept
  marks := h'.marks.trans h.marks

theorem abort (w : World) {t : TaskId} (told : P t) : Dismisses P w (w.abort t) := by
  have flagged : Dismisses P w (w.modifyTask t fun x => { x with aborted := true }) :=
    { refl (P := P) w with
      tasks := Table.size_le_modify ..
      task := fun u => by
        rw [World.task_modifyTask]
        split
        · next here => exact ⟨true, rfl, .inr (here ▸ told)⟩
        · exact ⟨_, rfl, .inl rfl⟩ }
  unfold World.abort World.enqueue
  split
  · exact refl w
  · split
    · exact flagged
    · exact { flagged with }

theorem abortWork (w : World) (v : VisitId) :
    Dismisses (· ∈ (w.visit v).working) w (w.abortWork v) := by
  have all {P : TaskId → Prop} (ts : List TaskId) (w₁ : World) (told : ∀ t ∈ ts, P t) :
      Dismisses P w₁ (ts.foldl World.abort w₁) := by
    induction ts generalizing w₁ with
    | nil => exact refl w₁
    | cons t ts ih =>
      exact (abort w₁ (told t List.mem_cons_self)).trans
        (ih _ fun u hu => told u (List.mem_cons_of_mem t hu))
  exact all _ w fun t => id

end Dismisses

/-- It makes no difference to a visit that is closed whether its tasks are told to go before or
after. -/
theorem World.closeVisit_abortWork (w : World) (v : VisitId) :
    (w.abortWork v).closeVisit v = (w.closeVisit v).abortWork v := by
  -- Whether a task is told to go does not depend on whether the visit is closed.
  have one (w : World) (t : TaskId) : (w.abort t).closeVisit v = (w.closeVisit v).abort t := by
    unfold World.abort World.enqueue
    split
    · next gone => exact (if_pos gone).symm
    · next here =>
      refine Eq.trans ?_ (if_neg here).symm
      split
      · next queued => exact (if_pos queued).symm
      · next new => exact (if_neg new).symm
  have all (ts : List TaskId) (w : World) :
      (ts.foldl World.abort w).closeVisit v = ts.foldl World.abort (w.closeVisit v) := by
    induction ts generalizing w with
    | nil => rfl
    | cons t ts ih => rw [List.foldl_cons, List.foldl_cons, ih, one]
  have same : ((w.closeVisit v).visit v).working = (w.visit v).working := by
    simp [World.closeVisit, World.visit_modifyVisit, World.mark, World.log]
  unfold World.abortWork
  rw [same, all]

/-! ## What runs leave alone -/

/-- A run leaves a task that is there to its job, and does not end it. -/
structure Task.Serves (x y : Task) : Prop where
  job : y.job = x.job
  fate : y.fate = x.fate
  aborted : x.aborted = true → y.aborted = true

theorem Tend.task {w w' : World} (h : Tend w w') {t : TaskId} (old : t < w.tasks.size) :
    t < w'.tasks.size ∧ (w.task t).Serves (w'.task t) := by
  have dismissed (v : VisitId) :
      t < (w.abortWork v).tasks.size ∧ (w.task t).Serves ((w.abortWork v).task t) := by
    have told := Dismisses.abortWork w v
    have serves := (Frame.abortWork w v).task t
    obtain ⟨aborted, same, -⟩ := told.task t
    exact ⟨Nat.lt_of_lt_of_le old told.tasks, by rw [same], by rw [same], serves.aborted⟩
  have hired (m : World) (same : m.tasks = w.tasks) (v : VisitId) (x : Task) :
      t < (m.spawnFor v x).tasks.size ∧ (w.task t).Serves ((m.spawnFor v x).task t) := by
    simp only [World.spawnFor, World.spawn, World.modifyVisit, World.task_mk, same,
      Table.get_push, if_neg (Nat.ne_of_lt old), Table.size_push]
    exact ⟨Nat.lt_succ_of_lt old, rfl, rfl, id⟩
  -- A new task comes after all others, and a visit that drops its tasks only marks them.
  cases h with
  | script reach spares =>
    have spared := spares.task t old
    exact ⟨Nat.lt_of_lt_of_le old spares.tasks, spared.job, spared.fate,
      fun aborted => spared.aborted.trans aborted⟩
  | visit | launch | look | mourn | conclude => exact ⟨old, rfl, rfl, id⟩
  | crew | foster => exact hired _ rfl ..
  | relax => exact dismissed ..

theorem Tends.task {w w' : World} (h : Tends w w') {t : TaskId} (old : t < w.tasks.size) :
    t < w'.tasks.size ∧ (w.task t).Serves (w'.task t) := by
  induction h with
  | refl => exact ⟨old, rfl, rfl, id⟩
  | tail _ tend ih =>
    obtain ⟨known, serves⟩ := ih
    obtain ⟨known', serves'⟩ := tend.task known
    exact ⟨known', serves'.job.trans serves.job, serves'.fate.trans serves.fate,
      fun aborted => serves'.aborted (serves.aborted aborted)⟩

theorem Anchored.of_eq {w w' : World} (runs : w'.runs = w.runs)
    (interpreters : w'.interpreters = w.interpreters) : Anchored w w' := by
  obtain ⟨now, queue, running, ts, rs, vs, is, named, values, ks, j, reports⟩ := w'
  cases runs
  cases interpreters
  exact { Anchored.refl w with }

/-- A run keeps its machine. -/
theorem Anchored.machineOf {w w' : World} (h : Anchored w w') {r : RunId}
    (known : r < w.runs.size) (founded : (w.run r).interpreter < w.interpreters.size) :
    w'.machineOf r = w.machineOf r := by
  unfold World.machineOf
  rw [h.interpreter r known, h.machine _ founded]

theorem Tend.anchored {w w' : World} (h : Tend w w') : Anchored w w' := by
  cases h with
  | script reach spares => exact spares.toAnchored
  | visit | launch | crew | foster | look | mourn | conclude => exact .of_eq rfl rfl
  | @relax v =>
    have told := Dismisses.abortWork w v
    exact .of_eq told.runs told.interpreters

theorem Tends.anchored {w w' : World} (h : Tends w w') : Anchored w w' := by
  induction h with
  | refl => exact .refl w
  | tail _ tend ih => exact ih.trans tend.anchored

/-! ## Waits that are over -/

/-- Once a wait is over, its end is marked. -/
theorem Course.concluded {w : World} {r : RunId} {st : Standing} {ms : List Mark}
    (c : Course w r st ms) {v : VisitId} {e : Ending}
    (past : st = .draining v e ∨ ∃ phrase k, st = .acting v phrase (some e) k) :
    .concluded v e ∈ ms := by
  -- The leg that ends the wait marks the end, and those that stay in the wind-down keep the mark.
  induction c with
  | start => simp at past
  | leg course leg ih =>
    cases leg with
    | pass | conclude =>
      obtain ⟨phrase, k, here⟩ := past.resolve_left nofun
      cases here
      exact List.mem_append_right _ List.mem_cons_self
    | rest | ask | drop => exact List.mem_append_left _ (ih past)
    | relax | exit | act =>
      refine List.mem_append_left _ (ih ?_)
      rcases past with here | ⟨phrase, k, here⟩ <;> cases here
      first
      | exact .inl rfl
      | exact .inr ⟨_, _, rfl⟩
    | enter | fall | tell | arrive | ready | launch | wait | turn | finish | close | quit | go
    | announce | halt | back | done =>
      rcases past with here | ⟨phrase, k, here⟩ <;> cases here

/-! ## Runs that return -/

namespace World

variable {w : World} {r : RunId} {v : VisitId} {result : RunResult}

/-- A run that has returned was concluded. -/
structure Declares (r : RunId) (x : World × Signal) : Prop where
  concludes : ∀ result, x.2 = .returned result → ∃ w : World, x = w.conclude r result

theorem Declares.of_ne {x : World × Signal} (h : ∀ result, x.2 ≠ .returned result) : Declares r x :=
  ⟨fun result returned => absurd returned (h result)⟩

/-- If a run has returned, the marks say so. -/
theorem Declares.returned {x : World × Signal} (h : Declares r x) (result : RunResult)
    (returned : x.2 = .returned result) : .returned r result ∈ x.1.marks := by
  obtain ⟨w, rfl⟩ := h.concludes result returned
  unfold conclude
  cases result <;> simp

theorem declares_conclude (w : World) (r : RunId) (result : RunResult) :
    Declares r (w.conclude r result) := by
  refine ⟨fun result' returned => ?_⟩
  cases returned
  exact ⟨w, rfl⟩

theorem declares_unwind (w : World) (r : RunId) : Declares r (w.unwind r) :=
  .of_ne nofun

theorem declares_announceDone (w : World) (r : RunId) : Declares r (w.announceDone r) := by
  unfold announceDone
  simp only
  split
  · exact declares_unwind ..
  · exact declares_conclude ..

theorem declares_takeTransition (w : World) (r : RunId) (source : State) (d : Decision)
    (target : String) : Declares r (w.takeTransition r source d target) := by
  unfold takeTransition
  split
  · exact declares_conclude ..
  · exact .of_ne nofun

theorem declares_exitThen (w : World) (r : RunId) (v : VisitId) (next : World → World × Signal)
    (declares : ∀ w, Declares r (next w)) : Declares r (w.exitThen r v next) := by
  unfold exitThen
  split
  · exact declares_unwind ..
  · exact declares _

theorem declares_follow (w : World) (r : RunId) (v : VisitId) (d : Decision) :
    Declares r (w.follow r v d) := by
  unfold follow
  simp only
  split
  · exact declares_takeTransition ..
  · exact declares_announceDone ..
  · exact declares_conclude ..
  · exact declares_conclude ..

theorem declares_leave (w : World) (r : RunId) (v : VisitId) (e : Ending) :
    Declares r (w.leave r v e) := by
  cases e with
  | decided d => exact declares_exitThen _ _ _ _ fun w => declares_follow w r v d
  | settled =>
    simp only [leave]
    split
    · exact declares_exitThen _ _ _ _ fun w => declares_announceDone ..
    · exact declares_conclude ..
  | stopped | panicked =>
    simp only [leave]
    exact declares_conclude ..

theorem declares_tearDown (w : World) (r : RunId) (v : VisitId) (e : Ending) :
    Declares r (w.tearDown r v e) := by
  rw [tearDown_eq]
  split
  · exact declares_unwind ..
  · exact .of_ne nofun

theorem declares_enter (w : World) (r : RunId) (s : State) : Declares r (w.enter r s) := by
  rw [enter_eq]
  split
  · exact declares_unwind ..
  · split
    · exact declares_tearDown ..
    · unfold launch
      split
      · exact declares_unwind ..
      · exact .of_ne fun _ back => by cases back

theorem declares_arrive (w : World) (r : RunId) (s : State) (previous : Option String)
    (cause : Option Decision) : Declares r (w.arrive r s previous cause) := by
  unfold arrive
  split
  · exact declares_conclude ..
  · simp only
    split
    · exact declares_unwind ..
    · exact declares_enter ..

theorem declares_inspect (w : World) (r : RunId) (v : VisitId) :
    Declares r (w.inspect r v) := by
  unfold inspect
  split
  · exact declares_tearDown ..
  · split
    · exact declares_tearDown ..
    · simp only
      split
      · split
        · exact declares_tearDown ..
        · exact .of_ne nofun
      · split
        · exact .of_ne nofun
        · exact declares_tearDown ..

theorem declares_drain (w : World) (r : RunId) (v : VisitId) (e : Ending) :
    Declares r (w.drain r v e) := by
  unfold drain
  split
  · simp only
    split <;> exact .of_ne nofun
  · split
    · exact declares_leave ..
    · exact .of_ne nofun

/-- A move of a run that returns concludes it. -/
theorem returned_of_advance (w : World) (r : RunId) : Declares r (w.advance r) := by
  unfold advance
  cases (w.run r).phase with
  | arriving s previous cause => exact declares_arrive ..
  | waiting v => exact declares_inspect ..
  | draining v e => exact declares_drain ..
  | begun | ended => exact .of_ne nofun

end World

/-! ## Moves of runs -/

namespace Tends

variable {w w' : World} {t : TaskId} {r : RunId} {v : VisitId}

theorem spare (spares : Spares none w w') : Tends w w' :=
  .single (.script (c := none) nofun spares)

theorem unwind (w : World) (r : RunId) : Tends w (w.unwind r).1 :=
  spare (.release ..)

/-- Once the end of a wait is marked, the tasks that are left are told to go. -/
theorem tearDown {e : Ending}
    (begun : Tends w ((w'.setPhase r (.draining v e)).mark (.concluded v e))) :
    Tends w (w'.tearDown r v e).1 := by
  obtain ⟨w₀, hw₀⟩ : ∃ w₀, w₀ = (w'.setPhase r (.draining v e)).mark (.concluded v e) := ⟨_, rfl⟩
  have past : .concluded v e ∈ w₀.marks := by simp [hw₀]
  have ran := (Spares.tearScope w₀ v).trans (.runPhrase (w₀.tearScope v) v .cleanup)
  rw [← hw₀] at begun
  rw [World.tearDown_eq, ← hw₀]
  split
  · next h =>
    rw [h] at ran
    -- The cleanup has panicked, so the run is over as well.
    refine ((begun.trans (spare ran)).tail (.relax (.inl ⟨e, ran.marks.subset past⟩))).trans ?_
    exact (spare (.closeVisit ..)).trans (unwind ..)
  · next h =>
    rw [h] at ran
    exact (begun.trans (spare ran)).tail (.relax (.inl ⟨e, ran.marks.subset past⟩))

/-- A wait that no panic has ended. -/
theorem concluded {e : Ending} (other : e ≠ .panicked)
    (settled : e = .settled → (w.visit v).working = [] ∧ (w.visit v).finished = []) :
    Tends w (w.tearDown r v e).1 := by
  have set : Tends w (w.setPhase r (.draining v e)) :=
    spare (.modifyRun (fun _ => rfl) fun _ => rfl)
  exact tearDown (set.tail (.conclude other settled))

/-- A visit that looks around hears of its tasks one by one. -/
theorem inspect (w : World) (r : RunId) (v : VisitId) : Tends w (w.inspect r v).1 := by
  unfold World.inspect
  split
  · exact concluded nofun nofun
  · split
    · exact concluded nofun nofun
    · simp only
      obtain ⟨w₁, hw₁⟩ : ∃ w₁, w₁ = w.modifyVisit v fun x => { x with listening := w.isHeld v } :=
        ⟨_, rfl⟩
      have looked : Tends w w₁ := by
        rw [hw₁]
        exact spare (.modifyVisit (fun _ => ⟨rfl, rfl, rfl, rfl⟩) .inl)
      rw [← hw₁]
      split
      · next t rest next =>
        split
        · next panicked =>
          -- The phase of the run is of no account to tasks, and can as well change first.
          have set : Tends w₁ (w₁.setPhase r (.draining v .panicked)) :=
            spare (.modifyRun (fun _ => rfl) fun _ => rfl)
          exact tearDown ((looked.trans set).tail (.mourn next panicked))
        · next other => exact looked.tail (.look next (.inl other))
      · next finished =>
        split
        · exact looked
        · next idle =>
          have idle : w.isHeld v = false ∧ (w₁.visit v).working = [] := by simpa using idle
          exact looked.trans (concluded nofun fun _ => ⟨idle.2, finished⟩)

theorem leave (w : World) (r : RunId) (v : VisitId) (e : Ending) :
    Tends w (w.leave r v e).1 :=
  spare (.leave ..)

theorem drain {e : Ending} (past : .concluded v e ∈ w.marks) : Tends w (w.drain r v e).1 := by
  unfold World.drain
  split
  · next t rest next =>
    have looked : Tends w (w.modifyVisit v fun x => { x with finished := rest }) :=
      .single (.look next (.inr ⟨e, past⟩))
    simp only
    split
    · exact looked.trans (spare (.trace ..))
    · exact looked
  · split
    · exact leave ..
    · exact .refl

/-! ## Arriving -/

/-- A visit whose work is being set up. -/
structure Opens (w : World) (v : VisitId) (s : State) : Prop where
  known : v < w.visits.size
  state : (w.visit v).state = s
  waits : ∀ e, .concluded v e ∉ w.marks

theorem Opens.spares {c : Option VisitId} {s : State} (h : Opens w v s) (spares : Spares c w w') :
    Opens w' v s where
  known := Nat.lt_of_lt_of_le h.known spares.visits
  state := (spares.state v).trans h.state
  waits e he := h.waits e (spares.silent _ he rfl)

theorem Opens.launch {s : State} (h : Opens w v s) (part : Part) :
    Opens (w.mark (.launched v part)) v s :=
  { h with waits := by simpa using h.waits }

theorem Opens.spawnFor {s : State} (h : Opens w v s) (x : Task) :
    Opens (w.spawnFor v x) v s where
  known := Nat.lt_of_lt_of_le h.known (Table.size_le_modify ..)
  state := by
    rw [← h.state]
    exact World.data_modifyVisit Visit.state rfl v
  waits e he := h.waits e he

theorem launchWork {s : State} (h : Opens w v s) {part : Part} {reach : Reach}
    {route : Option Route} {work : Work}
    (other : ∀ k m, part = .service k → s.services[k]? ≠ some (.nested m))
    (reached : ∀ u, reach.callback = some u → w.Reachable u)
    (crew : ∀ (w' : World) (reach' : Reach), (w'.visit v).state = s →
      (∀ u, reach'.callback = some u → reach.callback = some u) →
      w'.Crew v { job := .script work.body, reach := reach', route }) :
    Tends w (w.launchWork v part reach route work).1 ∧
      Opens (w.launchWork v part reach route work).1 v s := by
  have ran := Spares.runAction (w.mark (.launched v part)) reach work.setUp fun _ => id
  have marked : Tend w (w.mark (.launched v part)) := .launch v part h.known (h.state ▸ other)
  have set : Tend (w.mark (.launched v part)) _ := .script reached ran.1
  have opens := (h.launch part).spares ran.1
  unfold World.launchWork
  split
  · next eq =>
    rw [eq] at set opens
    -- A set-up that panics leaves no task behind.
    exact ⟨(Relation.ReflTransGen.single marked).tail set, opens⟩
  · next w₁ reach' eq =>
    rw [eq] at ran set opens
    have hired := Tend.crew opens.known opens.waits (crew w₁ reach' opens.state ran.2)
    exact ⟨((Relation.ReflTransGen.single marked).tail set).tail hired, opens.spawnFor _⟩

theorem launchService {s : State} (h : Opens w v s) {k : Nat} {service : Service}
    (part : s.services[k]? = some service) (first : k = 0 → ∀ t, (w.task t).home ≠ some v) :
    Tends w (w.launchService v k service).1 ∧ Opens (w.launchService v k service).1 v s := by
  have own (alone : ∀ m, service ≠ .nested m) (j : Nat) (m : Machine)
      (mine : Part.service k = .service j) : s.services[j]? ≠ some (.nested m) := by
    cases mine
    rw [part]
    exact fun other => alone m (Option.some.inj other)
  -- The task of a free service has its callback in its hands, that of a routed one a token only.
  cases service with
  | free work =>
    refine launchWork h (own (by simp)) (fun u hu => ?_) fun w' reach' state mine => ?_
    · cases hu
      exact .inr ⟨k, work, h.state ▸ part⟩
    · exact .free (state ▸ part) fun u hu => (Option.some.inj (mine u hu)).symm
  | routed work =>
    refine launchWork h (own (by simp)) nofun fun w' reach' state mine =>
      .routed (state ▸ part) ?_
    exact Option.eq_none_iff_forall_not_mem.2 fun u hu => by cases mine u hu
  | nested m =>
    have hired := Tend.foster (k := k) h.known h.waits (h.state ▸ part) first
    exact ⟨.single hired, (h.launch (.service k)).spawnFor _⟩

theorem launchServices {s : State} (h : Opens w v s) (k : Nat) (rest : List Service)
    (here : s.services.drop k = rest) (first : k = 0 → ∀ t, (w.task t).home ≠ some v) :
    Tends w (w.launchServices v k rest).1 ∧ Opens (w.launchServices v k rest).1 v s := by
  induction rest generalizing w k with
  | nil => exact ⟨.refl, h⟩
  | cons service rest ih =>
    obtain ⟨part, next⟩ := getElem?_of_drop here
    have launched := launchService h part first
    unfold World.launchServices
    split
    · next eq =>
      rw [eq] at launched
      exact launched
    · next eq =>
      rw [eq] at launched
      -- Only the first service may find a visit that has no tasks.
      have others := ih launched.2 (k + 1) next nofun
      exact ⟨launched.1.trans others.1, others.2⟩

theorem launchActivities {s : State} (h : Opens w v s) (k : Nat) (rest : List Work)
    (here : s.activities.drop k = rest) :
    Tends w (w.launchActivities v k rest).1 ∧ Opens (w.launchActivities v k rest).1 v s := by
  induction rest generalizing w k with
  | nil => exact ⟨.refl, h⟩
  | cons work rest ih =>
    obtain ⟨part, next⟩ := getElem?_of_drop here
    have launched : Tends w (w.launchWork v (.activity k) {} none work).1 ∧
        Opens (w.launchWork v (.activity k) {} none work).1 v s :=
      launchWork h nofun nofun fun w' reach' state mine => .active (state ▸ part)
        (Option.eq_none_iff_forall_not_mem.2 fun u hu => by cases mine u hu)
    unfold World.launchActivities
    split
    · next eq =>
      rw [eq] at launched
      exact launched
    · next eq =>
      rw [eq] at launched
      have others := ih launched.2 (k + 1) next
      exact ⟨launched.1.trans others.1, others.2⟩

theorem launchAll {s : State} (h : Opens w v s) (first : ∀ t, (w.task t).home ≠ some v) :
    Tends w (w.launchAll v).1 ∧ Opens (w.launchAll v).1 v s := by
  have served := launchServices h 0 s.services rfl fun _ => first
  unfold World.launchAll
  simp only [h.state]
  split
  · next eq =>
    rw [eq] at served
    exact served
  · next eq =>
    rw [eq] at served
    have others := launchActivities served.2 0 s.activities rfl
    exact ⟨served.1.trans others.1, others.2⟩

/-- A visit that is given up. -/
theorem abandon (w : World) (v : VisitId) : Tends w (w.abandon v).1 := by
  unfold World.abandon
  rw [World.closeVisit_abortWork]
  have closed : Tends w (w.closeVisit v) := spare (.closeVisit ..)
  refine (closed.tail (.relax (.inr ?_))).trans
    (spare ((Spares.tearScope ..).trans (.runPhrase ..)))
  simp

theorem launch {s : State} (h : Opens w v s) (first : ∀ t, (w.task t).home ≠ some v) :
    Tends w (w.launch r v).1 := by
  have launched := (launchAll h first).1
  unfold World.launch
  split
  · next eq =>
    rw [eq] at launched
    exact (launched.trans (abandon ..)).trans (unwind ..)
  · next eq =>
    rw [eq] at launched
    exact launched.trans (spare (.modifyRun (fun _ => rfl) fun _ => rfl))

/-- Whoever works for a visit, and whatever is said of one, is about a visit that is there. -/
structure Known (w : World) : Prop where
  home : ∀ t v, (w.task t).home = some v → v < w.visits.size
  concluded : ∀ v e, .concluded v e ∈ w.marks → v < w.visits.size

theorem Known.spares {c : Option VisitId} (h : Known w) (spares : Spares c w w') : Known w' where
  home t v home := by
    rcases Nat.lt_or_ge t w.tasks.size with old | new
    · rw [(spares.task t old).home] at home
      exact Nat.lt_of_lt_of_le (h.home t v home) spares.visits
    · cases (spares.fresh t new).home.symm.trans home
  concluded v e he :=
    Nat.lt_of_lt_of_le (h.concluded v e (spares.silent _ he rfl)) spares.visits

theorem enter (known : Known w) (s : State) : Tends w (w.enter r s).1 := by
  have pushed : Tend w { w with visits := w.visits.push { state := s, run := r } } := .visit r s
  -- No mark speaks of the end of a wait in a visit that is new.
  have opens : Opens { w with visits := w.visits.push { state := s, run := r } }
      w.visits.size s :=
    ⟨by simp, by simp, fun e he => Nat.lt_irrefl _ (known.concluded _ e he)⟩
  have ran := ((Spares.trace _ (.entering s.id s.mode)).trans
    (.mark _ (.entered r w.visits.size) rfl rfl)).trans
      (.runPhrase (w.pushVisit r s) w.visits.size .enter)
  have entered := (Relation.ReflTransGen.single pushed).trans (spare ran)
  rw [World.enter_eq]
  split
  · next eq =>
    rw [eq] at entered
    exact (entered.trans (spare (.closeVisit ..))).trans (unwind ..)
  · next w₁ eq =>
    rw [eq] at entered ran
    have arrived := Spares.mark (c := none) w₁ (.arrived w.visits.size) rfl rfl
    have here := entered.trans (spare arrived)
    split
    · exact here.trans (concluded nofun nofun)
    · refine here.trans (launch ((opens.spares ran).spares arrived) fun t home => ?_)
      -- Nobody works for the new visit: old tasks have their homes, and new ones have none.
      rcases Nat.lt_or_ge t w.tasks.size with old | new
      · rw [((ran.trans arrived).task t old).home] at home
        exact Nat.lt_irrefl _ (known.home t _ home)
      · cases ((ran.trans arrived).fresh t new).home.symm.trans home

theorem arrive (known : Known w) (s : State) (previous : Option String)
    (cause : Option Decision) : Tends w (w.arrive r s previous cause).1 := by
  have told := (Spares.mark w (.notified r ⟨s.id, previous, cause⟩) rfl rfl).trans
    (.notifyChange _ ⟨s.id, previous, cause⟩
      (w.interpreter (w.run r).interpreter).changeHandlers)
  unfold World.arrive
  split
  · exact spare (.conclude ..)
  · simp only
    split
    · next eq =>
      rw [eq] at told
      exact (spare told).trans (unwind ..)
    · next eq =>
      rw [eq] at told
      exact (spare told).trans (enter (known.spares told) s)

/-- A move of a run is a number of deeds. -/
theorem advance (known : Known w)
    (past : ∀ v e, (w.run r).phase = .draining v e → .concluded v e ∈ w.marks) :
    Tends w (w.advance r).1 := by
  unfold World.advance
  cases phase : (w.run r).phase with
  | begun s => exact spare ((Spares.trace ..).trans (.modifyRun (fun _ => rfl) fun _ => rfl))
  | arriving s previous cause => exact arrive known ..
  | waiting v => exact inspect ..
  | draining v e => exact drain (past v e phase)
  | ended => exact .refl

theorem dropRun (w : World) (r : RunId) : Tends w (w.dropRun r).1 := by
  have ended : Tends w (w.setPhase r .ended) := spare (.modifyRun (fun _ => rfl) fun _ => rfl)
  unfold World.dropRun
  cases (w.run r).phase with
  | begun | ended => exact ended
  | arriving => exact ended.trans (spare (.release ..))
  | waiting v => exact (ended.trans (abandon ..)).trans (spare (.release ..))
  | draining v e => exact ended.trans (spare ((Spares.closeVisit ..).trans (.release ..)))

end Tends

namespace Deeds

variable {w w' : World} {t : TaskId}

theorem tend (h : Tends w w') : Deeds w w' :=
  Relation.ReflTransGen.mono (fun _ _ => Deed.tend) _ _ h

theorem spare (spares : Spares none w w') : Deeds w w' :=
  tend (.spare spares)

/-! ## Moves of tasks -/

theorem tellHome (w : World) (home : Option VisitId) : Spares none w (w.tellHome home) := by
  unfold World.tellHome
  split
  · split
    · exact .refl _ w
    · exact .wake ..
  · exact .refl _ w

theorem tellJoiner (w : World) (joiner : Option TaskId) :
    Spares none w (w.tellJoiner joiner) := by
  cases joiner with
  | none => exact .refl _ w
  | some t => exact .wake w t

/-- A task that ends with nothing to raise. -/
theorem endTask {fate : Fate} (alive : (w.task t).isAlive = true) (quits : w.Quits t fate) :
    Deeds w (w.endTask t fate) := by
  obtain ⟨w₀, hw₀⟩ : ∃ w₀, w₀ = if fate = .panicked ∨ fate = .dropped
    then w.logDrops (w.task t).guards else w := ⟨_, rfl⟩
  have dropped : Spares none w w₀ := by
    rw [hw₀]
    split
    · exact .logDrops ..
    · exact .refl _ w
  have spared := dropped.task t (World.lt_size_of_isAlive alive)
  -- What the guards log leaves the task as it was.
  have quits₀ : w₀.Quits t fate := by
    cases quits with
    | panicked begun => exact .panicked fun m => spared.job ▸ begun m
    | dropped aborted => exact .dropped (spared.aborted.trans aborted)
    | ran job => exact .ran (spared.job.trans job)
    | returned job => exact .returned (spared.job.trans job)
  have alive₀ : (w₀.task t).isAlive = true := by
    unfold Task.isAlive at alive ⊢
    rw [spared.fate]
    exact alive
  have quit := Deed.quit alive₀ quits₀ (.letGoAll _
    ((w.task t).reach.callback.toList ++ ((w.task t).route.map (·.visit)).toList))
  rw [spared.home] at quit
  rw [World.endTask_eq, ← hw₀]
  exact ((spare dropped).tail quit).trans (spare ((tellHome ..).trans (tellJoiner ..)))

/-- A task that returns, and whose outcome is raised. -/
theorem finish {failure : Option Fault} (alive : (w.task t).isAlive = true)
    (ends : w.Ends t failure) : Deeds w (w.finish t failure) := by
  have same : w.finish t failure = (w.raiseFor t failure).endTask t .returned := rfl
  obtain ⟨c, raised⟩ : ∃ c, Spares c w (w.raiseFor t failure) := by
    unfold World.raiseFor
    split
    · exact ⟨_, .raiseOutcome ..⟩
    · exact ⟨none, .refl _ w⟩
  have spared := raised.task t (World.lt_size_of_isAlive alive)
  have gone := Deed.finish alive ends (.letGoAll _
    (((w.raiseFor t failure).task t).reach.callback.toList ++
      (((w.raiseFor t failure).task t).route.map (·.visit)).toList))
  rw [← spared.home] at gone
  rw [same, World.endTask_eq, if_neg (by simp)]
  exact (Relation.ReflTransGen.single gone).trans
    (spare ((tellHome ..).trans (tellJoiner ..)))

/-- A task goes on with another job. -/
theorem setJob {job : Job} (old : (w.task t).job.isNested = false) (free : job.other? = none) :
    Deeds w (w.setJob t job) :=
  .single (.job old fun u hu => by cases free.symm.trans hu)

theorem moveScript {s : Script} (alive : (w.task t).isAlive = true)
    (job : (w.task t).job = .script s) : Deeds w (w.moveScript t s) := by
  have stepped := Spares.stepScript w t s
  have reach (v : VisitId) (hv : (w.task t).reach.callback = some v) : w.Reachable v :=
    .inl ⟨t, hv⟩
  have done : Deed w (w.stepScript t s).1 := .tend (.script reach stepped)
  have spared := stepped.task t (World.lt_size_of_isAlive alive)
  have job' := spared.job.trans job
  have alive' := (congrArg Option.isNone spared.fate).trans alive
  have set (w₁ : World) (rest : Script) (job : (w₁.task t).job = .script s) :
      Deeds w₁ (w₁.setJob t (.script rest)) := setJob (by rw [job]; rfl) rfl
  -- The step itself is a deed; then the task goes on, rests, returns or panics.
  unfold World.moveScript
  split
  · next h =>
    rw [h] at done job'
    exact (Relation.ReflTransGen.single done).trans (set _ _ job')
  · next h =>
    rw [h] at done job'
    exact ((Relation.ReflTransGen.single done).trans (set _ _ job')).trans (spare (.park ..))
  · next h =>
    rw [h] at done job' alive'
    exact (Relation.ReflTransGen.single done).trans (finish alive' (.script job'))
  · next h =>
    rw [h] at done job' alive'
    exact (Relation.ReflTransGen.single done).trans (endTask alive' (.panicked (by simp [job'])))

/-- A service with a nested machine begins its run, or fails at once. -/
theorem beginNested {m : Machine} (alive : (w.task t).isAlive = true)
    (job : (w.task t).job = .nested m) : Deeds w (w.beginNested t m) := by
  have old := World.lt_size_of_isAlive alive
  have row : (w.withNested t m).interpreter w.interpreters.size = { machine := m } := by
    simp [World.withNested, World.spawn]
  rw [World.beginNested_eq]
  split
  · next w₁ r begun =>
    obtain ⟨s, -, first, rfl, rfl⟩ := World.begin_ok begun
    rw [row] at first
    exact .single (.nest job first)
  · next e refused =>
    rw [World.begin_eq_error, row] at refused
    have founded : Spares none w (w.withNested t m) :=
      (Spares.pushInterpreter w m).trans (.spawn ⟨rfl, rfl, rfl, fun _ hv => by cases hv⟩)
    have hooked : Deeds w (w.withNested t m) := spare founded
    -- The task that would stop the nested machine works for no visit.
    have aside : ((w.withNested t m).task w.tasks.size).home = none :=
      (founded.fresh _ (Nat.le_refl _)).home
    have told := Dismisses.abort (w.withNested t m) (P := fun _ => True) (t := w.tasks.size) trivial
    obtain ⟨aborted, same, -⟩ := told.task t
    have spared := founded.task t old
    refine (hooked.tail (.abort (.inl aside))).trans (finish ?_ (.refused (m := m) ?_ refused))
    · rw [same]
      exact (congrArg Option.isNone spared.fate).trans alive
    · rw [same]
      exact spared.job.trans job

/-- A task that drives a run goes on with it. -/
theorem drive {r : RunId} (orderly : Orderly w .rest) (alive : (w.task t).isAlive = true)
    (job : (w.task t).job.run? = some r) :
    Tends w (w.advance r).1 ∧ ((w.advance r).1.task t).job = (w.task t).job ∧
      ((w.advance r).1.task t).isAlive = true ∧
        (w.advance r).1.machineOf r = w.machineOf r := by
  have going := orderly.toSound.going alive job
  have began : .began r ∈ w.marks :=
    (orderly.slotted.owner _ r (orderly.slotted.holder r (.inl going))).2
  have known : Tends.Known w :=
    ⟨fun t v home => (orderly.crewed.home t v home).1,
      fun v e he => orderly.recorded.visit _ he v rfl⟩
  -- A run that drains a visit has marked the end of its wait, by its course.
  have advanced := Tends.advance (r := r) known fun v e phase => by
    obtain ⟨st, chart⟩ := orderly.charted r began
    have stands := chart.stands
    simp only [World.standing?_rest, phase, Phase.standing?, Standing.matches_some] at stands
    subst stands
    exact (World.mem_way.1 (chart.course.concluded (.inl rfl))).1
  obtain ⟨-, serves⟩ := advanced.task (World.lt_size_of_isAlive alive)
  exact ⟨advanced, serves.job, (congrArg Option.isNone serves.fate).trans alive,
    advanced.anchored.machineOf (orderly.rooted.run r began)
      (orderly.rooted.interpreter r began)⟩

theorem moveDrive {r : RunId} {hook : Option TaskId} (orderly : Orderly w .rest)
    (alive : (w.task t).isAlive = true) (job : (w.task t).job = .drive r hook) :
    Deeds w (w.moveDrive t r hook) := by
  obtain ⟨advanced, job', alive', machine⟩ := drive (r := r) orderly alive (by rw [job]; rfl)
  have tells := w.returned_of_advance r
  rw [job] at job'
  unfold World.moveDrive
  simp only
  split
  -- The run goes on, rests, panics or returns, and its task with it.
  · next h =>
    rw [h] at advanced
    exact tend advanced
  · next h =>
    rw [h] at advanced
    exact (tend advanced).trans (spare (.park ..))
  · next h =>
    rw [h] at advanced job' alive'
    exact (tend advanced).trans (endTask alive' (.panicked (by simp [job'])))
  · next w₁ result h =>
    rw [h] at advanced job' alive' machine tells
    split
    -- A nested run takes its hook along.
    · next hook =>
      have told := Dismisses.abort w₁ (P := fun _ => True) (t := hook) trivial
      obtain ⟨aborted, same, -⟩ := told.task t
      have dismissed := (tend advanced).tail (.abort (.inr (.other (by rw [job']; rfl))))
      have machine' : (w₁.abort hook).machineOf r = w.machineOf r := by
        rw [← machine]
        unfold World.machineOf World.run World.interpreter
        rw [told.runs, told.interpreters]
      rw [← machine']
      have driven : ((w₁.abort hook).task t).job = .drive r (some hook) := by
        rw [same]
        exact job'
      refine dismissed.trans (finish (by rw [same]; exact alive') (.ran driven ?_))
      exact told.marks ▸ tells.returned result rfl
    · exact (tend advanced).trans (endTask alive' (.ran job'))

theorem moveStopHook {i : InterpreterId} (alive : (w.task t).isAlive = true)
    (job : (w.task t).job = .stopHook i) : Deeds w (w.moveStopHook t i) := by
  unfold World.moveStopHook
  split
  · split
    · exact spare (.park ..)
    · exact spare ((Spares.beginWait ..).trans (.park ..))
  · have stopped : Spares none w (((w.trace (.stoppingNested
        (w.interpreter i).machine.id)).forceStop i).endWait t) :=
      ((Spares.trace ..).trans (.forceStop ..)).trans (.endWait ..)
    have spared := stopped.task t (World.lt_size_of_isAlive alive)
    exact (spare stopped).trans (finish ((congrArg Option.isNone spared.fate).trans alive)
      (.stopped (i := i) (spared.job.trans job)))

/-! ## The controller -/

/-- A task that is alive and has a job that is not that of a nested machine. -/
structure Minds (w : World) (t : TaskId) : Prop where
  alive : (w.task t).isAlive = true
  job : (w.task t).job.isNested = false

theorem Minds.panics (h : Minds w t) : w.Quits t .panicked :=
  .panicked fun m here => by
    have other := h.job
    rw [here] at other
    cases other

theorem Minds.spares {c : Option VisitId} (h : Minds w t) (spares : Spares c w w') :
    Minds w' t := by
  have spared := spares.task t (World.lt_size_of_isAlive h.alive)
  exact ⟨(congrArg Option.isNone spared.fate).trans h.alive, spared.job ▸ h.job⟩

theorem Minds.tends (h : Minds w t) (tends : Tends w w') : Minds w' t := by
  obtain ⟨-, serves⟩ := tends.task (World.lt_size_of_isAlive h.alive)
  exact ⟨(congrArg Option.isNone serves.fate).trans h.alive, serves.job ▸ h.job⟩

theorem answer (h : Minds w t) (steps : List Step) (a : Answer) :
    Deeds w (w.answer t steps a) := by
  have told (reports : Array Report) : Spares none w ({ w with reports }.endWait t) := .report ..
  exact (spare (told _)).trans (setJob (h.spares (told _)).job rfl)

theorem beginNamed (h : Minds w t) (rest : List Step) (i : InterpreterId) (step : Step) :
    Deeds w (w.beginNamed t rest i step) := by
  cases step with
  | run n ms =>
    simp only [World.beginNamed]
    split
    · next begun =>
      obtain ⟨s, -, -, rfl, rfl⟩ := World.begin_ok begun
      have took := Spares.takeSlot (c := none) w i t s
      exact (spare took).trans (setJob (h.spares took).job rfl)
    · exact answer h ..
  | start n =>
    simp only [World.beginNamed]
    split
    · next started =>
      have begun := Spares.startInBackground (c := none) started
      exact (spare begun).trans (answer (h.spares begun) ..)
    · exact answer h ..
  | join n ms =>
    simp only [World.beginNamed]
    split
    · next u handle =>
      -- The handle is taken out of its place, but its task may as well be noted first.
      have noted (deadline : Nat) : Deed w (w.setJob t (.control rest (.joining i u deadline))) :=
        .job h.job fun x hx => by
          cases hx
          exact .handle handle
      exact (Relation.ReflTransGen.single (noted _)).trans (spare (.takeHandle ..))
    · exact answer h ..
  | abort n =>
    simp only [World.beginNamed]
    split
    · next u handle =>
      have told := Dismisses.abort w (P := fun _ => True) (t := u) trivial
      obtain ⟨aborted, same, -⟩ := told.task t
      have minds : Minds (w.abort u) t := ⟨by rw [same]; exact h.alive, by rw [same]; exact h.job⟩
      exact (Relation.ReflTransGen.single (.abort (.inr (.handle handle)))).trans (answer minds ..)
    · exact answer h ..
  | history | debug | validate | machineDebug => exact answer h ..
  | script instr => exact setJob h.job rfl

theorem beginStep (h : Minds w t) (rest : List Step) (step : Step) :
    Deeds w (w.beginStep t rest step) := by
  unfold World.beginStep
  split
  · exact beginNamed h ..
  · split
    · exact beginNamed h ..
    · exact answer h ..

theorem giveUp {rest : List Step} {r : RunId} (h : Minds w t) : Deeds w (w.giveUp t rest r) := by
  have dropped := Tends.dropRun w r
  have minds := h.tends dropped
  unfold World.giveUp
  split
  · next h =>
    rw [h] at dropped minds
    exact (tend dropped).trans (endTask minds.alive minds.panics)
  · next h =>
    rw [h] at dropped minds
    exact (tend dropped).trans (answer minds ..)

theorem parkUntil (w : World) (t : TaskId) (deadline : Nat) :
    Spares none w (w.parkUntil t deadline) := by
  refine Spares.trans ?_ (.park ..)
  exact .modifyTask fun x => ⟨rfl, rfl, rfl, rfl, rfl, fun _ => id⟩

theorem moveRunning {rest : List Step} {r : RunId} {deadline : Nat} (orderly : Orderly w .rest)
    (alive : (w.task t).isAlive = true)
    (job : (w.task t).job = .control rest (.running r deadline)) :
    Deeds w (w.moveRunning t rest r deadline) := by
  obtain ⟨advanced, -⟩ := drive (r := r) orderly alive (by rw [job]; rfl)
  have minds : Minds (w.advance r).1 t := Minds.tends ⟨alive, by rw [job]; rfl⟩ advanced
  unfold World.moveRunning
  split
  · next h =>
    rw [h] at advanced
    exact tend advanced
  · next h =>
    rw [h] at advanced minds
    exact (tend advanced).trans (answer minds ..)
  · next h =>
    rw [h] at advanced minds
    exact (tend advanced).trans (answer minds ..)
  · next w₁ h =>
    rw [h] at advanced minds
    split
    · exact (tend advanced).trans (spare (parkUntil ..))
    · exact (tend advanced).trans (giveUp minds)

theorem moveJoining {rest : List Step} {i : InterpreterId} {u : TaskId} {deadline : Nat}
    (alive : (w.task t).isAlive = true)
    (job : (w.task t).job = .control rest (.joining i u deadline)) :
    Deeds w (w.moveJoining t rest i u deadline) := by
  have minds : Minds w t := ⟨alive, by rw [job]; rfl⟩
  unfold World.moveJoining
  split
  · exact answer minds ..
  · have joined : Spares none w (w.modifyTask u fun x => { x with joiner := some t }) :=
      .modifyTask fun x => ⟨rfl, rfl, rfl, rfl, rfl, fun _ => id⟩
    simp only
    split
    · exact spare (joined.trans (parkUntil ..))
    -- The task is put back in its place, from where nobody waits for the one stored before.
    · obtain ⟨w₁, freed, put⟩ : ∃ w₁, Spares none w w₁ ∧
          ((w.modifyTask u fun x => { x with joiner := some t }).setHandle i u) =
            w₁.modifyInterpreter i fun x => { x with handle := some u } := by
        refine ⟨_, joined.trans ?_, rfl⟩
        split
        · exact .modifyTask fun x => ⟨rfl, rfl, rfl, rfl, rfl, fun _ => id⟩
        · exact .refl _ _
      have spared := freed.task t (World.lt_size_of_isAlive alive)
      have hung : Deed w₁ (w₁.modifyInterpreter i fun x => { x with handle := some u }) :=
        .hang i (.other (by rw [spared.job, job]; rfl))
      have still : Minds (w₁.modifyInterpreter i fun x => { x with handle := some u }) t :=
        ⟨(minds.spares freed).alive, (minds.spares freed).job⟩
      rw [put]
      exact ((spare freed).tail hung).trans (answer still ..)

theorem moveControlScript {steps : List Step} {s : Script} (h : Minds w t) :
    Deeds w (w.moveControlScript t steps s) := by
  have stepped := Spares.stepScript w t s
  have done : Deed w (w.stepScript t s).1 :=
    .tend (.script (fun v hv => .inl ⟨t, hv⟩) stepped)
  have minds := h.spares stepped
  unfold World.moveControlScript
  split
  · next eq =>
    rw [eq] at done minds
    exact (Relation.ReflTransGen.single done).trans (setJob minds.job rfl)
  · next eq =>
    rw [eq] at done minds
    exact ((Relation.ReflTransGen.single done).trans (setJob minds.job rfl)).trans
      (spare (.park ..))
  · next w₁ failure eq =>
    rw [eq] at done minds
    have freed : Spares none w₁ (w₁.modifyTask t fun x => { x with guards := [] }) :=
      .modifyTask fun x => ⟨rfl, rfl, rfl, rfl, rfl, fun _ => id⟩
    exact ((Relation.ReflTransGen.single done).trans (spare freed)).trans
      (answer (minds.spares freed) ..)
  · next eq =>
    rw [eq] at done minds
    exact (Relation.ReflTransGen.single done).trans (endTask minds.alive minds.panics)

theorem moveControl {steps : List Step} {doing : Doing} (orderly : Orderly w .rest)
    (alive : (w.task t).isAlive = true) (job : (w.task t).job = .control steps doing) :
    Deeds w (w.moveControl t steps doing) := by
  have minds : Minds w t := ⟨alive, by rw [job]; rfl⟩
  cases doing with
  | nothing =>
    cases steps with
    | nil => exact endTask alive (.returned job)
    | cons step rest => exact beginStep minds rest step
  | script s => exact moveControlScript minds
  | running r deadline => exact moveRunning orderly alive job
  | joining i u deadline => exact moveJoining alive job

/-! ## Moves of the world -/

theorem move (orderly : Orderly w .rest) (turn : w.running = some t) : Deeds w (w.move t) := by
  have alive := orderly.toSound.turn t turn
  unfold World.move
  cases job : (w.task t).job with
  | script s => exact moveScript alive job
  | nested m => exact beginNested alive job
  | drive r hook => exact moveDrive orderly alive job
  | stopHook i => exact moveStopHook alive job
  | control steps doing => exact moveControl orderly alive job

/-- A task that was aborted is dropped, with the run that it drives. -/
theorem dropTask (alive : (w.task t).isAlive = true) (aborted : (w.task t).aborted = true) :
    Deeds w (w.dropTask t) := by
  unfold World.dropTask
  split
  · next r job =>
    have dropped := Tends.dropRun w r
    obtain ⟨-, serves⟩ := dropped.task (World.lt_size_of_isAlive alive)
    have alive' := (congrArg Option.isNone serves.fate).trans alive
    have aborted' := serves.aborted aborted
    -- A task that drives a run has begun its machine.
    have begun (m : Machine) : ((w.dropRun r).1.task t).job ≠ .nested m := by
      rintro here
      cases (congrArg Job.run? (serves.job.symm.trans here)).symm.trans job
    split
    · next h =>
      rw [h] at dropped alive' begun
      exact (tend dropped).trans (endTask alive' (.panicked begun))
    · next h =>
      rw [h] at dropped alive' aborted'
      exact (tend dropped).trans (endTask alive' (.dropped aborted'))
  · exact endTask alive (.dropped aborted)

theorem beginTurn (orderly : Orderly w .rest) (ready : t ∈ w.queue) : Deeds w (w.beginTurn t) := by
  have unqueued : Spares none w { w with queue := w.queue.erase t } :=
    .of_eq rfl rfl rfl rfl rfl rfl
  unfold World.beginTurn
  simp only
  split
  · next aborted =>
    exact (spare unqueued).trans (dropTask (orderly.toSound.ready t ready) aborted)
  · exact spare ((unqueued.trans (.mark _ (.turn t) rfl rfl)).trans
      (.of_eq rfl rfl rfl rfl rfl rfl))

/-- A move of the world, under any schedule, is a number of deeds. -/
theorem next (orderly : Orderly w .rest) (h : w.Next w') : Deeds w w' := by
  cases h with
  | move turn => exact move orderly turn
  | giveUp turn job waits => exact giveUp ⟨orderly.toSound.turn _ turn, by rw [job]; rfl⟩
  | turn free ready => exact beginTurn orderly ready
  | tick free later => exact spare (.advanceClock later)
  | wake t => exact spare (.wake w t)
  | stop i => exact spare (.forceStop w i)
  | start i free started => exact spare (.startInBackground started)
  | abort t free own => exact .single (.abort (.inl own))
  | call steps => exact spare (.spawn ⟨rfl, rfl, rfl, nofun⟩)

end Deeds

/-- A scenario starts with observers and a controller. -/
theorem Scenario.spares_start (s : Scenario) : Spares none s.opening s.start := by
  have observed (observers : List (Nat × Observer Script)) (w : World) :
      Spares none w (observers.foldl (fun w o => w.observe o.1 o.2) w) := by
    induction observers generalizing w with
    | nil => exact .refl _ w
    | cons o os ih => exact (Spares.observe w o.1 o.2).trans (ih _)
  exact (observed _ _).trans (.spawn ⟨rfl, rfl, rfl, nofun⟩)

/-- Whatever has happened to tasks since the opening of a scenario is a number of deeds. -/
theorem Scenario.Reaches.deeds {s : Scenario} {w : World} (h : s.Reaches w) :
    Deeds s.opening w := by
  induction h with
  | refl => exact .spare s.spares_start
  | tail before next ih => exact ih.trans (Deeds.next (Scenario.Reaches.orderly before) next)

end Statechart
