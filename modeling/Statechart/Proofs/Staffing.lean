import Statechart.Proofs.Deeds

/-!
# How visits keep account of their tasks

A visit lists its tasks: first among those that work, and once they have ended among those that it
has not heard of yet. So no panic is lost: a visit that settles has heard of all of its tasks, and
none of them has panicked.

## Main definitions

- `World.Ended`: what the end of a task comes to.
- `Staffed`: visits keep account of their tasks.

## Main statements

- `Staffed.deed`: whatever happens to tasks, visits keep account of it.
- `Scenario.Reaches.staffed`: they do in every world that a scenario comes to.
-/

namespace Statechart

/-! ## Definitions -/

/-- What the end of a task comes to: everybody else goes on as before, and the task's visit will
hear of it. -/
structure World.Ended (w : World) (t : TaskId) (fate : Fate) (w' : World) : Prop
    extends Anchored w w' where
  task : ∀ u, u ≠ t → u < w.tasks.size → (w.task u).Spared (w'.task u)
  ended : (w'.task t).fate = some fate
  self : (w'.task t).home = (w.task t).home ∧ (w'.task t).route = (w.task t).route ∧
    (w'.task t).aborted = (w.task t).aborted
  reach : ∀ v, (w'.task t).reach.callback = some v → (w.task t).reach.callback = some v
  job : (w'.task t).job = .script []
  fresh : ∀ u, w.tasks.size ≤ u → (w'.task u).Stray (w.AtHand none)
  kept : ∀ k ∈ w'.kept, ∃ k' ∈ w.kept, k'.2 = k.2
  visits : w.visits.size ≤ w'.visits.size
  state : ∀ v, (w'.visit v).state = (w.visit v).state
  owner : ∀ v, (w'.visit v).run = (w.visit v).run
  working : ∀ v, (w'.visit v).working =
    if (w.task t).home = some v then (w.visit v).working.erase t else (w.visit v).working
  finished : ∀ v, (w'.visit v).finished =
    if (w.task t).home = some v then (w.visit v).finished ++ [t] else (w.visit v).finished
  fired : ∀ v, (w'.visit v).fired = true → (w.visit v).fired = true ∨ w.AtHand none v
  handle : ∀ i u, (w'.interpreter i).handle = some u →
    (w.interpreter i).handle = some u ∨ w.tasks.size ≤ u ∧ u < w'.tasks.size
  tasks : w.tasks.size ≤ w'.tasks.size
  marks : w.marks ++ [.ended t fate] <+: w'.marks
  silent : ∀ m ∈ w'.marks, m.isLoud = true → m ∈ w.marks
  raised : ∀ v d, .raised v d true ∈ w'.marks → .raised v d true ∈ w.marks ∨
    w.AtHand none v ∧ (w.visit v).state.admits d = true

/-- Visits keep account of their tasks. -/
structure Staffed (w : World) : Prop where
  /-- A task that has a name works for no visit. -/
  named : ∀ t, w.IsNamed t → t < w.tasks.size ∧ (w.task t).home = none
  callback : ∀ t v, (w.task t).reach.callback = some v → v < w.visits.size
  kept : ∀ k ∈ w.kept, k.2 < w.visits.size
  home : ∀ t v, (w.task t).home = some v → v < w.visits.size
  route : ∀ t route, (w.task t).route = some route → (w.task t).home = some route.visit
  working : ∀ t v, (w.task t).home = some v → (w.task t).isAlive = true →
    t ∈ (w.visit v).working
  listed : ∀ t v, t ∈ (w.visit v).working → (w.task t).home = some v
  busy : ∀ v, (w.visit v).working.Nodup ∧
    ∀ t ∈ (w.visit v).working, (w.task t).isAlive = true
  finished : ∀ t v, t ∈ (w.visit v).finished →
    (w.task t).home = some v ∧ (w.task t).isAlive = false
  /-- A visit hears of every panic, unless something else has ended its wait. -/
  mourned : ∀ t v, (w.task t).home = some v → (w.task t).fate = some .panicked →
    t ∈ (w.visit v).finished ∨ ∃ e, e ≠ .settled ∧ .concluded v e ∈ w.marks
  /-- A visit that has settled has heard of all of its tasks. -/
  cleared : ∀ v, .concluded v .settled ∈ w.marks →
    (w.visit v).working = [] ∧ (w.visit v).finished = []
  /-- It is for a panic that a wait ends so. -/
  blamed : ∀ v, .concluded v .panicked ∈ w.marks →
    ∃ t, (w.task t).home = some v ∧ (w.task t).fate = some .panicked
  /-- Tasks are told to go once their visit's wait is over, or when the visit is left. -/
  dismissed : ∀ t v, (w.task t).home = some v → (w.task t).aborted = true →
    (∃ e, .concluded v e ∈ w.marks) ∨ .left v ∈ w.marks
  /-- An event that was accepted can have an effect. -/
  admitted : ∀ v d, .raised v d true ∈ w.marks →
    v < w.visits.size ∧ (w.visit v).state.admits d = true

section

variable {w w' : World} {c : Option VisitId} {t : TaskId} {v : VisitId} {fate : Fate}

theorem World.lt_size_of_home (h : (w.task t).home = some v) : t < w.tasks.size :=
  Nat.lt_of_not_le fun new => by cases (World.home_of_size_le new).symm.trans h

/-! ## The end of a task -/

/-- The end of a task, and whatever others do who hear of it. -/
theorem World.ended_of_bury (alive : (w.task t).isAlive = true)
    (spares : Spares none (w.bury t fate) w') :
    w.Ended t fate (w'.withdraw t (w.task t).home) := by
  have old := World.lt_size_of_isAlive alive
  have size : (w.bury t fate).tasks.size = w.tasks.size := Table.size_modify_of_lt old _
  have buried : (w.bury t fate).task t = { w.task t with
      job := .script [], wait := none, guards := [], fate := some fate } := by
    simp [World.bury, World.mark, World.log, World.modifyTask]
  have spared := spares.task t (size ▸ old)
  rw [buried] at spared
  -- To be withdrawn from its visit is nothing to runs, interpreters and tasks.
  have rows : (w'.withdraw t (w.task t).home).runs = w'.runs ∧
      (w'.withdraw t (w.task t).home).interpreters = w'.interpreters ∧
      (w'.withdraw t (w.task t).home).kept = w'.kept ∧
      (w'.withdraw t (w.task t).home).marks = w'.marks ∧
      (w'.withdraw t (w.task t).home).tasks = w'.tasks := by
    unfold World.withdraw
    split <;> exact ⟨rfl, rfl, rfl, rfl, rfl⟩
  obtain ⟨runs, interpreters, kept, marks, tasks⟩ := rows
  -- The end of the task is the first thing that is noted.
  have noted : (w.bury t fate).marks = w.marks ++ [.ended t fate] := World.marks_mark ..
  have news {m : Mark} (hm : m ∈ (w.bury t fate).marks) (other : m ≠ .ended t fate) :
      m ∈ w.marks := by
    rw [noted] at hm
    exact (List.mem_append.1 hm).resolve_right fun new => other (List.mem_singleton.1 new)
  have anchored : Anchored (w.bury t fate) (w'.withdraw t (w.task t).home) :=
    spares.toAnchored.trans (.of_eq runs interpreters)
  have buried' : Anchored w (w.bury t fate) := .of_eq rfl rfl
  -- What others do spares the rest of the world, so each field is read off before the task is
  -- withdrawn.
  exact { buried'.trans anchored with
    task := fun u hu known => by
      rw [World.task_withdraw, ← w.task_bury_of_ne fate hu]
      exact spares.task u (size ▸ known)
    ended := by rw [World.task_withdraw, spared.fate]
    self := by
      rw [World.task_withdraw]
      exact ⟨spared.home, spared.route, spared.aborted⟩
    reach := fun v hv => by
      rw [World.task_withdraw] at hv
      exact spared.callback v hv
    job := by rw [World.task_withdraw, spared.job]
    fresh := fun u hu => by
      rw [World.task_withdraw]
      exact spares.fresh u (size ▸ hu)
    kept := fun k hk => (spares.kept k (kept ▸ hk)).resolve_left (by simp)
    visits := by
      refine Nat.le_trans spares.visits ?_
      unfold World.withdraw
      split
      · exact Table.size_le_modify ..
      · exact Nat.le_refl _
    state := fun v => by
      rw [World.visit_withdraw, ← show (w.bury t fate).visit v = w.visit v from rfl,
        ← spares.state v]
      split <;> rfl
    owner := fun v => by
      rw [World.visit_withdraw, ← show (w.bury t fate).visit v = w.visit v from rfl,
        ← spares.owner v]
      split <;> rfl
    working := fun v => by
      rw [World.visit_withdraw, ← show (w.bury t fate).visit v = w.visit v from rfl,
        ← spares.working v]
      split <;> rfl
    finished := fun v => by
      rw [World.visit_withdraw, ← show (w.bury t fate).visit v = w.visit v from rfl,
        ← spares.finished v]
      split <;> rfl
    fired := fun v hv => by
      refine spares.fired v ?_
      rw [World.visit_withdraw] at hv
      split at hv <;> exact hv
    handle := fun i u hu => by
      unfold World.interpreter at hu
      rw [interpreters] at hu
      rw [← size, tasks]
      exact spares.handle i u hu
    tasks := by
      rw [tasks, ← size]
      exact spares.tasks
    marks := by
      rw [marks, ← noted]
      exact spares.marks
    silent := fun m hm loud => news (spares.silent m (marks ▸ hm) loud) fun here => by
      rw [here] at loud
      cases loud
    raised := fun v d hd => by
      refine (spares.raised v d (marks ▸ hd)).imp_left fun old => news old (by simp) }

/-! ## What happens to tasks -/

namespace Staffed

/-- A callback that is at hand is that of a visit that is there. -/
theorem known (h : Staffed w) (reach : ∀ v, c = some v → v < w.visits.size)
    (hand : w.AtHand c v) : v < w.visits.size := by
  rcases hand with mine | ⟨k, hk, rfl⟩
  · exact reach v mine
  · exact h.kept k hk

/-- Whoever has a name had it before, or is new and works for no visit. -/
theorem named_spares (h : Staffed w) (spares : Spares c w w') (named : w'.IsNamed t) :
    t < w'.tasks.size ∧ (w'.task t).home = none := by
  have old (was : w.IsNamed t) : t < w'.tasks.size ∧ (w'.task t).home = none := by
    obtain ⟨known, none⟩ := h.named t was
    exact ⟨Nat.lt_of_lt_of_le known spares.tasks, (spares.task t known).home.trans none⟩
  cases named with
  | handle handle =>
    rcases spares.handle _ t handle with handle | ⟨new, spawned⟩
    · exact old (.handle handle)
    · exact ⟨spawned, (spares.fresh t new).home⟩
  | @other u other =>
    rcases Nat.lt_or_ge u w.tasks.size with known | new
    · exact old (.other ((spares.task u known).job ▸ other))
    · cases (Job.other?_of_isFree (spares.fresh u new).job).symm.trans other

/-- What scripts leave alone stays in order. -/
theorem spares (h : Staffed w) (spares : Spares c w w')
    (reach : ∀ v, c = some v → v < w.visits.size) : Staffed w' := by
  -- New tasks are strays, so whatever no stray has is had by a task that was there before.
  have task {P : Task → Prop} (t : TaskId) (none : ∀ Q, (w'.task t).Stray Q → ¬ P (w'.task t))
      (here : P (w'.task t)) : t < w.tasks.size ∧ (w.task t).Spared (w'.task t) := by
    rcases Nat.lt_or_ge t w.tasks.size with old | new
    · exact ⟨old, spares.task t old⟩
    · exact absurd here (none _ (spares.fresh t new))
  have home {t : TaskId} {v : VisitId} (home : (w'.task t).home = some v) :
      (w.task t).home = some v ∧ (w.task t).Spared (w'.task t) := by
    obtain ⟨-, spared⟩ := task (P := fun x => x.home = some v) t
      (fun _ stray hx => by cases stray.home.symm.trans hx) home
    exact ⟨spared.home.symm.trans home, spared⟩
  have larger {v : VisitId} (known : v < w.visits.size) : v < w'.visits.size :=
    Nat.lt_of_lt_of_le known spares.visits
  have mark {m : Mark} (hm : m ∈ w.marks) : m ∈ w'.marks := spares.marks.subset hm
  exact {
    named := fun t => h.named_spares spares
    callback := fun t v hv => by
      rcases Nat.lt_or_ge t w.tasks.size with old | new
      · exact larger (h.callback t v ((spares.task t old).callback v hv))
      · exact larger (h.known reach ((spares.fresh t new).callback v hv))
    kept := fun k hk => larger (h.known reach (spares.kept k hk))
    home := fun t v hv => larger (h.home t v (home hv).1)
    route := fun t route hr => by
      obtain ⟨old, spared⟩ := task (P := fun x => x.route = some route) t
        (fun _ stray hx => by cases stray.route.symm.trans hx) hr
      exact spared.home.trans (h.route t route (spared.route.symm.trans hr))
    working := fun t v hv alive => by
      obtain ⟨hv, spared⟩ := home hv
      rw [spares.working]
      exact h.working t v hv ((congrArg Option.isNone spared.fate).symm.trans alive)
    listed := fun t v ht => by
      rw [spares.working] at ht
      have mine := h.listed t v ht
      exact (spares.task t (World.lt_size_of_home mine)).home.trans mine
    busy := fun v => by
      rw [spares.working]
      refine ⟨(h.busy v).1, fun t ht => ?_⟩
      have spared := spares.task t (World.lt_size_of_home (h.listed t v ht))
      exact (congrArg Option.isNone spared.fate).trans ((h.busy v).2 t ht)
    finished := fun t v ht => by
      rw [spares.finished] at ht
      obtain ⟨mine, dead⟩ := h.finished t v ht
      have spared := spares.task t (World.lt_size_of_home mine)
      exact ⟨spared.home.trans mine, (congrArg Option.isNone spared.fate).trans dead⟩
    mourned := fun t v hv fate => by
      obtain ⟨hv, spared⟩ := home hv
      rw [spares.finished]
      exact (h.mourned t v hv (spared.fate.symm.trans fate)).imp_right
        fun ⟨e, other, past⟩ => ⟨e, other, mark past⟩
    cleared := fun v past => by
      rw [spares.working, spares.finished]
      exact h.cleared v (spares.silent _ past rfl)
    blamed := fun v past => by
      obtain ⟨t, mine, fate⟩ := h.blamed v (spares.silent _ past rfl)
      have spared := spares.task t (World.lt_size_of_home mine)
      exact ⟨t, spared.home.trans mine, spared.fate.trans fate⟩
    dismissed := fun t v hv aborted => by
      obtain ⟨hv, spared⟩ := home hv
      exact (h.dismissed t v hv (spared.aborted.symm.trans aborted)).imp
        (fun ⟨e, past⟩ => ⟨e, mark past⟩) mark
    admitted := fun v d hd => by
      rw [spares.state]
      rcases spares.raised v d hd with old | ⟨hand, admits⟩
      · exact (h.admitted v d old).imp_left larger
      · exact ⟨larger (h.known reach hand), admits⟩ }

/-- A callback that a script can have is that of a visit that is there. -/
theorem known_of_reachable (h : Staffed w) (reach : w.Reachable v) : v < w.visits.size := by
  rcases reach with ⟨t, callback⟩ | ⟨k, work, part⟩
  · exact h.callback t v callback
  · -- A visit that never began has no services.
    by_contra new
    have blank : w.visit v = default := Table.get_of_size_le (Nat.not_lt.1 new)
    rw [blank] at part
    cases part

/-- A mark that is true of the tasks of its visit. -/
theorem mark (h : Staffed w) (m : Mark)
    (settled : ∀ v, m = .concluded v .settled →
      (w.visit v).working = [] ∧ (w.visit v).finished = [])
    (panicked : ∀ v, m = .concluded v .panicked →
      ∃ t, (w.task t).home = some v ∧ (w.task t).fate = some .panicked)
    (refused : ∀ v d, m ≠ .raised v d true) : Staffed (w.mark m) := by
  have split {m' : Mark} (hm : m' ∈ (w.mark m).marks) : m' ∈ w.marks ∨ m' = m := by
    rw [World.marks_mark] at hm
    exact (List.mem_append.1 hm).imp_right List.mem_singleton.1
  have mark {m' : Mark} (hm : m' ∈ w.marks) : m' ∈ (w.mark m).marks := by
    rw [World.marks_mark]
    exact List.mem_append_left _ hm
  exact { h with
    named := fun t named => h.named t (by
      cases named with
      | handle handle => exact .handle handle
      | other other => exact .other other)
    mourned := fun t v mine fate => (h.mourned t v mine fate).imp_right
      fun ⟨e, other, past⟩ => ⟨e, other, mark past⟩
    cleared := fun v past => by
      rcases split past with old | new
      · exact h.cleared v old
      · exact settled v new.symm
    blamed := fun v past => by
      rcases split past with old | new
      · exact h.blamed v old
      · exact panicked v new.symm
    dismissed := fun t v mine aborted => (h.dismissed t v mine aborted).imp
      (fun ⟨e, past⟩ => ⟨e, mark past⟩) mark
    admitted := fun v d hd => by
      rcases split hd with old | new
      · exact h.admitted v d old
      · exact absurd new.symm (refused v d) }

/-- Tasks are told to go that can be. -/
theorem dismisses (h : Staffed w) {P : TaskId → Prop} (told : Dismisses P w w')
    (fair : ∀ t v, P t → (w.task t).home = some v →
      (∃ e, .concluded v e ∈ w.marks) ∨ .left v ∈ w.marks) : Staffed w' := by
  have visit (v : VisitId) : w'.visit v = w.visit v := by
    unfold World.visit
    rw [told.visits]
  -- All that changes of a task is whether it was told to go.
  have same (t : TaskId) : ∃ aborted, w'.task t = { w.task t with aborted } := by
    obtain ⟨aborted, same, -⟩ := told.task t
    exact ⟨aborted, same⟩
  have home (t : TaskId) : (w'.task t).home = (w.task t).home := by
    obtain ⟨_, same⟩ := same t
    rw [same]
  have fate (t : TaskId) : (w'.task t).fate = (w.task t).fate := by
    obtain ⟨_, same⟩ := same t
    rw [same]
  have alive (t : TaskId) : (w'.task t).isAlive = (w.task t).isAlive :=
    congrArg Option.isNone (fate t)
  constructor
  case named =>
    intro t named
    have was : w.IsNamed t := by
      cases named with
      | handle handle =>
        unfold World.interpreter at handle
        rw [told.interpreters] at handle
        exact .handle handle
      | @other u other =>
        obtain ⟨_, same⟩ := same u
        rw [same] at other
        exact .other other
    obtain ⟨known, none⟩ := h.named t was
    exact ⟨Nat.lt_of_lt_of_le known told.tasks, (home t).trans none⟩
  case callback =>
    intro t v hv
    obtain ⟨_, same⟩ := same t
    rw [same] at hv
    rw [told.visits]
    exact h.callback t v hv
  case kept =>
    rw [told.visits, told.kept]
    exact h.kept
  case home =>
    intro t v hv
    rw [told.visits]
    exact h.home t v ((home t).symm.trans hv)
  case route =>
    intro t route hr
    rw [home]
    obtain ⟨_, same⟩ := same t
    rw [same] at hr
    exact h.route t route hr
  case working =>
    intro t v hv there
    rw [visit]
    exact h.working t v ((home t).symm.trans hv) ((alive t).symm.trans there)
  case listed =>
    intro t v ht
    rw [visit] at ht
    exact (home t).trans (h.listed t v ht)
  case busy =>
    intro v
    rw [visit]
    exact ⟨(h.busy v).1, fun t ht => (alive t).trans ((h.busy v).2 t ht)⟩
  case finished =>
    intro t v ht
    rw [visit] at ht
    obtain ⟨mine, dead⟩ := h.finished t v ht
    exact ⟨(home t).trans mine, (alive t).trans dead⟩
  case mourned =>
    intro t v hv panicked
    rw [visit, told.marks]
    exact h.mourned t v ((home t).symm.trans hv) ((fate t).symm.trans panicked)
  case cleared =>
    intro v past
    rw [visit]
    exact h.cleared v (told.marks ▸ past)
  case blamed =>
    intro v past
    obtain ⟨t, mine, panicked⟩ := h.blamed v (told.marks ▸ past)
    exact ⟨t, (home t).trans mine, (fate t).trans panicked⟩
  case dismissed =>
    intro t v hv aborted
    rw [told.marks]
    rw [home] at hv
    obtain ⟨aborted', same', which⟩ := told.task t
    rcases which with rfl | told
    · rw [same'] at aborted
      exact h.dismissed t v hv aborted
    · exact fair t v told hv
  case admitted =>
    intro v d hd
    rw [visit, told.visits]
    exact h.admitted v d (told.marks ▸ hd)

/-- A new visit has no tasks. -/
theorem visit (h : Staffed w) (r : RunId) (s : State) :
    Staffed { w with visits := w.visits.push { state := s, run := r } } := by
  have row (v : VisitId) (known : v < w.visits.size) :
      ({ w with visits := w.visits.push { state := s, run := r } } : World).visit v =
        w.visit v := by
    simp [Nat.ne_of_lt known]
  have larger {v : VisitId} (known : v < w.visits.size) :
      v < (w.visits.push { state := s, run := r }).size := by
    rw [Table.size_push]
    exact Nat.lt_succ_of_lt known
  have lists (v : VisitId) :
      (({ w with visits := w.visits.push { state := s, run := r } } : World).visit v).working =
        (w.visit v).working ∧
      (({ w with visits := w.visits.push { state := s, run := r } } : World).visit v).finished =
        (w.visit v).finished :=
    ⟨w.data_pushVisit { state := s, run := r } Visit.working rfl v,
      w.data_pushVisit { state := s, run := r } Visit.finished rfl v⟩
  exact { h with
    named := fun t named => h.named t (by
      cases named with
      | handle handle => exact .handle handle
      | other other => exact .other other)
    callback := fun t v hv => larger (h.callback t v hv)
    kept := fun k hk => larger (h.kept k hk)
    home := fun t v hv => larger (h.home t v hv)
    working := fun t v hv alive => (lists v).1 ▸ h.working t v hv alive
    listed := fun t v ht => h.listed t v ((lists v).1 ▸ ht)
    busy := fun v => (lists v).1 ▸ h.busy v
    finished := fun t v ht => h.finished t v ((lists v).2 ▸ ht)
    mourned := fun t v hv fate => (lists v).2 ▸ h.mourned t v hv fate
    cleared := fun v past => by
      rw [(lists v).1, (lists v).2]
      exact h.cleared v past
    admitted := fun v d hd => by
      obtain ⟨known, admits⟩ := h.admitted v d hd
      exact ⟨larger known, row v known ▸ admits⟩ }

/-- A visit hires a task. -/
theorem hire (h : Staffed w) (known : v < w.visits.size) (waits : ∀ e, .concluded v e ∉ w.marks)
    {x : Task} (alive : x.isAlive = true) (whole : x.aborted = false)
    (callback : ∀ u, x.reach.callback = some u → u = v)
    (route : ∀ route, x.route = some route → route.visit = v) (free : x.job.other? = none) :
    Staffed (w.spawnFor v x) := by
  -- The new task comes last among the tasks, and last on the list of its visit.
  have task := w.task_spawnFor v x
  have old {t : TaskId} {u : VisitId} (home : (w.task t).home = some u) :
      t ≠ w.tasks.size := Nat.ne_of_lt (World.lt_size_of_home home)
  have visit := w.visit_spawnFor v x
  have finished (u : VisitId) : ((w.spawnFor v x).visit u).finished = (w.visit u).finished :=
    World.data_modifyVisit Visit.finished rfl u
  have state (u : VisitId) : ((w.spawnFor v x).visit u).state = (w.visit u).state :=
    World.data_modifyVisit Visit.state rfl u
  have size : (w.spawnFor v x).visits.size = w.visits.size := Table.size_modify_of_lt known _
  have tasks : (w.spawnFor v x).tasks.size = w.tasks.size + 1 := Table.size_push ..
  constructor
  case named =>
    intro t named
    have was : w.IsNamed t := by
      cases named with
      | handle handle => exact .handle handle
      | @other u other =>
        rw [task] at other
        split at other
        · cases free.symm.trans other
        · exact .other other
    obtain ⟨known, none⟩ := h.named t was
    rw [tasks, task, if_neg (Nat.ne_of_lt known)]
    exact ⟨Nat.lt_succ_of_lt known, none⟩
  case callback =>
    intro t u hu
    rw [size]
    rw [task] at hu
    split at hu
    · exact callback u hu ▸ known
    · exact h.callback t u hu
  case kept =>
    rw [size]
    exact h.kept
  case home =>
    intro t u hu
    rw [size]
    rw [task] at hu
    split at hu
    · exact Option.some.inj hu ▸ known
    · exact h.home t u hu
  case route =>
    intro t ρ hρ
    rw [task] at hρ ⊢
    split at hρ
    · next new =>
      rw [if_pos new]
      exact congrArg some (route ρ hρ).symm
    · next other =>
      rw [if_neg other]
      exact h.route t ρ hρ
  case working =>
    intro t u hu there
    rw [task] at hu there
    rw [visit]
    split at hu
    · next new =>
      cases hu
      rw [if_pos rfl, new]
      exact List.mem_append_right _ List.mem_cons_self
    · next other =>
      rw [if_neg other] at there
      have listed := h.working t u hu there
      split
      · exact List.mem_append_left _ listed
      · exact listed
  case listed =>
    intro t u ht
    rw [visit] at ht
    rw [task]
    have here (ht : t ∈ (w.visit u).working) :
        (if t = w.tasks.size then { x with home := some v } else w.task t).home = some u := by
      have mine := h.listed t u ht
      rw [if_neg (old mine)]
      exact mine
    split at ht
    · next hu =>
      rcases List.mem_append.1 ht with ht | new
      · exact here ht
      · rw [if_pos (List.mem_singleton.1 new), hu]
    · exact here ht
  -- The new task is alive, and not yet on the list.
  case busy =>
    intro u
    obtain ⟨nodup, busy⟩ := h.busy u
    have going (t : TaskId) (ht : t ∈ (w.visit u).working) :
        ((w.spawnFor v x).task t).isAlive = true := by
      rw [task, if_neg (old (h.listed t u ht))]
      exact busy t ht
    rw [visit]
    split
    · refine ⟨List.nodup_append.2 ⟨nodup, by simp, fun t ht t' new => ?_⟩, fun t ht => ?_⟩
      · exact List.mem_singleton.1 new ▸ old (h.listed t u ht)
      · rcases List.mem_append.1 ht with ht | new
        · exact going t ht
        · rw [List.mem_singleton.1 new, task, if_pos rfl]
          exact alive
    · exact ⟨nodup, going⟩
  case finished =>
    intro t u ht
    rw [finished] at ht
    obtain ⟨mine, dead⟩ := h.finished t u ht
    rw [task, if_neg (old mine)]
    exact ⟨mine, dead⟩
  -- The new task has not panicked yet.
  case mourned =>
    intro t u hu fate
    rw [finished]
    rw [task] at hu fate
    split at hu
    · next new =>
      rw [if_pos new] at fate
      simp [Task.isAlive, show x.fate = _ from fate] at alive
    · next other =>
      rw [if_neg other] at fate
      exact h.mourned t u hu fate
  -- A visit that has settled hires nobody.
  case cleared =>
    intro u past
    have apart : u ≠ v := fun hu => waits _ (hu ▸ past)
    rw [visit, if_neg apart]
    exact h.cleared u past
  case blamed =>
    intro u past
    obtain ⟨t, mine, fate⟩ := h.blamed u past
    refine ⟨t, ?_⟩
    rw [task, if_neg (old mine)]
    exact ⟨mine, fate⟩
  case dismissed =>
    intro t u hu aborted
    rw [task] at hu aborted
    split at hu
    · next new =>
      rw [if_pos new] at aborted
      cases whole.symm.trans aborted
    · next other =>
      rw [if_neg other] at aborted
      exact h.dismissed t u hu aborted
  case admitted =>
    intro u d hd
    rw [state, size]
    exact h.admitted u d hd

/-- A visit hears of a task. -/
theorem look (h : Staffed w) {rest : List TaskId} (next : (w.visit v).finished = t :: rest)
    (calm : (w.task t).fate ≠ some .panicked ∨ ∃ e, .concluded v e ∈ w.marks) :
    Staffed (w.modifyVisit v fun x => { x with finished := rest }) := by
  have visit (u : VisitId) : (w.modifyVisit v fun x => { x with finished := rest }).visit u =
      if u = v then { w.visit u with finished := rest } else w.visit u := w.visit_modifyVisit ..
  have same (u : VisitId) :
      ((w.modifyVisit v fun x => { x with finished := rest }).visit u).working =
        (w.visit u).working ∧
      ((w.modifyVisit v fun x => { x with finished := rest }).visit u).state =
        (w.visit u).state := by
    rw [visit]
    split <;> exact ⟨rfl, rfl⟩
  have larger {u : VisitId} (known : u < w.visits.size) :
      u < (w.modifyVisit v fun x => { x with finished := rest }).visits.size :=
    Nat.lt_of_lt_of_le known (Table.size_le_modify ..)
  exact { h with
    named := fun u named => h.named u (by
      cases named with
      | handle handle => exact .handle handle
      | other other => exact .other other)
    callback := fun u x hx => larger (h.callback u x hx)
    kept := fun k hk => larger (h.kept k hk)
    home := fun u x hx => larger (h.home u x hx)
    working := fun u x hx alive => (same x).1 ▸ h.working u x hx alive
    listed := fun u x hu => h.listed u x ((same x).1 ▸ hu)
    busy := fun x => (same x).1 ▸ h.busy x
    finished := fun u x hu => by
      rw [visit] at hu
      split at hu
      · next hx =>
        subst hx
        exact h.finished u x (next ▸ List.mem_cons_of_mem t hu)
      · exact h.finished u x hu
    mourned := fun u x mine fate => by
      rw [visit]
      rcases h.mourned u x mine fate with waits | gone
      · split
        · next hx =>
          subst hx
          rw [next] at waits
          rcases List.mem_cons.1 waits with rfl | waits
          · -- Its visit hears of a panic now, so its wait has ended otherwise.
            obtain ⟨e, past⟩ := calm.resolve_left fun other => other fate
            refine .inr ⟨e, ?_, past⟩
            rintro rfl
            cases next.symm.trans (h.cleared _ past).2
          · exact .inl waits
        · exact .inl waits
      · exact .inr gone
    cleared := fun x past => by
      have clear := h.cleared x past
      rw [visit]
      split
      · next hx =>
        subst hx
        cases next.symm.trans clear.2
      · exact clear
    admitted := fun x d hd => by
      obtain ⟨known, admits⟩ := h.admitted x d hd
      exact ⟨larger known, (same x).2 ▸ admits⟩ }

/-- A task ends, and its visit will hear of it. -/
theorem ended (h : Staffed w) (alive : (w.task t).isAlive = true) (e : w.Ended t fate w') :
    Staffed w' := by
  have old := World.lt_size_of_isAlive alive
  have larger {u : VisitId} (known : u < w.visits.size) : u < w'.visits.size :=
    Nat.lt_of_lt_of_le known e.visits
  -- Nobody has the turn of a task that ends, so the only callbacks at hand are those that are kept.
  have nobody (u : VisitId) (hand : w.AtHand none u) : u < w.visits.size :=
    h.known (c := none) (fun _ hv => by cases hv) hand
  have mark {m : Mark} (hm : m ∈ w.marks) : m ∈ w'.marks :=
    e.marks.subset (List.mem_append_left _ hm)
  -- A task of a visit was one before.
  have mine {u : TaskId} {v : VisitId} (home : (w'.task u).home = some v) :
      (w.task u).home = some v ∧ (u = t ∨ (w.task u).Spared (w'.task u)) := by
    by_cases hu : u = t
    · exact ⟨hu ▸ e.self.1 ▸ hu ▸ home, .inl hu⟩
    · rcases Nat.lt_or_ge u w.tasks.size with known | new
      · have spared := e.task u hu known
        exact ⟨spared.home.symm.trans home, .inr spared⟩
      · cases (e.fresh u new).home.symm.trans home
  have still {u : TaskId} {v : VisitId} (home : (w.task u).home = some v) :
      (w'.task u).home = some v := by
    by_cases hu : u = t
    · rw [hu, e.self.1, ← hu]
      exact home
    · exact (e.task u hu (World.lt_size_of_home home)).home.trans home
  -- A task that had ended before is not the one that ends now.
  have dead {u : TaskId} {v : VisitId} (home : (w.task u).home = some v)
      (gone : (w.task u).isAlive = false) : (w'.task u).fate = (w.task u).fate := by
    have hu : u ≠ t := by
      rintro rfl
      cases alive.symm.trans gone
    exact (e.task u hu (World.lt_size_of_home home)).fate
  constructor
  case named =>
    intro u named
    have was (named : w.IsNamed u) : u < w'.tasks.size ∧ (w'.task u).home = none := by
      obtain ⟨known, none⟩ := h.named u named
      refine ⟨Nat.lt_of_lt_of_le known e.tasks, ?_⟩
      by_cases hu : u = t
      · rw [hu, e.self.1, ← hu]
        exact none
      · exact (e.task u hu known).home.trans none
    cases named with
    | handle handle =>
      rcases e.handle _ u handle with handle | ⟨new, spawned⟩
      · exact was (.handle handle)
      · exact ⟨spawned, (e.fresh u new).home⟩
    | @other x other =>
      by_cases hx : x = t
      · rw [hx, e.job] at other
        cases other
      · rcases Nat.lt_or_ge x w.tasks.size with known | new
        · exact was (.other ((e.task x hx known).job ▸ other))
        · cases (Job.other?_of_isFree (e.fresh x new).job).symm.trans other
  case callback =>
    intro u v hv
    by_cases hu : u = t
    · exact larger (h.callback t v (e.reach v (hu ▸ hv)))
    · rcases Nat.lt_or_ge u w.tasks.size with known | new
      · exact larger (h.callback u v ((e.task u hu known).callback v hv))
      · exact larger (nobody v ((e.fresh u new).callback v hv))
  case kept =>
    intro k hk
    obtain ⟨k', hk', same⟩ := e.kept k hk
    exact larger (same ▸ h.kept k' hk')
  case home =>
    intro u v hv
    exact larger (h.home u v (mine hv).1)
  case route =>
    intro u route hr
    by_cases hu : u = t
    · rw [hu] at hr ⊢
      exact e.self.1.trans (h.route t route (e.self.2.1.symm.trans hr))
    · rcases Nat.lt_or_ge u w.tasks.size with known | new
      · have spared := e.task u hu known
        exact spared.home.trans (h.route u route (spared.route.symm.trans hr))
      · cases (e.fresh u new).route.symm.trans hr
  case working =>
    intro u v hv there
    obtain ⟨home, rfl | spared⟩ := mine hv
    · simp [Task.isAlive, e.ended] at there
    · have listed := h.working u v home ((congrArg Option.isNone spared.fate).symm.trans there)
      have hu : u ≠ t := by
        rintro rfl
        simp [Task.isAlive, e.ended] at there
      rw [e.working]
      split
      · exact (List.mem_erase_of_ne hu).2 listed
      · exact listed
  case listed =>
    intro u v hu
    rw [e.working] at hu
    split at hu
    · exact still (h.listed u v (List.mem_of_mem_erase hu))
    · exact still (h.listed u v hu)
  -- The task that ends is taken off its list.
  case busy =>
    intro v
    obtain ⟨nodup, busy⟩ := h.busy v
    have going {u : TaskId} (hu : u ∈ (w.visit v).working) (other : u ≠ t) :
        (w'.task u).isAlive = true := by
      have spared := e.task u other (World.lt_size_of_home (h.listed u v hu))
      exact (congrArg Option.isNone spared.fate).trans (busy u hu)
    rw [e.working]
    split
    · refine ⟨nodup.erase t, fun u hu => ?_⟩
      obtain ⟨other, listed⟩ := (List.Nodup.mem_erase_iff nodup).1 hu
      exact going listed other
    · next apart =>
      refine ⟨nodup, fun u hu => going hu ?_⟩
      rintro rfl
      exact apart (h.listed u v hu)
  case finished =>
    intro u v hu
    rw [e.finished] at hu
    have before (hu : u ∈ (w.visit v).finished) :
        (w'.task u).home = some v ∧ (w'.task u).isAlive = false := by
      obtain ⟨home, gone⟩ := h.finished u v hu
      exact ⟨still home, (congrArg Option.isNone (dead home gone)).trans gone⟩
    split at hu
    · next home =>
      rcases List.mem_append.1 hu with hu | new
      · exact before hu
      · rw [List.mem_singleton.1 new]
        exact ⟨still home, by simp [Task.isAlive, e.ended]⟩
    · exact before hu
  -- A task that panics now is put on the list of those that its visit has not heard of.
  case mourned =>
    intro u v hv panicked
    obtain ⟨home, rfl | spared⟩ := mine hv
    · rw [e.finished, if_pos home]
      exact .inl (List.mem_append_right _ List.mem_cons_self)
    · rcases h.mourned u v home (spared.fate.symm.trans panicked) with waits | ⟨x, other, past⟩
      · refine .inl ?_
        rw [e.finished]
        split
        · exact List.mem_append_left _ waits
        · exact waits
      · exact .inr ⟨x, other, mark past⟩
  -- A visit that has settled has no task left that could end.
  case cleared =>
    intro v past
    have clear := h.cleared v (e.silent _ past rfl)
    have apart : (w.task t).home ≠ some v := fun home => by
      have listed := h.working t v home alive
      rw [clear.1] at listed
      cases listed
    rw [e.working, e.finished, if_neg apart, if_neg apart]
    exact clear
  case blamed =>
    intro v past
    obtain ⟨u, home, panicked⟩ := h.blamed v (e.silent _ past rfl)
    have gone : (w.task u).isAlive = false := by simp [Task.isAlive, panicked]
    exact ⟨u, still home, (dead home gone).trans panicked⟩
  case dismissed =>
    intro u v hv aborted
    obtain ⟨home, hu⟩ := mine hv
    have was : (w.task u).aborted = true := by
      rcases hu with rfl | spared
      · exact e.self.2.2.symm.trans aborted
      · exact spared.aborted.symm.trans aborted
    exact (h.dismissed u v home was).imp (Exists.imp fun _ => mark) mark
  case admitted =>
    intro v d hd
    rw [e.state]
    rcases e.raised v d hd with old | ⟨hand, admits⟩
    · exact (h.admitted v d old).imp_left larger
    · exact ⟨larger (nobody v hand), admits⟩

/-- A task gets another job. -/
theorem setJob (h : Staffed w) (t : TaskId) (job : Job)
    (other : ∀ u, job.other? = some u → u < w.tasks.size ∧ (w.task u).home = none) :
    Staffed (w.setJob t job) := by
  have task (u : TaskId) : (w.setJob t job).task u =
      if u = t then { w.task u with job } else w.task u := w.task_modifyTask ..
  have home (u : TaskId) : ((w.setJob t job).task u).home = (w.task u).home := by
    rw [task]
    split <;> rfl
  have fate (u : TaskId) : ((w.setJob t job).task u).fate = (w.task u).fate := by
    rw [task]
    split <;> rfl
  have alive (u : TaskId) : ((w.setJob t job).task u).isAlive = (w.task u).isAlive :=
    congrArg Option.isNone (fate u)
  -- What else there is to know of a task is not about its job either.
  have rest (u : TaskId) : ((w.setJob t job).task u).route = (w.task u).route ∧
      ((w.setJob t job).task u).reach = (w.task u).reach ∧
      ((w.setJob t job).task u).aborted = (w.task u).aborted := by
    rw [task]
    split <;> exact ⟨rfl, rfl, rfl⟩
  exact { h with
    named := fun u named => by
      have was : u < w.tasks.size ∧ (w.task u).home = none := by
        cases named with
        | handle handle => exact h.named u (.handle handle)
        | other mention =>
          rw [task] at mention
          split at mention
          · exact other u mention
          · exact h.named u (.other mention)
      exact ⟨Nat.lt_of_lt_of_le was.1 (Table.size_le_modify ..), (home u).trans was.2⟩
    callback := fun u v hv => h.callback u v ((rest u).2.1 ▸ hv)
    home := fun u v hv => h.home u v ((home u).symm.trans hv)
    route := fun u route hr => (home u).trans (h.route u route ((rest u).1.symm.trans hr))
    working := fun u v hv there =>
      h.working u v ((home u).symm.trans hv) ((alive u).symm.trans there)
    listed := fun u v hu => (home u).trans (h.listed u v hu)
    busy := fun v => ⟨(h.busy v).1, fun u hu => (alive u).trans ((h.busy v).2 u hu)⟩
    finished := fun u v hu => by
      obtain ⟨mine, dead⟩ := h.finished u v hu
      exact ⟨(home u).trans mine, (alive u).trans dead⟩
    mourned := fun u v hv panicked =>
      h.mourned u v ((home u).symm.trans hv) ((fate u).symm.trans panicked)
    blamed := fun v past => by
      obtain ⟨u, mine, panicked⟩ := h.blamed v past
      exact ⟨u, (home u).trans mine, (fate u).trans panicked⟩
    dismissed := fun u v hv aborted =>
      h.dismissed u v ((home u).symm.trans hv) ((rest u).2.2.symm.trans aborted) }

/-- The task of a run in the background is put in its place again. -/
theorem hang (h : Staffed w) (i : InterpreterId) (named : w.IsNamed t) :
    Staffed (w.modifyInterpreter i fun x => { x with handle := some t }) :=
  { h with
    named := fun u other => h.named u (by
      cases other with
      | handle handle =>
        rw [World.interpreter_modifyInterpreter] at handle
        split at handle
        · cases handle
          exact named
        · exact .handle handle
      | other other => exact .other other) }

/-! ## Deeds -/

theorem tend (h : Staffed w) (d : Tend w w') : Staffed w' := by
  cases d with
  | script reach spares => exact h.spares spares fun v hv => h.known_of_reachable (reach v hv)
  | visit r s => exact h.visit r s
  | launch v part known other => exact h.mark _ nofun nofun nofun
  | crew known waits crew =>
    cases crew with
    | free part mine => exact h.hire known waits rfl rfl mine nofun rfl
    | routed part mine =>
      exact h.hire known waits rfl rfl (fun u hu => by cases mine.symm.trans hu)
        (fun route hr => by cases hr; rfl) rfl
    | active part mine =>
      exact h.hire known waits rfl rfl (fun u hu => by cases mine.symm.trans hu) nofun rfl
  | @foster v k _ known waits =>
    have marked : Staffed (w.mark (.launched v (.service k))) := h.mark _ nofun nofun nofun
    exact marked.hire known (by simpa using waits) rfl rfl nofun (fun route hr => by cases hr; rfl)
      rfl
  | look next calm => exact h.look next calm
  | @mourn v t rest next fate =>
    -- The visit may as well conclude before it hears of the task.
    have mine : (w.task t).home = some v :=
      (h.finished t v (next ▸ List.mem_cons_self)).1
    have past := h.mark (.concluded v .panicked) nofun
      (fun u hu => by cases hu; exact ⟨t, mine, fate⟩) nofun
    have next' : ((w.mark (.concluded v .panicked)).visit v).finished = t :: rest := next
    exact past.look next' (.inr ⟨.panicked, by simp⟩)
  | conclude other settled =>
    refine h.mark _ (fun u hu => ?_) (fun u hu => ?_) nofun
    · cases hu
      exact settled rfl
    · cases hu
      exact absurd rfl other
  | @relax v past =>
    refine h.dismisses (.abortWork w v) fun t u ht home => ?_
    cases (h.listed t v ht).symm.trans home
    exact past

/-- Whatever happens to tasks, visits keep account of it. -/
theorem deed (h : Staffed w) (d : Deed w w') : Staffed w' := by
  cases d with
  | tend d => exact h.tend d
  | @nest t m s job first =>
    have hooks : Spares none w (w.withNested t m) :=
      (Spares.pushInterpreter w m).trans (.spawn ⟨rfl, rfl, rfl, nofun⟩)
    have founded := hooks.trans (.takeSlot _ w.interpreters.size t s)
    refine (h.spares (c := none) founded nofun).setJob t _ fun u hu => ?_
    cases hu
    have hooked : (w.withNested t m).tasks.size = w.tasks.size + 1 := Table.size_push ..
    exact ⟨hooked ▸ Nat.lt_succ_self _, (founded.fresh _ (Nat.le_refl _)).home⟩
  | @job t job old other =>
    exact h.setJob t job fun u hu => h.named u (other u hu)
  | hang i named => exact h.hang i named
  | @abort t aside =>
    have none : (w.task t).home = none := aside.elim id fun named => (h.named t named).2
    refine h.dismisses (P := (· = t)) (.abort w rfl) fun u v hu home => ?_
    cases (hu ▸ none).symm.trans home
  | @finish _ t failure alive ends spares =>
    -- The outcome is raised on the visit that the task works for.
    obtain ⟨c, raised, known⟩ : ∃ c, Spares c w (w.raiseFor t failure) ∧
        ∀ v, c = some v → v < w.visits.size := by
      unfold World.raiseFor
      split
      · next route routed =>
        refine ⟨_, .raiseOutcome .., fun v hv => ?_⟩
        cases hv
        exact h.home t _ (h.route t route routed)
      · exact ⟨none, .refl _ w, nofun⟩
    have spared := raised.task t (World.lt_size_of_isAlive alive)
    have alive' := (congrArg Option.isNone spared.fate).trans alive
    rw [← spared.home]
    exact (h.spares raised known).ended alive' (World.ended_of_bury alive' spares)
  | quit alive quits spares => exact h.ended alive (World.ended_of_bury alive spares)

theorem deeds (h : Staffed w) (d : Deeds w w') : Staffed w' := by
  induction d with
  | refl => exact h
  | tail _ d ih => exact ih.deed d

end Staffed

end

/-! ## The worlds that a scenario comes to -/

namespace Scenario

theorem staffed_opening (s : Scenario) : Staffed s.opening where
  named t named := by
    cases named with
    | @handle i handle =>
      -- No interpreter has a run in the background yet.
      have blank : (s.opening.interpreter i).handle = none := by
        simp only [opening, World.interpreter_mk, Table.get, Array.getD_eq_getD_getElem?,
          Array.getElem?_replicate]
        split <;> rfl
      cases blank.symm.trans handle
    | other other => cases other
  callback t v hv := by cases hv
  kept k hk := by cases hk
  home t v hv := by cases hv
  route t route hr := by cases hr
  working t v hv := by cases hv
  listed t v ht := by cases ht
  busy v := ⟨List.nodup_nil, nofun⟩
  finished t v ht := by cases ht
  mourned t v hv := by cases hv
  cleared v past := by cases past
  blamed v past := by cases past
  dismissed t v hv := by cases hv
  admitted v d hd := by cases hd

/-- Visits keep account of their tasks in every world that a scenario comes to. -/
theorem Reaches.staffed {s : Scenario} {w : World} (h : s.Reaches w) : Staffed w :=
  s.staffed_opening.deeds h.deeds

end Scenario

end Statechart
