import Statechart.Proofs.Moments

/-!
# What scripts leave alone

Scripts end no task and no wait, and look at no task that has ended. They raise events on visits
whose callbacks they have at hand, and on no others; whoever they spawn belongs to no visit.

## Main definitions

- `Task.Spared`, `Task.Stray`: a task that scripts leave alone, and one that they spawn.
- `World.AtHand`: a callback that a script can lay hands on.
- `Spares`: what scripts leave alone.

## Main statements

- `Spares.runScript`, `Spares.runPhrase`: scripts that run to their end leave alone what they
  should.
- `Spares.stepScript`, `Spares.raiseOutcome`: so do scripts that may wait, and the outcomes of
  services.
-/

namespace Statechart

/-! ## Definitions -/

/-- What a task is to its visit stays the same; it may give up its callback. -/
structure Task.Spared (x y : Task) : Prop where
  job : y.job = x.job
  home : y.home = x.home
  route : y.route = x.route
  fate : y.fate = x.fate
  aborted : y.aborted = x.aborted
  callback : ∀ v, y.reach.callback = some v → x.reach.callback = some v

/-- Whether a job has nothing to do with nested machines, and waits for no task. -/
def Job.isFree : Job → Bool
  | .nested _ | .drive _ (some _) | .control _ (.joining _ _ _) => false
  | .script _ | .drive _ none | .stopHook _ | .control _ _ => true

/-- A task that works for no visit, such as one that a script has detached. The callbacks that it
may have are those for which `P` holds. -/
structure Task.Stray (P : VisitId → Prop) (x : Task) : Prop where
  home : x.home = none
  route : x.route = none
  job : x.job.isFree = true
  callback : ∀ v, x.reach.callback = some v → P v

/-- Marks of what scripts have no part in: that a wait is over, and that work is set up. -/
def Mark.isLoud : Mark → Bool
  | .concluded _ _ | .launched _ _ => true
  | _ => false

/-- Whether a mark tells of an event that was accepted. -/
def Mark.isAcceptance : Mark → Bool
  | .raised _ _ accepted => accepted
  | _ => false

/-- A script that has the callback `c` can lay hands on the callback of a visit. -/
def World.AtHand (w : World) (c : Option VisitId) (v : VisitId) : Prop :=
  c = some v ∨ ∃ k ∈ w.kept, k.2 = v

/-- Runs and interpreters that are there stay whose they are. -/
structure Anchored (w w' : World) : Prop where
  runs : w.runs.size ≤ w'.runs.size
  host : ∀ r, r < w.runs.size → (w'.run r).host = (w.run r).host
  interpreter : ∀ r, r < w.runs.size → (w'.run r).interpreter = (w.run r).interpreter
  interpreters : w.interpreters.size ≤ w'.interpreters.size
  machine : ∀ i, i < w.interpreters.size → (w'.interpreter i).machine = (w.interpreter i).machine

/-- What a script that has the callback `c` leaves alone. -/
structure Spares (c : Option VisitId) (w w' : World) : Prop extends Anchored w w' where
  tasks : w.tasks.size ≤ w'.tasks.size
  task : ∀ t, t < w.tasks.size → (w.task t).Spared (w'.task t)
  fresh : ∀ t, w.tasks.size ≤ t → (w'.task t).Stray (w.AtHand c)
  kept : ∀ k ∈ w'.kept, w.AtHand c k.2
  visits : w.visits.size ≤ w'.visits.size
  state : ∀ v, (w'.visit v).state = (w.visit v).state
  owner : ∀ v, (w'.visit v).run = (w.visit v).run
  working : ∀ v, (w'.visit v).working = (w.visit v).working
  finished : ∀ v, (w'.visit v).finished = (w.visit v).finished
  fired : ∀ v, (w'.visit v).fired = true → (w.visit v).fired = true ∨ w.AtHand c v
  handle : ∀ i t, (w'.interpreter i).handle = some t →
    (w.interpreter i).handle = some t ∨ w.tasks.size ≤ t ∧ t < w'.tasks.size
  marks : w.marks <+: w'.marks
  silent : ∀ m ∈ w'.marks, m.isLoud = true → m ∈ w.marks
  raised : ∀ v d, .raised v d true ∈ w'.marks →
    .raised v d true ∈ w.marks ∨ w.AtHand c v ∧ (w.visit v).state.admits d = true

@[refl]
theorem Anchored.refl (w : World) : Anchored w w :=
  ⟨Nat.le_refl _, fun _ _ => rfl, fun _ _ => rfl, Nat.le_refl _, fun _ _ => rfl⟩

theorem Anchored.trans {w w' w'' : World} (h : Anchored w w') (h' : Anchored w' w'') :
    Anchored w w'' where
  runs := Nat.le_trans h.runs h'.runs
  host r hr := (h'.host r (Nat.lt_of_lt_of_le hr h.runs)).trans (h.host r hr)
  interpreter r hr := (h'.interpreter r (Nat.lt_of_lt_of_le hr h.runs)).trans (h.interpreter r hr)
  interpreters := Nat.le_trans h.interpreters h'.interpreters
  machine i hi := (h'.machine i (Nat.lt_of_lt_of_le hi h.interpreters)).trans (h.machine i hi)

@[refl]
theorem Task.Spared.refl (x : Task) : x.Spared x :=
  ⟨rfl, rfl, rfl, rfl, rfl, fun _ => id⟩

theorem Task.Spared.trans {x y z : Task} (h : x.Spared y) (h' : y.Spared z) : x.Spared z :=
  ⟨h'.job.trans h.job, h'.home.trans h.home, h'.route.trans h.route, h'.fate.trans h.fate,
    h'.aborted.trans h.aborted, fun v hv => h.callback v (h'.callback v hv)⟩

/-- A task that was spawned and then left alone is still one that belongs to nobody. -/
theorem Task.Stray.spared {P : VisitId → Prop} {x y : Task} (h : x.Stray P) (h' : x.Spared y) :
    y.Stray P :=
  ⟨h'.home.trans h.home, h'.route.trans h.route, h'.job ▸ h.job,
    fun v hv => h.callback v (h'.callback v hv)⟩

theorem Task.Stray.mono {P Q : VisitId → Prop} {x : Task} (h : x.Stray P) (le : ∀ v, P v → Q v) :
    x.Stray Q :=
  ⟨h.home, h.route, h.job, fun v hv => le v (h.callback v hv)⟩

/-- A row that was never added belongs to nobody. -/
theorem World.stray_of_size_le {w : World} {t : TaskId} {P : VisitId → Prop}
    (h : w.tasks.size ≤ t) : (w.task t).Stray P := by
  have blank : w.task t = default := Table.get_of_size_le h
  rw [blank]
  exact ⟨rfl, rfl, rfl, nofun⟩

namespace Spares

variable {c : Option VisitId} {w w' w'' : World}

/-- Whatever is at hand afterwards was at hand before. -/
theorem atHand (h : Spares c w w') {v : VisitId} (hv : w'.AtHand c v) : w.AtHand c v := by
  rcases hv with mine | ⟨k, hk, rfl⟩
  · exact .inl mine
  · exact h.kept k hk

@[refl]
theorem refl (c : Option VisitId) (w : World) : Spares c w w :=
  { Anchored.refl w with
    tasks := Nat.le_refl _
    task := fun _ _ => .refl _
    fresh := fun _ h => World.stray_of_size_le h
    kept := fun k hk => .inr ⟨k, hk, rfl⟩
    visits := Nat.le_refl _
    state := fun _ => rfl
    owner := fun _ => rfl
    working := fun _ => rfl
    finished := fun _ => rfl
    fired := fun _ => .inl
    handle := fun _ _ => .inl
    marks := List.prefix_rfl
    silent := fun _ hm _ => hm
    raised := fun _ _ => .inl }

theorem trans (h : Spares c w w') (h' : Spares c w' w'') : Spares c w w'' :=
  { h.toAnchored.trans h'.toAnchored with
    tasks := Nat.le_trans h.tasks h'.tasks
    task := fun t ht => (h.task t ht).trans (h'.task t (Nat.lt_of_lt_of_le ht h.tasks))
    fresh := fun t ht => by
      rcases Nat.lt_or_ge t w'.tasks.size with old | new
      · exact (h.fresh t ht).spared (h'.task t old)
      · exact (h'.fresh t new).mono fun _ => h.atHand
    kept := fun k hk => h.atHand (h'.kept k hk)
    visits := Nat.le_trans h.visits h'.visits
    state := fun v => (h'.state v).trans (h.state v)
    owner := fun v => (h'.owner v).trans (h.owner v)
    working := fun v => (h'.working v).trans (h.working v)
    finished := fun v => (h'.finished v).trans (h.finished v)
    fired := fun v hv => by
      rcases h'.fired v hv with hv | hv
      · exact h.fired v hv
      · exact .inr (h.atHand hv)
    handle := fun i t ht => by
      rcases h'.handle i t ht with ht | ⟨new, spawned⟩
      · exact (h.handle i t ht).imp_right fun ⟨new, spawned⟩ =>
          ⟨new, Nat.lt_of_lt_of_le spawned h'.tasks⟩
      · exact .inr ⟨Nat.le_trans h.tasks new, spawned⟩
    marks := h.marks.trans h'.marks
    silent := fun m hm loud => h.silent m (h'.silent m hm loud) loud
    raised := fun v d hd => by
      rcases h'.raised v d hd with hd | ⟨hand, admits⟩
      · exact h.raised v d hd
      · exact .inr ⟨h.atHand hand, h.state v ▸ admits⟩ }

/-! ## Elementary changes -/

/-- Time, the queue, the turn, variables and reports are not what is left alone. -/
theorem of_eq (tasks : w'.tasks = w.tasks) (runs : w'.runs = w.runs) (visits : w'.visits = w.visits)
    (interpreters : w'.interpreters = w.interpreters) (kept : w'.kept = w.kept)
    (journal : w'.journal = w.journal) : Spares c w w' := by
  obtain ⟨now, queue, running, ts, rs, vs, is, named, values, ks, j, reports⟩ := w'
  cases tasks
  cases runs
  cases visits
  cases interpreters
  cases kept
  cases journal
  exact { refl c w with }

/-- An entry of the journal that is neither loud nor tells of an event that was accepted. -/
theorem log (w : World) (e : Entry)
    (plain : ∀ m ∈ e.mark?, m.isLoud = false ∧ m.isAcceptance = false) : Spares c w (w.log e) := by
  have old {m : Mark} (hm : m ∈ (w.log e).marks)
      (other : m.isLoud = true ∨ m.isAcceptance = true) : m ∈ w.marks := by
    rw [World.marks_log] at hm
    refine (List.mem_append.1 hm).resolve_right fun new => ?_
    obtain ⟨quiet, refused⟩ := plain m (Option.mem_toList.1 new)
    rcases other with loud | accepted
    · cases loud.symm.trans quiet
    · cases accepted.symm.trans refused
  exact { refl c w with
    marks := by simp
    silent := fun m hm loud => old hm (.inl loud)
    raised := fun v d hd => .inl (old hd (.inr rfl)) }

theorem mark (w : World) (m : Mark) (quiet : m.isLoud = false) (refused : m.isAcceptance = false) :
    Spares c w (w.mark m) :=
  log w (.mark m) fun m' hm => by
    cases hm
    exact ⟨quiet, refused⟩

theorem trace (w : World) (t : Trace) : Spares c w (w.trace t) :=
  log w _ nofun

theorem modifyTask {t : TaskId} {f : Task → Task} (spared : ∀ x : Task, x.Spared (f x)) :
    Spares c w (w.modifyTask t f) :=
  { refl c w with
    tasks := Table.size_le_modify ..
    task := fun u _ => by
      rw [World.task_modifyTask]
      split
      · exact spared _
      · exact .refl _
    fresh := fun u hu => by
      rw [World.task_modifyTask]
      split
      · exact (World.stray_of_size_le hu).spared (spared _)
      · exact World.stray_of_size_le hu
    handle := fun _ _ => .inl }

theorem modifyRun {r : RunId} {f : Run → Run} (host : ∀ x : Run, (f x).host = x.host)
    (interpreter : ∀ x : Run, (f x).interpreter = x.interpreter) :
    Spares c w (w.modifyRun r f) :=
  { refl c w with
    runs := Table.size_le_modify ..
    host := fun q _ => by
      rw [World.run_modifyRun]
      split
      · exact host _
      · rfl
    interpreter := fun q _ => by
      rw [World.run_modifyRun]
      split
      · exact interpreter _
      · rfl }

/-- A visit changes in what scripts may change; it may be committed by whoever has its callback at
hand. -/
theorem modifyVisit {v : VisitId} {f : Visit → Visit}
    (spared : ∀ x : Visit, (f x).state = x.state ∧ (f x).run = x.run ∧
      (f x).working = x.working ∧ (f x).finished = x.finished)
    (fired : (f (w.visit v)).fired = true → (w.visit v).fired = true ∨ w.AtHand c v) :
    Spares c w (w.modifyVisit v f) :=
  { refl c w with
    visits := Table.size_le_modify ..
    state := World.data_modifyVisit Visit.state (spared _).1
    owner := World.data_modifyVisit Visit.run (spared _).2.1
    working := World.data_modifyVisit Visit.working (spared _).2.2.1
    finished := World.data_modifyVisit Visit.finished (spared _).2.2.2
    fired := fun u hu => by
      rw [World.visit_modifyVisit] at hu
      split at hu
      · next here => exact here ▸ fired (here ▸ hu)
      · exact .inl hu }

theorem modifyInterpreter {i : InterpreterId} {f : Interpreter → Interpreter}
    (handle : ∀ (x : Interpreter) t, (f x).handle = some t → x.handle = some t)
    (machine : ∀ x : Interpreter, (f x).machine = x.machine) :
    Spares c w (w.modifyInterpreter i f) :=
  { refl c w with
    interpreters := Table.size_le_modify ..
    machine := fun j _ => by
      rw [World.interpreter_modifyInterpreter]
      split
      · exact machine _
      · rfl
    handle := fun j t ht => by
      rw [World.interpreter_modifyInterpreter] at ht
      split at ht
      · exact .inl (handle _ t ht)
      · exact .inl ht }

/-- A new interpreter has no handle. -/
theorem pushInterpreter (w : World) (m : Machine) :
    Spares c w { w with interpreters := w.interpreters.push { machine := m } } :=
  { refl c w with
    interpreters := by simp
    machine := fun i hi => by simp [Nat.ne_of_lt hi]
    handle := fun i t ht => by
      simp only [World.interpreter_mk, Table.get_push] at ht
      split at ht
      · cases ht
      · exact .inl ht }

theorem spawn {x : Task} (stray : x.Stray (w.AtHand c)) : Spares c w (w.spawn x) :=
  { refl c w with
    tasks := by simp [World.spawn]
    task := fun t ht => by
      simp only [World.spawn, World.task_mk, Table.get_push, if_neg (Nat.ne_of_lt ht)]
      exact .refl _
    fresh := fun t ht => by
      simp only [World.spawn, World.task_mk, Table.get_push]
      split
      · exact stray
      · exact World.stray_of_size_le ht
    handle := fun _ _ => .inl }

/-! ## Waking -/

theorem enqueue (w : World) (t : TaskId) : Spares c w (w.enqueue t) := by
  unfold World.enqueue
  split
  · exact .refl c w
  · exact of_eq rfl rfl rfl rfl rfl rfl

theorem wake (w : World) (t : TaskId) : Spares c w (w.wake t) := by
  unfold World.wake
  split
  · exact .refl c w
  · split
    · exact modifyTask fun x => ⟨rfl, rfl, rfl, rfl, rfl, fun _ => id⟩
    · exact enqueue w t

theorem wakeAll (w : World) (ts : List TaskId) : Spares c w (w.wakeAll ts) := by
  unfold World.wakeAll
  induction ts generalizing w with
  | nil => exact .refl c w
  | cons t ts ih => exact (wake w t).trans (ih _)

theorem park (w : World) (t : TaskId) : Spares c w (w.park t) := by
  have slept : Spares c w (w.modifyTask t fun x => { x with rewoken := false }) :=
    modifyTask fun x => ⟨rfl, rfl, rfl, rfl, rfl, fun _ => id⟩
  have rested : Spares c w
      { w.modifyTask t fun x => { x with rewoken := false } with running := none } :=
    slept.trans (of_eq rfl rfl rfl rfl rfl rfl)
  unfold World.park
  simp only
  split
  · exact rested.trans (enqueue ..)
  · exact rested

theorem notifyInbox (w : World) (v : VisitId) : Spares c w (w.notifyInbox v) := by
  unfold World.notifyInbox
  split
  · refine trans ?_ (wake ..)
    exact modifyVisit (fun _ => ⟨rfl, rfl, rfl, rfl⟩) .inl
  · exact .refl c w

theorem letGoAll (w : World) (vs : List VisitId) : Spares c w (w.letGoAll vs) := by
  unfold World.letGoAll
  induction vs generalizing w with
  | nil => exact .refl c w
  | cons v vs ih =>
    refine trans ?_ (ih _)
    unfold World.letGo
    split
    · exact .refl c w
    · exact notifyInbox w v

theorem logDrops (w : World) (guards : List String) : Spares c w (w.logDrops guards) := by
  unfold World.logDrops
  induction guards generalizing w with
  | nil => exact .refl c w
  | cons g gs ih => exact (log w (.drop g) nofun).trans (ih _)

theorem clearWaiters (w : World) (v : VisitId) : Spares c w (w.clearWaiters v) :=
  modifyVisit (fun _ => ⟨rfl, rfl, rfl, rfl⟩) .inl

theorem tearScope (w : World) (v : VisitId) : Spares c w (w.tearScope v) := by
  refine trans (trans ?_ (wakeAll ..)) (wakeAll ..)
  exact (clearWaiters w v).trans (modifyVisit (fun _ => ⟨rfl, rfl, rfl, rfl⟩) .inl)

/-! ## Events -/

/-- Whoever raises an event on a visit has its callback at hand; if the event is accepted, it can
have an effect there. -/
theorem raise (w : World) (v : VisitId) (d : Decision) (hand : w.AtHand c v) :
    Spares c w (w.raise v d).1 := by
  have refused (w : World) (t : Trace) :
      Spares c w ((w.trace t).mark (.raised v d false)) :=
    (trace w t).trans (mark _ _ rfl rfl)
  unfold World.raise
  simp only
  split
  · exact refused w _
  · next admits =>
    split
    · exact refused w _
    · split
      -- It comes too late.
      · refine trans ?_ (refused ..)
        exact modifyVisit (fun _ => ⟨rfl, rfl, rfl, rfl⟩) fun _ => .inr hand
      -- It is put into the inbox, and marked as accepted.
      · have put : Spares c w _ := ((modifyVisit (v := v)
          (f := fun x => { x with fired := true, inbox := some d }) (fun _ => ⟨rfl, rfl, rfl, rfl⟩)
            fun _ => .inr hand).trans (notifyInbox _ v)).trans
            (trace _ (.accepted (w.visit v).state.id d.event))
        refine { put with
          marks := put.marks.trans (World.marks_mark .. ▸ List.prefix_append ..)
          silent := fun m hm loud => ?_
          raised := fun u d' hd => ?_ }
        · rw [World.marks_mark] at hm
          rcases List.mem_append.1 hm with old | new
          · exact put.silent m old loud
          · cases List.mem_singleton.1 new
            cases loud
        · rw [World.marks_mark] at hd
          rcases List.mem_append.1 hd with old | new
          · exact put.raised u d' old
          · cases List.mem_singleton.1 new
            exact .inr ⟨hand, by simpa using admits⟩

/-- The callback of a script is at hand, and so are those that are kept. -/
theorem raiseThrough (w : World) (callback : Option VisitId) (d : Decision)
    (hand : ∀ v, callback = some v → w.AtHand c v) :
    Spares c w (w.raiseThrough callback d).1 := by
  cases callback with
  | none => exact .refl c w
  | some v => exact raise w v d (hand v rfl)

theorem raiseEvent (w : World) (callback : Option VisitId) (event : String)
    (hand : ∀ v, callback = some v → w.AtHand c v) : Spares c w (w.raiseEvent callback event) :=
  (raiseThrough w callback _ hand).trans (log _ _ nofun)

theorem raiseFault (w : World) (callback : Option VisitId) (event : String) (fault : Fault)
    (hand : ∀ v, callback = some v → w.AtHand c v) :
    Spares c w (w.raiseFault callback event fault) :=
  (raiseThrough w callback ⟨.named event, some fault⟩ hand).trans (log _ _ nofun)

/-! ## Interpreters -/

theorem forceStop (w : World) (i : InterpreterId) : Spares c w (w.forceStop i) := by
  unfold World.forceStop
  simp only
  split
  · next r _ =>
    refine ((trace w (.stopping (w.interpreter i).machine.id)).trans
      (mark _ (.stopAsked r) rfl rfl)).trans ?_
    unfold World.cancelRun
    split
    · exact .refl c _
    · refine trans (modifyRun (r := r) (f := fun x => { x with cancelled := true })
        (fun _ => rfl) fun _ => rfl) ?_
      simp only
      split
      · exact (((clearWaiters _ _).trans (wakeAll ..)).trans (wakeAll ..)).trans (wake ..)
      · exact .refl c _
  · exact .refl c w

theorem takeSlot (w : World) (i : InterpreterId) (t : TaskId) (s : State) :
    Spares c w (w.takeSlot i t s) := by
  have began : Spares c w
      { w with runs := w.runs.push { interpreter := i, host := t, phase := .begun s } } :=
    { refl c w with
      runs := by simp
      host := fun r hr => by simp [Nat.ne_of_lt hr]
      interpreter := fun r hr => by simp [Nat.ne_of_lt hr] }
  refine trans ?_ (mark _ _ rfl rfl)
  exact began.trans (modifyInterpreter (fun _ _ => id) fun _ => rfl)

theorem release (w : World) (r : RunId) (status : Status) : Spares c w (w.release r status) := by
  refine trans ?_ (mark _ _ rfl rfl)
  refine trans ?_ (modifyInterpreter (fun _ _ => id) fun _ => rfl)
  exact modifyRun (fun _ => rfl) fun _ => rfl

/-- A handle that is put in place is that of a task that was spawned since. -/
theorem putHandle (before : Spares c w' w) (i : InterpreterId) {t : TaskId}
    (new : w'.tasks.size ≤ t) (spawned : t < w.tasks.size) :
    Spares c w' (w.modifyInterpreter i fun x => { x with handle := some t }) :=
  { before with
    interpreters := Nat.le_trans before.interpreters (Table.size_le_modify ..)
    machine := fun j hj => by
      rw [World.interpreter_modifyInterpreter]
      split <;> exact before.machine j hj
    handle := fun j u hu => by
      rw [World.interpreter_modifyInterpreter] at hu
      split at hu
      · cases hu
        exact .inr ⟨new, spawned⟩
      · exact before.handle j u hu }

theorem setHandle (before : Spares c w' w) (i : InterpreterId) {t : TaskId}
    (new : w'.tasks.size ≤ t) (spawned : t < w.tasks.size) : Spares c w' (w.setHandle i t) := by
  unfold World.setHandle
  simp only
  split
  · refine putHandle (before.trans ?_) i new
      (Nat.lt_of_lt_of_le spawned (Table.size_le_modify ..))
    exact modifyTask fun x => ⟨rfl, rfl, rfl, rfl, rfl, fun _ => id⟩
  · exact putHandle before i new spawned

theorem takeHandle (w : World) (i : InterpreterId) : Spares c w (w.takeHandle i) :=
  modifyInterpreter nofun fun _ => rfl

theorem startInBackground {i : InterpreterId} (h : w.startInBackground i = .ok w') :
    Spares c w w' := by
  simp only [World.startInBackground] at h
  cases begun : w.begin i w.tasks.size with
  | error e =>
    rw [begun] at h
    cases h
  | ok pair =>
    obtain ⟨w₁, r⟩ := pair
    rw [begun] at h
    obtain ⟨s, -, -, rfl, rfl⟩ := World.begin_ok begun
    cases h
    have spawned : Spares c (w.takeSlot i w.tasks.size s)
        ((w.takeSlot i w.tasks.size s).spawn { job := .drive w.runs.size none }) :=
      spawn ⟨rfl, rfl, rfl, fun v hv => by cases hv⟩
    have size :
        ((w.takeSlot i w.tasks.size s).spawn { job := .drive w.runs.size none }).tasks.size =
        w.tasks.size + 1 := Table.size_push ..
    exact setHandle ((takeSlot w ..).trans spawned) i (Nat.le_refl _) (size ▸ Nat.lt_succ_self _)

theorem startAndLog (w : World) (i : InterpreterId) : Spares c w (w.startAndLog i) := by
  unfold World.startAndLog
  split
  · next started => exact (startInBackground started).trans (log _ _ nofun)
  · exact log _ _ nofun

theorem withNamed (w : World) (i : Nat) (f : InterpreterId → World)
    (h : ∀ j, Spares c w (f j)) : Spares c w (w.withNamed i f) := by
  unfold World.withNamed
  split
  · exact h _
  · exact .refl c w

theorem observe (w : World) (i : Nat) (o : Observer Script) : Spares c w (w.observe i o) :=
  withNamed w i _ fun _ => modifyInterpreter (fun _ _ => id) fun _ => rfl

/-! ## Slots of callbacks -/

/-- What a slot keeps is at hand. -/
theorem atHand_keptIn {slot : String} {v : VisitId} (h : w.keptIn slot = some v) :
    w.AtHand c v := by
  obtain ⟨before, after, kept, -⟩ := List.lookup_eq_some_iff.1 h
  exact .inr ⟨(slot, v), by simp [kept], rfl⟩

theorem setKept (kept : List (String × VisitId)) (hand : ∀ k ∈ kept, w.AtHand c k.2) :
    Spares c w { w with kept } :=
  { refl c w with kept := hand }

theorem keep (w : World) (slot : String) (v : VisitId) (hand : w.AtHand c v) :
    Spares c w (w.keep slot v) := by
  refine (setKept ((slot, v) :: w.kept.eraseP (·.1 = slot)) fun k hk => ?_).trans (letGoAll _ _)
  rcases List.mem_cons.1 hk with rfl | hk
  · exact hand
  · exact .inr ⟨k, List.mem_of_mem_eraseP hk, rfl⟩

theorem emptySlot (w : World) (slot : String) : Spares c w (w.emptySlot slot) :=
  (setKept (w.kept.eraseP (·.1 = slot)) fun k hk =>
    .inr ⟨k, List.mem_of_mem_eraseP hk, rfl⟩).trans (letGoAll _ _)

/-! ## Commands -/

theorem perform (w : World) (reach : Reach) (command : Command)
    (hand : ∀ v, reach.callback = some v → w.AtHand c v) :
    Spares c w (w.perform reach command) := by
  cases command with
  | log | showVariable | showFired | showState | showCallback | showCancelled | showKept
  | unknown => exact log _ _ fun _ hm => by cases hm
  | add | assign => exact of_eq rfl rfl rfl rfl rfl rfl
  | stop i => exact withNamed w i _ fun j => forceStop w j
  | start i => exact withNamed w i _ fun j => startAndLog w j
  | showStatus i | showPath i => exact withNamed w i _ fun j => log _ _ fun _ hm => by cases hm
  | limitHistory i limit =>
    refine withNamed w i _ fun j => trans ?_ (mark _ _ rfl rfl)
    exact modifyInterpreter (fun _ _ => id) fun _ => rfl
  | raise => exact raiseEvent w _ _ hand
  | raiseFault => exact raiseFault w _ _ _ hand
  | keep slot =>
    cases callback : reach.callback with
    | none =>
      simp only [World.perform, callback]
      exact .refl c w
    | some v =>
      simp only [World.perform, callback]
      exact keep w slot v (hand v callback)
  | release slot => exact (emptySlot w slot).trans (log _ _ fun _ hm => by cases hm)
  | raiseKept => exact raiseEvent w _ _ fun _ => atHand_keptIn
  | raiseKeptFault => exact raiseFault w _ _ _ fun _ => atHand_keptIn

theorem detach (w : World) (reach : Reach) (body : Script)
    (hand : ∀ v, reach.callback = some v → w.AtHand c v) : Spares c w (w.detach reach body) :=
  spawn ⟨rfl, rfl, rfl, hand⟩

/-! ## Scripts that run to their end -/

mutual

theorem runInstr (w : World) (f : World.Frame)
    (mine : ∀ v, f.reach.callback = some v → c = some v) :
    ∀ i : Instr, Spares c w (w.runInstr f i).1 ∧
      ∀ v, (w.runInstr f i).2.1.reach.callback = some v → c = some v
  | .act command => ⟨perform w _ command fun v hv => .inl (mine v hv), mine⟩
  | .branch name comparison value yes no => by
    unfold World.runInstr
    split
    · exact runScript w f mine yes
    · exact runScript w f mine no
  | .loop times body => by
    unfold World.runInstr
    have once := fun w₁ f₁ h => runScript w₁ f₁ h body
    induction times with
    | zero => exact ⟨.refl c w, mine⟩
    | succ n ih =>
      simp only [Nat.repeat]
      split
      · exact ih
      · obtain ⟨spares, mine⟩ := once _ _ ih.2
        exact ⟨ih.1.trans spares, mine⟩
  | .observe i o => ⟨observe w i o, mine⟩
  | .detach body => ⟨detach w _ body fun v hv => .inl (mine v hv), mine⟩
  | .dropCallback => ⟨letGoAll _ _, fun v hv => by cases hv⟩
  | .guard label => ⟨.refl c w, mine⟩
  | .panic => ⟨.refl c w, mine⟩
  | .pause p => ⟨log _ _ nofun, mine⟩
  | .finish failure => ⟨log _ _ nofun, mine⟩

theorem runScript (w : World) (f : World.Frame)
    (mine : ∀ v, f.reach.callback = some v → c = some v) :
    ∀ s : Script, Spares c w (w.runScript f s).1 ∧
      ∀ v, (w.runScript f s).2.1.reach.callback = some v → c = some v
  | [] => ⟨.refl c w, mine⟩
  | i :: rest => by
    have first := runInstr w f mine i
    unfold World.runScript
    split
    · next h => simpa [h] using first
    · next w₁ f₁ h =>
      simp only [h] at first
      have others := runScript w₁ f₁ first.2 rest
      exact ⟨first.1.trans others.1, others.2⟩

end

/-- An action hands on no callback but its own. -/
theorem runAction (w : World) (reach : Reach) (s : Script)
    (mine : ∀ v, reach.callback = some v → c = some v) :
    Spares c w (w.runAction reach s).1 ∧
      ∀ v, (w.runAction reach s).2.1.callback = some v → c = some v := by
  have ran := runScript w { reach } mine s
  unfold World.runAction
  split
  · next w₁ f h =>
    simp only [h] at ran
    exact ⟨ran.1.trans (logDrops _ _), ran.2⟩
  · next w₁ f h =>
    simp only [h] at ran
    exact ran

theorem action {s : Script} {x : Reach × Bool} (h : w.runAction {} s = (w', x)) :
    Spares none w w' := by
  have ran := (runAction (c := none) w {} s fun v hv => by cases hv).1
  rwa [h] at ran

theorem runChain (w : World) (announce : Nat → Mark)
    (plain : ∀ k, (announce k).isLoud = false ∧ (announce k).isAcceptance = false) (k : Nat)
    (actions : List Script) :
    Spares none w (w.runChain announce k actions).1 := by
  induction actions generalizing w k with
  | nil => exact .refl none w
  | cons s rest ih =>
    have announced := mark (c := none) w _ (plain k).1 (plain k).2
    unfold World.runChain
    split
    · next ran => exact announced.trans (action ran)
    · next ran => exact (announced.trans (action ran)).trans (ih _ _)

theorem runPhrase (w : World) (v : VisitId) (phrase : Phrase) :
    Spares none w (w.runPhrase v phrase).1 :=
  runChain w (.acted v phrase) (fun _ => ⟨rfl, rfl⟩) 0 _

theorem notifyChange (w : World) (change : Change) (handlers : List ChangeHandler) :
    Spares none w (w.notifyChange change handlers).1 := by
  induction handlers generalizing w with
  | nil => exact .refl none w
  | cons h rest ih =>
    have told : Spares none w (if h.verbose then
        (w.log (.changed h.label change)).log (.debug (some change.debug))
        else w.log (.changed h.label change)) := by
      split
      · exact (log w (.changed h.label change) nofun).trans (log _ _ nofun)
      · exact log w _ nofun
    unfold World.notifyChange
    simp only
    split
    · next ran => exact told.trans (action ran)
    · next ran => exact (told.trans (action ran)).trans (ih _)

theorem notifyDone (w : World) (handlers : List DoneHandler) :
    Spares none w (w.notifyDone handlers).1 := by
  induction handlers generalizing w with
  | nil => exact .refl none w
  | cons h rest ih =>
    have told : Spares none w (w.log (.done h.label)) := log w _ nofun
    unfold World.notifyDone
    split
    · next ran => exact told.trans (action ran)
    · next ran => exact (told.trans (action ran)).trans (ih _)

/-! ## The end of a run -/

theorem closeVisit (w : World) (v : VisitId) : Spares c w (w.closeVisit v) := by
  refine trans ?_ (mark _ _ rfl rfl)
  exact modifyVisit (fun _ => ⟨rfl, rfl, rfl, rfl⟩) .inl

theorem conclude (w : World) (r : RunId) (result : RunResult) :
    Spares c w (w.conclude r result).1 := by
  have returned (w : World) : Spares c w ((w.mark (.returned r result)).release r result.status) :=
    (mark w _ rfl rfl).trans (release ..)
  cases result with
  | ok outcome => exact (trace w _).trans (returned _)
  | error e => exact (trace w _).trans (returned _)

theorem announceDone (w : World) (r : RunId) : Spares none w (w.announceDone r).1 := by
  have announced := mark (c := none) w (.announced r) rfl rfl
  have told := announced.trans (notifyDone _ (w.interpreter (w.run r).interpreter).doneHandlers)
  unfold World.announceDone
  simp only
  split
  · next h =>
    rw [h] at told
    exact told.trans (release ..)
  · next h =>
    rw [h] at told
    exact told.trans (conclude ..)

/-! ## Leaving a state -/

theorem takeTransition (w : World) (r : RunId) (source : State) (d : Decision) (target : String) :
    Spares none w (w.takeTransition r source d target).1 := by
  unfold World.takeTransition
  split
  · exact conclude ..
  · refine trans ?_ (modifyRun (fun _ => rfl) fun _ => rfl)
    refine trans ?_ (modifyInterpreter (fun _ _ => id) fun _ => rfl)
    exact (trace w _).trans (mark _ _ rfl rfl)

theorem follow (w : World) (r : RunId) (v : VisitId) (d : Decision) :
    Spares none w (w.follow r v d).1 := by
  unfold World.follow
  simp only
  split
  · exact (closeVisit ..).trans (takeTransition ..)
  · exact (closeVisit ..).trans (announceDone ..)
  · exact ((trace ..).trans (closeVisit ..)).trans (conclude ..)
  · exact (closeVisit ..).trans (conclude ..)

theorem exitThen (w : World) (r : RunId) (v : VisitId) (next : World → World × Signal)
    (goOn : ∀ w, Spares none w (next w).1) : Spares none w (w.exitThen r v next).1 := by
  have ran := runPhrase w v .exit
  unfold World.exitThen
  split
  · next h =>
    rw [h] at ran
    exact (ran.trans (closeVisit ..)).trans (release ..)
  · next h =>
    rw [h] at ran
    exact ran.trans (goOn _)

/-- Nothing that a run does when it leaves a state ends a task. -/
theorem leave (w : World) (r : RunId) (v : VisitId) (e : Ending) :
    Spares none w (w.leave r v e).1 := by
  cases e with
  | decided d => exact exitThen w r v _ fun w => follow w r v d
  | settled =>
    simp only [World.leave]
    split
    · exact (trace w _).trans (exitThen _ r v _ fun w => (closeVisit ..).trans (announceDone ..))
    · exact ((trace ..).trans (closeVisit ..)).trans (conclude ..)
  | stopped => exact ((trace ..).trans (closeVisit ..)).trans (conclude ..)
  | panicked => exact (closeVisit ..).trans (conclude ..)

/-! ## Scripts that may wait -/

theorem endWait (w : World) (t : TaskId) : Spares c w (w.endWait t) := by
  simp only [World.endWait]
  refine trans ?_ (modifyTask fun x => ⟨rfl, rfl, rfl, rfl, rfl, fun _ => id⟩)
  split
  · next token _ =>
    cases token <;> exact modifyVisit (fun _ => ⟨rfl, rfl, rfl, rfl⟩) .inl
  · next token _ =>
    cases token <;> exact modifyVisit (fun _ => ⟨rfl, rfl, rfl, rfl⟩) .inl
  · exact .refl c w

/-- Something is reported, and a task waits no longer. -/
theorem report (w : World) (reports : Array Report) (t : TaskId) :
    Spares c w ({ w with reports }.endWait t) := by
  have noted : Spares c w { w with reports } := of_eq rfl rfl rfl rfl rfl rfl
  exact noted.trans (endWait _ t)

/-- Time goes on, which wakes tasks. -/
theorem advanceClock (later : w.advanceClock? = some w') : Spares c w w' := by
  unfold World.advanceClock? at later
  obtain ⟨time, -, rfl⟩ := Option.map_eq_some_iff.1 later
  have passed : Spares c w { w with now := max w.now time } := of_eq rfl rfl rfl rfl rfl rfl
  exact passed.trans (wakeAll _ _)

theorem beginWait (w : World) (t : TaskId) (wait : Wait) : Spares c w (w.beginWait t wait) := by
  simp only [World.beginWait]
  refine trans ?_ (modifyTask fun x => ⟨rfl, rfl, rfl, rfl, rfl, fun _ => id⟩)
  split
  · next token =>
    cases token <;> exact modifyVisit (fun _ => ⟨rfl, rfl, rfl, rfl⟩) .inl
  · next token =>
    cases token <;> exact modifyVisit (fun _ => ⟨rfl, rfl, rfl, rfl⟩) .inl
  · exact .refl c w

theorem stepInstr (w : World) (t : TaskId) (rest : Script) (i : Instr) :
    Spares (w.task t).reach.callback w (w.stepInstr t rest i).1 := by
  cases i with
  | act c => exact perform w _ _ fun v hv => .inl hv
  | loop times body => cases times <;> exact .refl _ w
  | observe i o => exact observe w _ _
  | detach body => exact detach w _ _ fun v hv => .inl hv
  | dropCallback =>
    refine trans ?_ (letGoAll _ _)
    exact modifyTask fun x => ⟨rfl, rfl, rfl, rfl, rfl, fun v hv => by cases hv⟩
  | guard label => exact modifyTask fun x => ⟨rfl, rfl, rfl, rfl, rfl, fun _ => id⟩
  | pause p =>
    simp only [World.stepInstr]
    split
    · exact beginWait ..
    · exact .refl _ w
  | branch | panic | finish => exact .refl _ w

theorem stepScript (w : World) (t : TaskId) (s : Script) :
    Spares (w.task t).reach.callback w (w.stepScript t s).1 := by
  unfold World.stepScript
  split
  · split
    · exact endWait ..
    · exact .refl _ w
  · split
    · exact .refl _ w
    · exact stepInstr ..

/-- The outcome of a service is raised on its own visit. -/
theorem raiseOutcome (w : World) (route : Route) (failure : Option Fault) :
    Spares (some route.visit) w (w.raiseOutcome route failure) := by
  unfold World.raiseOutcome
  simp only
  split
  · split
    · exact .refl _ w
    · exact raise w _ _ (.inl rfl)
  · split
    · exact trace w _
    · exact (trace w _).trans (raise _ _ _ (.inl rfl))

end Spares

end Statechart
