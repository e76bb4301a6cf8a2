import Statechart.Proofs.Beats

/-!
# Hosts

Which task drives which run, and where a run is while its host takes it further. These are the
invariants that everything said of runs rests on.

## Main definitions

- `Queued`: who is ready or has the turn is alive.
- `Hosted`: a run that has not ended has a host, and a task that drives a run is its host.
- `Spot.Suits`, `Staged`: the phase of a run agrees with how far its move has come.
- `Sound`: all of these.

## Main statements

- `Sound.beat`: every beat keeps a world sound.
-/

namespace Statechart

/-! ## Definitions -/

/-- Whoever is ready or has the turn is alive, and is ready only once. -/
structure Queued (w : World) : Prop where
  nodup : w.queue.Nodup
  ready : ∀ t, t ∈ w.queue → (w.task t).isAlive = true
  turn : ∀ t, w.running = some t → (w.task t).isAlive = true

/-- A task is alive and drives a run, of which it is the host. -/
structure World.Hosts (w : World) (t : TaskId) (r : RunId) : Prop where
  known : r < w.runs.size
  host : (w.run r).host = t
  alive : (w.task t).isAlive = true
  job : (w.task t).job.run? = some r

/-- Runs that have not ended, and runs in a move, have hosts; and who drives a run is its host. -/
structure Hosted (w : World) (σ : Stage) : Prop where
  driver : ∀ t r, (w.task t).isAlive = true → (w.task t).job.run? = some r →
    (w.run r).host = t ∧ ((w.run r).phase ≠ .ended ∨ σ.run? = some r)
  host : ∀ r, (w.run r).phase ≠ .ended → w.Hosts (w.run r).host r
  busy : ∀ t r s, σ = .busy t r s → w.Hosts t r

/-- The visit that a phase is about. -/
def Phase.visit? : Phase → Option VisitId
  | .waiting v | .draining v _ => some v
  | _ => none

/-- The visit that a move is about. -/
def Spot.visit? : Spot → Option VisitId
  | .acting v _ _ | .arrived v | .launching v _ | .forsaken v _ | .left v => some v
  | _ => none

/-- Whether the host has the turn for sure: a run may be dropped in another's turn, too. -/
def Spot.isOnTurn : Spot → Bool
  | .forsaken .. | .broken | .finished => false
  | _ => true

/-- Whether the run is on its way to a state. -/
def Phase.isArriving : Phase → Bool
  | .arriving .. => true
  | _ => false

/-- Whether a phase agrees with how far the move of the run has come. -/
def Spot.Suits : Spot → Phase → Prop
  | .told .., p | .acting _ .enter _, p | .arrived _, p | .launching .., p =>
    p.isArriving = true
  | .acting v _ _, p | .left v, p => ∃ e, p = .draining v e
  | .forsaken .., p => p.isArriving = true ∨ p = .ended
  | .announced _, p => ∃ v e, p = .draining v e
  | .broken, p => (∀ s, p ≠ .begun s) ∧ ∀ v, p ≠ .waiting v
  | .idle, p => p.isSuspended = true
  | .finished, p => p = .ended

/-- A run in a move was begun before. -/
theorem Spot.Suits.ne_begun {s : Spot} {p : Phase} (h : s.Suits p) (initial : State) :
    p ≠ .begun initial := by
  rintro rfl
  cases s with
  | told | arrived | launching | idle | finished => cases h
  | acting v phrase k =>
    cases phrase with
    | enter => cases h
    | cleanup | exit =>
      obtain ⟨e, he⟩ := h
      cases he
  | forsaken => rcases h with h | h <;> cases h
  | left v =>
    obtain ⟨e, he⟩ := h
    cases he
  | announced =>
    obtain ⟨v, e, he⟩ := h
    cases he
  | broken => exact h.1 initial rfl

/-- A run that waits is in no move but one in which it looks whether to go on. -/
theorem Spot.Suits.eq_idle {s : Spot} {v : VisitId} (h : s.Suits (.waiting v)) : s = .idle := by
  cases s with
  | idle => rfl
  | acting u phrase k =>
    cases phrase with
    | enter => cases h
    | cleanup | exit =>
      obtain ⟨e, he⟩ := h
      cases he
  | forsaken => rcases h with h | h <;> cases h
  | left =>
    obtain ⟨e, he⟩ := h
    cases he
  | announced =>
    obtain ⟨u, e, he⟩ := h
    cases he
  | broken => exact absurd rfl (h.2 v)
  | _ => cases h

/-- The visit is one of the run's. -/
structure World.Owns (w : World) (r : RunId) (v : VisitId) : Prop where
  run : (w.visit v).run = r
  known : v < w.visits.size

/-- How far the move of a run has come agrees with the run, the visit and the turn. -/
structure World.Placed (w : World) (t : TaskId) (r : RunId) (s : Spot) : Prop where
  turn : s.isOnTurn = true → w.running = some t
  suits : s.Suits (w.run r).phase
  own : ∀ v, s.visit? = some v → w.Owns r v

/-- The move under way agrees with the world, and what runs wait for is their own. -/
structure Staged (w : World) (σ : Stage) : Prop where
  placed : ∀ t r s, σ = .busy t r s → w.Placed t r s
  waits : ∀ r v, (w.run r).phase.visit? = some v → w.Owns r v

/-- The world holds together. -/
structure Sound (w : World) (σ : Stage) : Prop extends
  Queued w, Hosted w σ, Staged w σ

/-! ## Turns -/

namespace Queued

variable {w w' : World}

theorem calm (h : Queued w) (c : Calm w w') : Queued w' where
  nodup := c.nodup h.nodup
  ready t ht := by
    rw [(c.task t).isAlive]
    exact (c.alive t ht).elim (h.ready t) id
  turn t ht := by
    rw [(c.task t).isAlive]
    exact h.turn t (c.running ▸ ht)

theorem spawn (h : Queued w) {x : Task} (alive : x.isAlive = true) : Queued (w.spawn x) := by
  have old : ∀ t, (w.task t).isAlive = true → ((w.spawn x).task t).isAlive = true := by
    intro t ht
    simp only [World.spawn, World.task_mk, Table.get_push]
    split
    · exact alive
    · exact ht
  have fresh : w.tasks.size ∉ w.queue := fun hq => by
    have := h.ready _ hq
    rw [World.isAlive_of_size_le (Nat.le_refl _)] at this
    exact Bool.false_ne_true this
  refine ⟨?_, ?_, fun t ht => old t (h.turn t ht)⟩
  · exact List.nodup_append.2 ⟨h.nodup, by simp, fun t ht u hu he =>
      fresh (List.mem_singleton.1 hu ▸ he ▸ ht)⟩
  · intro t ht
    rcases List.mem_append.1 ht with ht | ht
    · exact old t (h.ready t ht)
    · have : t = w.tasks.size := List.mem_singleton.1 ht
      simpa [this, World.spawn] using alive

theorem takeSlot (h : Queued w) (i : InterpreterId) (t : TaskId) (s : State) :
    Queued (w.takeSlot i t s) :=
  h.calm (.of_eq rfl rfl rfl)

theorem stir {σ : Stage} (h : Queued w) (b : Stir σ w w') : Queued w' := by
  rcases b.hushed with still | ⟨x, plain, rfl⟩ | ⟨i, s, -, rfl⟩
  · exact h.calm still.toCalm
  · exact h.spawn plain.alive
  · exact (h.takeSlot i _ s).spawn rfl

theorem stride {t : TaskId} {r : RunId} {σ σ' : Stage} (h : Queued w)
    (b : Stride t r (w, σ) (w', σ')) : Queued w' := by
  -- New tasks of a visit join the queue; nobody else comes or goes.
  rcases b.calm with calm | ⟨v, k, x, plain, -, rfl, -⟩
  · exact h.calm calm
  · have listed : Queued (w.modifyVisit v fun y =>
        { y with working := y.working ++ [w.tasks.size] }) := h.calm (.of_eq rfl rfl rfl)
    exact listed.spawn plain.alive

theorem park (h : Queued w) {t : TaskId} (turn : w.running = some t) : Queued (w.park t) := by
  obtain ⟨queue, listed, parked⟩ := w.park_eq t
  have akin : ∀ u, ((w.modifyTask t fun x => { x with rewoken := false }).task u).isAlive =
      (w.task u).isAlive := fun u => by
    rw [World.task_modifyTask]
    split <;> rfl
  rw [parked]
  rcases listed with rfl | ⟨new, rfl⟩
  · exact ⟨h.nodup, fun u hu => (akin u).trans (h.ready u hu), fun u hu => by cases hu⟩
  · refine ⟨?_, fun u hu => (akin u).trans ?_, fun u hu => by cases hu⟩
    · exact List.nodup_append.2 ⟨h.nodup, by simp, fun u hu v hv he =>
        new (List.mem_singleton.1 hv ▸ he ▸ hu)⟩
    · rcases List.mem_append.1 hu with hu | hu
      · exact h.ready u hu
      · exact List.mem_singleton.1 hu ▸ h.turn t turn

/-- A task that is gone is neither ready nor has the turn. -/
theorem bury (h : Queued w) (t : TaskId) (fate : Fate) : Queued (w.bury t fate) := by
  refine ⟨h.nodup.erase t, fun u hu => ?_, fun u hu => ?_⟩
  · have hu := (List.Nodup.mem_erase_iff h.nodup).1 hu
    rw [w.task_bury_of_ne fate hu.1]
    exact h.ready u hu.2
  · change (if w.running = some t then none else w.running) = some u at hu
    split at hu
    · cases hu
    · next other =>
      have hne : u ≠ t := fun he => other (hu.trans (congrArg some he))
      rw [w.task_bury_of_ne fate hne]
      exact h.turn u hu

theorem setJob (h : Queued w) (t : TaskId) (job : Job) : Queued (w.setJob t job) := by
  have same : ∀ u, ((w.setJob t job).task u).isAlive = (w.task u).isAlive := by
    intro u
    simp only [World.setJob, World.task_modifyTask]
    split <;> rfl
  exact ⟨h.nodup, fun u hu => (same u).trans (h.ready u hu),
    fun u hu => (same u).trans (h.turn u hu)⟩

theorem shift {σ : Stage} (h : Queued w) (b : Shift (w, σ) w') : Queued w' := by
  cases b with
  | turn free due =>
    refine ⟨h.nodup.erase _, fun u hu => h.ready u (List.mem_of_mem_erase hu), fun u hu => ?_⟩
    exact Option.some.inj hu ▸ h.ready _ due
  | unqueue free =>
    exact ⟨h.nodup.erase _, fun u hu => h.ready u (List.mem_of_mem_erase hu), h.turn⟩
  | park turn => exact h.park turn
  | retire alive ease late chores =>
    have gone := (h.bury _ _).calm (Frame.of_chores chores).toCalm
    unfold World.withdraw
    split
    · exact gone.calm (.of_eq rfl rfl rfl)
    · exact gone
  | begin i s => exact (h.takeSlot i _ s).setJob ..
  | resume => exact h.setJob ..

end Queued

/-! ## Hosts -/

namespace World.Hosts

variable {w w' : World} {t : TaskId} {r : RunId}

/-- A host stays one when tasks come, and when others end or change their jobs. -/
theorem others (h : w.Hosts t r) (runs : w.runs.size ≤ w'.runs.size)
    (host : (w'.run r).host = (w.run r).host)
    (alive : (w'.task t).isAlive = (w.task t).isAlive)
    (job : (w'.task t).job.run? = (w.task t).job.run?) : w'.Hosts t r :=
  ⟨Nat.lt_of_lt_of_le h.known runs, host.trans h.host, alive.trans h.alive, job.trans h.job⟩

/-- A run has one host. -/
theorem unique (h : w.Hosts t r) {u : TaskId} (h' : w.Hosts u r) : t = u :=
  h.host.symm.trans h'.host

/-- A host drives one run. -/
theorem inj (h : w.Hosts t r) {q : RunId} (h' : w.Hosts t q) : r = q :=
  Option.some.inj (h.job.symm.trans h'.job)

end World.Hosts

namespace Hosted

variable {w w' : World} {σ : Stage}

/-- Who drives a run is its host. -/
theorem hosts (h : Hosted w σ) {t : TaskId} {r : RunId} (alive : (w.task t).isAlive = true)
    (job : (w.task t).job.run? = some r) : w.Hosts t r := by
  obtain ⟨host, going | busy⟩ := h.driver t r alive job
  · exact host ▸ h.host r going
  · cases σ with
    | rest => cases busy
    | busy u q spot =>
      have same : q = r := Option.some.inj busy
      have hosts := h.busy u q spot rfl
      exact ⟨same ▸ hosts.known, host, alive, job⟩

theorem akin (h : Hosted w σ) (runs : w.runs.size ≤ w'.runs.size)
    (run : ∀ r, (w.run r).Akin (w'.run r)) (task : ∀ t, (w.task t).Akin (w'.task t)) :
    Hosted w' σ := by
  have kept : ∀ {t r}, w.Hosts t r → w'.Hosts t r := fun hosts =>
    hosts.others runs (run _).host (task _).isAlive (task _).run?
  refine ⟨fun t r alive job => ?_, fun r going => ?_, fun t r s hσ => kept (h.busy t r s hσ)⟩
  · rw [(task t).isAlive] at alive
    rw [(task t).run?] at job
    rw [(run r).host, (run r).phase]
    exact h.driver t r alive job
  · rw [(run r).phase] at going
    rw [(run r).host]
    exact kept (h.host r going)

/-- Once the move of a run is over, it has to be under way still. -/
theorem rest (h : Hosted w σ) (going : ∀ r, σ.run? = some r → (w.run r).phase ≠ .ended) :
    Hosted w .rest where
  driver t r alive job := by
    obtain ⟨host, going' | busy⟩ := h.driver t r alive job
    · exact ⟨host, .inl going'⟩
    · exact ⟨host, .inl (going r busy)⟩
  host := h.host
  busy t r s hσ := by cases hσ

/-- A task comes that drives no run. -/
theorem spawn (h : Hosted w σ) {x : Task} (job : x.job.run? = none) : Hosted (w.spawn x) σ := by
  have same : ∀ t, t < w.tasks.size → (w.spawn x).task t = w.task t := fun t ht => by
    simp [World.spawn, Nat.ne_of_lt ht]
  have kept : ∀ {t r}, w.Hosts t r → (w.spawn x).Hosts t r := fun hosts => by
    have ht := same _ (World.lt_size_of_isAlive hosts.alive)
    exact hosts.others (Nat.le_refl _) rfl (by rw [ht]) (by rw [ht])
  refine ⟨fun t r alive drives => ?_, fun r going => kept (h.host r going),
    fun t r s hσ => kept (h.busy t r s hσ)⟩
  simp only [World.spawn, World.task_mk, Table.get_push] at alive drives
  split at drives
  · rw [job] at drives
    cases drives
  · next old =>
    simp only [old, if_false] at alive
    exact h.driver t r alive drives

/-- A task begins to drive a new run. -/
theorem enroll (h : Hosted w σ) {u : TaskId} {i : InterpreterId} {s : State}
    (runs : w'.runs = (w.takeSlot i u s).runs) (alive : (w'.task u).isAlive = true)
    (job : (w'.task u).job.run? = some w.runs.size)
    (others : ∀ t, t ≠ u → (w'.task t).isAlive = (w.task t).isAlive ∧
      (w'.task t).job.run? = (w.task t).job.run?)
    (free : ∀ r, ¬ w.Hosts u r) : Hosted w' σ := by
  have run : ∀ r, w'.run r = if r = w.runs.size then
      { interpreter := i, host := u, phase := .begun s } else w.run r := by
    intro r
    unfold World.run
    rw [runs]
    exact Table.get_push ..
  have size : w'.runs.size = w.runs.size + 1 := by
    rw [runs]
    exact Table.size_push ..
  -- No host but the task itself is affected, and it has driven nothing so far.
  have kept : ∀ {t r}, w.Hosts t r → w'.Hosts t r := fun {t r} hosts => by
    have ht : t ≠ u := fun ht => free r (ht ▸ hosts)
    have hr : w'.run r = w.run r := by simp [run, Nat.ne_of_lt hosts.known]
    exact hosts.others (by omega) (by rw [hr]) (others t ht).1 (others t ht).2
  refine ⟨fun t r alive' drives => ?_, fun r going => ?_, fun t r s hσ => kept (h.busy t r s hσ)⟩
  · by_cases ht : t = u
    · have hr : r = w.runs.size := Option.some.inj ((ht ▸ drives).symm.trans job)
      simp [run, hr, ht]
    · rw [(others t ht).1] at alive'
      rw [(others t ht).2] at drives
      have known := (h.hosts alive' drives).known
      have hr : w'.run r = w.run r := by simp [run, Nat.ne_of_lt known]
      exact hr ▸ h.driver t r alive' drives
  · by_cases hr : r = w.runs.size
    · have host : (w'.run r).host = u := by simp [run, hr]
      rw [host]
      exact ⟨by rw [hr, size]; exact Nat.lt_succ_self _, host, alive, hr ▸ job⟩
    · have same : w'.run r = w.run r := by simp [run, hr]
      rw [same] at going ⊢
      exact kept (h.host r going)

/-- A task that drives no run that goes on ends or turns to another job. -/
theorem leave (h : Hosted w σ) {t : TaskId} (runs : w.runs.size ≤ w'.runs.size)
    (run : ∀ r, (w.run r).Akin (w'.run r))
    (gone : (w'.task t).isAlive = false ∨ (w'.task t).job.run? = none)
    (others : ∀ u, u ≠ t → (w'.task u).isAlive = (w.task u).isAlive ∧
      (w'.task u).job.run? = (w.task u).job.run?)
    (finished : ∀ r, w.Hosts t r → (w.run r).phase = .ended)
    (busy : ∀ r, σ.run? = some r → w.Hosts t r) : Hosted w' .rest := by
  refine ⟨fun u r alive job => ?_, fun r going => ?_, fun u r s hσ => by cases hσ⟩
  · have hu : u ≠ t := by
      rintro rfl
      rcases gone with gone | gone
      · rw [gone] at alive
        cases alive
      · rw [gone] at job
        cases job
    rw [(others u hu).1] at alive
    rw [(others u hu).2] at job
    rw [(run r).host, (run r).phase]
    obtain ⟨host, going | mine⟩ := h.driver u r alive job
    · exact ⟨host, .inl going⟩
    · exact absurd ((busy r mine).host.symm.trans host).symm hu
  · rw [(run r).phase] at going
    rw [(run r).host]
    have hosts := h.host r going
    have hu : (w.run r).host ≠ t := fun hu => going (finished r (hu ▸ hosts))
    exact hosts.others runs (run r).host (others _ hu).1 (others _ hu).2

end Hosted

/-! ## Stages -/

theorem Steady.owns {w w' : World} (s : Steady w w') {r : RunId} {v : VisitId}
    (h : w.Owns r v) : w'.Owns r v :=
  ⟨(s.owner v).trans h.run, Nat.lt_of_lt_of_le h.known s.visits⟩

theorem Onward.owns {w w' : World} {q r : RunId} (o : Onward q w w') {v : VisitId}
    (h : w.Owns r v) : w'.Owns r v :=
  ⟨(o.owner v h.known).trans h.run, Nat.lt_of_lt_of_le h.known o.visits⟩

/-- A new visit is one of the run's. -/
theorem World.owns_pushVisit (w : World) (r : RunId) (s : State) :
    (w.pushVisit r s).Owns r w.visits.size := by
  constructor
  · simp [World.pushVisit, World.trace, World.mark, World.log]
  · simp [World.pushVisit, World.trace, World.mark, World.log]

@[simp]
theorem World.phase_setPhase (w : World) (r : RunId) (p : Phase) :
    ((w.setPhase r p).run r).phase = p := by
  simp [World.setPhase, World.run_modifyRun]

@[simp]
theorem World.phase_release (w : World) (r : RunId) (status : Status) :
    ((w.release r status).run r).phase = .ended :=
  w.phase_setPhase r .ended

@[simp]
theorem World.phase_goTo (w : World) (r : RunId) (source next : State) (d : Decision) :
    ((w.goTo r source next d).run r).phase = .arriving next (some source.id) (some d) :=
  phase_setPhase ..

@[simp]
theorem World.phase_endRun (w : World) (r : RunId) (result : RunResult) :
    ((w.endRun r result).run r).phase = .ended :=
  phase_release ..

/-- The move of a run goes on, and the phase of the run stays. -/
theorem World.Placed.next {w w' : World} {t : TaskId} {r : RunId} {s s' : Spot}
    (h : w.Placed t r s) (o : Onward r w w') (running : w'.running = w.running)
    (phase : (w'.run r).phase = (w.run r).phase)
    (turn : s'.isOnTurn = true → s.isOnTurn = true) (suits : ∀ p, s.Suits p → s'.Suits p)
    (own : ∀ v, s'.visit? = some v → s.visit? = some v) : w'.Placed t r s' where
  turn ht := running.trans (h.turn (turn ht))
  suits := phase ▸ suits _ h.suits
  own v hv := o.owns (h.own v (own v hv))

namespace Staged

variable {w w' : World} {σ : Stage}

/-- Between moves only what runs wait for counts, and it stays while no run goes further. -/
theorem rest (h : Staged w σ) (s : Steady w w') : Staged w' .rest := by
  refine ⟨fun _ _ _ hσ => (by cases hσ), fun r v hv => ?_⟩
  by_cases known : r < w.runs.size
  · rw [(s.run r known).phase] at hv
    exact s.owns (h.waits r v hv)
  · obtain ended | ⟨initial, begun⟩ := s.fresh r (Nat.not_lt.1 known)
    · rw [ended] at hv
      cases hv
    · rw [begun] at hv
      cases hv

/-- While no run goes further, the move under way stays where it is. -/
theorem steady (h : Staged w σ) (hosted : Hosted w σ) (s : Steady w w')
    (running : w'.running = w.running) : Staged w' σ := by
  refine ⟨fun t r spot hσ => ?_, (h.rest s).waits⟩
  have placed := h.placed t r spot hσ
  have phase := (s.run r (hosted.busy t r spot hσ).known).phase
  exact ⟨fun ht => running.trans (placed.turn ht), phase ▸ placed.suits,
    fun v hv => s.owns (placed.own v hv)⟩

/-- A stride is judged by the phase it comes to and the place it comes to. -/
theorem onward (h : Staged w σ) {r : RunId} (o : Onward r w w') {σ' : Stage}
    (waits : ∀ v, (w'.run r).phase.visit? = some v → w'.Owns r v)
    (placed : ∀ t q s, σ' = .busy t q s → w'.Placed t q s) : Staged w' σ' := by
  refine ⟨placed, fun q v hv => ?_⟩
  by_cases hq : q = r
  · exact hq ▸ waits v (hq ▸ hv)
  · exact o.owns (h.waits q v (o.run q hq ▸ hv))

theorem onward_rest (h : Staged w σ) {r : RunId} (o : Onward r w w')
    (waits : ∀ v, (w'.run r).phase.visit? = some v → w'.Owns r v) : Staged w' .rest :=
  h.onward o waits fun _ _ _ hσ => by cases hσ

theorem onward_busy (h : Staged w σ) {t : TaskId} {r : RunId} (o : Onward r w w') {s : Spot}
    (waits : ∀ v, (w'.run r).phase.visit? = some v → w'.Owns r v) (placed : w'.Placed t r s) :
    Staged w' (.busy t r s) :=
  h.onward o waits fun _ _ _ hσ => by
    cases hσ
    exact placed

/-- A run that goes further stays in step with its move. -/
theorem stride {t : TaskId} {r : RunId} {σ' : Stage} (h : Staged w σ)
    (b : Stride t r (w, σ) (w', σ')) : Staged w' σ' := by
  have o := b.onward
  have same (phase : (w'.run r).phase = (w.run r).phase) :
      ∀ v, (w'.run r).phase.visit? = some v → w'.Owns r v :=
    fun v hv => o.owns (h.waits r v (phase ▸ hv))
  -- A move that goes on in the same phase.
  have next {s s' : Spot} (hσ : σ = .busy t r s) (running : w'.running = w.running)
      (phase : (w'.run r).phase = (w.run r).phase)
      (turn : s'.isOnTurn = true → s.isOnTurn = true) (suits : ∀ p, s.Suits p → s'.Suits p)
      (own : ∀ v, s'.visit? = some v → s.visit? = some v) : Staged w' (.busy t r s') :=
    h.onward_busy o (same phase) ((h.placed t r s hσ).next o running phase turn suits own)
  -- A move after which the run has ended.
  have ended {s : Spot} (phase : (w'.run r).phase = .ended) (turn : s.isOnTurn = false)
      (suits : s.Suits .ended) (own : ∀ v, s.visit? = some v → w'.Owns r v) :
      Staged w' (.busy t r s) :=
    h.onward_busy o (by simp [phase, Phase.visit?]) ⟨by simp [turn], phase ▸ suits, own⟩
  cases b with
  | depart => exact h.onward_rest o (by simp [Phase.visit?])
  | tell drives phase =>
    refine h.onward_busy o (same rfl) ⟨fun _ => drives.turn, ?_, fun v hv => by cases hv⟩
    exact phase ▸ rfl
  | visit =>
    have placed := h.placed _ _ _ rfl
    refine h.onward_busy o (same rfl) ⟨fun _ => placed.turn rfl, placed.suits, fun v hv => ?_⟩
    cases hv
    exact w.owns_pushVisit ..
  | @act _ _ phrase =>
    cases phrase <;> exact next rfl rfl rfl id (fun _ => id) (fun _ => id)
  | arrive | ready | launch | crew | close | hear | toll | tend | tear =>
    exact next rfl rfl rfl id (fun _ => id) (fun _ => id)
  | pass =>
    have placed := h.placed _ _ _ rfl
    have own := o.owns (placed.own _ rfl)
    refine h.onward_busy o (fun u hu => ?_)
      ⟨fun _ => placed.turn rfl, ⟨_, w.phase_setPhase r _⟩, fun u hu => ?_⟩
    · have hu : some _ = some u := w.phase_setPhase r _ ▸ hu
      exact Option.some.inj hu ▸ own
    · exact Option.some.inj hu ▸ own
  | wait =>
    have own := o.owns ((h.placed _ _ _ rfl).own _ rfl)
    refine h.onward_rest o fun u hu => ?_
    have hu : some _ = some u := w.phase_setPhase r _ ▸ hu
    exact Option.some.inj hu ▸ own
  | forsake => exact next rfl rfl rfl (fun _ => rfl) (fun _ => .inl) (fun _ => id)
  | look => exact h.onward_rest o (same rfl)
  | idle drives suspended =>
    exact h.onward_busy o (same rfl) ⟨fun _ => drives.turn, suspended, fun v hv => by cases hv⟩
  | conclude drives phase =>
    have own := o.owns (h.waits r _ (congrArg Phase.visit? phase))
    refine h.onward_busy o (fun u hu => ?_)
      ⟨fun _ => drives.turn, ⟨_, w.phase_setPhase r _⟩, fun u hu => ?_⟩
    · have hu : some _ = some u := w.phase_setPhase r _ ▸ hu
      exact Option.some.inj hu ▸ own
    · exact Option.some.inj hu ▸ own
  | relax => exact h.onward_rest o (same ((Frame.abortWork w _).run r).phase)
  | exit drives phase | quit drives phase =>
    have own := o.owns (h.waits r _ (congrArg Phase.visit? phase))
    refine h.onward_busy o (same rfl) ⟨fun _ => drives.turn, ⟨_, phase⟩, fun u hu => ?_⟩
    exact Option.some.inj hu ▸ own
  | go => exact h.onward_rest o (by simp [Phase.visit?])
  | announce =>
    exact next rfl rfl rfl (fun _ => rfl) (fun p ⟨e, he⟩ => ⟨_, e, he⟩) fun v hv => by cases hv
  | halt | back | done | unwind =>
    exact ended (by simp) rfl rfl fun v hv => by cases hv
  | @shut _ _ phrase =>
    refine next rfl rfl rfl (fun ht => by cases ht) (fun p hp => ?_) fun v hv => by cases hv
    cases phrase with
    | enter => constructor <;> rintro _ rfl <;> cases hp
    | cleanup | exit =>
      obtain ⟨e, rfl⟩ := hp
      constructor <;> intro _ he <;> cases he
  | tended =>
    refine next rfl rfl rfl (fun ht => by cases ht) (fun p hp => ?_) fun v hv => by cases hv
    rcases hp with hp | rfl
    · constructor <;> rintro _ rfl <;> cases hp
    · constructor <;> intro _ he <;> cases he
  | dropBegun => exact ended (World.phase_setPhase ..) rfl rfl fun v hv => by cases hv
  | dropArriving | dropDraining =>
    refine ended (World.phase_setPhase ..) rfl ?_ fun v hv => by cases hv
    constructor <;> intro _ he <;> cases he
  | @dropWaiting _ _ v alive job ease phase =>
    have own := o.owns (h.waits r v (congrArg Phase.visit? phase))
    have aborted : Frame (w.setPhase r .ended) ((w.setPhase r .ended).abortWork v) :=
      .abortWork ..
    exact ended ((aborted.run r).phase.trans (World.phase_setPhase ..)) rfl (.inr rfl)
      fun u hu => Option.some.inj hu ▸ own

end Staged

/-! ## Runs that go further -/

namespace Stride

variable {w w' : World} {t : TaskId} {r : RunId} {σ σ' : Stage}

/-- A stride is one of the run in whose move the engine is. -/
theorem source (b : Stride t r (w, σ) (w', σ')) : σ = .rest ∨ ∃ s, σ = .busy t r s := by
  cases b with
  | depart | tell | look | idle | conclude | exit | quit | halt | dropBegun | dropArriving =>
    exact .inl rfl
  | dropWaiting _ _ ease | dropDraining _ _ ease => exact ease.imp_right fun h => ⟨_, h⟩
  | _ => exact .inr ⟨_, rfl⟩

/-- Only the host of a run takes it further. -/
theorem hosts (b : Stride t r (w, σ) (w', σ')) (q : Queued w) (h : Hosted w σ) :
    w.Hosts t r := by
  have drive (drives : w.Drives t r) : w.Hosts t r := h.hosts (q.turn t drives.turn) drives.job
  cases b with
  | depart drives | tell drives | look drives | idle drives | conclude drives | exit drives
  | quit drives | halt drives => exact drive drives
  | dropBegun alive job | dropArriving alive job | dropWaiting alive job
  | dropDraining alive job => exact h.hosts alive job
  | _ => exact h.busy t r _ rfl

/-- A run goes on when its move is over. -/
theorem target (b : Stride t r (w, σ) (w', σ')) (h : Staged w σ) :
    (σ' = .rest ∧ (w'.run r).phase ≠ .ended ∧ ∀ s, (w'.run r).phase ≠ .begun s) ∨
      ∃ s, σ' = .busy t r s := by
  cases b with
  | depart | wait | go => exact .inl ⟨rfl, by simp⟩
  | @look _ v drives phase =>
    refine .inl ⟨rfl, ?_⟩
    change (w.run r).phase ≠ .ended ∧ ∀ s, (w.run r).phase ≠ .begun s
    simp [phase]
  | @relax _ v =>
    obtain ⟨e, phase⟩ := (h.placed _ _ _ rfl).suits
    refine .inl ⟨rfl, ?_⟩
    rw [((Frame.abortWork w v).run r).phase, phase]
    simp
  | _ => exact .inr ⟨_, rfl⟩

/-- A run waits for what it waited for before, or for what it has just set up. -/
theorem waiting {v : VisitId} (b : Stride t r (w, σ) (w', σ'))
    (phase : (w'.run r).phase = .waiting v) :
    (w.run r).phase = .waiting v ∨ ∃ k, σ = .busy t r (.launching v k) := by
  cases b with
  | wait =>
    cases (World.phase_setPhase ..).symm.trans phase
    exact .inr ⟨_, rfl⟩
  | depart | pass | conclude | dropBegun | dropArriving | dropDraining =>
    cases (World.phase_setPhase ..).symm.trans phase
  | go => cases (World.phase_goTo ..).symm.trans phase
  | halt | back | done => cases (World.phase_endRun ..).symm.trans phase
  | unwind => cases (World.phase_release ..).symm.trans phase
  | dropWaiting =>
    rw [World.run_closeVisit, World.run_abortWork, World.phase_setPhase] at phase
    cases phase
  | relax =>
    rw [World.run_abortWork] at phase
    exact .inl phase
  | _ => exact .inl phase

/-- A host stays one while a run goes further. -/
theorem kept (b : Stride t r (w, σ) (w', σ')) {u : TaskId} {q : RunId} (h : w.Hosts u q) :
    w'.Hosts u q := by
  have o := b.onward
  have host : (w'.run q).host = (w.run q).host := by
    by_cases hq : q = r
    · exact hq ▸ o.host
    · rw [o.run q hq]
  rcases b.calm with calm | ⟨v, k, x, plain, -, rfl, -⟩
  · exact h.others o.runs host (calm.task u).isAlive (calm.task u).run?
  · have same := World.task_spawnFor_of_lt (World.lt_size_of_isAlive h.alive) v x
    exact h.others o.runs host (by rw [same]) (by rw [same])

end Stride

theorem Hosted.stride {w w' : World} {t : TaskId} {r : RunId} {σ σ' : Stage} (h : Hosted w σ)
    (q : Queued w) (s : Staged w σ) (b : Stride t r (w, σ) (w', σ')) : Hosted w' σ' := by
  have o := b.onward
  have hosts := b.hosts q h
  have target := b.target s
  -- A run takes on no new host: tasks that it spawns drive nothing yet.
  have old (u : TaskId) (p : RunId) (alive : (w'.task u).isAlive = true)
      (job : (w'.task u).job.run? = some p) :
      (w.task u).isAlive = true ∧ (w.task u).job.run? = some p := by
    rcases b.calm with calm | ⟨v, k, x, plain, -, rfl, -⟩
    · exact ⟨(calm.task u).isAlive ▸ alive, (calm.task u).run? ▸ job⟩
    · rw [World.task_spawnFor] at alive job
      split at job
      · cases plain.run?.symm.trans job
      · next hu =>
        rw [if_neg hu] at alive
        exact ⟨alive, job⟩
  refine ⟨fun u p alive job => ?_, fun p going => ?_, fun u p spot hσ => ?_⟩
  · obtain ⟨alive, job⟩ := old u p alive job
    refine ⟨(b.kept (h.hosts alive job)).host, ?_⟩
    by_cases hp : p = r
    · subst hp
      rcases target with ⟨-, going, -⟩ | ⟨spot, rfl⟩
      · exact .inl going
      · exact .inr rfl
    · rw [o.run p hp]
      rcases (h.driver u p alive job).2 with going | mine
      · exact .inl going
      · rcases b.source with rfl | ⟨spot, rfl⟩
        · cases mine
        · exact absurd (Option.some.inj mine).symm hp
  · by_cases hp : p = r
    · subst hp
      have kept := b.kept hosts
      exact kept.host ▸ kept
    · rw [o.run p hp] at going ⊢
      exact b.kept (h.host p going)
  · rcases target with ⟨rfl, -⟩ | ⟨spot', rfl⟩
    · cases hσ
    · cases hσ
      exact b.kept hosts

/-! ## Soundness -/

/-- What scripts do leaves hosts as they are, and starts runs in tasks of their own. -/
theorem Hosted.stir {w w' : World} {σ : Stage} (h : Hosted w σ) (b : Stir σ w w') :
    Hosted w' σ := by
  rcases b.hushed with still | ⟨x, plain, rfl⟩ | ⟨i, s, -, rfl⟩
  · exact h.akin still.runs still.run still.task
  · exact h.spawn plain.run?
  · refine h.enroll rfl ?_ ?_ (fun t ht => ?_) fun r hosts => ?_
    · simp [World.startNew, World.spawn, World.takeSlot, World.modifyInterpreter, World.mark,
        World.log, Task.isAlive]
    · simp [World.startNew, World.spawn, World.takeSlot, World.modifyInterpreter, World.mark,
        World.log, Job.run?]
    · simp [World.startNew, World.spawn, World.takeSlot, World.modifyInterpreter, World.mark,
        World.log, ht]
    · exact Nat.lt_irrefl _ (World.lt_size_of_isAlive hosts.alive)

/-- What becomes of tasks leaves no run behind that goes on. -/
theorem Hosted.shift {w w' : World} {σ : Stage} (h : Hosted w σ) (q : Queued w)
    (s : Staged w σ) (b : Shift (w, σ) w') : Hosted w' .rest := by
  -- A task that has no run to drive, or whose run has ended, may do anything.
  have finished {t : TaskId} (ease : σ = .rest ∧ (w.task t).job.run? = none ∨
      ∃ r, σ = .busy t r .finished) :
      (∀ r, w.Hosts t r → (w.run r).phase = .ended) ∧ ∀ r, σ.run? = some r → w.Hosts t r := by
    rcases ease with ⟨rfl, free⟩ | ⟨r, rfl⟩
    · refine ⟨fun r hosts => ?_, fun r hσ => by cases hσ⟩
      have := hosts.job
      rw [free] at this
      cases this
    · have hosts := h.busy t r _ rfl
      refine ⟨fun q hosts' => ?_, fun q hq => Option.some.inj hq ▸ hosts⟩
      exact hosts.inj hosts' ▸ (s.placed t r _ rfl).suits
  cases b with
  | turn => exact h.akin (Nat.le_refl _) (fun _ => .refl _) fun _ => .refl _
  | unqueue => exact h.akin (Nat.le_refl _) (fun _ => .refl _) fun _ => .refl _
  | @park _ _ t turn ease =>
    obtain ⟨queue, -, parked⟩ := w.park_eq t
    -- A host that rests leaves its run waiting for something.
    have going : ∀ r, σ.run? = some r → (w.run r).phase ≠ .ended := by
      intro r hσ ended
      rcases ease with ⟨rfl, -⟩ | ⟨r', rfl⟩
      · cases hσ
      · cases hσ
        have idle := (s.placed _ _ _ rfl).suits
        rw [ended] at idle
        cases idle
    rw [parked]
    refine (h.rest going).akin (Nat.le_refl _) (fun _ => .refl _) fun u => ?_
    exact (Still.modifyTask (f := fun x => { x with rewoken := false })
      ⟨rfl, rfl, rfl, id, fun _ => id⟩).task u
  | @retire _ w₁ _ t fate alive ease late chores =>
    -- A task that ends has no run any more.
    have frame := Frame.of_chores chores
    have buried : (w.bury t fate).runs = w.runs := rfl
    refine h.leave (t := t) ?_ (fun r => ?_) (.inl ?_) (fun u hu => ?_) (finished ease).1
      (finished ease).2
    · exact Nat.le_trans frame.runs (Steady.withdraw w₁ t _).runs
    · rw [World.run_withdraw]
      exact frame.run r
    · rw [World.task_withdraw, (frame.task t).isAlive]
      simp [Task.isAlive, World.fate_bury]
    · rw [World.task_withdraw, (frame.task u).isAlive, (frame.task u).run?,
        w.task_bury_of_ne fate hu]
      exact ⟨rfl, rfl⟩
  | @begin _ t job i st turn ease free drives =>
    refine h.enroll (u := t) (i := i) (s := st) rfl ?_ ?_ (fun u hu => ?_) fun r hosts => ?_
    · rw [World.setJob, World.task_modifyTask, if_pos rfl]
      exact q.turn t turn
    · rw [World.setJob, World.task_modifyTask, if_pos rfl]
      exact drives
    · rw [World.setJob, World.task_modifyTask, if_neg hu]
      exact ⟨rfl, rfl⟩
    · have := hosts.job
      rw [ease] at this
      cases this
  | @resume _ t r job turn ease =>
    have free := finished (t := t) (.inr ⟨r, rfl⟩)
    refine h.leave (t := t) (Nat.le_refl _) (fun _ => .refl _) (.inr ?_) (fun u hu => ?_) free.1
      free.2
    · rw [World.setJob, World.task_modifyTask, if_pos rfl]
      exact ease
    · rw [World.setJob, World.task_modifyTask, if_neg hu]
      exact ⟨rfl, rfl⟩

theorem Stir.running {σ : Stage} {w w' : World} (b : Stir σ w w') : w'.running = w.running := by
  rcases b.hushed with still | ⟨x, -, rfl⟩ | ⟨i, s, -, rfl⟩
  · exact still.running
  · rfl
  · rfl

/-- Every beat keeps a world sound. -/
theorem Sound.beat {w w' : World} {σ σ' : Stage} (h : Sound w σ) (b : Beat (w, σ) (w', σ')) :
    Sound w' σ' := by
  obtain ⟨queued, hosted, staged⟩ := h
  cases b with
  | stir b =>
    exact ⟨queued.stir b, hosted.stir b, staged.steady hosted b.steady b.running⟩
  | shift b =>
    exact ⟨queued.shift b, hosted.shift queued staged b, staged.rest b.steady⟩
  | stride b => exact ⟨queued.stride b, hosted.stride queued staged b, staged.stride b⟩

theorem Sound.beats {x y : World × Stage} (h : Sound x.1 x.2) (b : Beats x y) :
    Sound y.1 y.2 := by
  induction b with
  | refl => exact h
  | tail _ beat ih => exact ih.beat beat

end Statechart
