import Statechart.Proofs.Records

/-!
# The slot of an interpreter

A run takes the slot of its interpreter when it begins and gives it up when it ends, and a run
that is dropped gives it up too, provided that its host has had a turn. A run in the background
that is aborted before its first turn keeps the slot for good.

## Main definitions

- `World.Polled`: a task has had a turn.
- `World.InProgress`: a run has not given up its slot, though it may be about to.
- `Slotted`: slots belong to runs in progress, or to runs whose hosts never had a turn.
- `World.Deserted`, `World.IsFree`: nobody runs an interpreter, and it can be run again.

## Main statements

- `Scenario.free_iff_polled`: an interpreter that nobody runs any more is free if and only if the
  hosts of all its runs have had a turn.
-/

namespace Statechart

/-! ## Definitions -/

/-- The task has had a turn. -/
def World.Polled (w : World) (t : TaskId) : Prop :=
  .turn t ∈ w.marks

instance (w : World) (t : TaskId) : Decidable (w.Polled t) :=
  inferInstanceAs (Decidable (_ ∈ _))

/-- The run goes on, or is about to give up its slot. -/
def World.InProgress (w : World) (σ : Stage) (r : RunId) : Prop :=
  (w.run r).phase ≠ .ended ∨ ∃ t s, σ = .busy t r s ∧ s ≠ .finished

/-- Nobody will ever give up the slot of the run. -/
structure World.Lost (w : World) (σ : Stage) (r : RunId) : Prop where
  unpolled : ¬ w.Polled (w.run r).host
  gone : (w.task (w.run r).host).isAlive = false ∨ σ = .busy (w.run r).host r .finished

/-- Slots belong to runs in progress, or to runs whose hosts never had a turn. -/
structure Slotted (w : World) (σ : Stage) : Prop where
  owner : ∀ i r, (w.interpreter i).slot = some r →
    (w.run r).interpreter = i ∧ .began r ∈ w.marks
  holder : ∀ r, w.InProgress σ r → (w.interpreter (w.run r).interpreter).slot = some r
  kept : ∀ i r, (w.interpreter i).slot = some r → w.InProgress σ r ∨ w.Lost σ r
  fresh : ∀ r, .began r ∈ w.marks → ¬ w.Polled (w.run r).host →
    (w.interpreter (w.run r).interpreter).slot = some r
  polled : ∀ r, w.InProgress σ r → (∀ s, (w.run r).phase ≠ .begun s) → w.Polled (w.run r).host
  begun : ∀ r s, (w.run r).phase = .begun s → w.Polled (w.run r).host →
    w.running = some (w.run r).host
  turn : ∀ t, w.running = some t → w.Polled t
  spawned : ∀ t, w.Polled t → t < w.tasks.size
  known : ∀ r, .began r ∈ w.marks → r < w.runs.size ∧ (w.run r).host < w.tasks.size
  status : ∀ i, (w.interpreter i).status = .running ↔ (w.interpreter i).slot.isSome = true

/-! ## What scripts do -/

namespace Slotted

variable {w w' : World} {σ : Stage}

/-- While nobody comes or goes, slots stay as they are. -/
theorem hushed (h : Slotted w σ) (s : Hushed w w') : Slotted w' σ := by
  have progress : ∀ r, w'.InProgress σ r ↔ w.InProgress σ r := fun r => by
    unfold World.InProgress
    rw [(s.run r).phase]
  have polled : ∀ t, w'.Polled t ↔ w.Polled t := fun t => s.mem_marks rfl
  have began : ∀ r, .began r ∈ w'.marks ↔ .began r ∈ w.marks := fun r => s.mem_marks rfl
  have host := fun r => (s.run r).host
  have interpreter := fun r => (s.run r).interpreter
  have slot := fun i => (s.interpreter i).slot
  constructor
  case owner =>
    intro i r hr
    rw [interpreter, began]
    exact h.owner i r (slot i ▸ hr)
  case holder =>
    intro r hr
    rw [interpreter, slot]
    exact h.holder r ((progress r).1 hr)
  case kept =>
    intro i r hr
    refine (h.kept i r (slot i ▸ hr)).imp (progress r).2 fun lost => ?_
    refine ⟨fun hp => lost.unpolled ?_, ?_⟩
    · rwa [host, polled] at hp
    · rw [host, (s.task _).isAlive]
      exact lost.gone
  case fresh =>
    intro r hr hp
    rw [interpreter, slot]
    rw [host, polled] at hp
    exact h.fresh r ((began r).1 hr) hp
  case polled =>
    intro r hr hb
    rw [host, polled]
    rw [(s.run r).phase] at hb
    exact h.polled r ((progress r).1 hr) hb
  case begun =>
    intro r st hr hp
    rw [(s.run r).phase] at hr
    rw [host, polled] at hp
    rw [host, s.running]
    exact h.begun r st hr hp
  case turn =>
    intro t ht
    rw [polled]
    exact h.turn t (s.running ▸ ht)
  case spawned => exact fun t ht => Nat.lt_of_lt_of_le (h.spawned t ((polled t).1 ht)) s.tasks
  case known =>
    intro r hr
    rw [host]
    obtain ⟨known, old⟩ := h.known r ((began r).1 hr)
    exact ⟨Nat.lt_of_lt_of_le known s.runs, Nat.lt_of_lt_of_le old s.tasks⟩
  case status =>
    intro i
    rw [slot, (s.interpreter i).status]
    exact h.status i

/-- A host that is gone stays so when another task comes. -/
theorem lost_spawn (h : Slotted w σ) {r : RunId} (began : .began r ∈ w.marks)
    (lost : w.Lost σ r) (x : Task) : (w.spawn x).Lost σ r := by
  have old := Nat.ne_of_lt (h.known r began).2
  refine ⟨lost.unpolled, ?_⟩
  have same : (w.spawn x).task (w.run r).host = w.task (w.run r).host := by
    simp [World.spawn, old]
  change ((w.spawn x).task (w.run r).host).isAlive = false ∨ _
  rw [same]
  exact lost.gone

theorem spawn (h : Slotted w σ) (x : Task) : Slotted (w.spawn x) σ := by
  have size := (Steady.spawn (w := w) x).tasks
  refine ⟨h.owner, h.holder, fun i r hr => ?_, h.fresh, h.polled, h.begun, h.turn, fun t ht => ?_,
    fun r hr => ?_, h.status⟩
  · exact (h.kept i r hr).imp id fun lost => h.lost_spawn (h.owner i r hr).2 lost x
  · exact Nat.lt_of_lt_of_le (h.spawned t ht) size
  · exact ⟨(h.known r hr).1, Nat.lt_of_lt_of_le (h.known r hr).2 size⟩

/-- A new run takes the slot of its interpreter. Its host has the turn, or has never had one. -/
theorem takeSlot (h : Slotted w σ) {i : InterpreterId} {t : TaskId} {s : State}
    (free : (w.interpreter i).slot = none) (old : t < w.tasks.size)
    (turn : w.Polled t → w.running = some t) : Slotted (w.takeSlot i t s) σ := by
  have new : (w.takeSlot i t s).run w.runs.size =
      { interpreter := i, host := t, phase := .begun s } := by
    simp [World.takeSlot, World.mark, World.log, World.modifyInterpreter]
  have run : ∀ r, r ≠ w.runs.size → (w.takeSlot i t s).run r = w.run r := fun r hr => by
    simp [World.takeSlot, World.mark, World.log, World.modifyInterpreter, hr]
  have slot : ((w.takeSlot i t s).interpreter i).slot = some w.runs.size ∧
      ((w.takeSlot i t s).interpreter i).status = .running := by
    simp [World.takeSlot, World.mark, World.log, World.modifyInterpreter]
  have other : ∀ j, j ≠ i → (w.takeSlot i t s).interpreter j = w.interpreter j := fun j hj => by
    simp [World.takeSlot, World.mark, World.log, World.modifyInterpreter, hj]
  have marks := w.marks_takeSlot i t s
  have polled : ∀ u, (w.takeSlot i t s).Polled u ↔ w.Polled u := fun u => by
    simp [World.Polled, marks]
  have began : ∀ r, .began r ∈ (w.takeSlot i t s).marks ↔ .began r ∈ w.marks ∨ r = w.runs.size :=
    fun r => by simp [marks]
  -- The runs that hold other slots are not the new one.
  have held : ∀ j r, (w.interpreter j).slot = some r → j ≠ i ∧ r ≠ w.runs.size := fun j r hr => by
    refine ⟨?_, Nat.ne_of_lt (h.known r (h.owner j r hr).2).1⟩
    rintro rfl
    rw [free] at hr
    cases hr
  have progress : ∀ r, r ≠ w.runs.size → ((w.takeSlot i t s).InProgress σ r ↔ w.InProgress σ r) :=
    fun r hr => by simp [World.InProgress, run r hr]
  constructor
  case owner =>
    intro j r hr
    by_cases hj : j = i
    · subst hj
      cases slot.1.symm.trans hr
      exact ⟨by rw [new], (began _).2 (.inr rfl)⟩
    · rw [other j hj] at hr
      have hr' := (held j r hr).2
      rw [run r hr', began]
      exact (h.owner j r hr).imp id .inl
  case holder =>
    intro r hr
    by_cases hr' : r = w.runs.size
    · subst hr'
      rw [new]
      exact slot.1
    · have holds := h.holder r ((progress r hr').1 hr)
      rw [run r hr', other _ (held _ r holds).1]
      exact holds
  case kept =>
    intro j r hr
    by_cases hj : j = i
    · subst hj
      cases slot.1.symm.trans hr
      exact .inl (.inl (by simp [new]))
    · rw [other j hj] at hr
      have hr' := (held j r hr).2
      refine (h.kept j r hr).imp (progress r hr').2 fun lost => ⟨fun hp => ?_, ?_⟩
      · rw [run r hr', polled] at hp
        exact lost.unpolled hp
      · rw [run r hr']
        exact lost.gone
  case fresh =>
    intro r hr hp
    by_cases hr' : r = w.runs.size
    · subst hr'
      rw [new]
      exact slot.1
    · rw [run r hr', polled] at hp
      have holds := h.fresh r (((began r).1 hr).resolve_right hr') hp
      rw [run r hr', other _ (held _ r holds).1]
      exact holds
  case polled =>
    intro r hr hb
    by_cases hr' : r = w.runs.size
    · subst hr'
      exact absurd (by rw [new]) (hb s)
    · rw [run r hr'] at hb ⊢
      exact (polled _).2 (h.polled r ((progress r hr').1 hr) hb)
  case begun =>
    intro r st hr hp
    by_cases hr' : r = w.runs.size
    · subst hr'
      rw [new] at hp ⊢
      exact turn ((polled t).1 hp)
    · rw [run r hr'] at hr hp ⊢
      exact h.begun r st hr ((polled _).1 hp)
  case turn => exact fun u hu => (polled u).2 (h.turn u hu)
  case spawned => exact fun u hu => h.spawned u ((polled u).1 hu)
  case known =>
    intro r hr
    have size := Nat.lt_of_lt_of_eq (Nat.lt_succ_self w.runs.size)
      (Table.size_push w.runs { interpreter := i, host := t, phase := .begun s }).symm
    by_cases hr' : r = w.runs.size
    · subst hr'
      rw [new]
      exact ⟨size, old⟩
    · rw [run r hr']
      have known := h.known r (((began r).1 hr).resolve_right hr')
      exact ⟨Nat.lt_trans known.1 size, known.2⟩
  case status =>
    intro j
    by_cases hj : j = i
    · subst hj
      simp [slot.1, slot.2]
    · rw [other j hj]
      exact h.status j

theorem stir (h : Slotted w σ) (b : Stir σ w w') : Slotted w' σ := by
  rcases b.hushed with hushed | ⟨x, -, rfl⟩ | ⟨i, s, free, rfl⟩
  · exact h.hushed hushed
  · exact h.spawn x
  · -- The new task is there before the new run, as far as the slots can tell.
    have spawned := h.spawn { job := .drive w.runs.size none }
    refine spawned.takeSlot (i := i) (t := w.tasks.size) (s := s) free ?_ fun hp => ?_
    · exact Nat.lt_of_lt_of_eq (Nat.lt_succ_self _) (Table.size_push ..).symm
    · exact absurd (h.spawned _ hp) (Nat.lt_irrefl _)

/-! ## What becomes of tasks -/

/-- The move of a run is over, and a task gets, keeps or gives up the turn. No run begins, and what
is not about turns stays as it is. -/
structure Yields (w : World) (σ : Stage) (w' : World) : Prop where
  runs : w.runs.size ≤ w'.runs.size
  run : ∀ r, (w.run r).Akin (w'.run r)
  tasks : w.tasks.size ≤ w'.tasks.size
  interpreter : ∀ i, (w.interpreter i).Akin (w'.interpreter i)
  began : ∀ r, .began r ∈ w'.marks ↔ .began r ∈ w.marks
  /-- The run of the move goes on, or has given up its slot. -/
  going : ∀ t r s, σ = .busy t r s → s = .finished ∨ (w.run r).phase ≠ .ended
  polled : ∀ t, w.Polled t → w'.Polled t
  new : ∀ t, w'.Polled t → w.Polled t ∨
    (σ = .rest ∧ (w.task t).isAlive = true ∧ w'.running = some t)
  turn : ∀ t, w'.running = some t → w'.Polled t
  /-- A run does not rest before it has departed. -/
  begun : ∀ r s, (w.run r).phase = .begun s → w.running = some (w.run r).host →
    w'.running = some (w.run r).host
  lost : ∀ r, w.Lost σ r → (w'.task (w.run r).host).isAlive = false

namespace Yields

/-- A run in progress stays so when a move ends. -/
theorem inProgress (y : Yields w σ w') (r : RunId) :
    w'.InProgress .rest r ↔ w.InProgress σ r := by
  constructor
  · rintro (going | ⟨t, s, hσ, -⟩)
    · exact .inl ((y.run r).phase ▸ going)
    · cases hσ
  · rintro (going | ⟨t, s, hσ, unfinished⟩)
    · exact .inl ((y.run r).phase ▸ going)
    · exact .inl ((y.run r).phase ▸ (y.going t r s hσ).resolve_left unfinished)

/-- A run that is lost stays so: its host does not get the turn any more. -/
theorem lost_rest (y : Yields w σ w') {r : RunId} (lost : w.Lost σ r) : w'.Lost .rest r := by
  have host := (y.run r).host
  refine ⟨fun polled => ?_, .inl (host ▸ y.lost r lost)⟩
  rw [host] at polled
  obtain old | ⟨rfl, alive, -⟩ := y.new _ polled
  · exact lost.unpolled old
  · rcases lost.gone with dead | hσ
    · cases alive.symm.trans dead
    · cases hσ

end Yields

/-- Once a move is over, slots stay as they are, whoever gets or gives up the turn. -/
theorem settle (h : Slotted w σ) (y : Yields w σ w') : Slotted w' .rest := by
  have host := fun r => (y.run r).host
  have slot := fun i => (y.interpreter i).slot
  constructor
  case owner =>
    intro i r hr
    rw [(y.run r).interpreter, y.began]
    exact h.owner i r (slot i ▸ hr)
  case holder =>
    intro r hr
    rw [(y.run r).interpreter, slot]
    exact h.holder r ((y.inProgress r).1 hr)
  case kept =>
    intro i r hr
    exact (h.kept i r (slot i ▸ hr)).imp (y.inProgress r).2 y.lost_rest
  case fresh =>
    intro r hr hp
    rw [(y.run r).interpreter, slot]
    rw [host] at hp
    exact h.fresh r ((y.began r).1 hr) fun hp' => hp (y.polled _ hp')
  case polled =>
    intro r hr hb
    rw [host]
    rw [(y.run r).phase] at hb
    exact y.polled _ (h.polled r ((y.inProgress r).1 hr) hb)
  case begun =>
    intro r s hr hp
    rw [(y.run r).phase] at hr
    rw [host] at hp ⊢
    obtain hp | ⟨-, -, hw⟩ := y.new _ hp
    · exact y.begun r s hr (h.begun r s hr hp)
    · exact hw
  case turn => exact y.turn
  case spawned =>
    intro t ht
    obtain hp | ⟨-, alive, -⟩ := y.new t ht
    · exact Nat.lt_of_lt_of_le (h.spawned t hp) y.tasks
    · exact Nat.lt_of_lt_of_le (World.lt_size_of_isAlive alive) y.tasks
  case known =>
    intro r hr
    rw [host]
    obtain ⟨known, old⟩ := h.known r ((y.began r).1 hr)
    exact ⟨Nat.lt_of_lt_of_le known y.runs, Nat.lt_of_lt_of_le old y.tasks⟩
  case status =>
    intro i
    rw [slot, (y.interpreter i).status]
    exact h.status i

/-- A host whose run has only just begun neither rests nor ends. -/
theorem host_ne_of_begun (sound : Sound w σ) {t : TaskId} {r : RunId} {s : State}
    (ease : σ = .rest ∧ (w.task t).job.run? = none ∨
      ∃ r, σ = .busy t r .finished ∨ σ = .busy t r .idle)
    (phase : (w.run r).phase = .begun s) : (w.run r).host ≠ t := by
  rintro rfl
  have hosts := sound.host r (by simp [phase])
  rcases ease with ⟨-, free⟩ | ⟨r', hσ | hσ⟩
  · have job := hosts.job
    rw [free] at job
    cases job
  · -- The run of a move that has finished is over.
    have finished := (sound.placed _ _ _ hσ).suits
    rw [(sound.busy _ _ _ hσ).inj hosts] at finished
    cases phase.symm.trans finished
  · -- A run that rests waits for something.
    have idle := (sound.placed _ _ _ hσ).suits
    rw [(sound.busy _ _ _ hσ).inj hosts] at idle
    change (w.run r).phase.isSuspended = true at idle
    rw [phase] at idle
    cases idle

/-- A task gets the turn. -/
theorem shift_turn (h : Slotted w .rest) (sound : Sound w .rest) {t : TaskId}
    (free : w.running = none) (ready : t ∈ w.queue) :
    Slotted { { w with queue := w.queue.erase t }.mark (.turn t) with running := some t } .rest := by
  have marks : ∀ m, m ∈ ({ w with queue := w.queue.erase t }.mark (.turn t)).marks ↔
      m ∈ w.marks ∨ m = .turn t := fun m => by simp
  refine h.settle {
    runs := Nat.le_refl _
    run := fun _ => .refl _
    tasks := Nat.le_refl _
    interpreter := fun _ => .refl _
    began := fun r => (marks _).trans (by simp)
    going := fun t r s hσ => by cases hσ
    polled := fun u hu => (marks _).2 (.inl hu)
    new := fun u hu => ?_
    turn := fun u hu => ?_
    begun := fun r s _ hr => ?_
    lost := fun r lost => lost.gone.resolve_right fun hσ => by cases hσ }
  · rcases (marks _).1 hu with hu | hu
    · exact .inl hu
    · cases hu
      exact .inr ⟨rfl, sound.ready t ready, rfl⟩
  · cases hu
    exact (marks _).2 (.inr rfl)
  · rw [free] at hr
    cases hr

/-- The task that has the turn rests. -/
theorem shift_park (h : Slotted w σ) (sound : Sound w σ) {t : TaskId} (turn : w.running = some t)
    (ease : σ = .rest ∧ (w.task t).job.run? = none ∨ ∃ r, σ = .busy t r .idle) :
    Slotted (w.park t) .rest := by
  obtain ⟨queue, -, parked⟩ := w.park_eq t
  have rested : Still w (w.modifyTask t fun x => { x with rewoken := false }) :=
    .modifyTask ⟨rfl, rfl, rfl, id, fun _ => id⟩
  have ease' : σ = .rest ∧ (w.task t).job.run? = none ∨
      ∃ r, σ = .busy t r .finished ∨ σ = .busy t r .idle :=
    ease.imp id fun ⟨r, hσ⟩ => ⟨r, .inr hσ⟩
  have going : ∀ u r s, σ = .busy u r s → s ≠ .finished ∧ (w.run r).phase ≠ .ended := by
    rintro u r s rfl
    rcases ease with ⟨hσ, -⟩ | ⟨r', hσ⟩
    · cases hσ
    · cases hσ
      have idle : (w.run r).phase.isSuspended = true := (sound.placed _ _ _ rfl).suits
      refine ⟨by simp, fun ended => ?_⟩
      rw [ended] at idle
      cases idle
  rw [parked]
  refine h.settle {
    runs := rested.runs
    run := rested.run
    tasks := rested.tasks
    interpreter := rested.interpreter
    began := fun _ => .rfl
    going := fun u r s hσ => .inr (going u r s hσ).2
    polled := fun _ => id
    new := fun _ => .inl
    turn := fun u hu => by cases hu
    begun := fun r s phase hr => ?_
    lost := fun r lost => (rested.task _).isAlive.trans (lost.gone.resolve_right fun hσ => ?_) }
  · exact absurd (Option.some.inj (turn.symm.trans hr)).symm (host_ne_of_begun sound ease' phase)
  · exact absurd rfl (going _ r _ hσ).1

/-- A task ends, in its own turn or in that of whoever drops it. -/
theorem shift_retire (h : Slotted w σ) (sound : Sound w σ) {t : TaskId} {fate : Fate}
    (ease : σ = .rest ∧ (w.task t).job.run? = none ∨ ∃ r, σ = .busy t r .finished)
    (retired : Retired w t fate w') : Slotted w' .rest := by
  have marks : ∀ m, m ∈ w'.marks ↔ m ∈ w.marks ∨ m = .ended t fate := fun m => by
    simp [retired.marks]
  have polled : ∀ u, w'.Polled u ↔ w.Polled u := fun u =>
    (marks _).trans (or_iff_left fun h => by cases h)
  have ease' : σ = .rest ∧ (w.task t).job.run? = none ∨
      ∃ r, σ = .busy t r .finished ∨ σ = .busy t r .idle :=
    ease.imp id fun ⟨r, hσ⟩ => ⟨r, .inl hσ⟩
  have finished : ∀ u r s, σ = .busy u r s → u = t ∧ s = .finished := by
    rintro u r s rfl
    rcases ease with ⟨hσ, -⟩ | ⟨r', hσ⟩ <;> cases hσ
    exact ⟨rfl, rfl⟩
  have gone : (w'.task t).isAlive = false := by simp [Task.isAlive, retired.ended]
  refine h.settle {
    runs := retired.runs
    run := fun r => retired.run r ▸ .refl _
    tasks := retired.tasks
    interpreter := retired.interpreter
    began := fun r => (marks _).trans (by simp)
    going := fun u r s hσ => .inl (finished u r s hσ).2
    polled := fun u => (polled u).2
    new := fun u hu => .inl ((polled u).1 hu)
    turn := fun u hu => ?_
    begun := fun r s phase hr => ?_
    lost := fun r lost => ?_ }
  · rw [retired.running] at hu
    split at hu
    · cases hu
    · exact (polled u).2 (h.turn u hu)
  · -- The task that ends is not the host of a run that has yet to depart.
    have other : w.running ≠ some t := fun ht =>
      host_ne_of_begun sound ease' phase (Option.some.inj (hr.symm.trans ht))
    rw [retired.running, if_neg other, hr]
  · by_cases here : (w.run r).host = t
    · exact here ▸ gone
    · rcases lost.gone with dead | hσ
      · exact (retired.task _ here).isAlive.trans dead
      · exact absurd (finished _ r _ hσ).1 here

/-- What becomes of tasks leaves slots in order. -/
theorem shift (h : Slotted w σ) (sound : Sound w σ) (b : Shift (w, σ) w') : Slotted w' .rest := by
  -- A job leaves everything about its task that slots depend on.
  have set (w : World) (t : TaskId) (job : Job) (u : TaskId) :
      ((w.setJob t job).task u).isAlive = (w.task u).isAlive := by
    simp only [World.setJob, World.task_modifyTask]
    split <;> rfl
  cases b with
  | turn free ready => exact h.shift_turn sound free ready
  | unqueue free =>
    exact h.settle {
      runs := Nat.le_refl _
      run := fun _ => .refl _
      tasks := Nat.le_refl _
      interpreter := fun _ => .refl _
      began := fun _ => .rfl
      going := fun t r s hσ => by cases hσ
      polled := fun _ => id
      new := fun _ => .inl
      turn := h.turn
      begun := fun _ _ _ => id
      lost := fun r lost => lost.gone.resolve_right fun hσ => by cases hσ }
  | park turn ease => exact h.shift_park sound turn ease
  | retire alive ease late chores => exact h.shift_retire sound ease (.of_chores chores)
  | @begin _ t job i s turn ease free drives =>
    have taken := h.takeSlot (s := s) free
      (World.lt_size_of_isAlive (sound.toQueued.turn t turn)) fun _ => turn
    exact taken.settle {
      runs := Nat.le_refl _
      run := fun _ => .refl _
      tasks := Table.size_le_modify ..
      interpreter := fun _ => .refl _
      began := fun _ => .rfl
      going := fun u r s hσ => by cases hσ
      polled := fun _ => id
      new := fun _ => .inl
      turn := taken.turn
      begun := fun _ _ _ => id
      lost := fun r lost =>
        (set _ t job _).trans (lost.gone.resolve_right fun hσ => by cases hσ) }
  | @resume _ t r job turn ease =>
    refine h.settle {
      runs := Nat.le_refl _
      run := fun _ => .refl _
      tasks := Table.size_le_modify ..
      interpreter := fun _ => .refl _
      began := fun _ => .rfl
      going := fun u r s hσ => .inl (by cases hσ; rfl)
      polled := fun _ => id
      new := fun _ => .inl
      turn := h.turn
      begun := fun _ _ _ => id
      lost := fun r lost => (set _ t job _).trans (lost.gone.resolve_right fun hσ => ?_) }
    -- The task that goes on to another job has the turn, so its run is not lost.
    cases hσ
    exact lost.unpolled (h.turn _ turn)

/-! ## Runs that go further -/

end Slotted

section

variable {w w' : World} {t : TaskId} {r : RunId} {σ σ' : Stage}

/-- A run gives up its slot at the very end. -/
structure World.Releases (w : World) (r : RunId) (status : Status) (w' : World) : Prop where
  departed : ∀ s, (w.run r).phase ≠ .begun s
  finished : status ≠ .running
  row : ∀ i, w'.interpreter i = if i = (w.run r).interpreter then
    { w.interpreter i with slot := none, status } else w.interpreter i

/-- A run that comes to its end gives up its slot, unless it is dropped before it did anything. -/
theorem Stride.finished (b : Stride t r (w, σ) (w', .busy t r .finished)) (staged : Staged w σ) :
    (∃ status, w.Releases r status w') ∨ (w.running ≠ some t ∧
      (∃ s, (w.run r).phase = .begun s) ∧ ∀ i, w'.interpreter i = w.interpreter i) := by
  have released (status : Status) (i : InterpreterId) :
      (w.release r status).interpreter i = if i = (w.run r).interpreter then
          { w.interpreter i with slot := none, status } else w.interpreter i :=
    World.interpreter_modifyInterpreter ..
  have returned (result : RunResult) : result.status ≠ .running := by
    rcases result with e | o
    · simp [RunResult.status]
    · cases o <;> simp [RunResult.status]
  -- Only a run that is dropped before it has departed ends without giving anything up.
  cases b with
  | halt _ phase | back phase =>
    exact .inl ⟨_, by simp [phase], returned _, released _⟩
  | done =>
    have departed := (staged.placed _ _ _ rfl).suits.ne_begun
    exact .inl ⟨_, departed, returned _, released _⟩
  | unwind =>
    have departed := (staged.placed _ _ _ rfl).suits.ne_begun
    exact .inl ⟨.stopped, departed, by simp, released _⟩
  | dropBegun _ _ free phase => exact .inr ⟨by simp [free], ⟨_, phase⟩, fun _ => rfl⟩
  | tear early => simp at early

/-- Until its end a run leaves interpreters as they are. -/
theorem Stride.interpreter (b : Stride t r (w, σ) (w', σ')) (h : σ' ≠ .busy t r .finished)
    (i : InterpreterId) : (w.interpreter i).Akin (w'.interpreter i) := by
  cases b with
  | halt | back | done | unwind | dropBegun => exact absurd rfl h
  | go => exact (Still.record w r _).interpreter i
  | @relax _ v => exact (Frame.abortWork w v).interpreter i
  | @dropWaiting _ _ v => exact (Frame.abortWork (w.setPhase r .ended) v).interpreter i
  | _ => exact .refl _

/-- A run that goes further was in progress. -/
theorem Stride.inProgress (b : Stride t r (w, σ) (w', σ')) : w.InProgress σ r := by
  cases b with
  | depart _ phase | tell _ phase | look _ phase | conclude _ phase | exit _ phase
  | quit _ phase | halt _ phase | back phase | dropBegun _ _ _ phase | dropArriving _ _ phase
  | dropWaiting _ _ _ phase | dropDraining _ _ _ phase => exact .inl (by simp [phase])
  | idle _ suspended =>
    refine .inl fun ended => ?_
    rw [ended] at suspended
    cases suspended
  | unwind ease =>
    refine .inr ⟨t, _, rfl, ?_⟩
    rintro rfl
    simp at ease
  | tear early =>
    refine .inr ⟨t, _, rfl, ?_⟩
    rintro rfl
    simp at early
  | _ => exact .inr ⟨t, _, rfl, by simp⟩

/-- A run that goes further brings no task back. -/
theorem Stride.dead (b : Stride t r (w, σ) (w', σ')) {u : TaskId} (old : u < w.tasks.size)
    (dead : (w.task u).isAlive = false) : (w'.task u).isAlive = false := by
  rcases b.calm with calm | ⟨v, k, x, -, -, rfl, -⟩
  · exact (calm.task u).isAlive.trans dead
  · rwa [World.task_spawnFor_of_lt old]

/-- A run that has just begun departs in its host's turn, or is dropped. -/
theorem Stride.departs (b : Stride t r (w, σ) (w', σ')) (staged : Staged w σ) {s : State}
    (phase : (w.run r).phase = .begun s) : w.running = some t ∨ σ' = .busy t r .finished := by
  rcases b.source with rfl | ⟨spot, rfl⟩
  · cases b with
    | dropBegun => exact .inr rfl
    | dropArriving _ _ phase' | dropWaiting _ _ _ phase' | dropDraining _ _ _ phase' =>
      cases phase.symm.trans phase'
    | depart drives | tell drives | look drives | idle drives | conclude drives | exit drives
    | quit drives | halt drives => exact .inl drives.turn
  · exact absurd phase ((staged.placed _ _ _ rfl).suits.ne_begun s)

/-- No stride makes a mark that a run begins or a task gets the turn. -/
theorem Stride.mem_marks_of_isAside (b : Stride t r (w, σ) (w', σ')) (staged : Staged w σ) {m : Mark}
    (aside : m.isAside = true) : m ∈ w'.marks ↔ m ∈ w.marks := by
  obtain ⟨news, marks, speaks⟩ := b.speaks staged
  rw [marks, List.mem_append]
  refine or_iff_left fun new => ?_
  have way := (speaks m new).way
  rw [aside] at way
  cases way

/-- Other runs are where they were. -/
theorem Stride.inProgress_of_ne (b : Stride t r (w, σ) (w', σ')) (staged : Staged w σ) {q : RunId}
    (ne : q ≠ r) : w'.InProgress σ' q ↔ w.InProgress σ q := by
  have busy : ∀ {σ : Stage}, (σ = .rest ∨ ∃ s, σ = .busy t r s) →
      ¬ ∃ u s, σ = .busy u q s ∧ s ≠ .finished := by
    rintro σ hσ ⟨u, s, rfl, -⟩
    rcases hσ with hσ | ⟨_, hσ⟩
    · cases hσ
    · cases hσ
      exact ne rfl
  have target : σ' = .rest ∨ ∃ s, σ' = .busy t r s := (b.target staged).imp_left (·.1)
  unfold World.InProgress
  rw [b.onward.run q ne, or_iff_left (busy b.source), or_iff_left (busy target)]

end

namespace Slotted

variable {w w' : World} {t : TaskId} {r : RunId} {σ σ' : Stage}

/-- Another run that is lost stays so. -/
theorem lost_of_ne (h : Slotted w σ) (staged : Staged w σ) (b : Stride t r (w, σ) (w', σ'))
    {q : RunId} (ne : q ≠ r) (began : .began q ∈ w.marks) (lost : w.Lost σ q) : w'.Lost σ' q := by
  have host : (w'.run q).host = (w.run q).host := congrArg Run.host (b.onward.run q ne)
  refine ⟨fun polled => lost.unpolled ?_, .inl ?_⟩
  · rw [host] at polled
    exact (b.mem_marks_of_isAside staged rfl).1 polled
  · rw [host]
    rcases lost.gone with dead | hσ
    · exact b.dead (h.known q began).2 dead
    · -- The move is that of another run.
      rcases b.source with rest | ⟨s, busy⟩
      · cases rest.symm.trans hσ
      · cases busy.symm.trans hσ
        exact absurd rfl ne

/-- The run of a stride keeps its slot, or gives it up at its end. -/
theorem keeps_or_releases (h : Slotted w σ) (sound : Sound w σ)
    (b : Stride t r (w, σ) (w', σ')) :
    ((∀ i, (w.interpreter i).Akin (w'.interpreter i)) ∧
      (w'.InProgress σ' r ∨ w'.Lost σ' r)) ∨
    (σ' = .busy t r .finished ∧ ∃ status, w.Releases r status w') := by
  have hosts := b.hosts sound.toQueued sound.toHosted
  have host : (w'.run r).host = (w.run r).host := b.onward.host
  by_cases hσ : σ' = .busy t r .finished
  · subst hσ
    rcases b.finished sound.toStaged with released | ⟨late, ⟨s, phase⟩, same⟩
    · exact .inr ⟨rfl, released⟩
    · -- A run that is dropped before its host had a turn keeps its slot for good.
      refine .inl ⟨fun i => same i ▸ .refl _, .inr ⟨fun polled => late ?_, .inr ?_⟩⟩
      · rw [host] at polled
        exact hosts.host ▸ h.begun r s phase ((b.mem_marks_of_isAside sound.toStaged rfl).1 polled)
      · rw [host, hosts.host]
  · refine .inl ⟨b.interpreter hσ, .inl ?_⟩
    rcases b.target sound.toStaged with ⟨-, going, -⟩ | ⟨s, rfl⟩
    · exact .inl going
    · exact .inr ⟨t, s, rfl, fun hs => hσ (hs ▸ rfl)⟩

/-- A stride leaves slots in order. -/
theorem stride (h : Slotted w σ) (sound : Sound w σ) (b : Stride t r (w, σ) (w', σ')) :
    Slotted w' σ' := by
  -- Only the run of the stride changes, so for every other one there is nothing to show but that
  -- nobody touches its slot.
  have o := b.onward
  have before := b.inProgress
  have polled : ∀ u, w'.Polled u ↔ w.Polled u := fun u => b.mem_marks_of_isAside sound.toStaged rfl
  have began : ∀ q, .began q ∈ w'.marks ↔ .began q ∈ w.marks := fun q =>
    b.mem_marks_of_isAside sound.toStaged rfl
  have host : ∀ q, (w'.run q).host = (w.run q).host := fun q => by
    by_cases hq : q = r
    · exact hq ▸ o.host
    · rw [o.run q hq]
  have interpreter : ∀ q, (w'.run q).interpreter = (w.run q).interpreter := fun q => by
    by_cases hq : q = r
    · exact hq ▸ o.interpreter
    · rw [o.run q hq]
  have sound' := sound.beat (.stride b)
  have ended (hσ : σ' = .busy t r .finished) : ¬ w'.InProgress σ' r := by
    subst hσ
    rintro (going | ⟨u, s, hs, ne⟩)
    · exact going (sound'.placed _ _ _ rfl).suits
    · cases hs
      exact ne rfl
  have progress (q : RunId) (ne : q ≠ r) := b.inProgress_of_ne sound.toStaged ne
  -- Either the interpreters stay as they are, or the run of the stride gives up its slot.
  have rows := h.keeps_or_releases sound b
  have slots : ∀ i q, (w'.interpreter i).slot = some q → (w.interpreter i).slot = some q := by
    intro i q hq
    rcases rows with ⟨akin, -⟩ | ⟨-, status, released⟩
    · exact (akin i).slot ▸ hq
    · rw [released.row] at hq
      split at hq
      · cases hq
      · exact hq
  have keeps : ∀ i q, (w.interpreter i).slot = some q → q ≠ r →
      (w'.interpreter i).slot = some q := by
    intro i q hq ne
    rcases rows with ⟨akin, -⟩ | ⟨-, status, released⟩
    · exact (akin i).slot.trans hq
    · rw [released.row]
      split
      · next hi =>
        subst hi
        exact absurd (Option.some.inj (hq.symm.trans (h.holder r before))) ne
      · exact hq
  have status : ∀ i, (w'.interpreter i).status = .running ↔
      (w'.interpreter i).slot.isSome = true := by
    intro i
    rcases rows with ⟨akin, -⟩ | ⟨-, status, released⟩
    · rw [(akin i).slot, (akin i).status]
      exact h.status i
    · rw [released.row]
      split
      · simp [released.finished]
      · exact h.status i
  constructor
  case owner =>
    intro i q hq
    rw [interpreter, began]
    exact h.owner i q (slots i q hq)
  case holder =>
    intro q hq
    rw [interpreter]
    by_cases ne : q = r
    · subst ne
      rcases rows with ⟨akin, -⟩ | ⟨finished, -⟩
      · exact (akin _).slot.trans (h.holder q before)
      · exact absurd hq (ended finished)
    · exact keeps _ q (h.holder q ((progress q ne).1 hq)) ne
  case kept =>
    intro i q hq
    by_cases ne : q = r
    · subst ne
      rcases rows with ⟨-, last⟩ | ⟨finished, status, released⟩
      · exact last
      · have own := (h.owner i q (slots i q hq)).1
        rw [released.row, if_pos own.symm] at hq
        cases hq
    · have own := h.owner i q (slots i q hq)
      exact (h.kept i q (slots i q hq)).imp (progress q ne).2
        (h.lost_of_ne sound.toStaged b ne own.2)
  case fresh =>
    intro q hb hp
    rw [host, polled] at hp
    rw [interpreter]
    have holds := h.fresh q ((began q).1 hb) hp
    by_cases ne : q = r
    · subst ne
      rcases rows with ⟨akin, -⟩ | ⟨-, status, released⟩
      · exact (akin _).slot.trans holds
      · exact absurd (h.polled q before released.departed) hp
    · exact keeps _ q holds ne
  case polled =>
    intro q hq hb
    rw [host, polled]
    by_cases ne : q = r
    · subst ne
      by_cases begun : ∃ s, (w.run q).phase = .begun s
      · -- The run departs just now, so its host has the turn.
        obtain ⟨s, begun⟩ := begun
        rcases b.departs sound.toStaged begun with turn | finished
        · exact (b.hosts sound.toQueued sound.toHosted).host ▸ h.turn t turn
        · exact absurd hq (ended finished)
      · exact h.polled q before fun s hs => begun ⟨s, hs⟩
    · refine h.polled q ((progress q ne).1 hq) ?_
      rwa [o.run q ne] at hb
  case begun =>
    intro q s hs hp
    by_cases ne : q = r
    · -- No run begins anew.
      subst ne
      rcases b.target sound.toStaged with ⟨-, -, departed⟩ | ⟨spot, rfl⟩
      · exact absurd hs (departed s)
      · exact absurd hs ((sound'.placed _ _ _ rfl).suits.ne_begun s)
    · rw [o.run q ne] at hs hp ⊢
      rw [polled] at hp
      rw [b.running]
      exact h.begun q s hs hp
  case turn =>
    intro u hu
    rw [polled]
    exact h.turn u (b.running ▸ hu)
  case spawned => exact fun u hu => Nat.lt_of_lt_of_le (h.spawned u ((polled u).1 hu)) b.tasks
  case known =>
    intro q hb
    rw [host]
    obtain ⟨known, old⟩ := h.known q ((began q).1 hb)
    exact ⟨Nat.lt_of_lt_of_le known o.runs, Nat.lt_of_lt_of_le old b.tasks⟩
  case status => exact status

/-- Every beat leaves slots in order. -/
theorem beat (h : Slotted w σ) (sound : Sound w σ) (b : Beat (w, σ) (w', σ')) :
    Slotted w' σ' := by
  cases b with
  | stir b => exact h.stir b
  | shift b => exact h.shift sound b
  | stride b => exact h.stride sound b

/-- Nobody holds a slot before anything has happened. -/
theorem opening (s : Scenario) : Slotted s.opening .rest := by
  have blank : ∀ i, (s.opening.interpreter i).slot = none ∧
      (s.opening.interpreter i).status = .idle := by
    intro i
    simp only [Scenario.opening, World.interpreter_mk, Table.get, Array.getD_eq_getD_getElem?,
      Array.getElem?_replicate]
    split <;> exact ⟨rfl, rfl⟩
  have idle : ∀ r, ¬ s.opening.InProgress .rest r := by
    rintro r (going | ⟨t, s, hσ, -⟩)
    · exact going rfl
    · cases hσ
  constructor
  case owner =>
    intro i r hr
    rw [(blank i).1] at hr
    cases hr
  case holder => exact fun r hr => absurd hr (idle r)
  case kept =>
    intro i r hr
    rw [(blank i).1] at hr
    cases hr
  case fresh =>
    intro r hr
    cases hr
  case polled => exact fun r hr => absurd hr (idle r)
  case begun =>
    intro r s hr
    cases hr
  case turn =>
    intro t ht
    cases ht
  case spawned =>
    intro t ht
    cases ht
  case known =>
    intro r hr
    cases hr
  case status =>
    intro i
    simp [blank i]

end Slotted

theorem Scenario.Reaches.slotted {s : Scenario} {w : World} (h : s.Reaches w) :
    Slotted w .rest :=
  h.invariant (Slotted.opening s) fun sound slotted beat => slotted.beat sound beat

/-! ## Interpreters that nobody runs -/

namespace World

/-- No task drives a run of the interpreter. -/
def Deserted (w : World) (i : InterpreterId) : Prop :=
  ∀ t r, (w.task t).isAlive = true → (w.task t).job.run? = some r → (w.run r).interpreter ≠ i

instance (w : World) (i : InterpreterId) : Decidable (w.Deserted i) :=
  decidable_of_iff (∀ t < w.tasks.size, ∀ r ∈ (w.task t).job.run?,
    (w.task t).isAlive = true → (w.run r).interpreter ≠ i)
    ⟨fun h t r alive job => h t (lt_size_of_isAlive alive) r job alive,
      fun h t _ r job alive => h t r alive job⟩

/-- The interpreter shows no run, and whoever runs or starts it is not told that it runs. -/
structure IsFree (w : World) (i : InterpreterId) : Prop where
  isRunning : (w.interpreter i).isRunning = false
  status : (w.interpreter i).status ≠ .running
  run : ∀ t id, w.begin i t ≠ .error (.alreadyRunning id)
  start : ∀ id, w.startInBackground i ≠ .error (.alreadyRunning id)

theorem startState_ne (m : Machine) (id : String) :
    m.startState ≠ .error (.alreadyRunning id) := by
  unfold Machine.startState
  split
  · simp
  · split <;> simp

/-- An interpreter is free as soon as its slot is. -/
theorem isFree_iff {w : World} {σ : Stage} (h : Slotted w σ) (i : InterpreterId) :
    w.IsFree i ↔ (w.interpreter i).slot = none := by
  constructor
  · intro free
    simpa [Interpreter.isRunning] using free.isRunning
  · intro slot
    -- With a free slot, a start fails on account of the machine alone.
    have run (t : TaskId) (id : String) : w.begin i t ≠ .error (.alreadyRunning id) := by
      intro rejected
      simp only [begin, Interpreter.startState, slot, Option.isSome_none] at rejected
      refine startState_ne (w.interpreter i).machine id ?_
      cases start : (w.interpreter i).machine.startState with
      | ok s => simp [start, Except.map] at rejected
      | error e => simpa [start, Except.map] using rejected
    refine ⟨?_, fun running => ?_, run, fun id rejected => ?_⟩
    · simp [Interpreter.isRunning, slot]
    · rw [h.status, slot] at running
      cases running
    · refine run w.tasks.size id ?_
      simp only [startInBackground] at rejected
      cases begun : w.begin i w.tasks.size with
      | ok y => simp [begun, Except.map] at rejected
      | error e => simpa [begun, Except.map] using rejected

end World

/-- An interpreter that nobody runs any more is free if and only if the hosts of all its runs have
had a turn. A run that is started in the background and aborted before its first turn leaves the
interpreter taken for good. -/
theorem Scenario.free_iff_polled {s : Scenario} {w : World} {i : InterpreterId} (h : s.Reaches w)
    (deserted : w.Deserted i) :
    w.IsFree i ↔ ∀ r, .began r ∈ w.marks → (w.run r).interpreter = i →
      w.Polled (w.run r).host := by
  have slotted := h.slotted
  rw [World.isFree_iff slotted]
  constructor
  · intro slot r began own
    refine Classical.not_not.1 fun unpolled => ?_
    have holds := slotted.fresh r began unpolled
    rw [own, slot] at holds
    cases holds
  · intro all
    cases slot : (w.interpreter i).slot with
    | none => rfl
    | some r =>
      obtain ⟨own, began⟩ := slotted.owner i r slot
      rcases slotted.kept i r slot with (going | ⟨t, s, hσ, -⟩) | lost
      · -- The host of a run in progress drives it still.
        have hosts := h.sound.host r going
        exact absurd own (deserted _ r hosts.alive hosts.job)
      · cases hσ
      · exact absurd (all r began own) lost.unpolled

/-- A run is started in the background, aborted before its first turn, and waited for. -/
def Scenario.abortedStart : Scenario where
  machine := ⟨"m", "M", "a", some [.new "a"]⟩
  interpreters := 1
  limit := none
  observers := []
  steps := [.start 0, .abort 0, .join 0 1000]

theorem Scenario.abortedStart_not_free :
    (abortedStart.play 8).Deserted 0 ∧ ¬ (abortedStart.play 8).IsFree 0 := by
  have deserted : (abortedStart.play 8).Deserted 0 := by decide +kernel
  refine ⟨deserted, fun free => ?_⟩
  have polled := (free_iff_polled (abortedStart.reaches_play 8) deserted).1 free 0
    (by decide +kernel) (by decide +kernel)
  revert polled
  decide +kernel

/-- Not every interpreter that nobody runs any more is free. -/
theorem Scenario.exists_deserted_not_free :
    ¬ ∀ (s : Scenario) (w : World) (i : InterpreterId),
      s.Reaches w → w.Deserted i → w.IsFree i := by
  intro all
  have free := all abortedStart _ 0 (abortedStart.reaches_play 8) (by decide +kernel)
  have taken : ((abortedStart.play 8).interpreter 0).isRunning = true := by decide +kernel
  rw [free.isRunning] at taken
  cases taken

end Statechart
