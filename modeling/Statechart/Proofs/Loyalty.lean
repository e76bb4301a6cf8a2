import Statechart.Proofs.Crew

/-!
# Tasks stay with their visits

A task that works for a visit does so while the run waits on the visit, and not afterwards: when a
visit is left, in whatever way, its tasks are told to go, and whoever was told to go has no turn
any more.

## Main definitions

- `Stage.employs?`: the visit whose tasks have not been told to go by the move under way.
- `Loyal`: tasks that have not been told to go work for visits that are waited for.

## Main statements

- `Stride.dismisses`: a run that stops waiting for a visit dismisses its tasks.
- `Loyal.beat`: every beat keeps tasks loyal.
-/

namespace Statechart

/-! ## Definitions -/

/-- The visit whose work a place in a move sets up, or has not called off yet. -/
def Spot.employs? : Spot → Option VisitId
  | .launching v _ | .acting v .cleanup _ => some v
  | _ => none

/-- The visit whose work the move under way sets up, or has not called off yet. -/
def Stage.employs? : Stage → Option VisitId
  | .busy _ _ s => s.employs?
  | .rest => none

namespace World

/-- The tasks of a visit are to go on: the run waits for the visit, or is about to. -/
def Employs (w : World) (σ : Stage) (v : VisitId) : Prop :=
  (w.runOf v).phase = .waiting v ∨ σ.employs? = some v

/-- A task works for a visit, and has not been told to go. -/
structure Serves (w : World) (t : TaskId) (v : VisitId) : Prop where
  home : (w.task t).home = some v
  alive : (w.task t).isAlive = true
  whole : (w.task t).aborted = false

end World

/-- Tasks that have not been told to go work for visits that are waited for, and nobody else has a
turn while a run is taken further. -/
structure Loyal (w : World) (σ : Stage) : Prop where
  whole : ∀ t v, w.Serves t v → w.Employs σ v
  turn : ∀ t v, w.running = some t → (w.task t).home = some v → (w.runOf v).phase = .waiting v
  host : ∀ t r s, σ = .busy t r s → w.running = some t ∨ w.running = none

/-! ## Tasks that were told to go -/

section

variable {w w' : World} {σ σ' : Stage} {t : TaskId} {v : VisitId}

/-- Whoever was told to go stays so. -/
theorem Beat.aborted_of_known (b : Beat (w, σ) (w', σ')) (known : t < w.tasks.size)
    (alive : (w'.task t).isAlive = true) (aborted : (w.task t).aborted = true) :
    (w'.task t).aborted = true := by
  -- New tasks come after those that are known.
  have old {w₁ : World} {x : Task} (tasks : w₁.tasks = w.tasks) :
      (w₁.spawn x).task t = w.task t := by
    unfold World.task World.spawn
    rw [tasks, Table.get_push, if_neg (Nat.ne_of_lt known)]
  cases b with
  | stir b =>
    rcases b.hushed with still | ⟨x, -, rfl⟩ | ⟨i, s, -, rfl⟩
    · exact (still.task t).aborted aborted
    · exact (old rfl).symm ▸ aborted
    · have same : (w.startNew i s).task t = w.task t := old rfl
      exact same.symm ▸ aborted
  | shift b =>
    cases b with
    | turn | unqueue => exact aborted
    | @park _ _ u =>
      obtain ⟨queue, -, parked⟩ := w.park_eq u
      rw [parked]
      simp only [World.modifyTask, World.task_mk, Table.get_modify]
      split <;> exact aborted
    -- The task that ends is another one, since this one is alive.
    | @retire _ w₁ _ u fate _ ease late chores =>
      have retired := Retired.of_chores chores
      refine (retired.task t ?_).aborted aborted
      rintro rfl
      unfold Task.isAlive at alive
      rw [retired.ended] at alive
      cases alive
    | begin | resume =>
      simp only [World.setJob, World.task_modifyTask]
      split <;> exact aborted
  | stride b =>
    rcases b.calm with calm | ⟨u, k, x, -, -, rfl, -⟩
    · exact (calm.task t).aborted aborted
    · have same : (w.spawnFor u x).task t = w.task t := old rfl
      exact same.symm ▸ aborted

theorem Beat.aborted (b : Beat (w, σ) (w', σ')) (home : (w.task t).home = some v)
    (alive : (w'.task t).isAlive = true) (aborted : (w.task t).aborted = true) :
    (w'.task t).aborted = true := by
  refine b.aborted_of_known (Nat.lt_of_not_le fun new => ?_) alive aborted
  cases (World.home_of_size_le new).symm.trans home

/-- Whoever gets a turn was ready, and was not told to go. -/
theorem Beat.turn (b : Beat (w, σ) (w', σ')) (turn : w'.running = some t) :
    w.running = some t ∨ t ∈ w.queue ∧ (w.task t).aborted = false := by
  cases b with
  | stir b => exact .inl (b.running ▸ turn)
  | stride b => exact .inl (b.running ▸ turn)
  | shift b =>
    cases b with
    | turn free ready whole =>
      cases turn
      exact .inr ⟨ready, whole⟩
    | unqueue | begin | resume => exact .inl turn
    | @park _ _ u =>
      obtain ⟨queue, -, parked⟩ := w.park_eq u
      rw [parked] at turn
      cases turn
    | retire alive ease late chores =>
      rw [(Retired.of_chores chores).running] at turn
      split at turn
      · cases turn
      · exact .inl turn

/-- Nobody comes to serve a visit. -/
theorem Beat.serves (b : Beat (w, σ) (w', σ')) (home : (w.task t).home = some v)
    (serves : w'.Serves t v) : w.Serves t v := by
  refine ⟨home, b.alive home serves.alive, ?_⟩
  rw [← Bool.not_eq_true]
  intro aborted
  cases serves.whole.symm.trans (b.aborted home serves.alive aborted)

end

/-! ## Runs that go further -/

section

variable {w w' : World} {σ σ' : Stage} {t u : TaskId} {r : RunId} {v : VisitId}

/-- While a run is taken further, nobody has the turn but its host. -/
theorem Stride.free (b : Stride t r (w, σ) (w', σ')) (h : Loyal w σ) :
    w.running = some t ∨ w.running = none := by
  rcases b.source with rfl | ⟨s, rfl⟩
  · cases b with
    | depart drives | tell drives | look drives | idle drives | conclude drives | exit drives
    | quit drives | halt drives => exact .inl drives.turn
    | dropBegun _ _ free | dropArriving _ _ _ free => exact .inr free
    | dropWaiting _ _ _ _ turn | dropDraining _ _ _ _ turn => exact turn.symm
  · exact h.host t r s rfl

/-- A run goes on employing the tasks of a visit, or dismisses them. -/
theorem Stride.dismisses (b : Stride t r (w, σ) (w', σ')) (staged : Staged w σ)
    (own : w.Owns r v) (h : w.Employs σ v) : w'.Employs σ' v ∨ w'.Dismissed v := by
  have owner := (b.onward.owner v own.known).trans own.run
  have isRun : w.runOf v = w.run r := congrArg w.run own.run
  have isRun' : w'.runOf v = w'.run r := congrArg w'.run owner
  rw [World.Employs, isRun] at h
  rw [World.Employs, isRun']
  -- A run that is elsewhere employs nobody, and one in a move employs whom its place says.
  have idle {P : Prop} (hσ : σ.employs? = none) (phase : (w.run r).phase ≠ .waiting v) : P := by
    rw [hσ] at h
    exact absurd (h.resolve_right (by simp)) phase
  have busy {s : Spot} (hσ : σ = .busy t r s) (moves : s ≠ .idle) : s.employs? = some v := by
    subst hσ
    refine h.resolve_left fun waits => moves (Spot.Suits.eq_idle (v := v) ?_)
    exact waits ▸ (staged.placed t r s rfl).suits
  have closed {w : World} {u : VisitId} (dismissed : w.Dismissed v) :
      (w.closeVisit u).Dismissed v := by
    intro x hx alive
    refine dismissed x ?_ alive
    revert hx
    simp only [World.closeVisit, World.mark, World.log, World.modifyVisit, World.visit_mk,
      Table.get_modify]
    split <;> exact id
  cases b with
  | depart _ phase | tell _ phase | halt _ phase | exit _ phase | quit _ phase
  | dropBegun _ _ _ phase | dropArriving _ _ phase =>
    exact idle rfl (by simp [phase])
  | hear | visit | arrive | pass | ready | close | go | announce | toll | back | done | tend
  | tended => cases busy rfl (by simp)
  | @act _ u phrase k =>
    cases phrase with
    | cleanup => exact .inl h
    | enter | exit => cases busy rfl (by simp)
  | launch | crew | tear | look | idle => exact .inl h
  -- From now on the run waits for the visit.
  | wait =>
    cases busy rfl (by simp)
    exact .inl (.inl (w.phase_setPhase r _))
  -- A set-up that breaks off, a wait that is over and a run that is dropped tell the tasks to go.
  | forsake dismissed =>
    cases busy rfl (by simp)
    exact .inr (closed dismissed)
  -- The wait is over, and the move that begins has the tasks to call off.
  | @conclude _ u e drives phase =>
    have hu := h.resolve_right (by simp [Stage.employs?])
    cases phase.symm.trans hu
    exact .inl (.inr rfl)
  | relax =>
    cases busy rfl (by simp)
    exact .inr (w.dismissed_abortWork _)
  | @shut _ u phrase k panics dismissed =>
    cases phrase with
    | enter | exit => cases busy rfl (by simp)
    | cleanup =>
      cases busy rfl (by simp)
      exact .inr (closed (dismissed rfl))
  | unwind ease =>
    rcases ease with ⟨s, c, rest, rfl⟩ | ⟨rest, rfl⟩ | rfl <;> cases busy rfl (by simp)
  | @dropWaiting _ _ u alive job ease phase =>
    have hu : (w.run r).phase = .waiting v := by
      refine h.resolve_right ?_
      rcases ease with rfl | rfl <;> simp [Stage.employs?, Spot.employs?]
    cases phase.symm.trans hu
    exact .inr (closed (World.dismissed_abortWork _ _))
  | dropDraining alive job ease phase =>
    refine idle ?_ (by simp [phase])
    rcases ease with rfl | rfl <;> rfl

end

/-! ## Loyalty -/

namespace Loyal

variable {w w' : World} {σ σ' : Stage} {t : TaskId} {r : RunId}

/-- Visits are waited for as before, and nobody comes to serve them. -/
theorem steady (h : Loyal w σ) (crewed : Crewed w σ) (s : Steady w w')
    (serves : ∀ t v, w'.Serves t v → w.Serves t v)
    (home : ∀ t v, w'.running = some t → (w'.task t).home = some v →
      w.running = some t ∧ (w.task t).home = some v ∨ w.Employs .rest v ∧ (w.task t).home = some v)
    (employs : σ'.employs? = σ.employs?)
    (host : ∀ t r s, σ' = .busy t r s → w'.running = some t ∨ w'.running = none) :
    Loyal w' σ' := by
  have phase (t : TaskId) (v : VisitId) (hv : (w.task t).home = some v) :
      (w'.runOf v).phase = (w.runOf v).phase := by
    have begun := (crewed.home t v hv).2.1
    unfold World.runOf
    rw [s.owner v]
    exact (s.run _ begun).phase
  refine ⟨fun t v serves' => ?_, fun t v turn hv => ?_, host⟩
  · have before := serves t v serves'
    rw [World.Employs, phase t v before.home, employs]
    exact h.whole t v before
  · rcases home t v turn hv with ⟨turn, hv⟩ | ⟨waits, hv⟩
    · rw [phase t v hv]
      exact h.turn t v turn hv
    · rw [phase t v hv]
      exact waits.resolve_right (by simp [Stage.employs?])

theorem stir (h : Loyal w σ) (crewed : Crewed w σ) (b : Stir σ w w') : Loyal w' σ := by
  have running := b.running
  refine h.steady crewed b.steady (fun t v serves => ?_) (fun t v turn hv => ?_) rfl
    fun t r s hσ => running ▸ h.host t r s hσ
  · exact (Beat.stir b).serves (b.crews.home t ▸ serves.home) serves
  · exact .inl ⟨running ▸ turn, b.crews.home t ▸ hv⟩

theorem shift (h : Loyal w σ) (queued : Queued w) (crewed : Crewed w σ)
    (b : Shift (w, σ) w') : Loyal w' .rest := by
  have crews := b.crews
  have home (t : TaskId) (v : VisitId) (hv : (w'.task t).home = some v) :
      (w.task t).home = some v := crews.home t ▸ hv
  have idle : σ.employs? = none := by
    cases b with
    | turn | unqueue | begin | resume => rfl
    | park _ ease | retire _ ease =>
      rcases ease with ⟨rfl, -⟩ | ⟨r, rfl⟩ <;> rfl
  refine h.steady crewed b.steady (fun t v serves => ?_) (fun t v turn hv => ?_) idle.symm
    fun t r s hσ => by cases hσ
  · exact (Beat.shift b).serves (home t v serves.home) serves
  · have hv' := home t v hv
    rcases (Beat.shift b).turn turn with old | ⟨ready, whole⟩
    · exact .inl ⟨old, hv'⟩
    -- Whoever gets the turn was not told to go, so its visit is waited for.
    · have employs := h.whole t v ⟨hv', queued.ready t ready, whole⟩
      rw [World.Employs, idle] at employs
      exact .inr ⟨.inl (employs.resolve_right nofun), hv'⟩

theorem stride (h : Loyal w σ) (sound : Sound w σ) (crewed : Crewed w σ)
    (b : Stride t r (w, σ) (w', σ')) : Loyal w' σ' := by
  have o := b.onward
  have crewed' := crewed.stride sound b
  have hosts := b.hosts sound.toQueued sound.toHosted
  have free := b.free h
  have running := b.running
  -- The host does not work for a visit of its own run.
  have apart (u : TaskId) (v : VisitId) (turn : w.running = some u)
      (hv : (w.task u).home = some v) : (w.visit v).run ≠ r := by
    intro own
    have same : u = t := by
      rcases free with free | free
      · exact Option.some.inj (turn.symm.trans free)
      · cases turn.symm.trans free
    subst same
    exact crewed.apart u v r hv hosts.alive hosts.job own
  refine ⟨fun u v serves => ?_, fun u v turn hv => ?_, fun u q s hσ => ?_⟩
  · rcases (Beat.stride b).came serves.home with hv | ⟨n, q, k, rfl, rfl⟩
    · have employs := h.whole u v ((Beat.stride b).serves hv serves)
      have known := (crewed.home u v hv).1
      -- If the visit is one of the run that goes further, its tasks are employed on or dismissed,
      -- and whoever is dismissed does not serve any more; other runs stay where they are.
      by_cases own : (w.visit v).run = r
      · rcases b.dismisses sound.toStaged ⟨own, known⟩ employs with employs | dismissed
        · exact employs
        · have listed := crewed'.working u v serves.home serves.alive
          have aborted := dismissed u listed serves.alive
          rw [serves.whole] at aborted
          cases aborted
      · have same : (w'.runOf v).phase = (w.runOf v).phase := by
          unfold World.runOf
          rw [o.owner v known, o.run _ own]
        refine .inl (same.trans (employs.resolve_right fun hσ => own ?_))
        -- What the move under way employs belongs to the run that goes further.
        rcases b.source with rfl | ⟨s, rfl⟩
        · cases hσ
        · refine ((sound.placed t r s rfl).own v ?_).run
          revert hσ
          simp only [Stage.employs?, Spot.employs?, Spot.visit?]
          split <;> simp
    · exact .inr rfl
  · rw [running] at turn
    have there := World.lt_size_of_isAlive (sound.turn _ turn)
    have hv : (w.task u).home = some v := by
      rcases b.crews with crews | ⟨n, k, x, -, -, rfl, -⟩
      · exact crews.home u ▸ hv
      · rwa [World.task_spawnFor_of_lt there] at hv
    have known := (crewed.home u v hv).1
    have other := apart u v turn hv
    have same : (w'.runOf v).phase = (w.runOf v).phase := by
      unfold World.runOf
      rw [o.owner v known, o.run _ other]
    exact same.trans (h.turn u v turn hv)
  · have : u = t := by
      rcases b.target sound.toStaged with ⟨rfl, -⟩ | ⟨s', rfl⟩
      · cases hσ
      · cases hσ
        rfl
    rw [running, this]
    exact free

theorem beat (h : Loyal w σ) (sound : Sound w σ) (crewed : Crewed w σ)
    (b : Beat (w, σ) (w', σ')) : Loyal w' σ' := by
  cases b with
  | stir b => exact h.stir crewed b
  | shift b => exact h.shift sound.toQueued crewed b
  | stride b => exact h.stride sound crewed b

theorem opening (s : Scenario) : Loyal s.opening .rest where
  whole t v serves := by cases serves.home
  turn t v turn := by cases turn
  host t r s hσ := by cases hσ

end Loyal

end Statechart
