import Statechart.Proofs.Callbacks

/-!
# Nothing is slept through

A run that waits on a visit either has its turn before it, or has nothing to see: no event has
been accepted, and whoever could raise one, or give up the last clone of the callback, will wake
the host.

## Main definitions

- `World.Attends`: there is no event, and news of the inbox wake the host.
- `Awake`: hosts of runs that wait are up, or attend to their visits, or were aborted.

## Main statements

- `Awake.beat`: every beat keeps hosts awake.
- `Awake.isUp`: a host is up as soon as an event has been accepted.
-/

namespace Statechart

/-! ## Definitions -/

/-- No event has been accepted on a visit, and while one can be, news of the inbox wake the host
of its run. -/
structure World.Attends (w : World) (v : VisitId) : Prop where
  inbox : (w.visit v).inbox = none
  listens : w.isHeld v = true → (w.visit v).listening = true

/-- Hosts of runs that wait are up, or attend to their visits, or were aborted; and a host that is
about to rest attends. -/
structure Awake (w : World) (σ : Stage) : Prop where
  waits : ∀ r v, (w.run r).phase = .waiting v →
    (w.task (w.run r).host).aborted = true ∨ w.IsUp (w.run r).host ∨ w.Attends v
  idle : ∀ t r v, σ = .busy t r .idle → (w.run r).phase = .waiting v → w.Attends v

section

variable {w w' : World} {σ σ' : Stage} {t u : TaskId} {r q : RunId} {v : VisitId}

/-- A visit is attended to still, unless there has been news of its inbox. -/
theorem World.Attends.mono {P : Prop} (h : w.Attends v)
    (inbox : (w'.visit v).inbox = (w.visit v).inbox)
    (held : w'.isHeld v = true → w.isHeld v = true)
    (news : (w.visit v).listening = true → (w'.visit v).listening = true ∨ P) :
    w'.Attends v ∨ P := by
  by_cases hv : w'.isHeld v = true
  · refine (news (h.listens (held hv))).imp_left fun listens => ?_
    exact ⟨inbox.trans h.inbox, fun _ => listens⟩
  · exact .inl ⟨inbox.trans h.inbox, fun hv' => absurd hv' hv⟩

theorem World.Attends.of_eq (h : w.Attends v)
    (inbox : (w'.visit v).inbox = (w.visit v).inbox)
    (listening : (w'.visit v).listening = (w.visit v).listening)
    (held : w'.isHeld v = true → w.isHeld v = true) : w'.Attends v :=
  ⟨inbox.trans h.inbox, fun hv => listening.trans (h.listens (held hv))⟩

/-! ## Stirs -/

theorem Stir.isUp (b : Stir σ w w') (h : w.IsUp t) : w'.IsUp t := by
  rcases b.hushed with hushed | ⟨x, -, rfl⟩ | ⟨i, s, -, rfl⟩
  · exact hushed.isUp h
  · exact h.imp id fun ht => List.mem_append_left _ ht
  · exact h.imp id fun ht => List.mem_append_left _ ht

/-- The work of a visit that is waited for is set up already. -/
theorem Staged.not_lent (h : Staged w σ) (phase : (w.run r).phase = .waiting v) :
    σ.lent? ≠ some v := by
  intro lent
  unfold Stage.lent? at lent
  split at lent
  · cases lent
    have placed := h.placed _ _ _ rfl
    have own := h.waits r v (congrArg Phase.visit? phase)
    have suits : (w.run (w.visit v).run).phase.isArriving = true :=
      (placed.own v rfl).run ▸ placed.suits
    rw [own.run, phase] at suits
    cases suits
  · cases lent

/-- An event that is accepted wakes the host, if it attends to the visit. -/
theorem World.Attends.accept (h : w.Attends v) (d : Decision) (held : w.isHeld v = true) :
    (w.task (w.runOf v).host).isAlive = false ∨ (w.accept v d).IsUp (w.runOf v).host := by
  have listening : ((w.commit v d).visit v).listening = true := by
    simpa [World.commit, World.visit_modifyVisit] using h.listens held
  have host : ((w.commit v d).runOf v).host = (w.runOf v).host := by
    simp [World.commit, World.runOf, World.modifyVisit]
  have woken : (w.commit v d).notifyInbox v =
      ((w.commit v d).modifyVisit v fun x => { x with listening := false }).wake
        (w.runOf v).host := by
    unfold World.notifyInbox
    rw [if_pos listening, host]
  have up := (Frame.wake ((w.commit v d).modifyVisit v fun x => { x with listening := false })
    (w.runOf v).host).2
  rw [← woken] at up
  exact up.imp_right (w.isUp_accept v d _).2

/-- What scripts do leaves a visit attended to, or else the host of its run is up. -/
theorem Stir.attends (b : Stir σ w w') (staged : Staged w σ) (hosts : w.Hosts u r)
    (phase : (w.run r).phase = .waiting v) (h : w.Attends v) : w'.Attends v ∨ w'.IsUp u := by
  -- No script has the callback of the visit at hand that the run waits for, but through a clone.
  have free := staged.not_lent phase
  have held (hv : w'.isHeld v = true) : w.isHeld v = true := (b.isHeld hv).resolve_right free
  have runOf : (w.runOf v).host = u := by
    unfold World.runOf
    rw [(staged.waits r v (congrArg Phase.visit? phase)).run, hosts.host]
  have alive {P : Prop} (hu : (w.task (w.runOf v).host).isAlive = false ∨ P) : P := by
    rw [runOf, hosts.alive] at hu
    exact hu.resolve_left (by simp)
  cases b with
  | chore c =>
    refine h.mono (c.frame.inbox v) held fun listens => ?_
    refine (c.frame.news v listens).imp_right fun up => ?_
    exact runOf ▸ alive up
  | refuse | ask | cancel | limit | keep | spawn | start => exact .inl (h.of_eq rfl rfl held)
  | miss n =>
    exact .inl (h.of_eq (World.data_modifyVisit Visit.inbox rfl v)
      (World.data_modifyVisit Visit.listening rfl v) held)
  | accept n d use =>
    by_cases hn : n = v
    · subst hn
      have up := h.accept d (use.resolve_right free)
      exact .inr (runOf ▸ alive up)
    · -- The news are of another visit, and this one hears of them as of any chore.
      obtain ⟨tasks, visits, -, -, -⟩ := w.accept_eq n d
      have told := Frame.notify (w.commit n d) n
      have same : (w.commit n d).visit v = w.visit v := by
        simp [World.commit, World.visit_modifyVisit, Ne.symm hn]
      have host : (w.commit n d).runOf v = w.runOf v := by
        unfold World.runOf
        rw [same]
        rfl
      have visit : (w.accept n d).visit v = ((w.commit n d).notifyInbox n).visit v := by
        unfold World.visit
        rw [visits]
      refine h.mono ?_ held fun listens => ?_
      · rw [visit, told.inbox v, same]
      · have news := told.news v (same ▸ listens)
        rw [host] at news
        rw [visit, w.isUp_accept, ← runOf]
        exact news.imp_right alive

/-- What scripts do leaves a visit attended to while the host is about to rest. -/
theorem Stir.attends_of_idle (b : Stir σ w w') (idle : σ.isIdle = true) (free : σ.lent? ≠ some v)
    (h : w.Attends v) : w'.Attends v := by
  have held (hv : w'.isHeld v = true) : w.isHeld v = true := (b.isHeld hv).resolve_right free
  cases b with
  | chore c seen =>
    have same : w'.visit v = w.visit v := by
      unfold World.visit
      rw [seen idle]
    exact h.of_eq (congrArg Visit.inbox same) (congrArg Visit.listening same) held
  | refuse | ask | cancel | limit | keep | spawn | start => exact h.of_eq rfl rfl held
  | miss n =>
    exact h.of_eq (World.data_modifyVisit Visit.inbox rfl v)
      (World.data_modifyVisit Visit.listening rfl v) held
  | accept n d use eyes =>
    rw [idle] at eyes
    cases eyes

/-- A run that waits has waited before what scripts did, or what became of tasks. -/
theorem Steady.waiting (s : Steady w w') (phase : (w'.run r).phase = .waiting v) :
    (w.run r).phase = .waiting v ∧ (w'.run r).host = (w.run r).host := by
  by_cases known : r < w.runs.size
  · have akin := s.run r known
    exact ⟨akin.phase.symm.trans phase, akin.host⟩
  · rcases s.fresh r (Nat.not_lt.1 known) with ended | ⟨i, begun⟩
    · cases phase.symm.trans ended
    · cases phase.symm.trans begun

/-! ## What becomes of tasks -/

theorem Awake.stir (h : Awake w σ) (sound : Sound w σ) (b : Stir σ w w') : Awake w' σ := by
  constructor
  · intro r v phase
    obtain ⟨phase, host⟩ := b.steady.waiting phase
    have hosts := sound.host r (by simp [phase])
    rw [host]
    rcases h.waits r v phase with aborted | up | attends
    · exact .inl ((b.akin hosts.alive).aborted aborted)
    · exact .inr (.inl (b.isUp up))
    · exact .inr (b.attends sound.toStaged hosts phase attends).symm
  · intro t r v hσ phase
    obtain ⟨phase, -⟩ := b.steady.waiting phase
    have idle : σ.isIdle = true := by
      rw [hσ]
      rfl
    exact b.attends_of_idle idle (sound.not_lent phase) (h.idle t r v hσ phase)

/-- The host of a run that goes on is not the task that comes to rest or ends, unless its run has
found nothing to do. -/
theorem Sound.host_ne (sound : Sound w σ) (hosts : w.Hosts u r) (going : (w.run r).phase ≠ .ended)
    (ease : σ = .rest ∧ (w.task t).job.run? = none ∨ ∃ q, σ = .busy t q .finished) : u ≠ t := by
  rintro rfl
  rcases ease with ⟨-, free⟩ | ⟨q, hσ⟩
  · have job := hosts.job
    rw [free] at job
    cases job
  · have same := (sound.busy _ _ _ hσ).inj hosts
    exact going (same ▸ (sound.placed _ _ _ hσ).suits)

/-- A host stays up when others come to rest, end or take their turns. -/
theorem Shift.isUp (b : Shift (w, σ) w') (sound : Sound w σ) (hosts : w.Hosts u r)
    (going : (w.run r).phase ≠ .ended) (h : w.IsUp u) :
    (w'.task u).aborted = true ∨ w'.IsUp u ∨ σ = .busy u r .idle := by
  cases b with
  | @turn _ t free =>
    -- Nobody has the turn, so the host is in line.
    have ready := h.resolve_left (by simp [free])
    by_cases ht : u = t
    · exact .inr (.inl (.inl (ht ▸ rfl)))
    · exact .inr (.inl (.inr ((List.mem_erase_of_ne ht).2 ready)))
  | @unqueue _ t free aborted =>
    have ready := h.resolve_left (by simp [free])
    by_cases ht : u = t
    · exact .inl (ht ▸ aborted)
    · exact .inr (.inl (.inr ((List.mem_erase_of_ne ht).2 ready)))
  | @park _ _ t turn ease =>
    by_cases ht : u = t
    -- A host only rests in a move of its own run.
    · subst ht
      rcases ease with free | ⟨q, hσ⟩
      · exact absurd rfl (sound.host_ne hosts going (.inl free))
      · have same := (sound.busy _ _ _ hσ).inj hosts
        exact .inr (.inr (same ▸ hσ))
    · obtain ⟨queue, listed, parked⟩ := w.park_eq t
      -- Another task had the turn, so the host is in line.
      have ready : u ∈ w.queue := by
        rcases h with running | ready
        · rw [turn] at running
          cases running
          exact absurd rfl ht
        · exact ready
      refine .inr (.inl (.inr ?_))
      rw [parked]
      rcases listed with rfl | ⟨-, rfl⟩
      · exact ready
      · exact List.mem_append_left _ ready
  | @retire _ w₁ _ t fate alive ease late chores =>
    have retired := Retired.of_chores chores
    -- A host ends only when its run is over.
    have ht := sound.host_ne hosts going ease
    refine .inr (.inl ?_)
    rcases h with running | ready
    · refine .inl ?_
      rw [retired.running, running, if_neg]
      simpa using ht
    · exact .inr (retired.queue u ready ht)
  | begin | resume => exact .inr (.inl h)

/-- What becomes of tasks leaves a visit attended to, or else the host of its run is up. -/
theorem Shift.attends (b : Shift (w, σ) w') (sound : Sound w σ) (hosts : w.Hosts u r)
    (phase : (w.run r).phase = .waiting v) (h : w.Attends v) : w'.Attends v ∨ w'.IsUp u := by
  have held : w'.isHeld v = true → w.isHeld v = true := b.isHeld
  cases b with
  | turn | unqueue | begin | resume => exact .inl (h.of_eq rfl rfl held)
  | @park _ _ t =>
    obtain ⟨queue, -, parked⟩ := w.park_eq t
    rw [parked] at held ⊢
    exact .inl (h.of_eq rfl rfl held)
  | @retire _ w₁ _ t fate alive ease late chores =>
    have retired := Retired.of_chores chores
    have host : (w.runOf v).host = u := by
      unfold World.runOf
      rw [(sound.waits r v (congrArg Phase.visit? phase)).run, hosts.host]
    refine h.mono (retired.inbox v) held fun listens => ?_
    have news := retired.news v listens
    rw [host, hosts.alive] at news
    rcases news with listens | same | dead | up
    · exact .inl listens
    · exact absurd same (sound.host_ne hosts (by simp [phase]) ease)
    · cases dead
    · exact .inr up

theorem Shift.aborted (b : Shift (w, σ) w') (sound : Sound w σ) (hosts : w.Hosts u r)
    (going : (w.run r).phase ≠ .ended) (h : (w.task u).aborted = true) :
    (w'.task u).aborted = true := by
  cases b with
  | turn | unqueue => exact h
  | @park _ _ t =>
    obtain ⟨queue, -, parked⟩ := w.park_eq t
    rw [parked]
    simp only [World.modifyTask, World.task_mk, Table.get_modify]
    split
    · exact h
    · exact h
  | retire alive ease late chores =>
    have ht := sound.host_ne hosts going ease
    exact ((Retired.of_chores chores).task u ht).aborted h
  | begin | resume =>
    simp only [World.setJob, World.task_modifyTask]
    split
    · exact h
    · exact h

theorem Awake.shift (h : Awake w σ) (sound : Sound w σ) (b : Shift (w, σ) w') :
    Awake w' .rest := by
  refine ⟨fun r v phase => ?_, fun t r v hσ => by cases hσ⟩
  obtain ⟨phase, host⟩ := b.steady.waiting phase
  have going : (w.run r).phase ≠ .ended := by simp [phase]
  have hosts := sound.host r going
  rw [host]
  rcases h.waits r v phase with aborted | up | attends
  · exact .inl (b.aborted sound hosts going aborted)
  · rcases b.isUp sound hosts going up with aborted | up | idle
    · exact .inl aborted
    · exact .inr (.inl up)
    · -- The host comes to rest, and attends from now on.
      exact .inr (b.attends sound hosts phase (h.idle _ r v idle phase)).symm
  · exact .inr (b.attends sound hosts phase attends).symm

/-! ## Runs that go further -/

/-- A run that begins to wait, or goes on waiting in its own move, has its turn. -/
theorem Stride.turn (b : Stride t r (w, σ) (w', σ')) (staged : Staged w σ)
    (phase : (w'.run r).phase = .waiting v) : w.running = some t := by
  have onTurn {s : Spot} (hσ : σ = .busy t r s) (hs : s.isOnTurn = true) :
      w.running = some t := (staged.placed t r s hσ).turn hs
  cases b with
  | depart drives | tell drives | look drives | idle drives | conclude drives | exit drives
  | quit drives | halt drives => exact drives.turn
  | visit | act | arrive | pass | ready | launch | crew | wait | forsake | relax | close | hear
  | toll | go | announce | back | done | shut => exact onTurn rfl rfl
  | tear early =>
    rcases early with rfl | rfl
    · exact onTurn rfl rfl
    · rcases (staged.placed _ _ _ rfl).suits with suits | suits
      · rw [show (w.run r).phase = .waiting v from phase] at suits
        cases suits
      · cases phase.symm.trans suits
  | unwind => cases phase.symm.trans (World.phase_release ..)
  | tend | tended =>
    rcases (staged.placed _ _ _ rfl).suits with suits | suits
    · rw [show (w.run r).phase = .waiting v from phase] at suits
      cases suits
    · cases phase.symm.trans suits
  | dropBegun | dropArriving => cases phase.symm.trans (World.phase_setPhase ..)
  | dropWaiting =>
    rw [World.run_closeVisit, World.run_abortWork, World.phase_setPhase] at phase
    cases phase
  | dropDraining => cases phase.symm.trans (World.phase_setPhase w r _)

/-- A visit of another run is attended to still, or else the host of that run is up. -/
theorem Stride.attends (b : Stride t r (w, σ) (w', σ')) (staged : Staged w σ)
    (alive : (w.task (w.runOf v).host).isAlive = true) (own : w.Owns q v) (other : q ≠ r)
    (h : w.Attends v) : w'.Attends v ∨ w'.IsUp (w.runOf v).host := by
  have held (hv : w'.isHeld v = true) : w.isHeld v = true := by
    refine (b.isHeld hv).resolve_right ?_
    rintro ⟨k, rfl⟩
    exact other (own.run.symm.trans ((staged.placed _ _ _ rfl).own v rfl).run)
  -- That a visit is closed is no news of its inbox.
  have closed (w : World) (u : VisitId) :
      ((w.closeVisit u).visit v).inbox = (w.visit v).inbox ∧
        ((w.closeVisit u).visit v).listening = (w.visit v).listening :=
    ⟨World.data_modifyVisit Visit.inbox rfl v, World.data_modifyVisit Visit.listening rfl v⟩
  cases b with
  | @visit _ s =>
    have old : (w.pushVisit r s).visit v = w.visit v := by
      simp [World.pushVisit, World.trace, World.mark, World.log, Nat.ne_of_lt own.known]
    exact .inl (h.of_eq (congrArg Visit.inbox old) (congrArg Visit.listening old) held)
  | @crew _ u =>
    exact .inl (h.of_eq (World.data_modifyVisit Visit.inbox rfl v)
      (World.data_modifyVisit Visit.listening rfl v) held)
  | @look _ u drives phase =>
    have hu : v ≠ u := by
      rintro rfl
      exact other (own.run.symm.trans (staged.waits r v (congrArg Phase.visit? phase)).run)
    have old : (w.modifyVisit u fun x => { x with listening := w.isHeld u }).visit v =
        w.visit v := by
      rw [World.visit_modifyVisit, if_neg hu]
    exact .inl (h.of_eq (congrArg Visit.inbox old) (congrArg Visit.listening old) held)
  | @tear _ u =>
    exact .inl (h.of_eq (World.data_modifyVisit Visit.inbox rfl v)
      (World.data_modifyVisit Visit.listening rfl v) held)
  | forsake | close | quit | shut =>
    obtain ⟨inbox, listening⟩ := closed w _
    exact .inl (h.of_eq inbox listening held)
  -- Tasks that are told to go may be news of another visit, or bring up its host.
  | @relax _ u =>
    have frame := Frame.abortWork w u
    refine h.mono (frame.inbox v) held fun listens => ?_
    refine (frame.news v listens).imp_right fun up => ?_
    rw [alive] at up
    exact up.resolve_left (by simp)
  | @dropWaiting _ _ u =>
    have frame := Frame.abortWork (w.setPhase r .ended) u
    obtain ⟨inbox, listening⟩ := closed ((w.setPhase r .ended).abortWork u) u
    have host : (w.setPhase r .ended).runOf v = w.runOf v := by
      unfold World.runOf
      rw [← (Onward.setPhase w r .ended).run _ (own.run ▸ other)]
      rfl
    refine h.mono (inbox.trans (frame.inbox v)) held fun listens => ?_
    rw [listening]
    have news := frame.news v listens
    rw [host] at news
    refine news.imp_right fun up => ?_
    change (w.task _).isAlive = false ∨ _ at up
    rw [alive] at up
    exact up.resolve_left (by simp)
  | dropDraining =>
    obtain ⟨inbox, listening⟩ := closed (w.setPhase r .ended) _
    exact .inl (h.of_eq inbox listening held)
  | _ => exact .inl (h.of_eq rfl rfl held)

/-- A host that is about to rest attends to its visit. -/
theorem Stride.rests (b : Stride t r (w, σ) (w', σ')) (hσ : σ' = .busy t r .idle)
    (phase : (w'.run r).phase = .waiting v) : w'.Attends v := by
  cases b with
  | idle drives suspended blank =>
    obtain ⟨inbox, listening⟩ := blank v phase
    exact ⟨inbox, fun held => listening.trans held⟩
  | tear early =>
    cases hσ
    rcases early with early | early <;> cases early
  | _ => cases hσ

theorem Awake.stride (h : Awake w σ) (sound : Sound w σ) (b : Stride t r (w, σ) (w', σ')) :
    Awake w' σ' := by
  have o := b.onward
  have hosts := b.hosts sound.toQueued sound.toHosted
  constructor
  · intro q v phase
    -- The host of the run that goes further has the turn; for other runs little has changed.
    by_cases mine : q = r
    · subst mine
      have turn := b.running.trans (b.turn sound.toStaged phase)
      rw [o.host, hosts.host]
      exact .inr (.inl (.inl turn))
    · rw [o.run q mine] at phase ⊢
      have hosts := sound.host q (by simp [phase])
      have own := sound.waits q v (congrArg Phase.visit? phase)
      have host : (w.runOf v).host = (w.run q).host := by
        unfold World.runOf
        rw [own.run]
      rcases h.waits q v phase with aborted | up | attends
      · refine .inl ?_
        rcases b.calm with calm | ⟨u, k, x, -, -, rfl, -⟩
        · exact (calm.task _).aborted aborted
        · rwa [World.task_spawnFor_of_lt (World.lt_size_of_isAlive hosts.alive)]
      · refine .inr (.inl ?_)
        rcases b.calm with calm | ⟨u, k, x, -, -, rfl, -⟩
        · exact calm.isUp up
        · exact up.imp id fun ready => List.mem_append_left _ ready
      · rw [← host] at hosts ⊢
        exact .inr (b.attends sound.toStaged hosts.alive own mine attends).symm
  · intro t' q v hσ phase
    rcases b.target sound.toStaged with ⟨rest, -⟩ | ⟨s, busy⟩
    · cases rest.symm.trans hσ
    · cases busy.symm.trans hσ
      exact b.rests hσ phase

theorem Awake.beat (h : Awake w σ) (sound : Sound w σ) (b : Beat (w, σ) (w', σ')) :
    Awake w' σ' := by
  cases b with
  | stir b => exact h.stir sound b
  | shift b => exact h.shift sound b
  | stride b => exact h.stride sound b

end

namespace Scenario

theorem awake_opening (s : Scenario) : Awake s.opening .rest where
  waits r v phase := by cases phase
  idle t r v hσ := by cases hσ

theorem Reaches.awake {s : Scenario} {w : World} (h : s.Reaches w) : Awake w .rest :=
  h.invariant s.awake_opening fun sound awake beat => awake.beat sound beat

end Scenario

/-- The host of a run that waits is up as soon as an event has been accepted, unless the host was
aborted. -/
theorem Awake.isUp {w : World} {r : RunId} {v : VisitId} {d : Decision} (h : Awake w .rest)
    (phase : (w.run r).phase = .waiting v) (news : (w.visit v).inbox = some d)
    (whole : (w.task (w.run r).host).aborted = false) : w.IsUp (w.run r).host := by
  rcases h.waits r v phase with aborted | up | attends
  · rw [whole] at aborted
    cases aborted
  · exact up
  · rw [attends.inbox] at news
    cases news

end Statechart
