import Statechart.Proofs.Records

/-!
# Cleanup, exactly once

A visit whose enter actions are done runs its cleanup once and in order, however it ends: by an
event, by settling, by a stop, by a panic in its work or while the work is set up, at once if its
state is transient, or because its run is dropped while it waits. A visit whose enter actions were
not done runs none of it.

## Main definitions

- `World.cleanups`: the cleanup actions of a visit that have begun, in order.
- `World.IsOpen`: a run waits for an event on a visit.
- `World.due`: how many cleanup actions of a visit should have begun.
- `Tidy`: that many have.

## Main statements

- `Scenario.Reaches.tidy`: visits are tidy in every world that a scenario comes to.
- `Scenario.cleanup_once`: the cleanup of a visit runs exactly once.
-/

namespace Statechart

/-! ## Definitions -/

/-- The cleanup action of a visit that a mark announces. -/
def Mark.cleanup? (v : VisitId) : Mark → Option Nat
  | .acted u .cleanup k => if u = v then some k else none
  | _ => none

/-- The visit on which a phase waits for an event. -/
def Phase.open? : Phase → Option VisitId
  | .waiting v => some v
  | _ => none

/-- The visit that a place in a move has to clean up, with the number of actions begun. -/
def Spot.tends? : Spot → Option (VisitId × Nat)
  | .acting v .cleanup k | .forsaken v k => some (v, k)
  | .arrived v | .launching v _ => some (v, 0)
  | _ => none

/-- The visit that the move under way has to clean up. -/
def Stage.tends? : Stage → Option (VisitId × Nat)
  | .busy _ _ s => s.tends?
  | .rest => none

namespace World

/-- The cleanup actions of a visit that have begun, in order. -/
def cleanups (w : World) (v : VisitId) : List Nat :=
  w.marks.filterMap (Mark.cleanup? v)

/-- The enter actions of a visit are done. -/
def HasArrived (w : World) (v : VisitId) : Prop :=
  .arrived v ∈ w.marks

/-- The run of a visit waits for an event on it. -/
def IsOpen (w : World) (v : VisitId) : Prop :=
  (w.runOf v).phase.open? = some v

instance (w : World) (v : VisitId) : Decidable (w.HasArrived v) :=
  inferInstanceAs (Decidable (_ ∈ _))

instance (w : World) (v : VisitId) : Decidable (w.IsOpen v) :=
  inferInstanceAs (Decidable (_ = _))

/-- How many cleanup actions of a visit should have begun while no move cleans it up. -/
def share (w : World) (v : VisitId) : Nat :=
  if w.IsOpen v then 0 else (w.visit v).state.cleanup.actions.length

/-- How many cleanup actions of a visit should have begun. -/
def due (w : World) (σ : Stage) (v : VisitId) : Nat :=
  match σ.tends? with
  | some (u, k) => if u = v then k else w.share v
  | none => w.share v

end World

/-- As many cleanup actions have begun as should have. -/
structure Tidy (w : World) (σ : Stage) : Prop where
  early : ∀ v, ¬ w.HasArrived v → w.cleanups v = []
  count : ∀ v, w.HasArrived v → ¬ (w.visit v).state.cleanup.Panics →
    w.cleanups v = List.range (w.due σ v)
  isOpen : ∀ v, w.IsOpen v → w.HasArrived v
  tends : ∀ v k, σ.tends? = some (v, k) → w.HasArrived v
  entering : ∀ t r v k, σ = .busy t r (.acting v .enter k) → ¬ w.HasArrived v

/-! ## What a beat does to the cleanup of a visit -/

section

variable {w w' : World} {σ σ' : Stage} {r : RunId} {u v : VisitId} {k : Nat}

namespace World

theorem due_of_ne (h : ∀ k, σ.tends? ≠ some (v, k)) : w.due σ v = w.share v := by
  unfold due
  split
  · next u k hσ =>
    have other : u ≠ v := fun hu => h k (hu ▸ hσ)
    rw [if_neg other]
  · rfl

theorem due_of_eq (h : σ.tends? = some (v, k)) : w.due σ v = k := by
  simp [due, h]

theorem isOpen_iff (own : (w.visit v).run = r) :
    w.IsOpen v ↔ (w.run r).phase.open? = some v := by
  unfold IsOpen runOf
  rw [own]

theorem share_of_isOpen (h : w.IsOpen v) : w.share v = 0 :=
  if_pos h

theorem share_of_not_isOpen (h : ¬ w.IsOpen v) :
    w.share v = (w.visit v).state.cleanup.actions.length :=
  if_neg h

/-- A visit has its share still if it is what it was, and is waited for as it was. -/
theorem share_congr (state : (w'.visit v).state = (w.visit v).state)
    (isOpen : w'.IsOpen v ↔ w.IsOpen v) : w'.share v = w.share v := by
  unfold share
  simp only [state, isOpen]

/-- Marks that neither announce a cleanup action nor say that the visit has arrived. -/
theorem cleanups_append {news : List Mark} (marks : w'.marks = w.marks ++ news)
    (h : ∀ m ∈ news, m.cleanup? v = none ∧ m ≠ .arrived v) :
    w'.cleanups v = w.cleanups v ∧ (w'.HasArrived v ↔ w.HasArrived v) := by
  constructor
  · have none : news.filterMap (Mark.cleanup? v) = [] :=
      List.filterMap_eq_nil_iff.2 fun m hm => (h m hm).1
    simp [cleanups, marks, none]
  · have new : .arrived v ∉ news := fun hm => (h _ hm).2 rfl
    simp [HasArrived, marks, new]

end World

/-- What a visit has to do with a beat, as far as its cleanup goes: nothing, or the next action
begins, or the visit arrives. -/
inductive Effect (w : World) (σ : Stage) (w' : World) (σ' : Stage) (v : VisitId) : Prop where
  | still (due : w'.due σ' v = w.due σ v) (cleanups : w'.cleanups v = w.cleanups v)
      (arrived : w'.HasArrived v ↔ w.HasArrived v)
  | next (due : w'.due σ' v = w.due σ v + 1)
      (cleanups : w'.cleanups v = w.cleanups v ++ [w.due σ v])
      (arrived : w'.HasArrived v) (before : w.HasArrived v)
  | arrive (due : w'.due σ' v = 0) (cleanups : w'.cleanups v = w.cleanups v)
      (arrived : w'.HasArrived v) (before : ¬ w.HasArrived v)
  | panic (panics : (w.visit v).state.cleanup.Panics) (arrived : w'.HasArrived v)

namespace Effect

theorem tends?_none (h : σ.tends? = .none) : ∀ j, σ.tends? ≠ some (v, j) := by
  simp [h]

theorem tends?_ne (hu : u ≠ v) : ∀ j, some (u, k) ≠ some (v, j) := by
  intro j h
  cases h
  exact hu rfl

variable (share : (∀ j, σ.tends? ≠ some (v, j)) → (∀ j, σ'.tends? ≠ some (v, j)) →
  w'.share v = w.share v)

include share

/-- The move is about another visit, if it is about any. -/
theorem apart (hσ : ∀ j, σ.tends? ≠ some (v, j)) (hσ' : ∀ j, σ'.tends? ≠ some (v, j))
    {news : List Mark} (marks : w'.marks = w.marks ++ news)
    (h : ∀ m ∈ news, m.cleanup? v = none ∧ m ≠ .arrived v) : Effect w σ w' σ' v := by
  obtain ⟨cleanups, arrived⟩ := World.cleanups_append marks h
  refine .still ?_ cleanups arrived
  rw [World.due_of_ne hσ, World.due_of_ne hσ', share hσ hσ']

/-- The move goes on, and no cleanup action begins. -/
theorem goes (hσ : σ.tends? = some (u, k)) (hσ' : σ'.tends? = some (u, k))
    {news : List Mark} (marks : w'.marks = w.marks ++ news)
    (h : ∀ m ∈ news, m.cleanup? v = none ∧ m ≠ .arrived v) : Effect w σ w' σ' v := by
  by_cases hu : u = v
  · subst hu
    obtain ⟨cleanups, arrived⟩ := World.cleanups_append marks h
    refine .still ?_ cleanups arrived
    rw [World.due_of_eq hσ, World.due_of_eq hσ']
  · apply apart share _ _ marks h
    · exact hσ ▸ tends?_ne hu
    · exact hσ' ▸ tends?_ne hu

/-- The next cleanup action of a visit that has arrived begins. -/
theorem begins (hσ : σ.tends? = some (u, k)) (hσ' : σ'.tends? = some (u, k + 1))
    (before : w.HasArrived u) (marks : w'.marks = w.marks ++ [.acted u .cleanup k]) :
    Effect w σ w' σ' v := by
  by_cases hu : u = v
  · subst hu
    have due := World.due_of_eq (w := w) hσ
    have due' := World.due_of_eq (w := w') hσ'
    refine .next ?_ ?_ ?_ before
    · rw [due, due']
    · rw [due]
      simp [World.cleanups, marks, Mark.cleanup?]
    · unfold World.HasArrived
      rw [marks]
      exact List.mem_append_left _ before
  · apply apart share _ _ marks
    · simp [Mark.cleanup?, hu]
    · exact hσ ▸ tends?_ne hu
    · exact hσ' ▸ tends?_ne hu

omit share in
/-- The move is over for a visit, or begins for it, and it has done its share. -/
theorem settled (due : w.due σ v = k) (due' : w'.due σ' v = k) {news : List Mark}
    (marks : w'.marks = w.marks ++ news)
    (h : ∀ m ∈ news, m.cleanup? v = none ∧ m ≠ .arrived v) : Effect w σ w' σ' v := by
  obtain ⟨cleanups, arrived⟩ := World.cleanups_append marks h
  exact .still (due'.trans due.symm) cleanups arrived

end Effect

end

/-! ## Strides -/

theorem Phase.open?_eq_some {p : Phase} {v : VisitId} : p.open? = some v ↔ p = .waiting v := by
  cases p <;> simp [Phase.open?]

theorem Phase.open?_of_isArriving {p : Phase} (h : p.isArriving = true) : p.open? = none := by
  cases p <;> first | rfl | cases h

theorem Phase.open?_of_draining {p : Phase} {v : VisitId} (h : ∃ e, p = .draining v e) :
    p.open? = none := by
  obtain ⟨e, rfl⟩ := h
  rfl

theorem Phase.open?_of_ne_waiting {p : Phase} (h : ∀ v, p ≠ .waiting v) : p.open? = none := by
  cases p with
  | waiting v => exact absurd rfl (h v)
  | begun | arriving | draining | ended => rfl

section

variable {w w' : World} {σ σ' : Stage} {t : TaskId} {r : RunId} {v : VisitId}

/-- Only a move that is about a visit begins or ends the wait for it. -/
theorem Stride.share (b : Stride t r (w, σ) (w', σ')) (staged : Staged w σ)
    (known : v < w.visits.size) (hσ : ∀ k, σ.tends? ≠ some (v, k))
    (hσ' : ∀ k, σ'.tends? ≠ some (v, k)) : w'.share v = w.share v := by
  have o := b.onward
  have owner := o.owner v known
  -- It is enough to look at the phase of the run.
  suffices phase : (w.run r).phase.open? = some v ↔ (w'.run r).phase.open? = some v by
    apply World.share_congr (o.state v known)
    by_cases mine : (w.visit v).run = r
    · rw [World.isOpen_iff mine, World.isOpen_iff (owner.trans mine)]
      exact phase.symm
    · rw [World.isOpen_iff owner, World.isOpen_iff (w := w) rfl, o.run _ mine]
  -- A run that did not wait for the visit, and does not now, has not changed its share.
  have moved {p : Phase} (phase : (w'.run r).phase = p) (h : (w.run r).phase.open? ≠ some v)
      (h' : p.open? ≠ some v) :
      (w.run r).phase.open? = some v ↔ (w'.run r).phase.open? = some v :=
    iff_of_false h (phase ▸ h')
  cases b with
  | depart drives phase | dropBegun _ _ _ phase | dropArriving _ _ phase
  | dropDraining _ _ _ phase =>
    exact moved (World.phase_setPhase ..) (by simp [phase, Phase.open?]) (by simp [Phase.open?])
  | pass =>
    have suits := (staged.placed _ _ _ rfl).suits
    apply moved (World.phase_setPhase ..)
    · simp [Phase.open?_of_isArriving suits]
    · simp [Phase.open?]
  -- The wait for a visit begins and ends in moves that tend to this visit.
  | @wait _ u =>
    have suits := (staged.placed _ _ _ rfl).suits
    apply moved (World.phase_setPhase ..)
    · simp [Phase.open?_of_isArriving suits]
    · intro h
      cases h
      exact hσ 0 rfl
  | @conclude _ u e drives phase =>
    apply moved (World.phase_setPhase ..)
    · intro h
      rw [phase] at h
      cases h
      exact hσ' 0 rfl
    · simp [Phase.open?]
  | relax => rw [World.run_abortWork]
  | go phase =>
    exact moved (World.phase_goTo ..) (by simp [phase, Phase.open?]) (by simp [Phase.open?])
  | halt _ phase | back phase =>
    exact moved (World.phase_endRun ..) (by simp [phase, Phase.open?]) (by simp [Phase.open?])
  | done =>
    obtain ⟨u, draining⟩ := (staged.placed _ _ _ rfl).suits
    apply moved (World.phase_endRun ..)
    · simp [Phase.open?_of_draining draining]
    · simp [Phase.open?]
  -- A run that is lost was on its way to a state, past one, or told to go.
  | unwind ease =>
    have suits := (staged.placed _ _ _ rfl).suits
    apply moved (World.phase_release ..)
    · rcases ease with ⟨s, c, rest, rfl⟩ | ⟨rest, rfl⟩ | rfl
      · simp [Phase.open?_of_isArriving suits]
      · obtain ⟨u, suits⟩ := suits
        simp [Phase.open?_of_draining suits]
      · simp [Phase.open?_of_ne_waiting suits.2]
    · simp [Phase.open?]
  | @dropWaiting _ _ u alive job ease phase =>
    have ended : ((((w.setPhase r .ended).abortWork u).closeVisit u).run r).phase = .ended := by
      simp
    apply moved ended
    · intro h
      rw [phase] at h
      cases h
      exact hσ' 0 rfl
    · simp [Phase.open?]
  | _ => exact .rfl

open Effect in
/-- Every stride has some effect on the cleanup of each visit. -/
theorem Stride.effect (b : Stride t r (w, σ) (w', σ')) (staged : Staged w σ) (tidy : Tidy w σ)
    (known : v < w.visits.size) : Effect w σ w' σ' v := by
  have o := b.onward
  have owner := o.owner v known
  have share := b.share staged known
  have nobody : ∀ m ∈ ([] : List Mark), m.cleanup? v = none ∧ m ≠ .arrived v :=
    List.forall_mem_nil _
  have quiet {m : Mark} (h : m.cleanup? v = none) (h' : m ≠ .arrived v) :
      ∀ n ∈ [m], n.cleanup? v = none ∧ n ≠ .arrived v := by
    intro n hn
    exact List.mem_singleton.1 hn ▸ ⟨h, h'⟩
  -- A visit of the run has had its share once the run does not wait for it.
  have done (own : w.Owns r v) {p : Phase} (phase : (w'.run r).phase = p)
      (h : p.open? ≠ some v) : w'.share v = (w.visit v).state.cleanup.actions.length := by
    rw [← o.state v known]
    exact World.share_of_not_isOpen fun isOpen =>
      h (phase ▸ (World.isOpen_iff (owner.trans own.run)).1 isOpen)
  -- A visit has had nothing of it while the run waits for it.
  have waits (phase : (w.run r).phase = .waiting v) : w.share v = 0 := by
    have own := staged.waits r v (congrArg Phase.visit? phase)
    apply World.share_of_isOpen
    rw [World.isOpen_iff own.run, phase]
    rfl
  cases b with
  -- Most moves are about no visit, or not about its cleanup.
  | depart | look | idle | exit | dropBegun | dropArriving =>
    exact apart share (tends?_none rfl) (tends?_none rfl) (List.append_nil _).symm nobody
  | hear | toll =>
    have marks (e : Entry) (plain : e.mark? = none) : (w.log e).marks = w.marks ++ [] := by
      simp [plain]
    exact apart share (tends?_none rfl) (tends?_none rfl) (marks _ rfl) nobody
  | tell | go | announce =>
    exact apart share (tends?_none rfl) (tends?_none rfl) (World.marks_mark ..)
      (quiet rfl (by simp))
  | visit =>
    exact apart share (tends?_none rfl) (tends?_none rfl) (World.marks_pushVisit ..)
      (quiet rfl (by simp))
  -- A cleanup action is one more of those that are due.
  | @act _ u phrase k =>
    cases phrase with
    | cleanup => exact begins share rfl rfl (tidy.tends u k rfl) (World.marks_mark ..)
    | enter | exit =>
      exact apart share (tends?_none rfl) (tends?_none rfl) (World.marks_mark ..)
        (quiet rfl (by simp))
  -- From now on the cleanup is due.
  | @arrive _ u k =>
    by_cases hu : u = v
    · subst hu
      refine .arrive (World.due_of_eq rfl) ?_ ?_ (tidy.entering _ _ _ _ rfl)
      · simp [World.cleanups, Mark.cleanup?]
      · simp [World.HasArrived]
    · exact apart share (tends?_none rfl) (tends?_ne hu) (World.marks_mark ..)
        (quiet rfl (by simpa using hu))
  | pass | launch => exact goes share rfl rfl (World.marks_mark ..) (quiet rfl (by simp))
  | ready | crew => exact goes share rfl rfl (List.append_nil _).symm nobody
  | forsake => exact goes share rfl rfl (World.marks_closeVisit ..) (quiet rfl (by simp))
  | @wait _ u k all =>
    by_cases hu : u = v
    · subst hu
      have own := (staged.placed _ _ _ rfl).own u rfl
      refine settled (World.due_of_eq rfl) ?_ (List.append_nil _).symm nobody
      rw [World.due_of_ne (tends?_none rfl)]
      apply World.share_of_isOpen
      rw [World.isOpen_iff (owner.trans own.run), w.phase_setPhase]
      rfl
    · exact apart share (tends?_ne hu) (tends?_none rfl) (List.append_nil _).symm nobody
  | @conclude _ u e drives phase =>
    by_cases hu : u = v
    · subst hu
      refine settled ?_ (World.due_of_eq rfl) (World.marks_mark ..) (quiet rfl (by simp))
      rw [World.due_of_ne (tends?_none rfl), waits phase]
    · exact apart share (tends?_none rfl) (tends?_ne hu) (World.marks_mark ..)
        (quiet rfl (by simp))
  | tear early =>
    rcases early with rfl | rfl
    · exact goes share rfl rfl (List.append_nil _).symm nobody
    · exact goes share rfl rfl (List.append_nil _).symm nobody
  | @relax _ u k all =>
    have placed := staged.placed _ _ _ rfl
    have marks : (w.abortWork u).marks = w.marks ++ [] := by simp
    by_cases hu : u = v
    · subst hu
      refine settled (World.due_of_eq rfl) ?_ marks nobody
      rw [World.due_of_ne (tends?_none rfl), all]
      apply done (placed.own u rfl) (congrArg Run.phase (w.run_abortWork u r))
      simp [Phase.open?_of_draining placed.suits]
    · exact apart share (tends?_ne hu) (tends?_none rfl) marks nobody
  | close | quit =>
    exact apart share (tends?_none rfl) (tends?_none rfl) (World.marks_closeVisit ..)
      (quiet rfl (by simp))
  | halt | back | done =>
    exact apart share (tends?_none rfl) (tends?_none rfl) (World.marks_endRun ..)
      (by simp [Mark.cleanup?])
  | @shut _ u phrase k panics =>
    have left := World.marks_closeVisit w u
    cases phrase with
    | enter | exit =>
      exact apart share (tends?_none rfl) (tends?_none rfl) left (quiet rfl (by simp))
    | cleanup =>
      by_cases hu : u = v
      · subst hu
        have before := tidy.tends u k rfl
        exact .panic (panics rfl) (by simpa [World.HasArrived] using before)
      · exact apart share (tends?_ne hu) (tends?_none rfl) left (quiet rfl (by simp))
  | @tend _ u k more => exact begins share rfl rfl (tidy.tends u k rfl) (World.marks_mark ..)
  | @tended _ u k all =>
    have placed := staged.placed _ _ _ rfl
    by_cases hu : u = v
    · subst hu
      rcases all with all | panics
      · refine settled (World.due_of_eq rfl) ?_ (List.append_nil _).symm nobody
        rw [World.due_of_ne (tends?_none rfl), all]
        apply done (placed.own u rfl) rfl
        rcases placed.suits with arriving | ended
        · simp [Phase.open?_of_isArriving arriving]
        · simp [ended, Phase.open?]
      · exact .panic panics (tidy.tends u k rfl)
    · exact apart share (tends?_ne hu) (tends?_none rfl) (List.append_nil _).symm nobody
  | @unwind _ spot ease =>
    refine apart share ?_ (tends?_none rfl) (World.marks_release ..) (quiet rfl (by simp))
    rcases ease with ⟨s, c, rest, rfl⟩ | ⟨rest, rfl⟩ | rfl <;> exact tends?_none rfl
  | @dropWaiting _ _ u alive job ease phase =>
    have idle : σ.tends? = .none := by
      rcases ease with rfl | rfl <;> rfl
    have marks : (((w.setPhase r .ended).abortWork u).closeVisit u).marks =
        w.marks ++ [.left u] := by simp
    by_cases hu : u = v
    · subst hu
      refine settled ?_ (World.due_of_eq rfl) marks (quiet rfl (by simp))
      rw [World.due_of_ne (tends?_none idle), waits phase]
    · exact apart share (tends?_none idle) (tends?_ne hu) marks (quiet rfl (by simp))
  | @dropDraining _ _ u e alive job ease phase =>
    have idle : σ.tends? = .none := by
      rcases ease with rfl | rfl <;> rfl
    exact apart share (tends?_none idle) (tends?_none rfl) (World.marks_closeVisit ..)
      (quiet rfl (by simp))

/-- Moves clean up visits that they had to clean up before, that their runs waited for, or that
have just arrived. -/
theorem Stride.tends (b : Stride t r (w, σ) (w', σ')) {k : Nat} (h : σ'.tends? = some (v, k)) :
    (w.run r).phase = .waiting v ∨ (∃ j, σ.tends? = some (v, j)) ∨ w'.HasArrived v := by
  cases b with
  | arrive =>
    cases h
    exact .inr (.inr (by simp [World.HasArrived]))
  | @act _ u phrase =>
    cases phrase <;> cases h
    exact .inr (.inl ⟨_, rfl⟩)
  | conclude drives phase | dropWaiting _ _ _ phase =>
    cases h
    exact .inl phase
  | pass | ready | launch | forsake | tend =>
    cases h
    exact .inr (.inl ⟨_, rfl⟩)
  | crew => exact .inr (.inl ⟨_, h⟩)
  | tear => exact .inr (.inl ⟨_, h⟩)
  | _ => cases h

/-- A visit that is being entered has not arrived. -/
theorem Stride.entering (b : Stride t r (w, σ) (w', σ')) (recorded : Recorded w) (tidy : Tidy w σ)
    {k : Nat} (h : σ' = .busy t r (.acting v .enter k)) : ¬ w'.HasArrived v := by
  cases b with
  | visit =>
    cases h
    intro arrived
    have old : w.HasArrived w.visits.size := by simpa [World.HasArrived] using arrived
    exact Nat.lt_irrefl _ (recorded.visit _ old _ rfl)
  | act =>
    cases h
    intro arrived
    have old : w.HasArrived v := by simpa [World.HasArrived] using arrived
    exact tidy.entering _ _ _ _ rfl old
  | tear early =>
    cases h
    rcases early with early | early <;> cases early
  | _ => cases h

end

/-! ## All beats -/

namespace Tidy

variable {w w' : World} {σ σ' : Stage}

/-- While no run goes further, visits stay as tidy as they are. -/
theorem steady (h : Tidy w σ) (s : Steady w w') (tends : σ'.tends? = σ.tends?)
    (entering : ∀ t r v k, σ' = .busy t r (.acting v .enter k) → σ = σ') : Tidy w' σ' := by
  obtain ⟨news, marks, aside⟩ := s.marks
  have quiet (v : VisitId) : ∀ m ∈ news, m.cleanup? v = none ∧ m ≠ .arrived v := by
    intro m hm
    have := aside m hm
    constructor
    · cases m <;> first | rfl | cases this
    · rintro rfl
      cases this
  have isOpen (v : VisitId) : w'.IsOpen v ↔ w.IsOpen v := by
    rw [World.isOpen_iff (s.owner v)]
    by_cases known : (w.visit v).run < w.runs.size
    · rw [(s.run _ known).phase]
      rfl
    · have old : (w.run (w.visit v).run).phase = .ended :=
        World.phase_of_size_le (Nat.not_lt.1 known)
      rw [World.isOpen_iff rfl, old]
      rcases s.fresh _ (Nat.not_lt.1 known) with new | ⟨i, new⟩
      · rw [new]
      · rw [new]
        rfl
  have arrived (v : VisitId) := (World.cleanups_append marks (quiet v)).2
  have cleanups (v : VisitId) := (World.cleanups_append marks (quiet v)).1
  have due (v : VisitId) : w'.due σ' v = w.due σ v := by
    unfold World.due
    rw [tends, World.share_congr (s.state v) (isOpen v)]
  -- Neither what is due nor what was done changes.
  constructor
  case early =>
    intro v hv
    rw [cleanups]
    exact h.early v (hv ∘ (arrived v).2)
  case count =>
    intro v hv calm
    rw [cleanups, due]
    exact h.count v ((arrived v).1 hv) (s.state v ▸ calm)
  case isOpen => exact fun v hv => (arrived v).2 (h.isOpen v ((isOpen v).1 hv))
  case tends => exact fun v k hv => (arrived v).2 (h.tends v k (tends ▸ hv))
  case entering =>
    intro t r v k hσ hv
    exact h.entering t r v k ((entering t r v k hσ).trans hσ) ((arrived v).1 hv)

theorem shift (h : Tidy w σ) (b : Shift (w, σ) w') : Tidy w' .rest := by
  have idle : Stage.rest.tends? = σ.tends? := by
    cases b with
    | park _ ease =>
      rcases ease with ⟨rfl, -⟩ | ⟨r, rfl⟩ <;> rfl
    | retire _ ease =>
      rcases ease with ⟨rfl, -⟩ | ⟨r, rfl⟩ <;> rfl
    | turn | unqueue | begin | resume => rfl
  exact h.steady b.steady idle fun t r v k hσ => by cases hσ

theorem stride {t : TaskId} {r : RunId} (h : Tidy w σ) (staged : Staged w σ)
    (recorded : Recorded w) (target : σ' = .rest ∨ ∃ s, σ' = .busy t r s)
    (b : Stride t r (w, σ) (w', σ')) : Tidy w' σ' := by
  have o := b.onward
  obtain ⟨news, marks, speaks⟩ := b.speaks staged
  have later {v : VisitId} (hv : w.HasArrived v) : w'.HasArrived v := by
    unfold World.HasArrived
    rw [marks]
    exact List.mem_append_left _ hv
  -- A visit that is waited for has arrived.
  have waited {q : RunId} {v : VisitId} (hq : (w.run q).phase = .waiting v) :
      w.HasArrived v := by
    have own := staged.waits q v (congrArg Phase.visit? hq)
    exact h.isOpen v ((World.isOpen_iff own.run).2 (Phase.open?_eq_some.2 hq))
  -- A visit that was not there has not arrived, let alone been cleaned up.
  have fresh {v : VisitId} (new : w.visits.size ≤ v) :
      w'.cleanups v = w.cleanups v ∧ (w'.HasArrived v ↔ w.HasArrived v) := by
    apply World.cleanups_append marks
    intro m hm
    have mentions (hv : m.visit? = some v) : m = .entered r v :=
      ((speaks m hm).visit v hv).2.resolve_left (Nat.not_lt.2 new)
    constructor
    · refine Option.eq_none_iff_forall_ne_some.2 fun k hk => ?_
      unfold Mark.cleanup? at hk
      split at hk
      · split at hk
        · next hu =>
          have := mentions (hu ▸ rfl)
          cases this
        · cases hk
      · cases hk
    · rintro rfl
      have := mentions rfl
      cases this
  constructor
  case early =>
    intro v hv
    by_cases known : v < w.visits.size
    · cases b.effect staged h known with
      | still due cleanups arrived => exact cleanups.trans (h.early v (hv ∘ arrived.2))
      | next _ _ arrived | arrive _ _ arrived | panic _ arrived => exact absurd arrived hv
    · obtain ⟨cleanups, arrived⟩ := fresh (Nat.not_lt.1 known)
      exact cleanups.trans (h.early v (hv ∘ arrived.2))
  -- Whatever effect the move has, as many actions are done as are due.
  case count =>
    intro v hv calm
    have known : v < w.visits.size := by
      refine Nat.lt_of_not_le fun new => ?_
      exact Nat.not_lt.2 new (recorded.visit _ ((fresh new).2.1 hv) v rfl)
    rw [o.state v known] at calm
    cases b.effect staged h known with
    | still due cleanups arrived => rw [cleanups, due, h.count v (arrived.1 hv) calm]
    | next due cleanups _ before =>
      rw [cleanups, due, h.count v before calm, List.range_succ]
    | arrive due cleanups _ before =>
      rw [cleanups, due, h.early v before]
      rfl
    | panic panics => exact absurd panics calm
  case isOpen =>
    intro v hv
    apply later
    by_cases hq : (w'.visit v).run = r
    · rcases b.waiting (Phase.open?_eq_some.1 ((World.isOpen_iff hq).1 hv)) with old | ⟨k, rfl⟩
      · exact waited old
      · exact h.tends v 0 rfl
    · rw [World.isOpen_iff rfl, o.run _ hq, Phase.open?_eq_some] at hv
      exact waited hv
  -- The move that begins the cleanup comes after the wait, or after the arrival.
  case tends =>
    intro v k hv
    rcases b.tends hv with old | ⟨j, tends⟩ | arrived
    · exact later (waited old)
    · exact later (h.tends v j tends)
    · exact arrived
  case entering =>
    intro t' r' v k hσ
    rcases target with rest | ⟨s, busy⟩
    · cases rest.symm.trans hσ
    · cases busy.symm.trans hσ
      exact b.entering recorded h hσ

theorem beat (h : Tidy w σ) (sound : Sound w σ) (recorded : Recorded w)
    (b : Beat (w, σ) (w', σ')) : Tidy w' σ' := by
  cases b with
  | stir b => exact h.steady b.steady rfl fun _ _ _ _ _ => rfl
  | shift b => exact h.shift b
  | stride b =>
    exact h.stride sound.toStaged recorded ((b.target sound.toStaged).imp_left (·.1)) b

theorem opening (s : Scenario) : Tidy s.opening .rest where
  early _ _ := rfl
  count v hv := by cases hv
  isOpen v hv := by cases hv
  tends v k hv := by cases hv
  entering t r v k hσ := by cases hσ

end Tidy

/-- Visits are tidy in every world that a scenario comes to. -/
theorem Scenario.Reaches.tidy {s : Scenario} {w : World} (h : s.Reaches w) : Tidy w .rest := by
  have both : Recorded w ∧ Tidy w .rest :=
    h.invariant (I := fun w σ => Recorded w ∧ Tidy w σ)
      ⟨⟨fun m hm => (by cases hm), fun m hm => (by cases hm)⟩, .opening s⟩
      fun sound ⟨recorded, tidy⟩ beat =>
        ⟨recorded.beat sound beat, tidy.beat sound recorded beat⟩
  exact both.2

/-! ## Exactly once -/

/-- The cleanup of a visit runs exactly once, in order, if its enter actions are done and its run
does not wait for an event on it any more, whichever way that came about. Nothing of it runs
before, or if the enter actions were not done; and as long as the run waits, its host is there to
drive it. -/
theorem Scenario.cleanup_once {s : Scenario} {w : World} (h : s.Reaches w) (v : VisitId)
    (calm : ¬ (w.visit v).state.cleanup.Panics) :
    (w.HasArrived v → ¬ w.IsOpen v →
      w.cleanups v = List.range (w.visit v).state.cleanup.actions.length) ∧
    (¬ w.HasArrived v ∨ w.IsOpen v → w.cleanups v = []) ∧
    (w.IsOpen v → w.Hosts (w.runOf v).host (w.visit v).run) := by
  have tidy := h.tidy
  have due : w.due .rest v = w.share v := World.due_of_ne fun k => by simp [Stage.tends?]
  refine ⟨fun arrived closed => ?_, ?_, fun isOpen => ?_⟩
  · rw [tidy.count v arrived calm, due, World.share_of_not_isOpen closed]
  · rintro (early | isOpen)
    · exact tidy.early v early
    · rw [tidy.count v (tidy.isOpen v isOpen) calm, due, World.share_of_isOpen isOpen]
      rfl
  · refine h.sound.host _ fun ended => ?_
    unfold World.IsOpen World.runOf at isOpen
    rw [ended] at isOpen
    cases isOpen

/-- A run is dropped while it waits for an activity that never ends. -/
def Scenario.timedOut : Scenario where
  machine := ⟨"m", "M", "a", some [{ State.new "a" with
    activities := [{ body := [.pause .forever] }]
    cleanup := ⟨[[.act (.assign "x" 1)], []]⟩ }]⟩
  interpreters := 1
  limit := none
  observers := []
  steps := [.run 0 10]

theorem Scenario.timedOut_cleanups : (timedOut.play 10).cleanups 0 = [0, 1] := by
  have chain : ((timedOut.play 10).visit 0).state.cleanup =
      ⟨[[.act (.assign "x" 1)], []]⟩ := by rfl
  have calm : ¬ ((timedOut.play 10).visit 0).state.cleanup.Panics := by
    rw [chain]
    rintro ⟨a, ha, w, panics⟩
    simp only [List.mem_cons, List.not_mem_nil, or_false] at ha
    rcases ha with rfl | rfl
    · simp [World.runAction, World.runScript, World.runInstr] at panics
    · simp [World.runAction, World.runScript] at panics
  have once := (cleanup_once (timedOut.reaches_play 10) 0 calm).1 (by decide +kernel)
    (by decide +kernel)
  rw [once, chain]
  rfl

end Statechart
