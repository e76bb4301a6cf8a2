import Statechart.Proofs.Strokes
import Statechart.Proofs.Unattended

/-!
# Runs within a turn

A task that drives a run goes on with it until it parks. What a move comes to is laid down by the
phase that the run is in, and a run that never parks comes to its end within one turn of its host.

## Main definitions

- `World.Closes`: in its turn, a task brings the run that it drives to an end in so many moves.
- `State.IsVacant`, `State.ownEnding`: nobody works in a state, and how stays in it end.

## Main statements

- `World.arrive_goes`, `World.leave_goes`: what becomes of a run that arrives in a state, and of one
  that leaves it.
- `Scenario.Reaches.closes_of_arriving`: a run in a state in which nobody works gets as far as
  leaving it.
- `World.Closes.last`: a run that is closed has a last move.
-/

namespace Statechart

/-! ## Definitions -/

/-- Nobody works in a state: it is left at once, or has neither services nor activities. -/
def State.IsVacant (s : State) : Prop :=
  s.mode = .transient ∨ ¬ s.HasWork

/-- How a stay in a state in which nobody works ends, unless the run is stopped. -/
def State.ownEnding (s : State) : Ending :=
  if s.mode = .transient then .decided ⟨.transient, none⟩ else .settled

/-- In its turn, a task brings the run that it drives to an end, in at most so many moves: it
returns, or something panics on its way. -/
inductive World.Closes (t : TaskId) (r : RunId) : Nat → World → Prop where
  | panics {n : Nat} {w : World} (broken : (w.advance r).2 = .panicked) : Closes t r (n + 1) w
  | returns {n : Nat} {w : World} {result : RunResult}
      (ended : (w.advance r).2 = .returned result) : Closes t r (n + 1) w
  | goesOn {n : Nat} {w : World} (busy : (w.advance r).2 = .busy)
      (rest : Closes t r n (w.move t)) : Closes t r (n + 1) w

section

variable {scn : Scenario} {w : World} {t : TaskId} {r : RunId} {v : VisitId} {s : State} {n : Nat}

/-- A run that is closed in so many moves is so in more. -/
theorem World.Closes.succ (c : World.Closes t r n w) : World.Closes t r (n + 1) w := by
  induction c with
  | panics broken => exact .panics broken
  | returns ended => exact .returns ended
  | goesOn busy _ ih => exact .goesOn busy ih

/-! ## What moves of runs come to -/

namespace World

/-- Work that is set up is waited for, unless the set-up panics. -/
theorem launch_goes (w : World) (r : RunId) (v : VisitId) : (w.launch r v).2 = .panicked ∨
    (w.launch r v).2 = .busy ∧ ((w.launch r v).1.run r).phase = .waiting v := by
  unfold launch
  split
  · exact .inl rfl
  · exact .inr ⟨rfl, phase_setPhase ..⟩

/-- A state that is entered is left at once if it is transient, and waits otherwise, unless
something panics on the way. -/
theorem enter_goes (w : World) (r : RunId) (s : State) : (w.enter r s).2 = .panicked ∨
    (w.enter r s).2 = .busy ∧ ∃ v, ((w.enter r s).1.visit v).state = s ∧
      ((w.enter r s).1.run r).phase =
        if s.mode = .transient then .draining v (.decided ⟨.transient, none⟩) else .waiting v := by
  have here : ((w.pushVisit r s).visit w.visits.size).state = s := by
    simp [pushVisit, trace, mark, log]
  have known : w.visits.size < (w.pushVisit r s).visits.size := by
    simp [pushVisit, trace, mark, log]
  have ran := Spares.runPhrase (w.pushVisit r s) w.visits.size .enter
  rw [enter_eq]
  split
  · exact .inl rfl
  · next w₁ eq =>
    rw [eq] at ran
    have arrived : ((w₁.mark (.arrived w.visits.size)).visit w.visits.size).state = s :=
      (ran.state _).trans here
    split
    · have tears := tearDown_spec (w₁.mark (.arrived w.visits.size)) r w.visits.size
        (.decided ⟨.transient, none⟩)
      rcases tears with ⟨broken, -⟩ | ⟨busy, phase, state, -⟩
      · exact .inl broken
      · exact .inr ⟨busy, _, state.trans arrived, phase⟩
    · have launched := Defers.launch (w₁.mark (.arrived w.visits.size)) r w.visits.size
      have state := launched.state _ (Nat.lt_of_lt_of_le known ran.visits)
      rcases launch_goes (w₁.mark (.arrived w.visits.size)) r w.visits.size with
        broken | ⟨busy, phase⟩
      · exact .inl broken
      · exact .inr ⟨busy, _, state.trans arrived, phase⟩

/-- A run that arrives in a state enters it, unless it was stopped or something panics. -/
theorem arrive_goes (w : World) (r : RunId) (s : State) (p : Option String)
    (c : Option Decision) : (w.arrive r s p c).2 = .panicked ∨
      (∃ result, (w.arrive r s p c).2 = .returned result) ∨
      (w.arrive r s p c).2 = .busy ∧ ∃ v, ((w.arrive r s p c).1.visit v).state = s ∧
        ((w.arrive r s p c).1.run r).phase =
          if s.mode = .transient then .draining v (.decided ⟨.transient, none⟩)
          else .waiting v := by
  unfold arrive
  split
  · exact .inr (.inl ⟨_, rfl⟩)
  · simp only
    split
    · exact .inl rfl
    · next w₁ _ => exact (enter_goes w₁ r s).imp_right .inr

/-- A machine that is done ends its run. -/
theorem announceDone_ends (w : World) (r : RunId) :
    (w.announceDone r).2 = .panicked ∨ ∃ result, (w.announceDone r).2 = .returned result := by
  unfold announceDone
  simp only
  split
  · exact .inl rfl
  · exact .inr ⟨_, rfl⟩

/-- A run goes on from a visit as what comes of its decision says. -/
theorem follow_goes (w : World) (r : RunId) (v : VisitId) (d : Decision) :
    (w.follow r v d).2 = .panicked ∨ (∃ result, (w.follow r v d).2 = .returned result) ∨
      (w.follow r v d).2 = .busy ∧ ∃ next,
        (w.machineOf r).aftermath (w.visit v).state (.decided d) = .move next d ∧
        ((w.follow r v d).1.run r).phase =
          .arriving next (some (w.visit v).state.id) (some d) := by
  unfold follow
  simp only
  split
  · next target goes =>
    unfold takeTransition
    split
    · exact .inr (.inl ⟨_, rfl⟩)
    · next next found =>
      have found : (w.machineOf r).find? target = some next := found
      refine .inr (.inr ⟨rfl, next, ?_, ?_⟩)
      · simp [Machine.aftermath, Machine.afterDecision, goes, found]
      · simp [run_modifyRun]
  · exact (announceDone_ends ..).imp_right .inl
  · exact .inr (.inl ⟨_, rfl⟩)
  · exact .inr (.inl ⟨_, rfl⟩)

/-- A visit that is left comes to what its ending says. -/
theorem leave_goes (w : World) (known : r < w.runs.size)
    (own : (w.run r).interpreter < w.interpreters.size) (v : VisitId) (e : Ending) :
    (w.leave r v e).2 = .panicked ∨ (∃ result, (w.leave r v e).2 = .returned result) ∨
      (w.leave r v e).2 = .busy ∧ ∃ next d,
        (w.machineOf r).aftermath (w.visit v).state e = .move next d ∧
        ((w.leave r v e).1.run r).phase =
          .arriving next (some (w.visit v).state.id) (some d) := by
  cases e with
  | decided d =>
    have ran := Spares.runPhrase w v .exit
    simp only [leave, exitThen]
    split
    · exact .inl rfl
    · next w₁ eq =>
      rw [eq] at ran
      rw [← ran.state v, ← ran.machineOf known own]
      rcases follow_goes w₁ r v d with broken | back | ⟨busy, next, goes, phase⟩
      · exact .inl broken
      · exact .inr (.inl back)
      · exact .inr (.inr ⟨busy, next, d, goes, phase⟩)
  | settled =>
    simp only [leave, exitThen]
    split
    · split
      · exact .inl rfl
      · exact (announceDone_ends ..).imp_right .inl
    · exact .inr (.inl ⟨_, rfl⟩)
  | stopped => exact .inr (.inl ⟨_, rfl⟩)
  | panicked => exact .inr (.inl ⟨_, rfl⟩)

end World

/-! ## Hosts that go on -/

namespace Scenario.Reaches

/-- A host whose run goes on goes on as well. -/
theorem goesOn (h : scn.Reaches w) (d : w.Drives t r) (busy : (w.advance r).2 = .busy) :
    w.move t = (w.advance r).1 ∧ (w.move t).Drives t r ∧
      (w.move t).machineOf r = w.machineOf r := by
  have o := h.orderly
  have alive := o.turn t d.turn
  have going := o.toSound.going alive d.job
  have host := (o.driver t r alive d.job).1
  have move : w.move t = (w.advance r).1 := host ▸ (o.toSound.advances going).2 busy
  obtain ⟨-, job, -, machine⟩ := Deeds.drive o alive d.job
  rw [move]
  exact ⟨rfl, ⟨(Paces.advance d going).running.trans d.turn, (congrArg Job.run? job).trans d.job⟩,
    machine⟩

theorem drives_goes (h : scn.Reaches w) (d : w.Drives t r) :
    r < w.runs.size ∧ (w.run r).interpreter < w.interpreters.size := by
  have o := h.orderly
  have going := o.toSound.going (o.turn t d.turn) d.job
  have began := (o.slotted.owner _ r (o.slotted.holder r (.inl going))).2
  exact ⟨o.rooted.run r began, o.rooted.interpreter r began⟩

/-- No task belongs to a visit of a state in which nobody works. -/
theorem homeless (h : scn.Reaches w) (vacant : (w.visit v).state.IsVacant) (t : TaskId) :
    (w.task t).home ≠ some v := by
  intro home
  rcases vacant with transient | idle
  · exact (h.orderly.crewed.home t v home).2.2 transient
  · exact h.unconcerned idle (.home home)

/-- A run that leaves a state in which nobody works ends, or goes on to the next state. -/
theorem closes_of_draining {e : Ending} (h : scn.Reaches w) (d : w.Drives t r)
    (phase : (w.run r).phase = .draining v e) (vacant : (w.visit v).state.IsVacant)
    (onward : ∀ next cause, (w.machineOf r).aftermath (w.visit v).state e = .move next cause →
      scn.Reaches (w.move t) → (w.move t).Drives t r →
      (w.move t).machineOf r = w.machineOf r →
      ((w.move t).run r).phase = .arriving next (some (w.visit v).state.id) (some cause) →
      World.Closes t r n (w.move t)) : World.Closes t r (n + 1) w := by
  have none : (w.visit v).finished = [] ∧ (w.visit v).working = [] := by
    constructor <;> refine List.eq_nil_iff_forall_not_mem.2 fun u hu => h.homeless vacant u ?_
    · exact (h.staffed.finished u v hu).1
    · exact h.staffed.listed u v hu
  have leaves : w.advance r = w.leave r v e := by
    unfold World.advance World.drain
    simp only [phase, none, if_true]
  obtain ⟨known, own⟩ := h.drives_goes d
  rcases w.leave_goes known own v e with broken | ⟨result, ended⟩ | ⟨busy, next, cause, goes, there⟩
  · exact .panics (leaves ▸ broken)
  · exact .returns (leaves ▸ ended)
  · rw [← leaves] at busy there
    obtain ⟨move, d', machine⟩ := h.goesOn d busy
    rw [← move] at there
    exact .goesOn busy (onward next cause goes (h.tail (.move d.turn)) d' machine there)

/-- A run that waits in a state without work gets as far as leaving it. -/
theorem closes_of_waiting (h : scn.Reaches w) (d : w.Drives t r)
    (phase : (w.run r).phase = .waiting v) (idle : ¬ (w.visit v).state.HasWork)
    (onward : ∀ w' e, scn.Reaches w' → w'.Drives t r → w'.machineOf r = w.machineOf r →
      (w'.run r).phase = .draining v e → (w'.visit v).state = (w.visit v).state →
      e = .settled ∨ e = .stopped → World.Closes t r n w') : World.Closes t r (n + 1) w := by
  have own := (h.sound.waits r v (congrArg Phase.visit? phase)).run
  have inspects : w.advance r = w.inspect r v := by
    unfold World.advance
    rw [phase]
  obtain ⟨e, found, ends⟩ : ∃ e, w.finding? v = some e ∧ (e = .settled ∨ e = .stopped) := by
    refine ⟨_, h.finding?_of_idle idle, ?_⟩
    split
    · exact .inr rfl
    · exact .inl rfl
  have tears : w.advance r = (w.looked v).tearDown r v e := by
    rw [inspects, World.inspect_eq own, found, Option.elim_some]
  have looked : ((w.looked v).visit v).state = (w.visit v).state :=
    (Defers.looked w v).state v (h.sound.waits r v (congrArg Phase.visit? phase)).known
  rcases (w.looked v).tearDown_spec r v e with ⟨broken, -⟩ | ⟨busy, there, state, -⟩
  · exact .panics (tears ▸ broken)
  · rw [← tears] at busy there state
    obtain ⟨move, d', machine⟩ := h.goesOn d busy
    rw [← move] at there state
    exact .goesOn busy (onward _ e (h.tail (.move d.turn)) d' machine there (state.trans looked)
      ends)

/-- A run that arrives in a state in which nobody works gets as far as leaving it. -/
theorem closes_of_arriving {p : Option String} {c : Option Decision} (h : scn.Reaches w)
    (d : w.Drives t r) (phase : (w.run r).phase = .arriving s p c) (vacant : s.IsVacant)
    (onward : ∀ w' v e, scn.Reaches w' → w'.Drives t r → w'.machineOf r = w.machineOf r →
      (w'.run r).phase = .draining v e → (w'.visit v).state = s →
      e = s.ownEnding ∨ e = .stopped → World.Closes t r n w') : World.Closes t r (n + 2) w := by
  have arrives : w.advance r = w.arrive r s p c := by
    unfold World.advance
    rw [phase]
  rcases w.arrive_goes r s p c with broken | ⟨result, ended⟩ | ⟨busy, v, state, there⟩
  · exact .panics (arrives ▸ broken)
  · exact .returns (arrives ▸ ended)
  · rw [← arrives] at busy there state
    obtain ⟨move, d', machine⟩ := h.goesOn d busy
    rw [← move] at there state
    have h' : scn.Reaches (w.move t) := h.tail (.move d.turn)
    refine .goesOn busy ?_
    unfold State.ownEnding at onward
    by_cases transient : s.mode = .transient
    · rw [if_pos transient] at there onward
      exact (onward _ v _ h' d' machine there state (.inl rfl)).succ
    · rw [if_neg transient] at there onward
      refine h'.closes_of_waiting d' there (state ▸ vacant.resolve_left transient)
        fun w' e reach drives same phase' here ends => ?_
      exact onward w' v e reach drives (same.trans machine) phase' (here.trans state) ends

end Scenario.Reaches

/-! ## The last move -/

/-- A run that has begun is one of the same machine for good. -/
theorem Beats.machineOf {x y : World × Stage} (b : Beats x y) (o : Orderly x.1 x.2)
    (began : .began r ∈ x.1.marks) : y.1.machineOf r = x.1.machineOf r := by
  induction b with
  | refl => rfl
  | tail before beat ih =>
    exact (beat.machineOf (o.beats before).rooted (Beats.mem before o began)).trans ih

theorem World.now_moves (w : World) (t : TaskId) (n : Nat) : (w.moves t n).now = w.now := by
  induction n generalizing w with
  | zero => rfl
  | succ n ih => exact (ih _).trans (w.now_move t)

/-- A run that is closed has a last move, in which it returns or something panics. -/
theorem World.Closes.last (c : World.Closes t r n w) (h : scn.Reaches w) (d : w.Drives t r) :
    ∃ k < n, Relation.ReflTransGen World.Next w (w.moves t k) ∧ (w.moves t k).Drives t r ∧
      (((w.moves t k).advance r).2 = .panicked ∨
        ∃ result, ((w.moves t k).advance r).2 = .returned result) := by
  induction c with
  | panics broken => exact ⟨0, Nat.succ_pos _, .refl, d, .inl broken⟩
  | returns ended => exact ⟨0, Nat.succ_pos _, .refl, d, .inr ⟨_, ended⟩⟩
  | goesOn busy rest ih =>
    obtain ⟨k, few, path, last⟩ := ih (h.tail (.move d.turn)) (h.goesOn d busy).2.1
    exact ⟨k + 1, Nat.succ_lt_succ few, .head (.move d.turn) path, last⟩

end

end Statechart
