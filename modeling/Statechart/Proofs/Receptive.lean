import Statechart.Proofs.LateRaises
import Statechart.Proofs.Settlement

/-!
# Visits that accept events

A visit is committed only by an event that was accepted, or once it was left. So while its run
waits, the first event that can have an effect on it is accepted, and its tasks have not been told
to go.

## Main definitions

- `Committed`: why visits are committed.

## Main statements

- `Scenario.Reaches.not_left`: a visit that a run is in was not left.
- `Scenario.Reaches.raise_accepted`: the first event is accepted.
- `Scenario.Reaches.not_aborted`: nobody who works for a visit that is waited for was told to go.
-/

namespace Statechart

/-- Visits are committed only by events that were accepted, or once they are closed. -/
def Committed (w : World) : Prop :=
  ∀ v, (w.visit v).fired = true → (w.visit v).inbox ≠ none ∨ (w.visit v).closed = true

namespace Committed

variable {w w' : World} {σ σ' : Stage}

theorem stir (h : Committed w) (b : Stir σ w w') : Committed w' := by
  intro v fired
  rw [b.closed v]
  cases b with
  | chore c =>
    rw [c.frame.inbox v]
    exact h v (c.frame.fired v ▸ fired)
  | miss u closed =>
    rw [World.visit_modifyVisit] at fired ⊢
    split at fired
    · next mine => exact .inr (mine ▸ closed)
    · next other =>
      rw [if_neg other]
      exact h v fired
  | accept u d =>
    rw [World.fired_accept] at fired
    rw [World.inbox_accept]
    split at fired
    · next mine => simp [mine]
    · next other =>
      rw [if_neg other]
      exact h v fired
  | refuse | ask | cancel | limit | keep | spawn | start => exact h v fired

theorem shift (h : Committed w) (b : Shift (w, σ) w') : Committed w' := by
  intro v fired
  rw [b.closed v]
  cases b with
  | @park _ _ t =>
    obtain ⟨queue, -, parked⟩ := w.park_eq t
    rw [parked] at fired ⊢
    exact h v fired
  | retire alive ease late chores =>
    have retired := Retired.of_chores chores
    rw [retired.inbox v]
    exact h v (retired.fired v ▸ fired)
  | turn | unqueue | begin | resume => exact h v fired

theorem beat (h : Committed w) (enclosed : Enclosed w σ) (o : Orderly w σ)
    (b : Beat (w, σ) (w', σ')) : Committed w' := by
  have stays {v : VisitId} (closed : (w.visit v).closed = true) : (w'.visit v).closed = true :=
    ((enclosed.beat o b).shut v).2 (b.mem_marks o.toStaged ((enclosed.shut v).1 closed))
  cases b with
  | stir b => exact h.stir b
  | shift b => exact h.shift b
  | stride b =>
    intro v fired
    obtain ⟨inbox, same⟩ := b.commits v
    rw [inbox]
    exact (h v (same ▸ fired)).imp_right stays

end Committed

/-! ## Visits that are waited for -/

namespace World

variable {w : World} {v : VisitId} {d : Decision}

/-- An event is accepted that can have an effect, on a visit that is open and not committed. -/
theorem raise_eq_true (admits : (w.visit v).state.admits d = true)
    (first : (w.visit v).fired = false) (opened : (w.visit v).closed = false) :
    (w.raise v d).2 = true := by
  unfold raise
  simp [admits, first, opened]

end World

/-- Of a stay that is under way, nothing is said that comes after it. -/
theorem Stay.Fits.not_left {w : World} {r : RunId} {x : Stay} (fits : x.Fits w r) (v : VisitId) :
    .left v ∉ x.opening w r ++ w.launchMarks x.visit ++ x.work ++ x.closing w := by
  have work : .left v ∉ x.work := by
    intro here
    obtain ⟨t, -, other | ⟨fate, other⟩⟩ := fits.work _ here <;> cases other
  have drops : .left v ∉ x.drops := by
    intro here
    obtain ⟨t, -, other | other⟩ := fits.drops _ here <;> cases other
  have launches : .left v ∉ w.launchMarks x.visit := by
    unfold World.launchMarks
    split <;> simp
  simp [Stay.opening, Stay.closing, World.chainMarks, actsOf, work, drops, launches]

theorem Scenario.Moment.enclosed {s : Scenario} {w : World} {σ : Stage} (h : s.Moment w σ) :
    Enclosed w σ ∧ Committed w :=
  h.invariant (I := fun w σ => Enclosed w σ ∧ Committed w)
    ⟨.opening s, fun v fired => by cases fired⟩
    fun o ⟨enclosed, committed⟩ beat => ⟨enclosed.beat o beat, committed.beat enclosed o beat⟩

namespace Scenario.Reaches

variable {s : Scenario} {w : World} {r : RunId} {t : TaskId} {v : VisitId} {d : Decision}

theorem enclosed (h : s.Reaches w) : Enclosed w .rest ∧ Committed w :=
  h.moment.enclosed

/-- A visit that a run waits in, or is about to leave, was not left. -/
theorem not_left (h : s.Reaches w) (phase : (w.run r).phase.visit? = some v) :
    .left v ∉ w.marks := by
  have o := h.orderly
  have going : (w.run r).phase ≠ .ended := by
    intro ended
    rw [ended] at phase
    cases phase
  have own := o.waits r v phase
  have began := (o.slotted.owner _ r (o.slotted.holder r (.inl going))).2
  obtain ⟨st, chart⟩ := o.charted r began
  intro left
  have mine : .left v ∈ w.way r := World.mem_way.2 ⟨left, congrArg some own.run⟩
  have stands : st.Matches (w.run r).phase.standing? := chart.stands
  -- The course of the run accounts for all its marks, and the stay under way was not left.
  cases here : (w.run r).phase with
  | waiting u =>
    rw [here] at phase stands
    cases phase
    cases stands
    obtain ⟨past, x, account⟩ := chart.course.account (by simp)
    have fits := (account.suits.visit v rfl).2
    exact fits.not_left v (List.mem_append_left _ (account.upTo rfl mine rfl))
  | draining u e =>
    rw [here] at phase stands
    cases phase
    cases stands
    obtain ⟨past, x, account⟩ := chart.course.account (by simp)
    have fits := (account.suits.visit v rfl).2
    exact fits.not_left v (account.upTo rfl mine rfl)
  | begun | arriving | ended =>
    rw [here] at phase
    cases phase

/-- The first event that can have an effect on a visit that is waited for is accepted. -/
theorem raise_accepted (h : s.Reaches w) (phase : (w.runOf v).phase = .waiting v)
    (admits : (w.visit v).state.admits d = true) (silent : ∀ e, .raised v e true ∉ w.marks) :
    (w.raise v d).2 = true := by
  obtain ⟨enclosed, committed⟩ := h.enclosed
  have opened : (w.visit v).closed = false := by
    rw [← Bool.not_eq_true, enclosed.shut v]
    exact h.not_left (congrArg Phase.visit? phase)
  refine World.raise_eq_true admits ?_ opened
  rw [← Bool.not_eq_true]
  intro fired
  rcases committed v fired with news | closed
  · exact news (h.raced.1.inbox silent)
  · cases opened.symm.trans closed

/-- Nobody who works for a visit that is waited for was told to go. -/
theorem not_aborted (h : s.Reaches w) (phase : (w.runOf v).phase = .waiting v)
    (home : (w.task t).home = some v) : (w.task t).aborted = false := by
  rw [← Bool.not_eq_true]
  intro aborted
  rcases h.staffed.dismissed t v home aborted with ⟨e, past⟩ | left
  · exact h.raced.2.unconcluded phase e past
  · exact h.not_left (congrArg Phase.visit? phase) left

end Scenario.Reaches

end Statechart
