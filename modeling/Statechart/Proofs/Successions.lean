import Statechart.Proofs.Histories
import Statechart.Proofs.Scopes
import Statechart.Proofs.Settlement

/-!
# Runs that succeed one another

A new run of an interpreter begins when the one before has given up its slot, and a run that returns
gives up its slot with the last that is heard of it. So a run that has just returned is still the
latest of its interpreter.

## Main definitions

- `Succeed`: no run begins before those of the same interpreter that came before it are over.

## Main statements

- `Succeed.beat`: every beat keeps the runs of an interpreter apart.
- `World.Unfolds.released_once`: a run that has returned has given up its slot once.
- `Scenario.Reaches.isLatest_of_returned`: a run that returns in a move is the latest after it.
-/

namespace Statechart

/-- A run begins only when those of the same interpreter that came before it have given up their
slots. -/
def Succeed (w : World) : Prop :=
  ∀ r q, .began r ∈ w.marks → .began q ∈ w.marks → r < q →
    (w.run q).interpreter = (w.run r).interpreter →
      ∃ status, [.released r status, .began q].Sublist w.marks

/-- Whatever is told in between tells nothing of slots. -/
def World.Hushes (w w' : World) : Prop :=
  ∃ news, w'.marks = w.marks ++ news ∧ ∀ m ∈ news, m.isTurnover = false

/-- How a run has given up its slot. -/
def Mark.released? (r : RunId) : Mark → Option Status
  | .released q status => if q = r then some status else none
  | _ => none

section

variable {scn : Scenario} {w w' : World} {σ σ' : Stage} {t : TaskId} {r : RunId}
  {result : RunResult}

/-! ## Runs of one interpreter -/

namespace Succeed

/-- Runs begin on an interpreter only when its slot is free. -/
theorem beat (h : Succeed w) (tenured : Tenured w) (o : Orderly w σ)
    (b : Beat (w, σ) (w', σ')) : Succeed w' := by
  have keep {news : List Mark} (marks : w'.marks = w.marks ++ news)
      (quiet : ∀ q, .began q ∉ news) : Succeed w' := by
    have old {q : RunId} (began : .began q ∈ w'.marks) : .began q ∈ w.marks :=
      (List.mem_append.1 (marks ▸ began)).resolve_right (quiet q)
    intro r q hr hq before same
    rw [b.interpreter (o.rooted.run r (old hr)), b.interpreter (o.rooted.run q (old hq))] at same
    obtain ⟨status, earlier⟩ := h r q (old hr) (old hq) before same
    exact ⟨status, earlier.trans (marks ▸ List.sublist_append_left ..)⟩
  cases b.turnover with
  | stay news marks quiet =>
    refine keep marks fun q began => ?_
    cases quiet _ began
  | @take i free marks own =>
    have began {q : RunId} (began : .began q ∈ w'.marks) :
        .began q ∈ w.marks ∨ q = w.runs.size := by
      simpa [marks] using began
    intro r q hr hq before same
    -- A run that is there is not newer than the new one.
    have hr : .began r ∈ w.marks := by
      refine (began hr).resolve_right fun new => ?_
      rcases began hq with old | rfl
      · exact absurd (o.rooted.run q old) (Nat.not_lt_of_lt (new ▸ before))
      · exact Nat.ne_of_lt before new
    rcases began hq with old | rfl
    · rw [b.interpreter (o.rooted.run r hr), b.interpreter (o.rooted.run q old)] at same
      obtain ⟨status, earlier⟩ := h r q hr old before same
      exact ⟨status, earlier.trans (marks ▸ List.sublist_append_left ..)⟩
    · rw [own, b.interpreter (o.rooted.run r hr)] at same
      rcases tenured.kept r hr with ⟨status, given⟩ | holds
      · rw [marks]
        exact ⟨status, (List.singleton_sublist.2 given).append (List.Sublist.refl _)⟩
      · rw [← same, free] at holds
        cases holds
  | give q status news marks told =>
    refine keep marks fun q' began => ?_
    rcases told with rfl | ⟨result, -, rfl⟩ <;> simp at began
  | record q hop marks => exact keep marks fun q' began => by simp at began
  | limit i n marks => exact keep marks fun q' began => by simp at began

theorem opening (s : Scenario) : Succeed s.opening := by
  intro r q began
  cases began

end Succeed

theorem Scenario.Moment.succeed (h : scn.Moment w σ) : Tenured w ∧ Succeed w :=
  h.invariant (I := fun w _ => Tenured w ∧ Succeed w) ⟨.opening scn, .opening scn⟩
    fun o ⟨tenured, succeed⟩ beat => ⟨tenured.beat o beat, succeed.beat tenured o beat⟩

/-! ## Runs that return -/

/-- No slot is given up in a stay. -/
theorem Stay.Fits.unreleased {x : Stay} (fits : x.Fits w r) {q : RunId} {status : Status} :
    .released q status ∉ x.marks w r := by
  have work : .released q status ∉ x.work := fun here => by
    obtain ⟨t, -, other | ⟨fate, other⟩⟩ := fits.work _ here <;> cases other
  have drops : .released q status ∉ x.drops := fun here => by
    obtain ⟨t, -, other | other⟩ := fits.drops _ here <;> cases other
  have launches : .released q status ∉ w.launchMarks x.visit := by
    unfold World.launchMarks
    split <;> simp
  have exits : .released q status ∉ w.exitMarks x.visit x.ending := by
    unfold World.exitMarks World.chainMarks actsOf
    split <;> simp
  simp [Stay.marks, Stay.opening, Stay.closing, World.chainMarks, actsOf, work, drops, launches,
    exits]

/-- A run that has returned has given up its slot once. -/
theorem World.Unfolds.released_once {stays : List Stay} (h : w.Unfolds r result stays) :
    w.marks.filterMap (Mark.released? r) = [result.status] := by
  have own (m : Mark) (other : w.subject? m ≠ some r) : m.released? r = none := by
    cases m with
    | released q status => exact if_neg fun mine => other (congrArg some mine)
    | _ => rfl
  have steady : (w.way r).filterMap (Mark.released? r) =
      ((w.way r).filter Mark.isSteady).filterMap (Mark.released? r) := by
    rw [List.filterMap_filter]
    refine List.filterMap_congr fun m _ => ?_
    cases m <;> rfl
  have stay : (stays.flatMap (Stay.marks w r)).filterMap (Mark.released? r) = [] := by
    refine List.filterMap_eq_nil_iff.2 fun m hm => ?_
    obtain ⟨x, hx, hm⟩ := List.mem_flatMap.1 hm
    cases m with
    | released q status => exact absurd hm (h.fits x hx).unreleased
    | _ => rfl
  rw [← World.filterMap_way own, steady, h.way, List.filterMap_append, List.filterMap_cons_none rfl,
    stay, List.nil_append]
  by_cases done : result = .ok .done <;>
    simp [Standing.coda, done, List.filterMap_cons, Mark.released?]

namespace World.Hushes

theorem of_eq (marks : w'.marks = w.marks) : w.Hushes w' :=
  ⟨[], by rw [marks, List.append_nil], by simp⟩

theorem trans {w'' : World} (h : w.Hushes w') (h' : w'.Hushes w'') : w.Hushes w'' := by
  obtain ⟨news, marks, quiet⟩ := h
  obtain ⟨news', marks', quiet'⟩ := h'
  refine ⟨news ++ news', by rw [marks', marks, List.append_assoc], fun m hm => ?_⟩
  exact (List.mem_append.1 hm).elim (quiet m) (quiet' m)

theorem endTask (w : World) (t : TaskId) (fate : Fate) : w.Hushes (w.endTask t fate) :=
  ⟨_, w.marks_endTask t fate, by simp [Mark.isTurnover]⟩

theorem raise (w : World) (v : VisitId) (d : Decision) : w.Hushes (w.raise v d).1 :=
  ⟨_, w.marks_raise v d, by simp [Mark.isTurnover]⟩

theorem finish (w : World) (t : TaskId) (failure : Option Fault) :
    w.Hushes (w.finish t failure) := by
  unfold World.finish
  refine trans ?_ (endTask _ t .returned)
  split
  · unfold World.raiseOutcome
    simp only
    split
    · split
      · exact of_eq rfl
      · exact raise ..
    · split
      · exact of_eq (by simp [World.trace, Entry.mark?])
      · exact (of_eq (by simp [World.trace, Entry.mark?])).trans (raise ..)
  · exact of_eq rfl

theorem answer (w : World) (t : TaskId) (steps : List Step) (a : Answer) :
    w.Hushes (w.answer t steps a) := by
  have waited (w : World) : (w.endWait t).marks = w.marks := by
    unfold World.endWait World.deregister
    simp only
    split
    · split <;> rfl
    · split <;> rfl
    · rfl
  exact of_eq (waited _)

end World.Hushes

/-- What a task goes on to do once it has the result of its run tells nothing of slots. -/
theorem World.Drives.hushes (d : w.Drives t r) (returned : (w.advance r).2 = .returned result) :
    (w.advance r).1.Hushes (w.move t) := by
  obtain ⟨w₁, eq⟩ : ∃ w₁, w.advance r = (w₁, .returned result) := ⟨_, by rw [← returned]⟩
  rw [eq]
  rcases Beats.move_of_run? d.job with ⟨hook, -, moves⟩ | ⟨steps, deadline, -, moves⟩
  · simp only [moves, World.moveDrive, eq]
    cases hook with
    | none => exact Hushes.endTask ..
    | some u =>
      have aborted := Dismisses.abort w₁ (P := fun _ => True) (t := u) trivial
      exact (Hushes.of_eq aborted.marks).trans (Hushes.finish ..)
  · simp only [moves, World.moveRunning, eq]
    exact Hushes.answer ..

/-- A run that returns in a move is the latest of its interpreter after it. -/
theorem Scenario.Reaches.isLatest_of_returned (h : scn.Reaches w) (d : w.Drives t r)
    (returned : (w.advance r).2 = .returned result) :
    .returned r result ∈ (w.move t).marks ∧ (w.move t).IsLatest r := by
  have h' : scn.Reaches (w.move t) := h.tail (.move d.turn)
  obtain ⟨w₁, conclude⟩ := (w.returned_of_advance r).concludes result returned
  obtain ⟨tail, marks, quiet⟩ := d.hushes returned
  have last : (w.move t).marks =
      w₁.marks ++ [.returned r result, .released r result.status] ++ tail := by
    rw [marks, conclude]
    unfold World.conclude
    cases result <;> simp [World.trace, Entry.mark?]
  have here : .returned r result ∈ (w.move t).marks := by simp [last]
  refine ⟨here, fun q began same => Nat.le_of_not_lt fun before => ?_⟩
  obtain ⟨tenured, succeed⟩ := h'.moment.succeed
  obtain ⟨stays, unfolds, -⟩ := h'.unfolds here
  have first := h'.moment.began here rfl rfl
  obtain ⟨status, order⟩ := succeed r q first began before same
  -- The newer run began after the slot was given up, so it began before the run returned.
  have earlier : .released r status ∈ w₁.marks := by
    have other : .began q ∉ [.returned r result, .released r result.status] ++ tail := by
      simp only [List.mem_append, List.mem_cons, reduceCtorEq, List.not_mem_nil, or_self, false_or]
      exact fun here => by cases quiet _ here
    rw [last, List.append_assoc] at order
    obtain ⟨early, late, split, given, begins⟩ := List.sublist_append_iff.1 order
    cases early with
    | nil =>
      rw [List.nil_append] at split
      rw [← split] at begins
      exact absurd (begins.subset (by simp)) other
    | cons m early =>
      cases (List.cons.inj split).1
      exact given.subset List.mem_cons_self
  -- It would have been given up twice then.
  have once := unfolds.released_once
  rw [last, List.filterMap_append, List.filterMap_append] at once
  have twice : status ∈ w₁.marks.filterMap (Mark.released? r) :=
    List.mem_filterMap.2 ⟨_, earlier, if_pos rfl⟩
  have lengths := congrArg List.length once
  have some := List.length_pos_of_mem twice
  simp [List.filterMap_cons, Mark.released?] at lengths
  omega

end

end Statechart
