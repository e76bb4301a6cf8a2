import Mathlib.Data.List.Basic
import Statechart.Proofs.Moments

/-!
# The order of a run

A run that has returned has gone from stay to stay, one after the other. In each the observers are
told, the enter actions run, the services and then the activities are set up, their tasks work, the
wait is over, the cleanup runs, the tasks that are left are dropped, and the exit actions run where
the ending calls for them. A task of a stay does nothing outside the time of its work, and ends
once, within the stay.

## Main definitions

- `World.Unfolds`: a run consists of stays, one after the other.

## Main statements

- `Stay.ends`: every task of a stay has its one end within the stay.
- `Scenario.unfolds_of_returned`: a run that has returned consists of stays.
-/

namespace Statechart

/-! ## Definitions -/

/-- A run consists of stays, one after the other: besides its beginning and its end, and the stops
that are asked for and the hops in its history, it has left the marks of its stays and no others,
and each task of a stay has one end, which is a mark of the stay. -/
structure World.Unfolds (w : World) (r : RunId) (result : RunResult) (stays : List Stay) :
    Prop where
  way : (w.way r).filter Mark.isSteady =
    .began r :: stays.flatMap (Stay.marks w r) ++ Standing.coda r (.finished result)
  order : (stays.map Stay.visit).Pairwise (· < ·)
  fits : ∀ x ∈ stays, x.Fits w r
  ends : ∀ x ∈ stays, ∀ t, (w.task t).home = some x.visit →
    ∃ fate, (x.work ++ x.drops).filterMap (Mark.fate? t) = [fate]

/-! ## The ends of tasks -/

namespace Stay

variable {w : World} {r : RunId} {t : TaskId}

/-- Only the tasks of a stay end in it. -/
theorem fates_marks (x : Stay) :
    (x.marks w r).filterMap (Mark.fate? t) = (x.work ++ x.drops).filterMap (Mark.fate? t) := by
  have acts (v : VisitId) (phrase : Phrase) :
      (w.chainMarks v phrase).filterMap (Mark.fate? t) = [] := by
    refine List.filterMap_eq_nil_iff.2 fun m hm => ?_
    obtain ⟨k, -, rfl⟩ := List.mem_map.1 hm
    rfl
  have launches : (w.launchMarks x.visit).filterMap (Mark.fate? t) = [] := by
    refine List.filterMap_eq_nil_iff.2 fun m hm => ?_
    unfold World.launchMarks at hm
    split at hm
    · cases hm
    · obtain ⟨part, -, rfl⟩ := List.mem_map.1 hm
      rfl
  have exits : (w.exitMarks x.visit x.ending).filterMap (Mark.fate? t) = [] := by
    unfold World.exitMarks
    split
    · exact acts ..
    · rfl
  simp [marks, opening, closing, acts, launches, exits, List.filterMap_cons, Mark.fate?]

/-- A stay tells of no end of a task that works for another visit. -/
theorem Fits.fates {x : Stay} (fits : x.Fits w r) (other : (w.task t).home ≠ some x.visit) :
    (x.work ++ x.drops).filterMap (Mark.fate? t) = [] := by
  refine List.filterMap_eq_nil_iff.2 fun m hm => ?_
  have apart {u : TaskId} (home : (w.task u).home = some x.visit) (fate : Fate) :
      Mark.fate? t (.ended u fate) = none := by
    have : u ≠ t := fun hu => other (hu ▸ home)
    simp [Mark.fate?, this]
  rcases List.mem_append.1 hm with work | drops
  · obtain ⟨u, home, rfl | ⟨fate, rfl⟩⟩ := fits.work m work
    · rfl
    · exact apart home fate
  · obtain ⟨u, home, rfl | rfl⟩ := fits.drops m drops
    · exact apart home _
    · exact apart home _

end Stay

/-- The marks tell of the ends of the tasks of a visit on the way of the run. -/
theorem World.fates_way {w : World} {r : RunId} {v : VisitId} {t : TaskId} (own : w.Owns r v)
    (home : (w.task t).home = some v) :
    ((w.way r).filter Mark.isSteady).filterMap (Mark.fate? t) = w.fates t := by
  unfold fates way
  rw [List.filter_filter, List.filterMap_filter]
  refine List.filterMap_congr fun m hm => ?_
  cases m with
  | ended u fate =>
    by_cases hu : u = t
    · subst hu
      simp [subject?, home, own.run, Mark.isSteady]
    · simp [Mark.fate?, hu]
  | _ => simp [Mark.fate?]

/-- What only one of the stays of a run tells of, the run tells of as that stay does. -/
theorem Stay.filterMap_stays {α : Type} {f : Mark → Option α} {w : World} {r : RunId}
    {stays : List Stay} {x : Stay} (order : (stays.map Stay.visit).Pairwise (· < ·))
    (hx : x ∈ stays)
    (other : ∀ y ∈ stays, y.visit ≠ x.visit → (y.marks w r).filterMap f = []) :
    (stays.flatMap (Stay.marks w r)).filterMap f = (x.marks w r).filterMap f := by
  obtain ⟨before, after, rfl⟩ := List.append_of_mem hx
  rw [List.map_append, List.map_cons, List.pairwise_append, List.pairwise_cons] at order
  obtain ⟨-, ⟨later, -⟩, earlier⟩ := order
  -- The other stays are in other visits.
  have blank (ys : List Stay) (mine : ∀ y ∈ ys, y ∈ before ++ x :: after)
      (apart : ∀ y ∈ ys, y.visit ≠ x.visit) :
      ys.flatMap (fun y => (y.marks w r).filterMap f) = [] :=
    List.flatMap_eq_nil_iff.2 fun y hy => other y (mine y hy) (apart y hy)
  rw [List.filterMap_flatMap, List.flatMap_append, List.flatMap_cons, blank before, blank after,
    List.append_nil, List.nil_append]
  · exact fun y hy => List.mem_append_right _ (List.mem_cons_of_mem _ hy)
  · exact fun y hy => (Nat.ne_of_lt (later y.visit (List.mem_map_of_mem hy))).symm
  · exact fun y hy => List.mem_append_left _ hy
  · exact fun y hy =>
      Nat.ne_of_lt (earlier y.visit (List.mem_map_of_mem hy) x.visit List.mem_cons_self)

/-- Of the stays of a run, only the one that a task works in tells of the task's end. -/
theorem Stay.fates_stays {w : World} {r : RunId} {t : TaskId} {stays : List Stay} {x : Stay}
    (order : (stays.map Stay.visit).Pairwise (· < ·)) (fits : ∀ x ∈ stays, x.Fits w r)
    (hx : x ∈ stays) (home : (w.task t).home = some x.visit) :
    (stays.flatMap (Stay.marks w r)).filterMap (Mark.fate? t) =
      (x.work ++ x.drops).filterMap (Mark.fate? t) := by
  rw [filterMap_stays order hx, fates_marks]
  -- In the other stays the task does not work.
  intro y hy other
  rw [fates_marks]
  exact (fits y hy).fates fun home' => other (Option.some.inj (home'.symm.trans home))

/-- Every task of a stay of a run that is over has its one end within the stay. -/
theorem Stay.ends {w : World} {σ : Stage} {r : RunId} {result : RunResult} {stays : List Stay}
    (o : Orderly w σ) (chart : Chart w σ r (.finished result))
    (way : (w.way r).filter Mark.isSteady =
      .began r :: stays.flatMap (Stay.marks w r) ++ Standing.coda r (.finished result))
    (order : (stays.map Stay.visit).Pairwise (· < ·)) (fits : ∀ x ∈ stays, x.Fits w r)
    {x : Stay} (hx : x ∈ stays) {t : TaskId} (home : (w.task t).home = some x.visit) :
    ∃ fate, (x.work ++ x.drops).filterMap (Mark.fate? t) = [fate] := by
  have own := (fits x hx).owns
  -- The task is gone, so the marks tell of one end of it.
  have gone : (w.task t).isAlive = false := by
    rw [← Bool.not_eq_true]
    intro alive
    rcases chart.crew t x.visit home own.run alive with lost | here
    · cases lost
    · cases here
  obtain ⟨fate, one⟩ := Fated.gone o.fated home gone
  have coda : (Standing.coda r (.finished result)).filterMap (Mark.fate? t) = [] := by
    unfold Standing.coda
    split <;> simp [Mark.fate?]
  rw [← World.fates_way own home, way, List.filterMap_append, coda, List.append_nil,
    List.filterMap_cons_none rfl, Stay.fates_stays order fits hx home] at one
  exact ⟨fate, one⟩

/-- A run that has returned consists of stays, one after the other, under every schedule. -/
theorem Scenario.unfolds_of_returned {s : Scenario} {w : World} (h : s.Reaches w) {r : RunId}
    {result : RunResult} (returned : .returned r result ∈ w.marks) :
    ∃ stays, w.Unfolds r result stays := by
  have chart := h.finished returned
  obtain ⟨stays, -, way, order, fits⟩ := chart.course.stays
  exact ⟨stays, way, order, fits, fun x hx t home =>
    Stay.ends h.orderly chart way order fits hx home⟩

/-- A run passes a transient state, is moved on by a service beside an activity that never ends,
and is done in a final state. -/
def Scenario.tour : Scenario where
  machine := ⟨"m", "M", "a", some [
    { State.new "a" with
      mode := .transient
      routes := [(.transient, "b")]
      enterActions := ⟨[[.act (.assign "x" 1)]]⟩
      cleanup := ⟨[[]]⟩
      exitActions := ⟨[[], []]⟩ },
    { State.new "b" with
      routes := [(.named "go", "c")]
      services := [.free { body := [.act (.raise "go")] }]
      activities := [{ body := [.pause .forever] }]
      exitActions := ⟨[[]]⟩ },
    { State.new "c" with mode := .final }]⟩
  interpreters := 1
  limit := none
  observers := []
  steps := [.run 0 100]

theorem Scenario.tour_unfolds :
    .returned 0 (.ok .done) ∈ (tour.play 23).marks ∧
      ∃ stays, (tour.play 23).Unfolds 0 (.ok .done) stays := by
  have returned : .returned 0 (.ok .done) ∈ (tour.play 23).marks := by decide +kernel
  exact ⟨returned, unfolds_of_returned (tour.reaches_play 23) returned⟩

end Statechart
