import Statechart.Proofs.Moments
import Statechart.Proofs.Race

/-!
# Raises that come too late

A visit is closed when it is left, and a run is in one visit at a time. Whoever still has the
callback of a visit that was left can raise events on it, but none is accepted, and nothing comes of
it but that the visit is committed.

## Main definitions

- `World.place?`: the visit that a run is in.
- `Enclosed`: the visits that are closed are those that were left, and a run is in the others.
- `World.Ignores`: what happens to a visit is of no account.

## Main statements

- `Enclosed.beat`: every beat keeps visits closed that were left, and runs in those that were not.
- `World.ignores_raise`: whatever is raised on a closed visit is ignored.
- `Scenario.raises_of_left`: whatever is raised on a visit that was left is ignored, and a run has
  left every visit but the one that it is in.
-/

namespace Statechart

/-! ## Definitions -/

/-- The visit that a run in a phase is in within its move. -/
def Spot.inside? (p : Phase) : Spot → Option VisitId
  | .acting v _ _ | .arrived v | .launching v _ => some v
  | .idle => p.visit?
  | .told .. | .forsaken .. | .left _ | .announced _ | .broken | .finished => none

/-- The visit that a run is in, from its beginning until it is left. -/
def World.place? (w : World) (σ : Stage) (r : RunId) : Option VisitId :=
  (w.standing? σ r).bind Standing.visit?

/-- The visits that are closed are those that were left, and a run is in the one that it has
entered and not left. -/
structure Enclosed (w : World) (σ : Stage) : Prop where
  shut : ∀ v, (w.visit v).closed = true ↔ .left v ∈ w.marks
  inside : ∀ r v, .entered r v ∈ w.marks → (w.visit v).closed = true ∨ w.place? σ r = some v

/-- Nothing is raised with success on a visit that was left. -/
def Spent (w : World) : Prop :=
  ∀ v before after, w.marks = before ++ .left v :: after → ∀ d, .raised v d true ∉ after

/-- What happens to a visit is of no account: it may be committed by it, and the journal may tell
of it in traces and marks. All other visits, and whatever else there is, are as they were. -/
structure World.Ignores (w : World) (v : VisitId) (w' : World) : Prop where
  rest : w' = { w with visits := w'.visits, journal := w'.journal }
  size : w'.visits.size = w.visits.size
  own : w'.visit v = { w.visit v with fired := (w'.visit v).fired }
  other : ∀ u, u ≠ v → w'.visit u = w.visit u
  shown : w'.journal.toList.filter (Entry.isShown false) =
    w.journal.toList.filter (Entry.isShown false)
  marks : ∃ news, w'.marks = w.marks ++ news ∧ ∀ m ∈ news, ∃ d, m = .raised v d false

/-! ## What closes visits -/

theorem World.closed_closeVisit (w : World) (v u : VisitId) :
    ((w.closeVisit v).visit u).closed = if u = v then true else (w.visit u).closed := by
  show ((w.modifyVisit v _).visit u).closed = _
  rw [visit_modifyVisit]
  split <;> rfl

/-- A new visit is open, as is a visit that is not there yet. -/
theorem World.closed_pushVisit (w : World) (r : RunId) (s : State) (u : VisitId) :
    ((w.pushVisit r s).visit u).closed = (w.visit u).closed :=
  w.data_pushVisit { state := s, run := r } Visit.closed rfl u

section

variable {w w' : World} {σ : Stage}

/-- Scripts close no visit. -/
theorem Stir.closed (b : Stir σ w w') (v : VisitId) :
    (w'.visit v).closed = (w.visit v).closed := by
  cases b with
  | chore c => exact (c.frame.visit v).closed
  | miss u => exact World.data_modifyVisit Visit.closed rfl v
  | accept u d =>
    obtain ⟨-, visits, -, -, -⟩ := w.accept_eq u d
    have told := ((Frame.notify (w.commit u d) u).visit v).closed
    have committed : ((w.commit u d).visit v).closed = (w.visit v).closed :=
      World.data_modifyVisit Visit.closed rfl v
    -- The inbox may be woken, and what the journal is told then is no part of a visit.
    rw [← committed, ← told]
    unfold World.visit
    rw [visits]
  | _ => rfl

/-- What becomes of tasks closes no visit. -/
theorem Shift.closed (b : Shift (w, σ) w') (v : VisitId) :
    (w'.visit v).closed = (w.visit v).closed := by
  cases b with
  | @park _ _ t =>
    obtain ⟨queue, -, parked⟩ := w.park_eq t
    rw [parked]
    rfl
  | retire alive ease late chores => exact (Retired.of_chores chores).closed v
  | _ => rfl

end

/-! ## Where runs are -/

section

variable {w w' : World} {σ σ' : Stage} {t : TaskId} {r q : RunId} {u v : VisitId}

@[simp]
theorem World.place?_rest (w : World) (r : RunId) :
    w.place? .rest r = (w.run r).phase.visit? := by
  unfold place? standing?
  cases (w.run r).phase <;> rfl

@[simp]
theorem World.place?_busy (w : World) (t : TaskId) (r : RunId) (s : Spot) :
    w.place? (.busy t r s) r = s.inside? (w.run r).phase := by
  rw [place?, standing?_busy]
  cases s with
  | idle | left | announced => cases (w.run r).phase <;> rfl
  | _ => rfl

/-- Marks of how runs enter visits and leave them. -/
def Mark.isPassage : Mark → Bool
  | .entered _ _ | .left _ => true
  | _ => false

/-- What a stride of a run does to the visit that the run is in. -/
inductive Passage (w : World) (σ : Stage) (r : RunId) (w' : World) (σ' : Stage) : Prop where
  /-- The run stays in it, if it is in one. -/
  | stay {news : List Mark} (marks : w'.marks = w.marks ++ news)
      (quiet : ∀ m ∈ news, m.isPassage = false)
      (closed : ∀ u, (w'.visit u).closed = (w.visit u).closed)
      (place : ∀ v, w.place? σ r = some v → w'.place? σ' r = some v)
  /-- The run enters a new one. -/
  | enter (marks : w'.marks = w.marks ++ [.entered r w.visits.size])
      (closed : ∀ u, (w'.visit u).closed = (w.visit u).closed)
      (free : w.place? σ r = none) (place : w'.place? σ' r = some w.visits.size)
  /-- The run leaves it, and it is closed. -/
  | leave (v : VisitId) (marks : w'.marks = w.marks ++ [.left v])
      (closed : ∀ u, (w'.visit u).closed = if u = v then true else (w.visit u).closed)
      (place : w.place? σ r = some v)

/-- A run that goes further stays in its visit, enters a new one, or leaves its visit. -/
theorem Stride.passage (b : Stride t r (w, σ) (w', σ')) (staged : Staged w σ) :
    Passage w σ r w' σ' := by
  -- Most strides say nothing, or one thing, and it is not about entering or leaving.
  have silent (marks : w'.marks = w.marks)
      (closed : ∀ u, (w'.visit u).closed = (w.visit u).closed)
      (place : ∀ v, w.place? σ r = some v → w'.place? σ' r = some v) : Passage w σ r w' σ' :=
    .stay (marks.trans (List.append_nil _).symm) (List.forall_mem_nil _) closed place
  have marked {m : Mark} (marks : w'.marks = w.marks ++ [m]) (quiet : m.isPassage = false)
      (closed : ∀ u, (w'.visit u).closed = (w.visit u).closed)
      (place : ∀ v, w.place? σ r = some v → w'.place? σ' r = some v) : Passage w σ r w' σ' :=
    .stay marks (List.forall_mem_singleton.2 quiet) closed place
  -- A run that is dropped has looked around, or is between its moves.
  have suspended {σ : Stage} (ease : σ = .rest ∨ σ = .busy t r .idle) :
      w.place? σ r = (w.run r).phase.visit? := by
    rcases ease with rfl | rfl
    · exact World.place?_rest ..
    · simp [Spot.inside?]
  cases b with
  -- The one way in.
  | visit =>
    apply Passage.enter (World.marks_pushVisit ..) (w.closed_pushVisit r _)
    · simp [Spot.inside?]
    · simp [Spot.inside?]
  -- Before it enters and while it stays, a run says nothing about passing.
  | depart _ phase | dropBegun _ _ _ phase | dropArriving _ _ phase =>
    apply silent rfl (fun _ => rfl)
    simp [phase, Phase.visit?]
  | ready | tended | idle =>
    apply silent rfl (fun _ => rfl)
    simp [Spot.inside?]
  | wait =>
    apply silent rfl (fun _ => rfl)
    simp [Spot.inside?, World.phase_setPhase, Phase.visit?]
  | exit _ phase =>
    apply silent rfl (fun _ => rfl)
    simp [Spot.inside?, phase, Phase.visit?]
  | crew =>
    apply silent rfl (World.data_modifyVisit Visit.closed rfl)
    simp [Spot.inside?]
  | look | tear =>
    apply silent rfl (World.data_modifyVisit Visit.closed rfl)
    simp [World.modifyVisit]
  | @relax _ v =>
    have frame := Frame.abortWork w v
    obtain ⟨e, phase⟩ := (staged.placed t r _ rfl).suits
    apply silent frame.marks (fun u => (frame.visit u).closed)
    simp [Spot.inside?, phase, Phase.visit?]
  | hear | toll =>
    apply silent (by simp [Entry.mark?]) (fun _ => rfl)
    simp [Spot.inside?]
  | tell _ phase =>
    apply marked (World.marks_mark ..) rfl (fun _ => rfl)
    simp [phase, Phase.visit?]
  | conclude _ phase =>
    apply marked (World.marks_mark ..) rfl (fun _ => rfl)
    simp [Spot.inside?, phase, Phase.visit?]
  | act | arrive | launch | pass | tend | go | announce =>
    apply marked (World.marks_mark ..) rfl (fun _ => rfl)
    simp [Spot.inside?]
  | halt _ phase =>
    apply Passage.stay (World.marks_endRun ..) (by simp [Mark.isPassage]) (fun _ => rfl)
    simp [phase, Phase.visit?]
  | back | done =>
    apply Passage.stay (World.marks_endRun ..) (by simp [Mark.isPassage]) (fun _ => rfl)
    simp [Spot.inside?]
  | unwind ease =>
    apply marked (World.marks_release ..) rfl (fun _ => rfl)
    rcases ease with ⟨s, c, rest, rfl⟩ | ⟨rest, rfl⟩ | rfl <;> simp [Spot.inside?]
  -- The ways out: the visit is closed, whatever is the reason.
  | @forsake _ v | @close _ v | @shut _ v =>
    apply Passage.leave v (World.marks_closeVisit ..) (w.closed_closeVisit v)
    simp [Spot.inside?]
  | @quit _ v e _ phase =>
    apply Passage.leave v (World.marks_closeVisit ..) (w.closed_closeVisit v)
    simp [phase, Phase.visit?]
  | @dropWaiting _ _ v _ _ ease phase =>
    have frame := Frame.abortWork (w.setPhase r .ended) v
    apply Passage.leave v (by simp)
    · intro u
      rw [World.closed_closeVisit, (frame.visit u).closed]
      rfl
    · exact (suspended ease).trans (congrArg Phase.visit? phase)
  | @dropDraining _ _ v e _ _ ease phase =>
    apply Passage.leave v (by simp)
    · exact (w.setPhase r .ended).closed_closeVisit v
    · exact (suspended ease).trans (congrArg Phase.visit? phase)

/-- Whoever is not taken further stays in the visit that it is in. -/
theorem Stride.place?_of_ne (b : Stride t r (w, σ) (w', σ')) (staged : Staged w σ) (other : q ≠ r) :
    w'.place? σ' q = w.place? σ q := by
  -- The engine rests or is busy with another run, so the standing of this one is that of its phase.
  have apart {σ : Stage} (h : σ = .rest ∨ ∃ s, σ = .busy t r s) : σ.run? ≠ some q := by
    rcases h with rfl | ⟨s, rfl⟩
    · simp [Stage.run?]
    · simpa [Stage.run?] using other.symm
  have target := b.target staged
  unfold World.place?
  rw [w'.standing?_of_ne (apart (target.imp_left And.left)), w.standing?_of_ne (apart b.source),
    b.onward.run q other]

end

/-! ## Visits that were left are closed -/

namespace Enclosed

variable {w w' : World} {σ σ' : Stage}

/-- Nobody enters or leaves a visit. -/
theorem keep (h : Enclosed w σ) {news : List Mark} (marks : w'.marks = w.marks ++ news)
    (quiet : ∀ m ∈ news, m.isPassage = false)
    (closed : ∀ v, (w'.visit v).closed = (w.visit v).closed)
    (place : ∀ r v, .entered r v ∈ w.marks → w.place? σ r = some v → w'.place? σ' r = some v) :
    Enclosed w' σ' := by
  have same {m : Mark} (passage : m.isPassage = true) : m ∈ w'.marks ↔ m ∈ w.marks := by
    rw [marks, List.mem_append]
    refine or_iff_left fun new => ?_
    cases passage.symm.trans (quiet m new)
  constructor
  · intro v
    rw [closed, same rfl]
    exact h.shut v
  · intro r v entered
    have entered := (same rfl).1 entered
    rw [closed]
    exact (h.inside r v entered).imp_right (place r v entered)

theorem steady (h : Enclosed w σ) (o : Orderly w σ) (steady : Steady w w')
    (closed : ∀ v, (w'.visit v).closed = (w.visit v).closed)
    (place : ∀ r, r < w.runs.size → w'.place? σ' r = w.place? σ r) : Enclosed w' σ' := by
  obtain ⟨news, marks, aside⟩ := steady.marks
  apply h.keep marks _ closed
  · intro r v entered here
    rw [place r (o.listed _ entered r rfl)]
    exact here
  · intro m hm
    have aside := aside m hm
    cases m <;> first | rfl | cases aside

/-- A run that goes further stays in its visit, enters a new one, or leaves its visit closed. -/
theorem stride {t : TaskId} {r : RunId} (h : Enclosed w σ) (o : Orderly w σ)
    (b : Stride t r (w, σ) (w', σ')) : Enclosed w' σ' := by
  have other {q : RunId} (ne : q ≠ r) := b.place?_of_ne o.toStaged ne
  cases b.passage o.toStaged with
  | stay marks quiet closed place =>
    apply h.keep marks quiet closed
    intro q v _ here
    by_cases mine : q = r
    · subst mine
      exact place v here
    · rw [other mine]
      exact here
  | enter marks closed free place =>
    -- The run was in no visit, so it has left every one that it entered before.
    constructor
    · intro v
      rw [closed, h.shut v, marks]
      simp
    · intro q v entered
      rw [closed]
      rw [marks] at entered
      rcases List.mem_append.1 entered with old | new
      · refine (h.inside q v old).imp_right fun here => ?_
        have ne : q ≠ r := by
          rintro rfl
          cases free.symm.trans here
        rw [other ne]
        exact here
      · cases List.mem_singleton.1 new
        exact .inr place
  | leave v marks closed place =>
    -- The visit that is closed now is the one that the run was in, and no other run was.
    constructor
    · intro u
      rw [closed, marks, List.mem_append, ← h.shut u]
      by_cases here : u = v <;> simp [here]
    · intro q u entered
      rw [closed]
      have old : .entered q u ∈ w.marks := by simpa [marks] using entered
      split
      · exact .inl rfl
      · next apart =>
        refine (h.inside q u old).imp_right fun here => ?_
        have ne : q ≠ r := by
          rintro rfl
          exact apart (Option.some.inj (here.symm.trans place))
        rw [other ne]
        exact here

/-- Every beat keeps visits closed that were left, and runs in those that were not. -/
theorem beat (h : Enclosed w σ) (o : Orderly w σ) (b : Beat (w, σ) (w', σ')) : Enclosed w' σ' := by
  cases b with
  | stir b =>
    apply h.steady o b.steady b.closed
    intro r known
    have phase := (b.steady.run r known).phase
    unfold World.place? World.standing?
    rw [phase]
  | shift b =>
    apply h.steady o b.steady b.closed
    intro r known
    unfold World.place?
    rw [b.standing? o.toStaged known]
  | stride b => exact h.stride o b

theorem opening (s : Scenario) : Enclosed s.opening .rest where
  shut v := by
    constructor
    · intro closed
      cases closed
    · intro left
      cases left
  inside r v entered := by cases entered

end Enclosed

/-! ## Nothing is raised with success on a visit that was left -/

namespace Spent

variable {w w' : World} {σ σ' : Stage} {v : VisitId}

/-- A visit that is closed accepts nothing. -/
theorem accepted (staged : Staged w σ) (b : Beat (w, σ) (w', σ'))
    (closed : (w.visit v).closed = true) : w'.accepted v = w.accepted v := by
  cases b with
  | stir b =>
    rcases b.hears with deaf | ⟨u, d, -, -, -, opened, rfl⟩
    · exact deaf.accepted v
    · rw [World.accepted_accept, if_neg]
      rintro rfl
      cases closed.symm.trans opened
  | shift b => exact b.deaf.accepted v
  | stride b => exact (b.deaf staged).accepted v

theorem beat (h : Spent w) (enclosed : Enclosed w σ) (o : Orderly w σ)
    (b : Beat (w, σ) (w', σ')) : Spent w' := by
  intro v before after split d
  obtain ⟨news, marks⟩ : ∃ news, w'.marks = w.marks ++ news := b.marks o.toStaged
  rw [marks] at split
  rcases split_append split with ⟨mid, old, rfl⟩ | ⟨mid, rfl, added⟩
  · -- The visit was left before, and is closed.
    have left : .left v ∈ w.marks := by simp [old]
    have same := accepted o.toStaged b ((enclosed.shut v).2 left)
    intro raised
    rcases List.mem_append.1 raised with earlier | now
    · exact h v before mid old d earlier
    · exact World.not_raised marks same d now
  · -- A run leaves the visit now, and raises nothing.
    have here : .left v ∈ news := by simp [added]
    obtain ⟨t, r, stride⟩ := b.stride_of_way marks here rfl
    intro raised
    apply World.not_raised marks ((stride.deaf o.toStaged).accepted v) d
    rw [added]
    exact List.mem_append_right _ (List.mem_cons_of_mem _ raised)

theorem opening (s : Scenario) : Spent s.opening := by
  intro v before after split
  have none : ([] : List Mark) = before ++ .left v :: after := split
  simp at none

end Spent

/-! ## Raises that are ignored -/

namespace World

variable {w w' w'' : World} {v : VisitId}

namespace Ignores

theorem trans (h : w.Ignores v w') (h' : w'.Ignores v w'') : w.Ignores v w'' := by
  obtain ⟨news, marks, raised⟩ := h.marks
  obtain ⟨news', marks', raised'⟩ := h'.marks
  constructor
  case rest => rw [h'.rest, h.rest]
  case size => exact h'.size.trans h.size
  case own => rw [h'.own, h.own]
  case other => exact fun u ne => (h'.other u ne).trans (h.other u ne)
  case shown => exact h'.shown.trans h.shown
  case marks =>
    refine ⟨news ++ news', by rw [marks', marks, List.append_assoc], fun m hm => ?_⟩
    exact (List.mem_append.1 hm).elim (raised m) (raised' m)

theorem refl (w : World) (v : VisitId) : w.Ignores v w :=
  ⟨rfl, rfl, rfl, fun _ _ => rfl, rfl, [], by simp, by simp⟩

/-- A trace is of no account. -/
theorem trace (w : World) (v : VisitId) (t : Trace) : w.Ignores v (w.trace t) := by
  refine ⟨rfl, rfl, rfl, fun _ _ => rfl, ?_, [], World.marks_log .., by simp⟩
  simp [World.trace, World.log, Entry.isShown]

/-- So is the mark of an event that is not accepted. -/
theorem refused (w : World) (v : VisitId) (d : Decision) :
    w.Ignores v (w.mark (.raised v d false)) := by
  refine ⟨rfl, rfl, rfl, fun _ _ => rfl, ?_, _, World.marks_mark .., by simp⟩
  simp [World.mark, World.log, Entry.isShown]

/-- A visit may be committed. -/
theorem committed (known : v < w.visits.size) :
    w.Ignores v (w.modifyVisit v fun x => { x with fired := true }) := by
  refine ⟨rfl, Table.size_modify_of_lt known _, ?_, fun u ne => ?_, rfl, [],
    (List.append_nil _).symm, by simp⟩
  · rw [visit_modifyVisit, if_pos rfl]
  · rw [visit_modifyVisit, if_neg ne]

end Ignores

theorem lt_size_of_closed (closed : (w.visit v).closed = true) : v < w.visits.size := by
  rcases Nat.lt_or_ge v w.visits.size with known | new
  · exact known
  · have blank : w.visit v = default := Table.get_of_size_le new
    rw [blank] at closed
    cases closed

/-- Whatever is raised on a closed visit is not accepted, and is ignored. -/
theorem ignores_raise (closed : (w.visit v).closed = true) (d : Decision) :
    (w.raise v d).2 = false ∧ w.Ignores v (w.raise v d).1 := by
  have told (w : World) (t : Trace) : w.Ignores v ((w.trace t).mark (.raised v d false)) :=
    (Ignores.trace w v t).trans (.refused _ v d)
  unfold raise
  simp only
  split
  · exact ⟨rfl, told w _⟩
  · split
    · exact ⟨rfl, told w _⟩
    · exact ⟨rfl, (Ignores.committed (lt_size_of_closed closed)).trans (told _ _)⟩

/-- The outcome of a service that comes after its visit was closed is ignored. -/
theorem ignores_raiseOutcome (closed : (w.visit v).closed = true) (k : Nat)
    (failure : Option Fault) : w.Ignores v (w.raiseOutcome ⟨v, k⟩ failure) := by
  unfold raiseOutcome
  cases failure with
  | none =>
    simp only
    split
    · exact .refl w v
    · exact (ignores_raise closed _).2
  | some fault =>
    have told := Ignores.trace w v (.actionFailed (w.visit v).state.id fault)
    simp only
    split
    · exact told
    · exact told.trans (ignores_raise (w := w.trace _) closed _).2

end World

/-! ## Visits that are over -/

namespace Scenario

/-- A run has left every visit that it has entered, but for the one that it is in; in particular it
has left every other before it enters one, and all once it is over. On a visit that was left, no
event is accepted, whoever raises it and however late: neither through a callback, nor as the
outcome of a service. It does nothing to any other visit, to any run, task or interpreter, or to
what is shown and told. -/
theorem raises_of_left {s : Scenario} {w : World} {σ : Stage} (h : s.Moment w σ) :
    (∀ r v, .entered r v ∈ w.marks → .left v ∈ w.marks ∨ w.place? σ r = some v) ∧
    (∀ v d, .left v ∈ w.marks → (w.raise v d).2 = false ∧ w.Ignores v (w.raise v d).1) ∧
    (∀ v k failure, .left v ∈ w.marks → w.Ignores v (w.raiseOutcome ⟨v, k⟩ failure)) ∧
    ∀ v d before after, w.marks = before ++ .left v :: after → .raised v d true ∉ after := by
  have both : Enclosed w σ ∧ Spent w :=
    h.invariant (I := fun w σ => Enclosed w σ ∧ Spent w) ⟨.opening s, .opening s⟩
      fun o ⟨enclosed, spent⟩ beat => ⟨enclosed.beat o beat, spent.beat enclosed o beat⟩
  obtain ⟨enclosed, spent⟩ := both
  refine ⟨fun r v entered => ?_, fun v d left => ?_, fun v k failure left => ?_,
    fun v d before after split => spent v before after split d⟩
  · exact (enclosed.inside r v entered).imp_left (enclosed.shut v).1
  · exact World.ignores_raise ((enclosed.shut v).2 left) d
  · exact World.ignores_raiseOutcome ((enclosed.shut v).2 left) k failure

/-- A service keeps its callback and takes its state back to itself; the next one goes on to raise
the same event through the callback that was kept. -/
def haunted : Scenario where
  machine := ⟨"m", "M", "a", some [
    { State.new "a" with
      routes := [(.named "go", "a")]
      services := [.free { body :=
        [.act (.raiseKept "k" "go"), .act (.keep "k"), .act (.raise "go")] }] }]⟩
  interpreters := 1
  limit := none
  observers := []
  steps := [.run 0 100]

/-- The callback that was kept is that of the first stay, and the run is in the second. -/
theorem haunted_ignores : ("k", 0) ∈ (haunted.play 15).kept ∧
    (haunted.play 15).place? .rest 0 = some 1 ∧
    ((haunted.play 15).raise 0 ⟨.named "go", none⟩).2 = false ∧
    (haunted.play 15).Ignores 0 ((haunted.play 15).raise 0 ⟨.named "go", none⟩).1 := by
  obtain ⟨places, raises, -⟩ := raises_of_left (haunted.reaches_play 15).moment
  have left : .left 0 ∈ (haunted.play 15).marks := by decide +kernel
  have going : .left 1 ∉ (haunted.play 15).marks := by decide +kernel
  have entered : .entered 0 1 ∈ (haunted.play 15).marks := by decide +kernel
  exact ⟨by decide +kernel, (places 0 1 entered).resolve_left going, raises 0 _ left⟩

end Scenario

end Statechart
