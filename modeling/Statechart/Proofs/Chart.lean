import Statechart.Proofs.CleanupOnce
import Statechart.Proofs.Course
import Statechart.Proofs.Loyalty
import Statechart.Proofs.Ways

/-!
# The courses of runs

The way of every run that was begun is a course, and where the run stands in it shows in its phase
and in the move under way. Tasks that work for a visit of the run are there only while the run
stands at the visit.

## Main definitions

- `World.standing?`: where a run stands, as far as the world shows it.
- `Chart`: the way of a run is a course that ends where the run stands.
- `Orderly`: everything that is kept by every beat.

## Main statements

- `Charted.beat`: every beat takes the course of a run further, or leaves it.
- `Orderly.beat`: every beat keeps a world orderly.
- `Scenario.Reaches.orderly`: every world that a scenario comes to is orderly.
-/

namespace Statechart

/-! ## Where runs stand -/

/-- How the wait that is over ended. -/
def Phase.ending? : Phase → Option Ending
  | .draining _ e => some e
  | _ => none

/-- Where a run stands between its moves. -/
def Phase.standing? : Phase → Option Standing
  | .begun s => some (.arriving s none none)
  | .arriving s p c => some (.arriving s p c)
  | .waiting v => some (.waiting v)
  | .draining v e => some (.draining v e)
  | .ended => none

/-- Where a run in a phase stands within its move. -/
def Spot.standing? (p : Phase) : Spot → Option Standing
  | .told s c _ => some (.told s c.previous c.cause)
  | .acting v phrase k => some (.acting v phrase (if phrase = .enter then none else p.ending?) k)
  | .arrived v => some (.arrived v)
  | .launching v k => some (.launching v k)
  | .forsaken _ _ | .broken => some .lost
  | .left v => p.ending?.map (.left v)
  | .announced _ =>
    match p with
    | .draining v e => some (.announced v e)
    | _ => none
  | .idle => p.standing?
  | .finished => none

/-- Where a run stands, as far as the world shows it. -/
def World.standing? (w : World) (σ : Stage) (r : RunId) : Option Standing :=
  match σ with
  | .rest => (w.run r).phase.standing?
  | .busy _ q s => if r = q then s.standing? (w.run r).phase else (w.run r).phase.standing?

/-- A run stands where the world shows it to, and where the world shows nothing it has ended. -/
def Standing.Matches (st : Standing) : Option Standing → Prop
  | some st' => st = st'
  | none => st = .lost ∨ st.isOver = true

/-- The way of a run is a course that ends where the run stands, and only there are the tasks of
its visits. -/
structure Chart (w : World) (σ : Stage) (r : RunId) (st : Standing) : Prop where
  stands : st.Matches (w.standing? σ r)
  course : Course w r st (w.way r)
  crew : ∀ t v, (w.task t).home = some v → (w.visit v).run = r → (w.task t).isAlive = true →
    st = .lost ∨ st.home? = some v

/-- The ways of all runs that were begun are courses. -/
def Charted (w : World) (σ : Stage) : Prop :=
  ∀ r, .began r ∈ w.marks → ∃ st, Chart w σ r st

/-- Everything that every beat keeps. -/
structure Orderly (w : World) (σ : Stage) : Prop extends Sound w σ where
  recorded : Recorded w
  slotted : Slotted w σ
  crewed : Crewed w σ
  fated : Fated w
  loyal : Loyal w σ
  rooted : Rooted w
  tidy : Tidy w σ
  asked : Asked w
  listed : Listed w
  heeded : Heeded w
  charted : Charted w σ

section

variable {w w' : World} {σ σ' : Stage} {t : TaskId} {r q : RunId} {v : VisitId}
  {st st' : Standing}

@[simp]
theorem World.standing?_rest (w : World) (r : RunId) :
    w.standing? .rest r = (w.run r).phase.standing? := rfl

@[simp]
theorem World.standing?_busy (w : World) (t : TaskId) (r : RunId) (s : Spot) :
    w.standing? (.busy t r s) r = s.standing? (w.run r).phase :=
  if_pos rfl

theorem World.standing?_of_ne (w : World) (h : σ.run? ≠ some r) :
    w.standing? σ r = (w.run r).phase.standing? := by
  cases σ with
  | rest => rfl
  | busy t q s => exact if_neg fun mine => h (congrArg some mine.symm)

@[simp]
theorem Standing.matches_some : st.Matches (some st') ↔ st = st' := .rfl

@[simp]
theorem Standing.matches_none : st.Matches none ↔ st = .lost ∨ st.isOver = true := .rfl

end

/-! ## Courses that go on -/

namespace Chart

variable {w w' : World} {σ σ' : Stage} {t : TaskId} {r q : RunId} {v : VisitId}
  {st st' : Standing}

/-- A course stays one after a beat. -/
theorem keep (h : Chart w σ r st) (o : Orderly w σ) (began : .began r ∈ w.marks)
    (b : Beat (w, σ) (w', σ')) : Course w' r st (w.way r) :=
  have l := b.lasting
  h.course.mono (b.machineOf o.rooted began) (fun _ => l.owns) (fun _ own => l.state _ own.known)
    fun _ _ => l.homes

/-- A leg takes a course further after a beat. -/
theorem leg (h : Chart w σ r st) (o : Orderly w σ) (began : .began r ∈ w.marks)
    (b : Beat (w, σ) (w', σ')) {news : List Mark} (leg : Leg w r (w.way r) st news st')
    (way : w'.way r = w.way r ++ news) : Course w' r st' (w'.way r) := by
  have l := b.lasting
  rw [way]
  exact (h.course.leg leg).mono (b.machineOf o.rooted began) (fun _ => l.owns)
    (fun _ own => l.state _ own.known) fun _ _ => l.homes

/-- A run goes on to stand somewhere, and the tasks of its visits stay with it, or are gone. -/
theorem next (h : Chart w σ r st) (o : Orderly w σ) (b : Beat (w, σ) (w', σ'))
    (course : Course w' r st' (w'.way r)) (stands : st'.Matches (w'.standing? σ' r))
    (keep : ∀ v, st.home? = some v → st' = .lost ∨ st'.home? = some v ∨ (w.visit v).working = [])
    (lost : st = .lost → st' = .lost) : Chart w' σ' r st' := by
  refine ⟨stands, course, fun t v home own alive => ?_⟩
  rcases b.servant home alive with ⟨home, alive⟩ | ⟨u, q, k, rfl, rfl⟩
  · have known := (o.crewed.home t v home).1
    rw [b.lasting.owner v known] at own
    rcases h.crew t v home own alive with gone | here
    · exact .inl (lost gone)
    · rcases keep v here with gone | here | empty
      · exact .inl gone
      · exact .inr here
      · have listed := o.crewed.working t v home alive
        rw [empty] at listed
        cases listed
  · -- The visit is getting its tasks, so the run stands there.
    have mine := (o.placed u q _ rfl).own v rfl
    rw [b.lasting.owner v mine.known, mine.run] at own
    subst own
    rw [World.standing?_busy] at stands
    cases stands
    exact .inr rfl

/-- A run that a beat is not about stays where it stands. -/
theorem stay (h : Chart w σ r st) (o : Orderly w σ) (began : .began r ∈ w.marks)
    (b : Beat (w, σ) (w', σ')) (way : w'.way r = w.way r)
    (stands : w'.standing? σ' r = w.standing? σ r) : Chart w' σ' r st := by
  refine h.next o b ?_ (stands ▸ h.stands) (fun v hv => .inr (.inl hv)) id
  exact way ▸ h.keep o began b

/-- A leg takes the run of a stride further. -/
theorem stride (h : Chart w σ r st) (o : Orderly w σ) (began : .began r ∈ w.marks)
    (b : Stride t r (w, σ) (w', σ')) {news : List Mark} (marks : w'.marks = w.marks ++ news)
    (leg : Leg w r (w.way r) st news st') (stands : st'.Matches (w'.standing? σ' r))
    (keep : ∀ v, st.home? = some v → st' = .lost ∨ st'.home? = some v ∨ (w.visit v).working = [])
    (lost : st = .lost → st' = .lost) : Chart w' σ' r st' := by
  refine h.next o (.stride b) (h.leg o began (.stride b) leg ?_) stands keep lost
  rw [b.way o.toStaged o.recorded o.crewed marks, if_pos rfl]

end Chart

/-! ## Strides -/

section

variable {w w' : World} {σ σ' : Stage} {t : TaskId} {r q : RunId} {v : VisitId}
  {st st' : Standing}

/-- A run that is taken further was begun. -/
theorem Orderly.began (o : Orderly w σ) (b : Stride t r (w, σ) (w', σ')) : .began r ∈ w.marks :=
  (o.slotted.owner _ r (o.slotted.holder r b.inProgress)).2

/-- A run in a move stands where the move shows it to. -/
theorem Orderly.chart {s : Spot} (o : Orderly w (.busy t r s))
    (here : s.standing? (w.run r).phase = some st) : Chart w (.busy t r s) r st := by
  have going : w.InProgress (.busy t r s) r := by
    refine .inr ⟨t, s, rfl, ?_⟩
    rintro rfl
    cases here
  obtain ⟨st', chart⟩ := o.charted r (o.slotted.owner _ r (o.slotted.holder r going)).2
  have stands := chart.stands
  rw [World.standing?_busy, here, Standing.matches_some] at stands
  exact stands ▸ chart

theorem World.mem_way_stopAsked : .stopAsked r ∈ w.way r ↔ .stopAsked r ∈ w.marks := by
  simp [mem_way, subject?]

/-- A stride takes the course of its run further. -/
theorem Chart.own (h : Chart w σ r st) (o : Orderly w σ) (b : Stride t r (w, σ) (w', σ')) :
    ∃ st, Chart w' σ' r st := by
  have began := o.began b
  have stands {st₀ : Standing} (here : w.standing? σ r = some st₀) : st = st₀ := by
    have stands := h.stands
    rwa [here] at stands
  have asked : .stopAsked r ∈ w.way r ↔ (w.run r).cancelled = true := by
    rw [World.mem_way_stopAsked]
    exact ⟨o.heeded r, o.asked r⟩
  have beat : Beat (w, σ) (w', σ') := .stride b
  have way {news : List Mark} (marks : w'.marks = w.marks ++ news) :
      w'.way r = w.way r ++ news := by
    rw [b.way o.toStaged o.recorded o.crewed marks, if_pos rfl]
  -- What all cases have in common: which marks are left, which leg of the course they are, where
  -- the run stands then, and why no task is left behind.
  have next {news : List Mark} {st' : Standing} (marks : w'.marks = w.marks ++ news)
      (leg : Leg w r (w.way r) st news st') (stands : st'.Matches (w'.standing? σ' r))
      (keep : st'.home? = st.home? ∨ st.home? = none ∨ st' = .lost ∨
        ∀ v, st.home? = some v → (w.visit v).working = [])
      (lost : st = .lost → st' = .lost) : ∃ st, Chart w' σ' r st := by
    refine ⟨st', h.stride o began b marks leg stands (fun v hv => ?_) lost⟩
    rcases keep with same | none | gone | empty
    · exact .inr (.inl (same.trans hv))
    · cases none.symm.trans hv
    · exact .inl gone
    · exact .inr (.inr (empty v hv))
  have silent {st' : Standing} (marks : w'.marks = w.marks) (leg : Leg w r (w.way r) st [] st')
      (stands : st'.Matches (w'.standing? σ' r))
      (keep : st'.home? = st.home? ∨ st.home? = none ∨ st' = .lost ∨
        ∀ v, st.home? = some v → (w.visit v).working = [])
      (lost : st = .lost → st' = .lost) : ∃ st, Chart w' σ' r st :=
    next (marks.trans (List.append_nil _).symm) leg stands keep lost
  -- What the phase of a run says of its move.
  have suits {s : Spot} (hσ : σ = .busy t r s) : s.Suits (w.run r).phase :=
    (o.placed t r s hσ).suits
  cases b with
  -- The run arrives at a state: it tells the observers, enters the state and carries out the enter
  -- actions, one by one.
  | depart drives phase =>
    cases stands (congrArg Phase.standing? phase)
    exact silent (by simp) .rest (by simp [Phase.standing?]) (.inl rfl) id
  | tell drives phase free =>
    cases stands (congrArg Phase.standing? phase)
    refine next (World.marks_mark ..) (.tell ?_) (by simp [Spot.standing?]) (.inl rfl) (by simp)
    rw [asked, free]
    exact Bool.false_ne_true
  | hear =>
    exact silent (by simp [Entry.mark?]) .rest h.stands (.inl rfl) id
  | @visit _ s c =>
    cases stands (World.standing?_busy ..)
    refine ⟨.acting w.visits.size .enter none 0, h.next o beat ?_ ?_ ?_ (by simp)⟩
    · -- The new visit comes after those that the run has entered.
      rw [way (w.marks_pushVisit r s)]
      refine .leg (h.keep o began beat) (.enter (w.owns_pushVisit r s) ?_ fun u hu => ?_)
      · simp [World.pushVisit, World.trace, World.mark, World.log]
      · exact o.recorded.visit _ (World.mem_way.1 hu).1 u rfl
    · simp [Spot.standing?]
    · simp [Standing.home?]
  | @act _ v phrase k more =>
    cases stands (World.standing?_busy ..)
    refine next (World.marks_mark ..) (.act more) ?_ (.inl ?_) (by simp)
    · simp [Spot.standing?]
    · cases phrase <;> rfl
  | arrive all =>
    cases stands (World.standing?_busy ..)
    exact next (World.marks_mark ..) (.arrive all) (by simp [Spot.standing?]) (.inl rfl) (by simp)
  | pass transient =>
    cases stands (World.standing?_busy ..)
    refine next (World.marks_mark ..) (.pass transient) ?_ (.inr (.inl rfl)) (by simp)
    simp [Spot.standing?, Phase.ending?]
  -- The work of the state is set up, and the run waits.
  | ready stays =>
    cases stands (World.standing?_busy ..)
    exact silent rfl (.ready stays) (by simp [Spot.standing?])
      (.inr (.inl rfl)) (by simp)
  | launch part =>
    cases stands (World.standing?_busy ..)
    exact next (World.marks_mark ..) (.launch part) (by simp [Spot.standing?]) (.inl rfl) (by simp)
  | crew =>
    exact silent rfl .rest h.stands (.inl rfl) id
  | wait all =>
    cases stands (World.standing?_busy ..)
    exact silent (by simp) (.wait all) (by simp [Phase.standing?]) (.inl rfl) (by simp)
  | forsake =>
    cases stands (World.standing?_busy ..)
    exact next (World.marks_closeVisit ..) (.fall rfl (by simp [Mark.isFall]))
      (by simp [Spot.standing?]) (.inr (.inr (.inl rfl))) (by simp)
  -- While it waits the run only looks, until there is a reason to conclude.
  | look =>
    exact silent rfl .rest h.stands (.inl rfl) id
  | idle =>
    refine silent rfl .rest ?_ (.inl rfl) id
    simpa [Spot.standing?] using h.stands
  | @conclude _ v e drives phase sees =>
    cases stands (congrArg Phase.standing? phase)
    refine next (World.marks_mark ..) (.conclude ?_) ?_ (.inl rfl) (by simp)
    · rw [asked]
      cases sees with
      | stopped stop => simp [stop]
      | decided free | panicked free | settled free => simp [free]
    · simp [Spot.standing?, Phase.ending?]
  -- It leaves the state: it carries out the cleanup, and the exit actions if there is reason to.
  | tear =>
    exact silent rfl .rest h.stands (.inl rfl) id
  | @relax _ v k all =>
    obtain ⟨e, phase⟩ := suits rfl
    obtain rfl : st = .acting v .cleanup (some e) k :=
      stands (by simp [Spot.standing?, phase, Phase.ending?])
    refine silent (by simp) (.relax all) ?_ (.inl rfl) (by simp)
    simp [phase, Phase.standing?]
  | @exit _ v e drives phase gone exits =>
    cases stands (congrArg Phase.standing? phase)
    refine silent rfl (.exit exits) ?_ (.inr (.inr (.inr fun u hu => ?_)))
      (by simp)
    · simp [Spot.standing?, phase, Phase.ending?]
    · cases hu
      exact gone
  | @close _ v k all =>
    obtain ⟨e, phase⟩ := suits rfl
    obtain rfl : st = .acting v .exit (some e) k :=
      stands (by simp [Spot.standing?, phase, Phase.ending?])
    refine next (World.marks_closeVisit ..) (.close all) ?_ (.inl rfl) (by simp)
    simp [Spot.standing?, phase, Phase.ending?]
  | @quit _ v e drives phase gone stays =>
    cases stands (congrArg Phase.standing? phase)
    refine next (World.marks_closeVisit ..) (.quit stays) ?_ (.inr (.inr (.inr fun u hu => ?_)))
      (by simp)
    · simp [Spot.standing?, phase, Phase.ending?]
    · cases hu
      exact gone
  -- From the state that it has left it goes on, or comes to its end.
  | @go _ v e s d phase after =>
    obtain rfl : st = .left v e := stands (by simp [Spot.standing?, phase, Phase.ending?])
    refine next (w.marks_goTo ..) (.go after) ?_ (.inl rfl) (by simp)
    simp [Phase.standing?]
  | @announce _ v e phase after =>
    obtain rfl : st = .left v e := stands (by simp [Spot.standing?, phase, Phase.ending?])
    refine next (World.marks_mark ..) (.announce after) ?_ (.inl rfl) (by simp)
    simp [Spot.standing?, phase]
  | toll =>
    exact silent (by simp [Entry.mark?]) .rest h.stands (.inl rfl) id
  | halt drives phase stopped =>
    cases stands (congrArg Phase.standing? phase)
    refine next (World.marks_endRun ..) (.halt (asked.2 stopped)) ?_ (.inl rfl) (by simp)
    simp [Spot.standing?, Standing.isOver]
  | @back _ v e _ phase after =>
    obtain rfl : st = .left v e := stands (by simp [Spot.standing?, phase, Phase.ending?])
    refine next (World.marks_endRun ..) (.back after) ?_ (.inl rfl) (by simp)
    simp [Spot.standing?, Standing.isOver]
  | done =>
    obtain ⟨v, e, phase⟩ := suits rfl
    obtain rfl : st = .announced v e := stands (by simp [Spot.standing?, phase])
    refine next (World.marks_endRun ..) .done ?_ (.inl rfl) (by simp)
    simp [Spot.standing?, Standing.isOver]
  -- Something has panicked, so the run is lost.
  | shut =>
    cases stands (World.standing?_busy ..)
    exact next (World.marks_closeVisit ..) (.fall rfl (by simp [Mark.isFall]))
      (by simp [Spot.standing?]) (.inr (.inr (.inl rfl))) (by simp)
  | tend =>
    cases stands (World.standing?_busy ..)
    exact next (World.marks_mark ..) (.fall rfl (by simp [Mark.isFall]))
      (by simp [Spot.standing?]) (.inl rfl) id
  | tended =>
    exact silent rfl .rest (by simpa [Spot.standing?] using h.stands) (.inl rfl) id
  | unwind ease =>
    refine next (World.marks_release ..) (.fall ?_ (by simp [Mark.isFall]))
      (by simp [Spot.standing?]) (.inr (.inr (.inl rfl))) (fun _ => rfl)
    rcases ease with ⟨s, c, rest, rfl⟩ | ⟨rest, rfl⟩ | rfl
    · cases stands (World.standing?_busy ..)
      rfl
    · obtain ⟨v, e, phase⟩ := suits rfl
      obtain rfl : st = .announced v e := stands (by simp [Spot.standing?, phase])
      rfl
    · cases stands (World.standing?_busy ..)
      rfl
  -- Whoever holds the run drops it, and what it was about to do is not done.
  | dropBegun _ _ _ phase =>
    cases stands (congrArg Phase.standing? phase)
    exact silent (by simp) (.fall rfl (by simp)) (by simp [Spot.standing?])
      (.inr (.inr (.inl rfl))) (by simp)
  | dropArriving _ _ phase =>
    cases stands (congrArg Phase.standing? phase)
    exact silent (by simp) (.fall rfl (by simp)) (by simp [Spot.standing?])
      (.inr (.inr (.inl rfl))) (by simp)
  | @dropWaiting w _ v alive job ease phase =>
    obtain rfl : st = .waiting v := stands (by
      rcases ease with rfl | rfl <;> simp [phase, Spot.standing?, Phase.standing?])
    have marks : (((w.setPhase r .ended).abortWork v).closeVisit v).marks =
        w.marks ++ [.left v] := by simp
    exact next marks (.fall rfl (by simp [Mark.isFall])) (by simp [Spot.standing?])
      (.inr (.inr (.inl rfl))) (by simp)
  | @dropDraining _ _ v e alive job ease phase =>
    obtain rfl : st = .draining v e := stands (by
      rcases ease with rfl | rfl <;> simp [phase, Spot.standing?, Phase.standing?])
    exact next (World.marks_closeVisit ..) (.fall rfl (by simp [Mark.isFall]))
      (by simp [Spot.standing?]) (.inr (.inr (.inl rfl))) (by simp)

/-- A stride leaves the courses of other runs as they are. -/
theorem Chart.other (h : Chart w σ r st) (o : Orderly w σ) (began : .began r ∈ w.marks)
    (b : Stride t q (w, σ) (w', σ')) (ne : r ≠ q) : Chart w' σ' r st := by
  obtain ⟨news, marks, -⟩ := b.speaks o.toStaged
  refine h.stay o began (.stride b) ?_ ?_
  · rw [b.way o.toStaged o.recorded o.crewed marks, if_neg ne, List.append_nil]
  · have before : σ.run? ≠ some r := by
      rcases b.source with rfl | ⟨s, rfl⟩
      · simp [Stage.run?]
      · simpa [Stage.run?] using ne.symm
    have after : σ'.run? ≠ some r := by
      rcases b.target o.toStaged with ⟨rfl, -⟩ | ⟨s, rfl⟩
      · simp [Stage.run?]
      · simpa [Stage.run?] using ne.symm
    rw [w.standing?_of_ne before, w'.standing?_of_ne after, b.onward.run r ne]

/-! ## Stirs and shifts -/

/-- Stops may be asked for at any time. -/
theorem Course.asks {ms news : List Mark} (c : Course w r st ms)
    (asks : ∀ m ∈ news, m = .stopAsked r) : Course w r st (ms ++ news) := by
  induction news generalizing ms with
  | nil => exact (List.append_nil ms).symm ▸ c
  | cons m news ih =>
    cases asks m List.mem_cons_self
    rw [List.append_cons]
    exact ih (c.leg .ask) fun m hm => asks m (List.mem_cons_of_mem _ hm)

/-- What scripts do leaves runs where they stand. -/
theorem Chart.stir (h : Chart w σ r st) (o : Orderly w σ) (began : .began r ∈ w.marks)
    (b : Stir σ w w') : Chart w' σ r st := by
  have beat : Beat (w, σ) (w', σ) := .stir b
  have known := o.rooted.run r began
  have lasting := beat.lasting
  have way {news : List Mark} (marks : w'.marks = w.marks ++ news) :=
    World.way_append lasting o.recorded o.crewed marks r
  have phase : (w'.run r).phase = (w.run r).phase := (b.steady.run r known).phase
  have stands : st.Matches (w'.standing? σ r) := by
    have same : w'.standing? σ r = w.standing? σ r := by
      unfold World.standing?
      rw [phase]
    exact same ▸ h.stands
  refine h.next o beat ?_ stands (fun v hv => .inr (.inl hv)) id
  have keep := h.keep o began beat
  -- Of what scripts do, only stops are about a run that is there, and these may come at any time.
  rcases b.hushed with hushed | ⟨x, -, rfl⟩ | ⟨i, s, -, rfl⟩
  · obtain ⟨news, marks, talk⟩ := hushed.talk
    rw [way marks]
    refine keep.asks fun m hm => ?_
    obtain ⟨new, subject⟩ := List.mem_filter.1 hm
    have subject := of_decide_eq_true subject
    have talk := talk m new
    cases m with
    | stopAsked q => exact congrArg Mark.stopAsked (Option.some.inj subject)
    | raised | limited => cases subject
    | _ => cases talk
  · exact (way (List.append_nil _).symm).symm ▸ keep.asks (by simp)
  · rw [way (w.marks_startNew i s)]
    have other : w.runs.size ≠ r := (Nat.ne_of_lt known).symm
    exact keep.asks (by simp [World.subject?, other])

/-- What becomes of tasks leaves runs where they stand. -/
theorem Shift.standing? (b : Shift (w, σ) w') (staged : Staged w σ) (known : r < w.runs.size) :
    w'.standing? .rest r = w.standing? σ r := by
  rw [World.standing?_rest, (b.steady.run r known).phase]
  by_cases mine : σ.run? = some r
  · cases b with
    | turn | unqueue | begin => cases mine
    | park _ ease =>
      rcases ease with ⟨rfl, -⟩ | ⟨q, rfl⟩
      · cases mine
      · cases mine
        simp [Spot.standing?]
    | retire _ ease =>
      rcases ease with ⟨rfl, -⟩ | ⟨q, rfl⟩
      · cases mine
      · cases mine
        have ended : (w.run r).phase = .ended := (staged.placed _ r _ rfl).suits
        simp [ended, Spot.standing?, Phase.standing?]
    | resume =>
      cases mine
      have ended : (w.run r).phase = .ended := (staged.placed _ r _ rfl).suits
      simp [ended, Spot.standing?, Phase.standing?]
  · rw [w.standing?_of_ne mine]

/-- A run stays where it stands while its tasks have turns and end, unless the run is lost. -/
theorem Chart.shift (h : Chart w σ r st) (o : Orderly w σ) (began : .began r ∈ w.marks)
    (b : Shift (w, σ) w') : ∃ st, Chart w' .rest r st := by
  have beat : Beat (w, σ) (w', .rest) := .shift b
  have known := o.rooted.run r began
  have way {news : List Mark} (marks : w'.marks = w.marks ++ news) :=
    World.way_append beat.lasting o.recorded o.crewed marks r
  have same := b.standing? o.toStaged known
  have stay (way : w'.way r = w.way r) : ∃ st, Chart w' .rest r st :=
    ⟨st, h.stay o began beat way same⟩
  -- The mark of a task is about the run whose visit the task works for.
  have ofTask {t : TaskId} {m : Mark} (marks : w'.marks = w.marks ++ [m])
      (subject : w'.subject? m = (w.task t).home.map fun v => (w.visit v).run)
      (mine : ∀ v, (w.task t).home = some v → (w.visit v).run = r →
        w'.way r = w.way r ++ [m] → ∃ st, Chart w' .rest r st) : ∃ st, Chart w' .rest r st := by
    have way := way marks
    by_cases about : w'.subject? m = some r
    · obtain ⟨v, home, own⟩ := Option.map_eq_some_iff.1 (subject.symm.trans about)
      exact mine v home own (by simpa [about] using way)
    · exact stay (by simpa [about] using way)
  have next {news : List Mark} (leg : Leg w r (w.way r) st news st)
      (way : w'.way r = w.way r ++ news) : ∃ st, Chart w' .rest r st :=
    ⟨st, h.next o beat (h.leg o began beat leg way) (same ▸ h.stands) (fun v hv => .inr (.inl hv))
      id⟩
  cases b with
  -- Turns that are given back, and new runs and jobs, are not about this run.
  | unqueue | resume =>
    refine stay ?_
    simpa using way (List.append_nil _).symm
  | @park _ _ t =>
    obtain ⟨queue, -, parked⟩ := w.park_eq t
    have marks : (w.park t).marks = w.marks ++ [] := by simp [parked]
    exact stay (by simpa using way marks)
  | @begin _ t job i s =>
    refine stay ?_
    have other : w.runs.size ≠ r := (Nat.ne_of_lt known).symm
    have marks : ((w.takeSlot i t s).setJob t job).marks = w.marks ++ [.began w.runs.size] :=
      w.marks_takeSlot i t s
    simpa [World.subject?, other] using way marks
  | @turn _ t free ready whole =>
    refine ofTask (t := t) (m := .turn t) (by simp) rfl fun v home own way => ?_
    -- Whoever has not been told to go works for a visit that its run waits for.
    have waits := (o.loyal.whole t v ⟨home, o.ready t ready, whole⟩).resolve_right (by
      simp [Stage.employs?])
    unfold World.runOf at waits
    rw [own] at waits
    have stands := h.stands
    simp only [World.standing?_rest, waits, Phase.standing?, Standing.matches_some] at stands
    subst stands
    exact next (.turn home) way
  | @retire _ w₁ _ t fate alive ease late chores =>
    have retired := Retired.of_chores chores
    refine ofTask (t := t) retired.marks ?_ fun v home own way => ?_
    · simp only [World.subject?, retired.home, retired.owner]
    have falls : ∀ m ∈ [Mark.ended t fate], m.isFall = true := by simp [Mark.isFall]
    -- A run that is lost may lose any of its tasks.
    rcases h.crew t v home own alive with rfl | here
    · exact next (.fall rfl falls) way
    have stands : st.Matches (w.run r).phase.standing? := by
      have stands := same ▸ h.stands
      rwa [World.standing?_rest, retired.run] at stands
    have standing {st₀ : Standing} (at₀ : (w.run r).phase.standing? = some st₀) : st = st₀ := by
      rwa [at₀] at stands
    -- The task works for the visit that the run stands at, so the run waits or drains it.
    cases phase : (w.run r).phase with
    | begun | arriving =>
      cases standing (congrArg Phase.standing? phase)
      cases here
    | waiting u =>
      cases standing (congrArg Phase.standing? phase)
      cases here
      exact next (.finish home) way
    | draining u e =>
      cases standing (congrArg Phase.standing? phase)
      cases here
      refine next (.drop home (late fun turn => ?_)) way
      -- Nobody has a turn for a visit that is being left.
      have waits := o.loyal.turn t _ turn home
      unfold World.runOf at waits
      rw [own, phase] at waits
      cases waits
    | ended =>
      simp only [phase, Phase.standing?, Standing.matches_none] at stands
      rcases stands with rfl | finished
      · exact next (.fall rfl falls) way
      · cases st <;> simp_all [Standing.isOver, Standing.home?]

/-! ## New runs -/

/-- A new run stands before its initial state. -/
theorem Chart.new {s : State} (o : Orderly w σ) (b : Beat (w, σ) (w', σ))
    (begins : Begins w w' r s) : Chart w' σ r (.arriving s none none) := by
  -- No visit is one of the new run, and no mark is about it yet.
  have young {u : VisitId} (own : (w.visit u).run = r) (known : (w.visit u).run < w.runs.size) :
      False := by
    rw [own, begins.new] at known
    exact Nat.lt_irrefl _ known
  refine ⟨?_, ?_, fun t v home own alive => ?_⟩
  · have other : σ.run? ≠ some r := by
      cases σ with
      | rest => simp [Stage.run?]
      | busy t q s =>
        have known := (o.busy t q s rfl).known
        rw [begins.new]
        simpa [Stage.run?] using Nat.ne_of_lt known
    rw [w'.standing?_of_ne other, begins.phase]
    rfl
  · have blank : w.way r = [] := by
      refine List.filter_eq_nil_iff.2 fun m hm => ?_
      intro subject
      have known := o.listed m hm r (of_decide_eq_true subject)
      exact absurd (begins.new ▸ known) (Nat.lt_irrefl _)
    have way : w'.way r = [.began r] := by
      rw [World.way_append b.lasting o.recorded o.crewed begins.marks, blank]
      simp [World.subject?]
    rw [way]
    refine .start ?_
    unfold World.machineOf
    rw [b.fixed.machine _ begins.interpreter]
    exact begins.first
  -- A task works for a visit that was there before the run, and for the run that this visit is of.
  · rcases b.servant home alive with ⟨home, -⟩ | ⟨u, q, k, rfl, -⟩
    · obtain ⟨known, begun, -⟩ := o.crewed.home t v home
      rw [b.lasting.owner v known] at own
      exact (young own begun).elim
    · have mine := (o.placed u q _ rfl).own v rfl
      rw [b.lasting.owner v mine.known] at own
      exact (young own (mine.run ▸ (o.busy u q _ rfl).known)).elim

/-- Every beat takes the course of a run further, or leaves it. -/
theorem Charted.beat (o : Orderly w σ) (b : Beat (w, σ) (w', σ')) : Charted w' σ' := by
  intro r began'
  rcases b.begins o.toStaged began' with began | ⟨rfl, s, begins⟩
  · obtain ⟨st, h⟩ := o.charted r began
    cases b with
    | stir b => exact ⟨st, h.stir o began b⟩
    | shift b => exact h.shift o began b
    | @stride t q _ _ b =>
      by_cases mine : r = q
      · subst mine
        exact h.own o b
      · exact ⟨st, h.other o began b mine⟩
  · exact ⟨_, .new o b begins⟩

/-! ## Order -/

theorem Orderly.beat (o : Orderly w σ) (b : Beat (w, σ) (w', σ')) : Orderly w' σ' where
  toSound := o.toSound.beat b
  recorded := o.recorded.beat o.toSound b
  slotted := o.slotted.beat o.toSound b
  crewed := o.crewed.beat o.toSound b
  fated := o.fated.beat o.recorded o.toStaged b
  loyal := o.loyal.beat o.toSound o.crewed b
  rooted := o.rooted.beat o.toSound b
  tidy := o.tidy.beat o.toSound o.recorded b
  asked := o.asked.beat o.toStaged b
  listed := o.listed.beat o.toSound o.recorded o.crewed o.slotted b
  heeded := o.heeded.beat o.toStaged o.listed b
  charted := .beat o b

theorem Orderly.beats {x y : World × Stage} (o : Orderly x.1 x.2) (b : Beats x y) :
    Orderly y.1 y.2 := by
  induction b with
  | refl => exact o
  | tail _ beat ih => exact ih.beat beat

end

theorem Orderly.opening (s : Scenario) : Orderly s.opening .rest where
  toSound := s.sound_opening
  recorded := ⟨fun m hm => (by cases hm), fun m hm => (by cases hm)⟩
  slotted := .opening s
  crewed := .opening s
  fated t v hv := by cases hv
  loyal := .opening s
  rooted := ⟨fun r hr => (by cases hr), fun r hr => (by cases hr)⟩
  tidy := .opening s
  asked r hr := by cases hr
  listed m hm := by cases hm
  heeded r hr := by cases hr
  charted r hr := by cases hr

/-- Every world that a scenario comes to is orderly. -/
theorem Scenario.Reaches.orderly {s : Scenario} {w : World} (h : s.Reaches w) :
    Orderly w .rest :=
  (Orderly.opening s).beats h.beats.1

end Statechart
