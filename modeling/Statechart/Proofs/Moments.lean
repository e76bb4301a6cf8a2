import Statechart.Proofs.Chart

/-!
# Moments

What the marks tell of happened at some moment on the way from the opening of a scenario, and what
is over at a moment stays so from then on.

## Main definitions

- `Scenario.Moment`: the worlds that a scenario comes to, within moves as well as between them.
- `Scenario.Passes`: a scenario passes the moment at which a mark is left.

## Main statements

- `Scenario.Moment.invariant`: what holds at the opening, and is kept by every beat, holds at every
  moment.
- `Beats.strode`: the marks of a run's own way are left when the run is taken further.
- `Beats.quiet`: a run that is no longer in progress leaves no marks of its own.
- `Beats.dead`: a task that is gone stays so, and has no turns.
- `Scenario.Moment.finished`: a run that has returned has a course that is over.
-/

namespace Statechart

/-- A world that a scenario comes to, and how far the move under way has come there. -/
def Scenario.Moment (s : Scenario) (w : World) (σ : Stage) : Prop :=
  Beats (s.opening, .rest) (w, σ)

namespace Scenario

variable {s : Scenario} {w : World} {σ : Stage}

/-- The worlds between moves are moments. -/
theorem Reaches.moment (h : s.Reaches w) : s.Moment w .rest :=
  h.beats.1

theorem Moment.orderly (h : s.Moment w σ) : Orderly w σ :=
  (Orderly.opening s).beats h

/-- What holds at the opening, and is kept by every beat of an orderly world, holds at every
moment. -/
theorem Moment.invariant {I : World → Stage → Prop} (h : s.Moment w σ)
    (start : I s.opening .rest)
    (step : ∀ {w w' σ σ'}, Orderly w σ → I w σ → Beat (w, σ) (w', σ') → I w' σ') : I w σ := by
  suffices ∀ {y : World × Stage}, Beats (s.opening, .rest) y → I y.1 y.2 from this h
  intro y beats
  induction beats with
  | refl => exact start
  | tail before beat ih => exact step ((Orderly.opening s).beats before) ih beat

end Scenario

/-- On its way to a world, a scenario passes the moment at which a mark is left. -/
def Scenario.Passes (s : Scenario) (before : World) (m : Mark) (after : World) : Prop :=
  ∃ σ σ', Beats (s.opening, .rest) (before, σ) ∧ Beat (before, σ) (before.mark m, σ') ∧
    Beats (before.mark m, σ') (after, .rest)

/-- Marks other than those of changes and of actions of a state, but for its cleanup. -/
def Mark.isPlain : Mark → Bool
  | .notified _ _ | .acted _ .enter _ | .acted _ .exit _ => false
  | _ => true

/-- What a stride that leaves a mark does, as far as it tells of a change or carries out an
action. -/
inductive Notes (t : TaskId) (r : RunId) : World × Stage → World × Stage → Mark → Prop where
  | tell {w : World} {s : State} {p : Option String} {c : Option Decision} :
      Notes t r (w, .rest) (w.mark (.notified r ⟨s.id, p, c⟩),
        .busy t r (.told s ⟨s.id, p, c⟩ (w.interpreter (w.run r).interpreter).changeHandlers))
        (.notified r ⟨s.id, p, c⟩)
  | act {w : World} {v : VisitId} {phrase : Phrase} {k : Nat} :
      Notes t r (w, .busy t r (.acting v phrase k))
        (w.mark (.acted v phrase k), .busy t r (.acting v phrase (k + 1))) (.acted v phrase k)
  | other {x y : World × Stage} {m : Mark} (plain : m.isPlain = true) : Notes t r x y m

section

variable {s : Scenario} {w w' : World} {σ σ' : Stage} {x y : World × Stage} {t : TaskId}
  {r : RunId} {result : RunResult}

/-! ## Runs that are taken further -/

theorem Beats.mem (b : Beats x y) (o : Orderly x.1 x.2) {m : Mark} (hm : m ∈ x.1.marks) :
    m ∈ y.1.marks :=
  b.mem_marks o.toSound hm

/-- A mark of the own way of a run is left when the run is taken further. -/
theorem Beats.strode (b : Beats x y) (o : Orderly x.1 x.2) {m : Mark} (hm : m ∈ y.1.marks)
    (new : m ∉ x.1.marks) (way : m.isAside = false) :
    ∃ u u' t r, Beats x u ∧ Stride t r u u' ∧ Beats u' y ∧ u.1.Speaks r u'.1 m := by
  induction b with
  | refl => exact absurd hm new
  | @tail u y beats beat ih =>
    by_cases old : m ∈ u.1.marks
    · obtain ⟨v, v', t, r, before, stride, after, speaks⟩ := ih old
      exact ⟨v, v', t, r, before, stride, after.tail beat, speaks⟩
    have sound := (o.beats beats).toSound
    have aside {w w' : World} (steady : Steady w w') (hm : m ∈ w'.marks) (old : m ∉ w.marks) :
        False := by
      obtain ⟨news, marks, aside⟩ := steady.marks
      have := aside m ((List.mem_append.1 (marks ▸ hm)).resolve_left old)
      rw [way] at this
      cases this
    cases beat with
    | stir h => exact (aside h.steady hm old).elim
    | shift h => exact (aside h.steady hm old).elim
    | @stride t r _ _ h =>
      obtain ⟨news, marks, speaks⟩ := h.speaks sound.toStaged
      have here := (List.mem_append.1 (marks ▸ hm)).resolve_left old
      exact ⟨u, y, t, r, beats, h, .refl, speaks m here⟩

/-- A run that is taken further was begun. -/
theorem Scenario.Moment.began (h : s.Moment w σ) {m : Mark} (hm : m ∈ w.marks)
    (way : m.isAside = false) (run : m.run? = some r) : .began r ∈ w.marks := by
  have o := Orderly.opening s
  obtain ⟨u, u', t, q, before, stride, after, speaks⟩ :=
    Beats.strode h o hm (fun hm => by cases hm) way
  have ou := o.beats before
  cases speaks.run r run
  have began := ou.began stride
  exact after.mem (ou.beat (.stride stride)) ((Beat.stride stride).mem_marks ou.toStaged began)

theorem Stride.notes {news : List Mark} {m : Mark} (b : Stride t r (w, σ) (w', σ'))
    (marks : w'.marks = w.marks ++ news) (hm : m ∈ news) : Notes t r (w, σ) (w', σ') m := by
  have other {others : List Mark} (marks' : w'.marks = w.marks ++ others)
      (plain : ∀ m ∈ others, m.isPlain = true) : Notes t r (w, σ) (w', σ') m := by
    cases List.append_cancel_left (marks.symm.trans marks')
    exact .other (plain m hm)
  have silent (same : w'.marks = w.marks) : Notes t r (w, σ) (w', σ') m :=
    other (same.trans (List.append_nil _).symm) (List.forall_mem_nil _)
  have left {v : VisitId} (marks' : w'.marks = w.marks ++ [.left v]) :
      Notes t r (w, σ) (w', σ') m := other marks' (List.forall_mem_singleton.2 rfl)
  have sole {m' : Mark} (marks' : w'.marks = w.marks ++ [m'])
      (note : Notes t r (w, σ) (w', σ') m') : Notes t r (w, σ) (w', σ') m := by
    cases List.append_cancel_left (marks.symm.trans marks')
    exact List.mem_singleton.1 hm ▸ note
  cases b with
  | tell => exact sole (World.marks_mark ..) .tell
  | act => exact sole (World.marks_mark ..) .act
  | depart | ready | crew | wait | look | idle | tear | exit | tended | dropBegun
  | dropArriving => exact silent rfl
  | hear | toll => exact silent (by simp [Entry.mark?])
  | relax => exact silent (World.marks_abortWork ..)
  | visit => exact other (w.marks_pushVisit ..) (by simp [Mark.isPlain])
  | arrive | launch | pass | conclude | announce | tend =>
    exact other (World.marks_mark ..) (by simp [Mark.isPlain])
  | forsake | close | quit | shut => exact left (w.marks_closeVisit _)
  | go => exact other (w.marks_goTo ..) (by simp [Mark.isPlain])
  | halt | back | done => exact other (w.marks_endRun ..) (by simp [Mark.isPlain])
  | unwind => exact other (w.marks_release ..) (by simp [Mark.isPlain])
  | @dropWaiting _ _ v | @dropDraining _ _ v => exact left (v := v) (by simp)

/-- Marks of a run's own way are left by strides alone. -/
theorem Beat.stride_of_way {w w' : World} {σ σ' : Stage} (b : Beat (w, σ) (w', σ'))
    {news : List Mark} (marks : w'.marks = w.marks ++ news) {m : Mark} (hm : m ∈ news)
    (way : m.isAside = false) : ∃ t q, Stride t q (w, σ) (w', σ') := by
  -- Scripts and shifts leave marks that are not of a run's own way.
  have never (steady : Steady w w') : False := by
    obtain ⟨others, marks', aside⟩ := steady.marks
    cases List.append_cancel_left (marks.symm.trans marks')
    cases way.symm.trans (aside m hm)
  cases b with
  | stir b => exact (never b.steady).elim
  | shift b => exact (never b.steady).elim
  | @stride t q _ _ b => exact ⟨t, q, b⟩

/-- Whatever is left alone by strides is left at some moment. -/
theorem Scenario.Reaches.passes (h : s.Reaches w) {before after : List Mark} {m : Mark}
    (marks : w.marks = before ++ m :: after) (way : m.isAside = false)
    (alone : ∀ {u u' : World} {τ τ' : Stage} {t : TaskId} {r : RunId} {news : List Mark},
      Stride t r (u, τ) (u', τ') → u'.marks = u.marks ++ news → m ∈ news → u' = u.mark m) :
    ∃ w₀, w₀.marks = before ∧ s.Passes w₀ m w := by
  obtain ⟨u, u', early, leaves, late⟩ := h.beats.1.moment s.sound_opening marks (Nat.zero_le _)
  obtain ⟨skipped, rest, earlier, marks'⟩ := leaves.marks
  rw [earlier, List.append_assoc] at marks'
  have here : m ∈ skipped ++ m :: rest := by simp
  obtain ⟨t, q, stride⟩ := leaves.beat.stride_of_way marks' here way
  have noted := alone stride marks' here
  rw [noted, World.marks_mark] at marks'
  -- The stride leaves the mark alone, so its moment is the one at which the mark is left.
  have nothing : skipped = [] := by
    have := congrArg List.length (List.append_cancel_left marks')
    simp only [List.length_cons, List.length_nil, List.length_append] at this
    exact List.eq_nil_of_length_eq_zero (by omega)
  refine ⟨u.1, by rw [earlier, nothing, List.append_nil], u.2, u'.2, early, ?_, ?_⟩
  · exact noted ▸ leaves.beat
  · exact noted ▸ late

/-- A run that has returned has a course that is over. -/
theorem Scenario.Moment.finished (h : s.Moment w σ) (returned : .returned r result ∈ w.marks) :
    Chart w σ r (.finished result) := by
  have began : .began r ∈ w.marks := h.began returned rfl rfl
  obtain ⟨st, chart⟩ := h.orderly.charted r began
  have here : .returned r result ∈ w.way r := World.mem_way.2 ⟨returned, rfl⟩
  exact chart.course.finished_of_returned here ▸ chart

theorem Scenario.Reaches.finished (h : s.Reaches w) (returned : .returned r result ∈ w.marks) :
    Chart w .rest r (.finished result) :=
  h.moment.finished returned

/-! ## Runs and tasks that are over -/

/-- A run that is no longer in progress is not taken further. -/
theorem Beat.quiet (b : Beat (w, σ) (w', σ')) (o : Orderly w σ) (known : r < w.runs.size)
    (finished : ¬ w.InProgress σ r) : ¬ w'.InProgress σ' r ∧
      ∃ news, w'.marks = w.marks ++ news ∧
        ∀ m ∈ news, w'.subject? m = some r → m.isAside = true := by
  have ended : (w.run r).phase = .ended := Classical.not_not.1 fun going => finished (.inl going)
  -- Whatever leaves runs alone leaves this one where it ended.
  have steady (h : Steady w w') : (w'.run r).phase = .ended ∧
      ∃ news, w'.marks = w.marks ++ news ∧
        ∀ m ∈ news, w'.subject? m = some r → m.isAside = true := by
    obtain ⟨news, marks, aside⟩ := h.marks
    exact ⟨(h.run r known).phase.trans ended, news, marks, fun m hm _ => aside m hm⟩
  cases b with
  | stir b =>
    obtain ⟨phase, quiet⟩ := steady b.steady
    refine ⟨?_, quiet⟩
    rintro (going | busy)
    · exact going phase
    · exact finished (.inr busy)
  | shift b =>
    obtain ⟨phase, quiet⟩ := steady b.steady
    refine ⟨?_, quiet⟩
    rintro (going | ⟨t, s, busy, -⟩)
    · exact going phase
    · cases busy
  | @stride t q _ _ b =>
    -- A run that is taken further is in progress, so it is another one.
    have other : r ≠ q := by
      rintro rfl
      exact finished b.inProgress
    obtain ⟨news, marks, speaks⟩ := b.speaks o.toStaged
    refine ⟨?_, news, marks, fun m hm subject => ?_⟩
    · rintro (going | ⟨u, s, busy, -⟩)
      · rw [b.onward.run r other] at going
        exact going ended
      · rcases b.target o.toStaged with ⟨rfl, -⟩ | ⟨s', rfl⟩
        · cases busy
        · cases busy
          exact other rfl
    · cases (speaks m hm).subject?.symm.trans subject
      exact absurd rfl other

/-- What every beat keeps, and says of the marks that it adds, holds from then on, and is said of
all marks that are added. -/
theorem Beats.news {I : World × Stage → Prop} {P : World → Mark → Prop} (b : Beats x y)
    (o : Orderly x.1 x.2) (here : I x)
    (step : ∀ {w w' : World} {σ σ' : Stage}, Orderly w σ → I (w, σ) → Beat (w, σ) (w', σ') →
      I (w', σ') ∧ ∃ news, w'.marks = w.marks ++ news ∧ ∀ m ∈ news, P w' m)
    (keep : ∀ {w w' : World} {σ σ' : Stage} {m : Mark}, Orderly w σ → Beat (w, σ) (w', σ') →
      m ∈ w.marks → P w m → P w' m) :
    I y ∧ ∃ news, y.1.marks = x.1.marks ++ news ∧ ∀ m ∈ news, P y.1 m := by
  induction b with
  | refl => exact ⟨here, [], by simp, by simp⟩
  | @tail u y beats beat ih =>
    obtain ⟨there, news, marks, said⟩ := ih
    have ou := o.beats beats
    obtain ⟨there', news', marks', said'⟩ := step ou there beat
    refine ⟨there', news ++ news', by rw [marks', marks, List.append_assoc], fun m hm => ?_⟩
    rcases List.mem_append.1 hm with old | new
    · exact keep ou beat (marks ▸ List.mem_append_right _ old) (said m old)
    · exact said' m new

/-- Marks that a beat leaves alone go on to be about a run, or about another. -/
theorem Beat.subject? (b : Beat (w, σ) (w', σ')) (o : Orderly w σ) {m : Mark} (hm : m ∈ w.marks) :
    w'.subject? m = w.subject? m :=
  b.lasting.subject? o.recorded o.crewed hm

/-- A run that is no longer in progress leaves no marks of its own. -/
theorem Beats.quiet (b : Beats x y) (o : Orderly x.1 x.2) (known : r < x.1.runs.size)
    (finished : ¬ x.1.InProgress x.2 r) : ¬ y.1.InProgress y.2 r ∧
      ∃ news, y.1.marks = x.1.marks ++ news ∧
        ∀ m ∈ news, y.1.subject? m = some r → m.isAside = true := by
  obtain ⟨⟨-, finished'⟩, news⟩ := b.news o
    (I := fun x => r < x.1.runs.size ∧ ¬ x.1.InProgress x.2 r)
    (P := fun w m => w.subject? m = some r → m.isAside = true) ⟨known, finished⟩
    (fun o ⟨known, finished⟩ beat => by
      obtain ⟨finished', news⟩ := beat.quiet o known finished
      exact ⟨⟨Nat.lt_of_lt_of_le known beat.runs, finished'⟩, news⟩)
    (fun o beat hm said subject => said (beat.subject? o hm ▸ subject))
  exact ⟨finished', news⟩

/-- A task of a visit that is gone stays so, and nothing more is heard of it. -/
theorem Beats.dead (b : Beats x y) (o : Orderly x.1 x.2) {v : VisitId}
    (home : (x.1.task t).home = some v) (dead : (x.1.task t).isAlive = false) :
    (y.1.task t).isAlive = false ∧
      ∃ news, y.1.marks = x.1.marks ++ news ∧ ∀ m ∈ news, m.task? ≠ some t := by
  obtain ⟨⟨-, dead'⟩, news⟩ := b.news o
    (I := fun x => (x.1.task t).home = some v ∧ (x.1.task t).isAlive = false)
    (P := fun _ m => m.task? ≠ some t) ⟨home, dead⟩
    (fun o ⟨home, dead⟩ beat => by
      obtain ⟨news, marks, alive⟩ := beat.tells o.toSound
      refine ⟨⟨beat.lasting.homes home, ?_⟩, news, marks, fun m hm ht => ?_⟩
      · rw [← Bool.not_eq_true]
        intro alive'
        cases dead.symm.trans (beat.alive home alive')
      · cases dead.symm.trans (alive m hm t ht))
    (fun _ _ _ => id)
  exact ⟨dead', news⟩

end

end Statechart
