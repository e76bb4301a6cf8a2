import Statechart.Proofs.Awake

/-!
# The race to decide a visit

Services, activities and whatever they hand their callbacks to race to raise an event. One call at
most succeeds, and its event decides the visit: the visit does not settle, and no panic of another
task gets ahead of the event. Only a stop that was asked for does.

## Main definitions

- `World.Concluded`: the wait of a visit is over.
- `World.Verdict`: the end of a wait agrees with what was raised.
- `Raced`: every end of a wait does.

## Main statements

- `Stride.verdict`: how a run that goes further ends a wait.
- `Scenario.Reaches.raced`: ends of waits agree with what was raised.
- `Scenario.first_raise_decides`: the call that succeeds decides the visit.
-/

namespace Statechart

/-! ## Definitions -/

/-- The visit that a move has yet to wait for. -/
def Spot.ahead? : Spot → Option VisitId
  | .acting v .enter _ | .arrived v | .launching v _ => some v
  | _ => none

/-- The visit that the move under way has yet to wait for. -/
def Stage.ahead? : Stage → Option VisitId
  | .busy _ _ s => s.ahead?
  | .rest => none

/-- The wait for a visit is over. -/
def World.Concluded (w : World) (v : VisitId) : Prop :=
  ∃ e, .concluded v e ∈ w.marks

/-- The end of a wait agrees with what was raised on the visit before it and after it. -/
structure World.Verdict (w : World) (v : VisitId) (e : Ending) (before after : List Mark) :
    Prop where
  /-- There is one end. -/
  once : ∀ e', .concluded v e' ∉ before ++ after
  /-- An event that was accepted decides, unless a stop of the run was asked for. -/
  heard : ∀ d, .raised v d true ∈ before →
    e = .decided d ∨ e = .stopped ∧ .stopAsked (w.visit v).run ∈ before
  /-- An event that decides was accepted. -/
  decided : ∀ d, e = .decided d → (w.visit v).state.mode ≠ .transient →
    .raised v d true ∈ before
  /-- On a visit that settles no event is accepted, then or later. -/
  settled : e = .settled → ∀ d, .raised v d true ∉ before ++ after

/-- Every end of a wait agrees with what was raised, and nothing is raised out of place. -/
structure Raced (w : World) (σ : Stage) : Prop where
  waits : ∀ r v, (w.run r).phase = .waiting v → ¬ w.Concluded v
  ahead : ∀ v, σ.ahead? = some v → ¬ w.Concluded v
  lent : ∀ v, w.Usable σ v ∨ (w.visit v).inbox ≠ none →
    v < w.visits.size ∧ (w.visit v).state.mode ≠ .transient
  silent : ∀ v, .concluded v .settled ∈ w.marks → ¬ w.Usable σ v
  judged : ∀ v e before after, w.marks = before ++ .concluded v e :: after →
    w.Verdict v e before after

/-! ## How waits end -/

section

variable {w w' : World} {σ σ' : Stage} {t : TaskId} {r : RunId} {v : VisitId} {e : Ending}

/-- How a run comes to the end of a wait: it sees something, or never waits. -/
inductive Concludes (w : World) (σ : Stage) (t : TaskId) (r : RunId) (v : VisitId) : Ending → Prop
  | seen {e : Ending} (rest : σ = .rest) (phase : (w.run r).phase = .waiting v)
      (sees : w.Sees r v e) : Concludes w σ t r v e
  | passed (busy : σ = .busy t r (.arrived v))
      (transient : (w.visit v).state.mode = .transient) :
      Concludes w σ t r v (.decided ⟨.transient, none⟩)

/-- A run that goes further ends one wait or none. -/
theorem Stride.verdict (b : Stride t r (w, σ) (w', σ')) :
    (∃ news, w'.marks = w.marks ++ news ∧ ∀ v e, .concluded v e ∉ news) ∨
      ∃ v e, w'.marks = w.marks ++ [.concluded v e] ∧ Concludes w σ t r v e ∧
        (∀ u, (w'.run r).phase ≠ .waiting u) ∧ σ' = .busy t r (.acting v .cleanup 0) := by
  cases b with
  | depart | ready | wait | look | idle | tear | exit | tended | dropBegun | dropArriving
  | crew | relax => exact .inl ⟨[], by simp, by simp⟩
  | hear | toll => exact .inl ⟨[], by simp [Entry.mark?], by simp⟩
  | visit => exact .inl ⟨_, World.marks_pushVisit .., by simp⟩
  | act | arrive | launch | tend | tell | go | announce =>
    exact .inl ⟨_, World.marks_mark .., by simp⟩
  | forsake | close | shut | quit => exact .inl ⟨_, World.marks_closeVisit .., by simp⟩
  | dropWaiting | dropDraining =>
    simp only [World.marks_closeVisit, World.marks_abortWork, World.marks_setPhase]
    exact .inl ⟨_, rfl, by simp⟩
  | halt | back | done => exact .inl ⟨_, World.marks_endRun .., by simp⟩
  | unwind => exact .inl ⟨_, World.marks_release .., by simp⟩
  | @conclude _ v e drives phase sees =>
    refine .inr ⟨v, e, World.marks_mark .., .seen rfl phase sees, fun u hu => ?_, rfl⟩
    cases (World.phase_setPhase ..).symm.trans hu
  | @pass _ v transient =>
    refine .inr ⟨v, _, World.marks_mark .., .passed rfl transient, fun u hu => ?_, rfl⟩
    cases (World.phase_setPhase ..).symm.trans hu

/-- A move that has yet to wait for a visit had yet to before, or the visit is new. -/
theorem Stride.ahead (b : Stride t r (w, σ) (w', σ')) (h : σ'.ahead? = some v) :
    σ.ahead? = some v ∨ v = w.visits.size := by
  cases b with
  | visit =>
    cases h
    exact .inr rfl
  | @act _ u phrase =>
    cases phrase with
    | enter => exact .inl h
    | cleanup | exit => cases h
  | arrive | ready | launch | crew | tear => exact .inl h
  | _ => cases h

/-- Scripts can lay hands on a callback if they could before, or if the visit has just arrived. -/
theorem Stride.usable (b : Stride t r (w, σ) (w', σ')) (h : w'.Usable σ' v) :
    w.Usable σ v ∨ σ = .busy t r (.arrived v) ∧ (w.visit v).state.mode ≠ .transient := by
  rcases h with held | lent
  · rcases b.isHeld held with held | ⟨k, rfl⟩
    · exact .inl (.inl held)
    · exact .inl (.inr rfl)
  · exact (b.lent lent).imp_left .inr

/-- A wait ends on a visit of the run's. -/
theorem Concludes.owns (c : Concludes w σ t r v e) (staged : Staged w σ) : w.Owns r v := by
  cases c with
  | seen rest phase sees => exact staged.waits r v (congrArg Phase.visit? phase)
  | passed busy transient => exact (staged.placed t r _ busy).own v rfl

/-- A wait ends as what was raised on the visit calls for. -/
theorem Concludes.verdict (c : Concludes w σ t r v e) (h : Raced w σ) (counted : Counted w)
    (asked : Asked w) (staged : Staged w σ) : w.Verdict v e w.marks [] := by
  have own := c.owns staged
  have inbox {d : Decision} (raised : .raised v d true ∈ w.marks) :
      (w.visit v).inbox = some d := by
    rw [← World.mem_accepted, counted.accepted] at raised
    exact Option.mem_toList.1 raised
  have silent {d : Decision} (news : (w.visit v).inbox = none) :
      .raised v d true ∉ w.marks := by
    intro raised
    rw [inbox raised] at news
    cases news
  have once : ∀ e', .concluded v e' ∉ w.marks ++ [] := by
    intro e' he'
    have concluded : w.Concluded v := ⟨e', by simpa using he'⟩
    cases c with
    | seen rest phase sees => exact h.waits r v phase concluded
    | passed busy transient => exact h.ahead v (congrArg Stage.ahead? busy) concluded
  refine ⟨once, fun d raised => ?_, fun d he stays => ?_, fun he d raised => ?_⟩
  · cases c with
    | seen rest phase sees =>
      cases sees with
      | stopped stop => exact .inr ⟨rfl, own.run ▸ asked r stop⟩
      | decided free news =>
        cases news.symm.trans (inbox raised)
        exact .inl rfl
      | panicked free news fate => exact absurd raised (silent news)
      | settled free news held finished working => exact absurd raised (silent news)
    | passed busy transient =>
      -- Nobody can raise anything on a visit to a transient state.
      have stays := (h.lent v (.inr (by simp [inbox raised]))).2
      exact absurd transient stays
  · cases c with
    | seen rest phase sees =>
      cases sees with
      | decided free news =>
        cases he
        rw [← World.mem_accepted, counted.accepted, news]
        exact List.mem_singleton.2 rfl
      | stopped stop => cases he
      | panicked free news fate => cases he
      | settled free news held finished working => cases he
    | passed busy transient => exact absurd transient stays
  · rw [List.append_nil] at raised
    cases c with
    | seen rest phase sees =>
      cases sees with
      | settled free news held finished working => exact silent news raised
      | stopped stop => cases he
      | decided free news => cases he
      | panicked free news fate => cases he
    | passed busy transient => cases he

/-! ## What is judged stays judged -/

/-- Nothing is raised in the marks that are new if nothing has been accepted. -/
theorem World.not_raised {news : List Mark} (marks : w'.marks = w.marks ++ news)
    (same : w'.accepted v = w.accepted v) (d : Decision) : .raised v d true ∉ news := by
  intro raised
  have silent : news.filterMap (Mark.accepted? v) = [] := by
    simpa [World.accepted, marks] using same
  have heard := List.filterMap_eq_nil_iff.1 silent _ raised
  simp [Mark.accepted?] at heard

/-- The end of a wait stays in agreement with what was raised, if it is the only one and nothing
is accepted once the visit has settled. -/
theorem World.Verdict.mono {before after news : List Mark} (h : w.Verdict v e before after)
    (owner : (w'.visit v).run = (w.visit v).run) (state : (w'.visit v).state = (w.visit v).state)
    (finished : ∀ e', .concluded v e' ∉ news)
    (deaf : e = .settled → ∀ d, .raised v d true ∉ news) :
    w'.Verdict v e before (after ++ news) where
  once e' he := by
    rw [← List.append_assoc] at he
    exact (List.mem_append.1 he).elim (h.once e') (finished e')
  heard d hd := owner ▸ h.heard d hd
  decided d hd stays := h.decided d hd (state ▸ stays)
  settled he d hd := by
    rw [← List.append_assoc] at hd
    exact (List.mem_append.1 hd).elim (h.settled he d) (deaf he d)

/-- Every end of a wait agrees with what was raised, if those that are new do. -/
theorem Raced.judge (h : Raced w σ) (recorded : Recorded w) {news : List Mark}
    (marks : w'.marks = w.marks ++ news)
    (owner : ∀ v, v < w.visits.size → (w'.visit v).run = (w.visit v).run)
    (state : ∀ v, v < w.visits.size → (w'.visit v).state = (w.visit v).state)
    (finished : ∀ v e, .concluded v e ∈ news → ¬ w.Concluded v)
    (deaf : ∀ v, .concluded v .settled ∈ w.marks → w'.accepted v = w.accepted v)
    (new : ∀ v e mid after, news = mid ++ .concluded v e :: after →
      w'.Verdict v e (w.marks ++ mid) after)
    (v : VisitId) (e : Ending) (before after : List Mark)
    (split : w'.marks = before ++ .concluded v e :: after) : w'.Verdict v e before after := by
  rw [marks] at split
  rcases split_append split with ⟨mid, old, rfl⟩ | ⟨mid, rfl, added⟩
  · have concluded : .concluded v e ∈ w.marks := by simp [old]
    have known := recorded.visit _ concluded v rfl
    apply (h.judged v e before mid old).mono (owner v known) (state v known)
    · exact fun e' he => finished v e' he ⟨e, concluded⟩
    · rintro rfl d
      exact World.not_raised marks (deaf v concluded) d
  · exact new v e mid after added

/-- Marks that end no wait leave the ends of waits as they are. -/
theorem World.concluded_append {news : List Mark} (marks : w'.marks = w.marks ++ news)
    (none : ∀ v e, .concluded v e ∉ news) :
    .concluded v e ∈ w'.marks ↔ .concluded v e ∈ w.marks := by
  rw [marks, List.mem_append]
  exact or_iff_left (none v e)

/-- Marks that end no wait need no verdict. -/
theorem not_split {news mid after : List Mark} (none : ∀ v e, .concluded v e ∉ news) :
    news ≠ mid ++ .concluded v e :: after := by
  rintro rfl
  exact none v e (by simp)

end

/-! ## Stirs and shifts -/

namespace Raced

variable {w w' : World} {σ σ' : Stage}

/-- While no run goes further, every verdict stays, if only visits that did not settle accept
events. -/
theorem steady (h : Raced w σ) (recorded : Recorded w) (s : Steady w w')
    (usable : ∀ v, w'.Usable σ' v → w.Usable σ v)
    (ahead : ∀ v, σ'.ahead? = some v → σ.ahead? = some v)
    (heard : ∀ v, (w'.visit v).inbox ≠ none → w.Usable σ v ∨ (w.visit v).inbox ≠ none)
    (deaf : ∀ v, ¬ w.Usable σ v → w'.accepted v = w.accepted v) : Raced w' σ' := by
  obtain ⟨news, marks, aside⟩ := s.marks
  have none (v : VisitId) (e : Ending) : .concluded v e ∉ news := fun he => by cases aside _ he
  have concluded (v : VisitId) (e : Ending) :
      .concluded v e ∈ w'.marks ↔ .concluded v e ∈ w.marks :=
    World.concluded_append marks none
  constructor
  case waits =>
    rintro r v phase ⟨e, he⟩
    exact h.waits r v (s.waiting phase).1 ⟨e, (concluded v e).1 he⟩
  case ahead =>
    rintro v hv ⟨e, he⟩
    exact h.ahead v (ahead v hv) ⟨e, (concluded v e).1 he⟩
  case lent =>
    intro v hv
    obtain ⟨known, stays⟩ := h.lent v (hv.elim (.inl ∘ usable v) (heard v))
    exact ⟨Nat.lt_of_lt_of_le known s.visits, s.state v ▸ stays⟩
  case silent => exact fun v hv use => h.silent v ((concluded v _).1 hv) (usable v use)
  case judged =>
    apply h.judge recorded marks (fun v _ => s.owner v) fun v _ => s.state v
    · exact fun v e he => absurd he (none v e)
    · exact fun v hv => deaf v (h.silent v hv)
    · exact fun v e mid after added => absurd added (not_split none)

theorem stir (h : Raced w σ) (recorded : Recorded w) (b : Stir σ w w') : Raced w' σ := by
  apply h.steady recorded b.steady (fun v => b.usable) (fun v => id)
  · intro v inbox
    rcases b.hears with deaf | ⟨u, d, use, -, -, -, rfl⟩
    · exact .inr (deaf.inbox v ▸ inbox)
    · rw [World.inbox_accept] at inbox
      split at inbox
      · next hv => exact .inl (hv ▸ use)
      · exact .inr inbox
  · intro v free
    rcases b.hears with deaf | ⟨u, d, use, -, -, -, rfl⟩
    · exact deaf.accepted v
    · rw [World.accepted_accept, if_neg]
      rintro rfl
      exact free use

theorem shift (h : Raced w σ) (recorded : Recorded w) (b : Shift (w, σ) w') :
    Raced w' .rest := by
  apply h.steady recorded b.steady
  · intro v use
    rcases use with held | lent
    · exact .inl (b.isHeld held)
    · cases lent
  · intro v hv
    cases hv
  · exact fun v inbox => .inr (b.deaf.inbox v ▸ inbox)
  · exact fun v free => b.deaf.accepted v

/-! ## Strides -/

theorem stride {t : TaskId} {r : RunId} (h : Raced w σ) (recorded : Recorded w)
    (counted : Counted w) (asked : Asked w) (staged : Staged w σ)
    (b : Stride t r (w, σ) (w', σ')) : Raced w' σ' := by
  have o := b.onward
  have deaf := b.deaf staged
  have lent (v : VisitId) (hv : w'.Usable σ' v ∨ (w'.visit v).inbox ≠ none) :
      v < w'.visits.size ∧ (w'.visit v).state.mode ≠ .transient := by
    suffices v < w.visits.size ∧ (w.visit v).state.mode ≠ .transient from
      ⟨Nat.lt_of_lt_of_le this.1 o.visits, o.state v this.1 ▸ this.2⟩
    rcases hv with use | inbox
    · rcases b.usable use with use | ⟨arrived, stays⟩
      · exact h.lent v (.inl use)
      · exact ⟨((staged.placed t r _ arrived).own v rfl).known, stays⟩
    · exact h.lent v (.inr (deaf.inbox v ▸ inbox))
  -- A visit that has settled was not to be waited for any more.
  have silent (v : VisitId) (hv : .concluded v .settled ∈ w.marks) : ¬ w'.Usable σ' v := by
    intro use
    rcases b.usable use with use | ⟨arrived, -⟩
    · exact h.silent v hv use
    · exact h.ahead v (congrArg Stage.ahead? arrived) ⟨.settled, hv⟩
  rcases b.verdict with ⟨news, marks, none⟩ | ⟨u, e, marks, concludes, gone, rfl⟩
  · have concluded (v : VisitId) (e : Ending) :
        .concluded v e ∈ w'.marks ↔ .concluded v e ∈ w.marks :=
      World.concluded_append marks none
    constructor
    case waits =>
      rintro q v phase ⟨e, he⟩
      have he := (concluded v e).1 he
      by_cases mine : q = r
      · rcases b.waiting (mine ▸ phase) with phase | ⟨k, rfl⟩
        · exact h.waits r v phase ⟨e, he⟩
        · exact h.ahead v rfl ⟨e, he⟩
      · exact h.waits q v (o.run q mine ▸ phase) ⟨e, he⟩
    case ahead =>
      rintro v hv ⟨e, he⟩
      have he := (concluded v e).1 he
      rcases b.ahead hv with hv | rfl
      · exact h.ahead v hv ⟨e, he⟩
      · exact Nat.lt_irrefl _ (recorded.visit _ he _ rfl)
    case lent => exact lent
    case silent => exact fun v hv => silent v ((concluded v _).1 hv)
    case judged =>
      apply h.judge recorded marks o.owner o.state
      · exact fun v e he => absurd he (none v e)
      · exact fun v _ => deaf.accepted v
      · exact fun v e mid after added => absurd added (not_split none)
  · have own := concludes.owns staged
    have verdict := concludes.verdict h counted asked staged
    have new {v : VisitId} {e' : Ending} (he' : .concluded v e' ∈ w'.marks) :
        .concluded v e' ∈ w.marks ∨ v = u ∧ e' = e := by
      rw [marks, List.mem_append, List.mem_singleton] at he'
      simpa using he'
    constructor
    case waits =>
      rintro q v phase ⟨e', he'⟩
      have other : q ≠ r := by
        rintro rfl
        exact gone v phase
      have phase : (w.run q).phase = .waiting v := o.run q other ▸ phase
      rcases new he' with old | ⟨rfl, -⟩
      · exact h.waits q v phase ⟨e', old⟩
      · have own' := staged.waits q v (congrArg Phase.visit? phase)
        exact other (own'.run.symm.trans own.run)
    case ahead =>
      intro v hv
      cases hv
    case lent => exact lent
    case silent =>
      intro v hv
      rcases new hv with old | ⟨rfl, rfl⟩
      · exact silent v old
      · intro use
        cases concludes with
        | seen rest phase sees =>
          cases sees with
          | settled free news held finished working =>
            rcases b.usable use with (held' | lent) | ⟨arrived, -⟩
            · rw [held] at held'
              cases held'
            · rw [rest] at lent
              cases lent
            · cases rest.symm.trans arrived
    case judged =>
      apply h.judge recorded marks o.owner o.state
      · intro v e' he' ⟨e'', he''⟩
        cases List.mem_singleton.1 he'
        exact verdict.once e'' (List.mem_append_left _ he'')
      · exact fun v _ => deaf.accepted v
      · intro v e' mid after added
        cases mid with
        | nil =>
          cases added
          rw [List.append_nil]
          exact verdict.mono (o.owner _ own.known) (o.state _ own.known)
            (fun _ => List.not_mem_nil) fun _ _ => List.not_mem_nil
        | cons m mid => simp at added

theorem beat (h : Raced w σ) (recorded : Recorded w) (counted : Counted w) (asked : Asked w)
    (staged : Staged w σ) (b : Beat (w, σ) (w', σ')) : Raced w' σ' := by
  cases b with
  | stir b => exact h.stir recorded b
  | shift b => exact h.shift recorded b
  | stride b => exact h.stride recorded counted asked staged b

theorem opening (s : Scenario) : Raced s.opening .rest where
  waits r v phase := by cases phase
  ahead v hv := by cases hv
  lent v hv := by
    rcases hv with (held | lent) | inbox
    · cases held
    · cases lent
    · exact absurd rfl inbox
  silent v hv := by cases hv
  judged v e before after split := by
    have none : ([] : List Mark) = before ++ .concluded v e :: after := split
    simp at none

end Raced

/-! ## Polls -/

/-- A run that is polled while an event has been accepted ends its wait with that event, unless
it was cancelled. -/
theorem World.concluded_move {w : World} {t : TaskId} {r : RunId} {v : VisitId} {d : Decision}
    (sound : Sound w .rest) (drives : w.Drives t r) (phase : (w.run r).phase = .waiting v)
    (free : (w.run r).cancelled = false) (news : (w.visit v).inbox = some d) :
    .concluded v (.decided d) ∈ (w.move t).marks := by
  obtain ⟨-, after⟩ := Beats.drive sound drives
  have decides : w.advance r = w.tearDown r v (.decided d) := by
    unfold advance
    rw [phase]
    show w.inspect r v = _
    unfold inspect
    rw [free, news]
    rfl
  have finished : Stride t r (w, .rest) ((w.setPhase r (.draining v (.decided d))).mark
      (.concluded v (.decided d)), .busy t r (.acting v .cleanup 0)) :=
    .conclude drives phase (.decided free news)
  have torn := (Paces.tornDown (w := w) (t := t) (r := r) (v := v) (e := .decided d)).beats
  rw [← decides] at torn
  apply Beats.mem_marks (torn.trans after) (sound.beats (.single (.stride finished)))
  simp

/-! ## The first call that succeeds -/

namespace Scenario

/-- Ends of waits agree with what was raised, after any beats. -/
theorem raced_of_beats {s : Scenario} {y : World × Stage} (beats : Beats (s.opening, .rest) y) :
    Counted y.1 ∧ Raced y.1 y.2 := by
  obtain ⟨-, -, counted, -, raced⟩ :=
    invariant_of_beats (I := fun w σ => Recorded w ∧ Counted w ∧ Asked w ∧ Raced w σ) beats
      ⟨⟨fun m hm => (by cases hm), fun m hm => (by cases hm)⟩,
        ⟨fun v => rfl, fun v d news => (by cases news)⟩, fun r stop => (by cases stop),
        .opening s⟩
      fun sound ⟨recorded, counted, asked, raced⟩ beat =>
        ⟨recorded.beat sound beat, counted.beat sound.toStaged beat, asked.beat sound.toStaged beat,
          raced.beat recorded counted asked sound.toStaged beat⟩
  exact ⟨counted, raced⟩

/-- They do in every world that a scenario comes to. -/
theorem Reaches.raced {s : Scenario} {w : World} (h : s.Reaches w) : Counted w ∧ Raced w .rest :=
  raced_of_beats h.beats.1

/-- One call at most raises an event on a visit and succeeds. While the run of the visit waits, the
event makes sure that its host has a turn, unless the host was aborted, and the next poll ends the
wait with the event, unless the run was cancelled. So an event that was accepted decides, or a stop
was asked for; an event that decides was accepted; and a visit that settles never accepts any. -/
theorem first_raise_decides {s : Scenario} {w : World} (h : s.Reaches w) (v : VisitId) :
    ((w.accepted v).length ≤ 1 ∧
      ∀ d, (w.raise v d).2 = true → w.accepted v = [] ∧ (w.raise v d).1.accepted v = [d]) ∧
    (∀ d, .raised v d true ∈ w.marks → (w.runOf v).phase = .waiting v →
      ((w.task (w.runOf v).host).aborted = false → w.IsUp (w.runOf v).host) ∧
      ((w.runOf v).cancelled = false → w.running = some (w.runOf v).host →
        .concluded v (.decided d) ∈ (w.move (w.runOf v).host).marks)) ∧
    ∀ e before after, w.marks = before ++ .concluded v e :: after →
      w.Verdict v e before after := by
  obtain ⟨counted, raced⟩ := h.raced
  have accepted := counted.accepted v
  refine ⟨⟨?_, fun d success => ?_⟩, fun d raised phase => ?_, raced.judged v⟩
  · rw [accepted]
    cases (w.visit v).inbox with
    | none => exact Nat.zero_le 1
    | some d => exact Nat.le_refl 1
  -- A call succeeds only if none did before.
  · have first : (w.visit v).fired = false := by
      unfold World.raise at success
      simp only at success
      split at success
      · cases success
      · split at success
        · cases success
        · next first => simpa using first
    have empty : w.accepted v = [] := by
      rw [accepted, counted.empty first]
      rfl
    refine ⟨empty, ?_⟩
    have marks := w.marks_raise v d
    rw [success] at marks
    simpa [World.accepted, marks, Mark.accepted?] using empty
  -- What was accepted is in the inbox until the host looks.
  · have news : (w.visit v).inbox = some d := by
      rw [← World.mem_accepted, accepted] at raised
      exact Option.mem_toList.1 raised
    have hosts := h.sound.host (w.visit v).run (by simp [show (w.run _).phase = _ from phase])
    refine ⟨fun whole => h.awake.isUp phase news whole, fun free turn => ?_⟩
    exact World.concluded_move h.sound ⟨turn, hosts.job⟩ phase free news

/-- Two services race to raise an event, and a third panics. -/
def contested : Scenario where
  machine := ⟨"m", "M", "a", some [
    { State.new "a" with
      routes := [(.named "go", "b"), (.named "halt", "b")]
      services := [.free { body := [.act (.raise "go")] }, .free { body := [.panic] },
        .free { body := [.act (.raise "halt")] }] },
    .new "b"]⟩
  interpreters := 1
  limit := none
  observers := []
  steps := [.run 0 100]

/-- The first service decides, though the second has panicked before the run is polled. -/
theorem contested_decided :
    (.ended 2 .panicked) ∈ (contested.play 14).marks ∧
      .concluded 0 (.decided ⟨.named "go", none⟩) ∈ ((contested.play 14).move 0).marks := by
  refine ⟨by decide +kernel, ?_⟩
  obtain ⟨-, polled, -⟩ := first_raise_decides (contested.reaches_play 14) 0
  have host : ((contested.play 14).runOf 0).host = 0 := by decide +kernel
  rw [← host]
  apply (polled ⟨.named "go", none⟩ (by decide +kernel) (by rfl)).2
  · decide +kernel
  · decide +kernel

end Scenario

end Statechart
