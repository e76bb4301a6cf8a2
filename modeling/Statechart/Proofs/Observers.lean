import Statechart.Proofs.Moments

/-!
# What observers hear

When a run tells its observers of a change, every handler that is registered by then hears of it
once, in the order of registration, and before the state is entered; whatever else the handlers'
scripts do comes in between.

## Main definitions

- `Entry.heard?`: what a handler hears of a change.
- `Telling`: how far the handlers have been told.

## Main statements

- `Telling.beat`: handlers are told one after the other.
- `Scenario.Passes.heard`: every handler hears of a change.
-/

namespace Statechart

/-! ## Definitions -/

/-- What a handler hears of a change, with the handler's label. -/
def Entry.heard? : Entry → Option (String × Change)
  | .changed who c => some (who, c)
  | _ => none

/-- What handlers are to hear of a change. -/
def Change.lines (c : Change) (handlers : List ChangeHandler) : List (String × Change) :=
  handlers.map fun h => (h.label, c)

/-- How far handlers have been told since a world: some have heard and the rest have not, or all
have and the state was entered, or the run was lost over it. -/
inductive Telling (w₁ : World) (t : TaskId) (r : RunId) (s : State) (c : Change)
    (handlers : List ChangeHandler) : World × Stage → Prop where
  | on {w : World} {heard : List Entry} {rest : List ChangeHandler}
      (notices : w.notices = w₁.notices ++ heard)
      (lines : heard.filterMap Entry.heard? ++ c.lines rest = c.lines handlers) :
      Telling w₁ t r s c handlers (w, .busy t r (.told s c rest))
  | entered {w : World} {σ : Stage} {heard after : List Entry} {v : VisitId}
      (notices : w.notices = w₁.notices ++ heard ++ .mark (.entered r v) :: after)
      (lines : heard.filterMap Entry.heard? = c.lines handlers) :
      Telling w₁ t r s c handlers (w, σ)
  | lost {w : World} {σ : Stage} (known : r < w.runs.size) (finished : ¬ w.InProgress σ r)
      (silent : ∀ result, .returned r result ∉ w.marks) : Telling w₁ t r s c handlers (w, σ)

/-! ## Notices -/

section

variable {w w' : World} {σ σ' : Stage} {t : TaskId} {r : RunId}

@[simp]
theorem World.notices_mark (w : World) (m : Mark) :
    (w.mark m).notices = w.notices ++ [.mark m] :=
  w.notices_log (.mark m)

/-- What scripts do is no news for observers. -/
theorem Stir.notices (b : Stir σ w w') : ∃ news, w'.notices = w.notices ++ news ∧
    news.filterMap Entry.heard? = [] := by
  have one (m : Mark) : [Entry.mark m].filterMap Entry.heard? = [] := by
    simp [Entry.heard?]
  cases b with
  | chore c => exact ⟨[], by simp [c.frame.notices], List.filterMap_nil⟩
  | refuse | ask | cancel | limit => exact ⟨_, World.notices_mark .., one _⟩
  | miss | keep | spawn => exact ⟨[], (List.append_nil _).symm, List.filterMap_nil⟩
  | accept v d =>
    have told := (Frame.notify (w.commit v d) v).notices
    have traced : (((w.commit v d).notifyInbox v).trace
        (.accepted (w.visit v).state.id d.event)).notices = w.notices := by
      rw [World.trace, World.notices_log, told]
      exact List.append_nil _
    refine ⟨[.mark (.raised v d true)], ?_, one _⟩
    rw [World.accept, World.notices_mark, traced]
  | start i s =>
    have taken : (w.takeSlot i w.tasks.size s).notices =
        w.notices ++ [.mark (.began w.runs.size)] := World.notices_mark _ _
    exact ⟨_, taken, one _⟩

theorem Shift.notices (b : Shift (w, σ) w') : ∃ news, w'.notices = w.notices ++ news := by
  cases b with
  | turn => exact ⟨_, w.notices_mark _⟩
  | unqueue | resume => exact ⟨[], (List.append_nil _).symm⟩
  | @park _ _ t =>
    obtain ⟨queue, -, parked⟩ := w.park_eq t
    rw [parked]
    exact ⟨[], (List.append_nil _).symm⟩
  | @retire _ w₁ _ t fate alive ease late chores =>
    have buried : w₁.notices = w.notices ++ [.mark (.ended t fate)] :=
      (Frame.of_chores chores).notices.trans (World.notices_mark _ _)
    refine ⟨[.mark (.ended t fate)], ?_⟩
    unfold World.withdraw
    split
    · exact buried
    · exact buried
  | @begin _ t job i s =>
    have taken : (w.takeSlot i t s).notices = w.notices ++ [.mark (.began w.runs.size)] :=
      World.notices_mark _ _
    exact ⟨_, taken⟩

@[simp]
theorem World.notices_pushVisit (w : World) (r : RunId) (s : State) :
    (w.pushVisit r s).notices = w.notices ++ [.mark (.entered r w.visits.size)] := by
  have traced : ({ w with visits := w.visits.push { state := s, run := r } }.trace
      (.entering s.id s.mode)).notices = w.notices :=
    (World.notices_log _ _).trans (List.append_nil _)
  rw [pushVisit, notices_mark, traced]

@[simp]
theorem World.notices_endRun (w : World) (r : RunId) (result : RunResult) :
    (w.endRun r result).notices =
      w.notices ++ [.mark (.returned r result), .mark (.released r result.status)] := by
  have released (w : World) : (w.release r result.status).notices =
      w.notices ++ [.mark (.released r result.status)] := notices_mark ..
  rw [endRun, released, notices_mark, List.append_assoc]
  rfl

theorem Stride.notices (b : Stride t r (w, σ) (w', σ')) :
    ∃ news, w'.notices = w.notices ++ news := by
  have same (notices : w'.notices = w.notices) : ∃ news, w'.notices = w.notices ++ news :=
    ⟨[], notices.trans (List.append_nil _).symm⟩
  cases b with
  | depart | ready | crew | wait | look | idle | tear | exit | tended | dropBegun
  | dropArriving => exact same rfl
  | tell | act | arrive | launch | announce | tend => exact ⟨_, w.notices_mark _⟩
  | hear | toll => exact ⟨_, w.notices_log _⟩
  | visit => exact ⟨_, w.notices_pushVisit r _⟩
  | pass | conclude | forsake | close | quit | go | shut | unwind | dropDraining =>
    exact ⟨_, World.notices_mark _ _⟩
  | @relax _ v => exact same (Frame.abortWork w v).notices
  | @dropWaiting _ _ v =>
    have aborted := (Frame.abortWork (w.setPhase r .ended) v).notices
    refine ⟨[.mark (.left v)], ?_⟩
    rw [World.closeVisit, World.notices_mark]
    exact congrArg (· ++ _) aborted
  | halt | back | done => exact ⟨_, w.notices_endRun r _⟩

/-- What is said of runs is added at the end. -/
theorem Beat.notices (b : Beat (w, σ) (w', σ')) : ∃ news, w'.notices = w.notices ++ news := by
  cases b with
  | stir b =>
    obtain ⟨news, notices, -⟩ := b.notices
    exact ⟨news, notices⟩
  | shift b => exact b.notices
  | stride b => exact b.notices

end

/-! ## Telling -/

namespace Telling

variable {w₁ w w' : World} {σ σ' : Stage} {t : TaskId} {r : RunId} {s : State} {c : Change}
  {handlers : List ChangeHandler}

/-- A run that is lost over telling its handlers has not returned, and will not any more. -/
theorem unwind {rest : List ChangeHandler} (o : Orderly w (.busy t r (.told s c rest))) :
    Telling w₁ t r s c handlers (w.release r .stopped, .busy t r .finished) := by
  have stride : Stride t r (w, .busy t r (.told s c rest))
      (w.release r .stopped, .busy t r .finished) := .unwind (.inl ⟨s, c, rest, rfl⟩)
  refine .lost (Nat.lt_of_lt_of_le (o.busy t r _ rfl).known stride.onward.runs) ?_
    fun result hm => ?_
  · rintro (going | ⟨u, s', busy, other⟩)
    · exact going (World.phase_release ..)
    · cases busy
      exact other rfl
  · rw [World.marks_release] at hm
    have old : .returned r result ∈ w.marks := by simpa using hm
    have way : .returned r result ∈ w.way r := World.mem_way.2 ⟨old, rfl⟩
    cases (o.chart rfl).course.finished_of_returned way

/-- Handlers are told one after the other. -/
theorem beat (h : Telling w₁ t r s c handlers (w, σ)) (o : Orderly w σ)
    (b : Beat (w, σ) (w', σ')) : Telling w₁ t r s c handlers (w', σ') := by
  cases h with
  | @entered _ _ heard after v notices lines =>
    obtain ⟨news, added⟩ := b.notices
    have notices' : w'.notices =
        w₁.notices ++ heard ++ .mark (.entered r v) :: (after ++ news) := by
      rw [added, notices]
      simp
    exact .entered notices' lines
  -- A run that is lost does not come back, so it returns no more.
  | lost known finished silent =>
    obtain ⟨finished', news, marks, aside⟩ := b.quiet o known finished
    refine .lost (Nat.lt_of_lt_of_le known b.runs) finished' fun result hm => ?_
    rcases List.mem_append.1 (marks ▸ hm) with old | new
    · exact silent result old
    · cases aside _ new rfl
  | @on _ heard rest notices lines =>
    -- The run is in its move: nobody else goes further, and only scripts come in between.
    cases b with
    | stir b =>
      obtain ⟨news, added, plain⟩ := b.notices
      have notices' : w'.notices = w₁.notices ++ (heard ++ news) := by
        rw [added, notices, List.append_assoc]
      refine .on notices' ?_
      rw [List.filterMap_append, plain, List.append_nil]
      exact lines
    | shift b =>
      cases b with
      | park _ ease =>
        rcases ease with ⟨hσ, -⟩ | ⟨q, hσ⟩ <;> cases hσ
      | retire _ ease =>
        rcases ease with ⟨hσ, -⟩ | ⟨q, hσ⟩ <;> cases hσ
    | @stride u q _ _ b =>
      cases b with
      | @hear _ _ _ h rest =>
        have notices' : (w.log (.changed h.label c)).notices =
            w₁.notices ++ (heard ++ [.changed h.label c]) := by
          rw [World.notices_log, notices]
          simp [Entry.isNotice]
        refine .on notices' ?_
        rw [← lines]
        simp [Entry.heard?, Change.lines]
      | visit =>
        have notices' : (w.pushVisit r s).notices =
            w₁.notices ++ heard ++ [.mark (.entered r w.visits.size)] := by
          rw [World.notices_pushVisit, notices]
        exact .entered notices' (by simpa [Change.lines] using lines)
      | unwind => exact unwind o
      | tear early => rcases early with hσ | hσ <;> cases hσ
      | dropWaiting _ _ ease => rcases ease with hσ | hσ <;> cases hσ
      | dropDraining _ _ ease => rcases ease with hσ | hσ <;> cases hσ

theorem beats {x y : World × Stage} (h : Telling w₁ t r s c handlers x) (o : Orderly x.1 x.2)
    (b : Beats x y) : Telling w₁ t r s c handlers y := by
  induction b with
  | refl => exact h
  | tail beats beat ih => exact ih.beat (o.beats beats) beat

end Telling

/-- A run is noted to tell of a change when it begins to tell its handlers. -/
theorem Stride.tells {w w' : World} {σ σ' : Stage} {t : TaskId} {r q : RunId} {c : Change}
    (b : Stride t q (w, σ) (w', σ')) {news : List Mark} (marks : w'.marks = w.marks ++ news)
    (hm : .notified r c ∈ news) : q = r ∧ w' = w.mark (.notified r c) ∧ ∃ s, σ' = .busy t r
      (.told s c (w.interpreter (w.run r).interpreter).changeHandlers) := by
  cases b.notes marks hm with
  | @tell _ s => exact ⟨rfl, rfl, s, rfl⟩
  | other plain => cases plain

namespace Scenario

variable {s : Scenario} {w₀ w : World} {r : RunId} {c : Change} {result : RunResult}

/-- Every notification is made at some moment. -/
theorem Reaches.tells (h : s.Reaches w) {before after : List Mark}
    (marks : w.marks = before ++ .notified r c :: after) :
    ∃ w₀, w₀.marks = before ∧ s.Passes w₀ (.notified r c) w :=
  h.passes marks rfl fun stride marks hm => (stride.tells marks hm).2.1

/-- Every handler that is registered when a run begins to tell of a change hears of it once, in
the order of registration and before the state is entered. -/
theorem Passes.heard (passes : s.Passes w₀ (.notified r c) w)
    (returned : .returned r result ∈ w.marks) : ∃ heard v after,
      w.notices = w₀.notices ++ .mark (.notified r c) :: heard ++ .mark (.entered r v) :: after ∧
      heard.filterMap Entry.heard? =
        c.lines (w₀.interpreter (w₀.run r).interpreter).changeHandlers := by
  obtain ⟨σ, σ', early, beat, late⟩ := passes
  have o := (Orderly.opening s).beats early
  have o' := o.beat beat
  obtain ⟨w₁, noted⟩ : ∃ w₁, w₁ = w₀.mark (.notified r c) := ⟨_, rfl⟩
  rw [← noted] at beat late o'
  have marks : w₁.marks = w₀.marks ++ [.notified r c] := noted ▸ w₀.marks_mark _
  obtain ⟨t, q, stride⟩ := beat.stride_of_way marks (List.mem_singleton_self _) rfl
  obtain ⟨rfl, -, s', rfl⟩ := stride.tells marks (List.mem_singleton_self _)
  have begins : Telling w₁ t q s' c (w₀.interpreter (w₀.run q).interpreter).changeHandlers
      (w₁, .busy t q (.told s' c (w₀.interpreter (w₀.run q).interpreter).changeHandlers)) :=
    .on (List.append_nil _).symm rfl
  have notices : w₁.notices = w₀.notices ++ [.mark (.notified q c)] :=
    noted ▸ w₀.notices_mark _
  cases begins.beats o' late with
  | @entered _ _ heard after v notices' lines =>
    refine ⟨heard, v, after, ?_, lines⟩
    rw [notices', notices]
    simp
  | lost known finished silent => exact absurd returned (silent result)

end Scenario

end Statechart
