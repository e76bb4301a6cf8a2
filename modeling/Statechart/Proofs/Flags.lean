import Statechart.Proofs.Bystanders

/-!
# What the commit flag tells

A visit is committed by the first event raised on it that can have an effect, also if it is over by
then, while only an event that comes before the visit is left is accepted. So the flag tells whether
an event was accepted as long as the visit is not left, and after that it may tell of an event that
came too late.

## Main definitions

- `Effective`: among marks there is an event that can have an effect on a state.
- `Visit.Answers`: the flag of a visit and the answers to calls are as its marks say.
- `Mark.Heeded`: what a mark means to a visit.

## Main statements

- `Stroke.voices`: what strokes say, and what becomes of visits then.
- `Scenario.fired_iff_effective`: what the flag of a visit and the answer to each call tell.
- `Scenario.exists_fired_in_vain`: the flag need not tell that an event was accepted.
-/

namespace Statechart

/-! ## Definitions -/

/-- Among marks there is one of an event raised on a visit that can have an effect on its state. -/
def Effective (s : State) (v : VisitId) (marks : List Mark) : Prop :=
  ∃ d b, .raised v d b ∈ marks ∧ s.admits d = true

/-- How a visit stands after the marks left since it began: an effective event commits it, and a
call is accepted if it raises the first such event before the visit is left. -/
structure Visit.Answers (x : Visit) (v : VisitId) (since : List Mark) : Prop where
  fired : x.fired = true ↔ Effective x.state v since
  closed : x.closed = true ↔ .left v ∈ since
  calls : ∀ early d b late, since = early ++ .raised v d b :: late →
    (b = true ↔ x.state.admits d = true ∧ .left v ∉ early ∧ ¬ Effective x.state v early)

/-- What a mark means to a visit. -/
structure Mark.Heeded (m : Mark) (v : VisitId) (x y : Visit) : Prop where
  state : y.state = x.state
  fired : y.fired = true ↔ x.fired = true ∨ ∃ d b, m = .raised v d b ∧ x.state.admits d = true
  closed : y.closed = true ↔ x.closed = true ∨ m = .left v
  call : ∀ d b, m = .raised v d b →
    (b = true ↔ x.state.admits d = true ∧ x.closed = false ∧ x.fired = false)

/-- Either nothing is said, and visits stay as they are as far as events are concerned, or one mark
is left, and every visit heeds it. -/
inductive World.Voices (w w' : World) : Prop where
  | silent (marks : w'.marks = w.marks) (size : w.visits.size ≤ w'.visits.size)
      (keeps : ∀ v, (w.visit v).Keeps (w'.visit v))
  | utters (m : Mark) (marks : w'.marks = w.marks ++ [m]) (size : w.visits.size ≤ w'.visits.size)
      (heeded : ∀ v, v < w.visits.size → m.Heeded v (w.visit v) (w'.visit v))
      (fresh : ∀ r v, m = .entered r v → v < w'.visits.size ∧ v = w.visits.size ∧
        (w'.visit v).fired = false ∧ (w'.visit v).closed = false)

/-- All visits stand as the marks since they began say. -/
def World.Answering (w : World) : Prop :=
  ∀ r v before after, w.marks = before ++ .entered r v :: after →
    v < w.visits.size ∧ (w.visit v).Answers v after

/-! ## What strokes say -/

theorem Visit.Keeps.refl (x : Visit) : x.Keeps x :=
  ⟨rfl, rfl, rfl⟩

theorem Visit.Keeps.trans {x y z : Visit} (h : x.Keeps y) (h' : y.Keeps z) : x.Keeps z :=
  ⟨h'.state.trans h.state, h'.fired.trans h.fired, h'.closed.trans h.closed⟩

section

variable {w w' : World} {t : TaskId} {v : VisitId} {x y : Visit} {m : Mark}

/-- A visit heeds no mark but that of its end and those of events. -/
theorem Mark.Heeded.of_keeps (keeps : x.Keeps y) (unraised : ∀ d b, m ≠ .raised v d b)
    (unleft : m ≠ .left v) : m.Heeded v x y where
  state := keeps.state
  fired := by
    rw [keeps.fired]
    exact ⟨.inl, fun h => h.elim id fun ⟨d, b, same, _⟩ => absurd same (unraised d b)⟩
  closed := by
    rw [keeps.closed]
    exact ⟨.inl, fun h => h.elim id fun same => absurd same unleft⟩
  call d b same := absurd same (unraised d b)

theorem World.keeps_modifyVisit {f : Visit → Visit} (w : World) (u : VisitId)
    (keeps : ∀ x : Visit, x.Keeps (f x)) (v : VisitId) :
    (w.visit v).Keeps ((w.modifyVisit u f).visit v) := by
  rw [visit_modifyVisit]
  split
  · exact keeps _
  · exact .refl _

/-- Nothing that is of no account is said. -/
theorem World.Voices.of_frame (f : Statechart.Frame w w') : w.Voices w' :=
  .silent f.marks f.visits fun v => ⟨(f.visit v).state, f.fired v, (f.visit v).closed⟩

theorem World.Voices.of_visits (marks : w'.marks = w.marks) (visits : w'.visits = w.visits) :
    w.Voices w' := by
  refine .silent marks (visits ▸ Nat.le_refl _) fun v => ?_
  unfold World.visit
  rw [visits]
  exact .refl _

/-- A mark may be left that visits do not heed. -/
theorem World.Voices.of_mark (w : World) {e : Entry} (aside : e.isWatched = false) :
    w.Voices (w.log e) := by
  cases said : e.mark? with
  | none => exact .of_visits (by rw [marks_log, said]; simp) rfl
  | some m =>
    cases e with
    | mark n =>
      cases said
      refine .utters m (w.marks_mark m) (Nat.le_refl _) (fun v _ => ?_) fun r v same => ?_
      · apply Mark.Heeded.of_keeps (.refl _)
        · rintro d b rfl
          cases aside
        · rintro rfl
          cases aside
      · subst same
        cases aside
    | _ => cases said

/-- Whoever raises an event changes no other visit, commits this one if the event can have an
effect, and hears whether it was the first such event and the visit is open. -/
theorem World.raise_spec (w : World) (v : VisitId) (d : Decision) :
    w.visits.size ≤ (w.raise v d).1.visits.size ∧
    (∀ u, u ≠ v → (w.visit u).Keeps ((w.raise v d).1.visit u)) ∧
    ((w.raise v d).1.visit v).state = (w.visit v).state ∧
    ((w.raise v d).1.visit v).closed = (w.visit v).closed ∧
    ((w.raise v d).1.visit v).fired = ((w.visit v).fired || (w.visit v).state.admits d) ∧
    (w.raise v d).2 =
      ((w.visit v).state.admits d && !(w.visit v).closed && !(w.visit v).fired) := by
  -- A visit that is committed, with whatever news.
  have set (f : Visit → Visit) (state : ∀ x, (f x).state = x.state)
      (closed : ∀ x, (f x).closed = x.closed) (fired : ∀ x, (f x).fired = true) :
      (∀ u, u ≠ v → (w.visit u).Keeps ((w.modifyVisit v f).visit u)) ∧
      ((w.modifyVisit v f).visit v).state = (w.visit v).state ∧
      ((w.modifyVisit v f).visit v).closed = (w.visit v).closed ∧
      ((w.modifyVisit v f).visit v).fired = true := by
    refine ⟨fun u ne => ?_, ?_, ?_, ?_⟩
    · rw [visit_modifyVisit, if_neg ne]
      exact .refl _
    · rw [visit_modifyVisit, if_pos rfl, state]
    · rw [visit_modifyVisit, if_pos rfl, closed]
    · rw [visit_modifyVisit, if_pos rfl, fired]
  unfold World.raise
  simp only
  split
  -- The event has no effect on the state.
  · next vain =>
    simp only [Bool.not_eq_true'] at vain
    refine ⟨Nat.le_refl _, fun u _ => .refl _, rfl, rfl, ?_, by simp [vain]⟩
    rw [vain, Bool.or_false]
    rfl
  · next able =>
    simp only [Bool.not_eq_true', Bool.not_eq_false] at able
    split
    -- It comes after another that has.
    · next fired =>
      refine ⟨Nat.le_refl _, fun u _ => .refl _, rfl, rfl, ?_, by simp [fired]⟩
      rw [fired, Bool.true_or]
      exact fired
    · next first =>
      split
      -- It is the first one, and comes too late.
      · next closed =>
        obtain ⟨others, state, same, fired⟩ := set (fun x => { x with fired := true })
          (fun _ => rfl) (fun _ => rfl) fun _ => rfl
        exact ⟨Table.size_le_modify .., others, state, same, fired.trans (by simp [able]),
          by simp [closed]⟩
      · next opened =>
        obtain ⟨others, state, same, fired⟩ :=
          set (fun x => { x with fired := true, inbox := some d })
            (fun _ => rfl) (fun _ => rfl) fun _ => rfl
        -- News of the inbox may wake the host, which is no affair of visits.
        obtain ⟨-, visits, -, -, -⟩ := w.accept_eq v d
        have told := Frame.notify (w.commit v d) v
        have keeps (u : VisitId) : ((w.commit v d).visit u).Keeps ((w.accept v d).visit u) := by
          unfold World.visit
          rw [visits]
          exact ⟨(told.visit u).state, told.fired u, (told.visit u).closed⟩
        refine ⟨Nat.le_trans (Table.size_le_modify ..) (visits ▸ told.visits), fun u ne => ?_,
          (keeps v).state.trans state, (keeps v).closed.trans same,
          ((keeps v).fired.trans fired).trans (by simp [able]), by simp [able, opened, first]⟩
        exact (others u ne).trans (keeps u)

/-- Visits heed the event that a call raises, and the call is answered as it should be. -/
theorem World.Voices.raise (w : World) (v : VisitId) (d : Decision) : w.Voices (w.raise v d).1 := by
  obtain ⟨size, others, state, closed, fired, answer⟩ := w.raise_spec v d
  refine .utters _ (w.marks_raise v d) size (fun u _ => ?_) fun r u same => by cases same
  by_cases here : u = v
  · subst here
    refine ⟨state, ?_, ?_, fun e b same => ?_⟩
    · simp [fired]
    · simp [closed]
    · cases same
      rw [answer]
      simp [and_assoc]
  · apply Mark.Heeded.of_keeps (others u here)
    · rintro e b same
      cases same
      exact here rfl
    · exact fun same => by cases same

/-- A new visit is open and not committed. -/
theorem World.Voices.enter (w : World) (r : RunId) (s : State) : w.Voices (w.pushVisit r s) := by
  have size : (w.pushVisit r s).visits.size = w.visits.size + 1 := Table.size_push ..
  refine .utters _ (w.marks_pushVisit r s) (size ▸ Nat.le_succ _) (fun u known => ?_)
    fun q u same => ?_
  · have old : (w.pushVisit r s).visit u = w.visit u := by
      simp [pushVisit, trace, mark, log, Nat.ne_of_lt known]
    exact .of_keeps (old ▸ .refl _) (fun _ _ same => by cases same) fun same => by cases same
  · cases same
    have new : (w.pushVisit r s).visit w.visits.size = { state := s, run := r } := by
      simp [pushVisit, trace, mark, log]
    rw [new, size]
    exact ⟨Nat.lt_succ_self _, rfl, rfl, rfl⟩

/-- A visit that is left is closed. -/
theorem World.Voices.close (w : World) (v : VisitId) : w.Voices (w.closeVisit v) := by
  have size : w.visits.size ≤ (w.closeVisit v).visits.size := Table.size_le_modify ..
  refine .utters _ (w.marks_closeVisit v) size (fun u _ => ?_) fun q u same => by cases same
  have row : (w.closeVisit v).visit u =
      if u = v then { w.visit u with closed := true } else w.visit u := w.visit_modifyVisit v u _
  rw [row]
  split
  · next here =>
    subst here
    exact ⟨rfl, by simp, by simp, fun _ _ same => by cases same⟩
  · next there =>
    exact .of_keeps (.refl _) (fun _ _ same => by cases same) fun same => by
      cases same
      exact there rfl

/-- What a stroke says. -/
theorem Stroke.voices (h : Stroke t w w') : w.Voices w' := by
  cases h with
  | log e aside => exact .of_mark w aside
  | takes =>
    exact .utters _ (w.marks_mark _) (Nat.le_refl _)
      (fun v _ => .of_keeps (.refl _) (fun _ _ same => by cases same) fun same => by cases same)
      fun r v same => by cases same
  | wake u => exact .of_frame (Frame.wake w u).1
  | abort u => exact .of_frame (Frame.abort w u)
  | visit v f keeps =>
    exact .silent rfl (Table.size_le_modify ..) (w.keeps_modifyVisit v keeps)
  | enter r s => exact .enter w r s
  | raise v d => exact .raise w v d
  | close v => exact .close w v
  | again =>
    unfold World.enqueue
    split
    · exact .of_visits rfl rfl
    · exact .of_visits rfl rfl
  | _ => exact .of_visits rfl rfl

end

/-! ## How visits stand -/

theorem effective_append {s : State} {v : VisitId} {marks news : List Mark} :
    Effective s v (marks ++ news) ↔ Effective s v marks ∨ Effective s v news := by
  simp only [Effective, List.mem_append, or_and_right, exists_or]

theorem effective_singleton {s : State} {v : VisitId} {m : Mark} :
    Effective s v [m] ↔ ∃ d b, m = .raised v d b ∧ s.admits d = true := by
  simp only [Effective, List.mem_singleton, eq_comm]

namespace Visit.Answers

variable {x y : Visit} {v : VisitId} {since : List Mark} {m : Mark}

/-- A visit that begins has nothing to answer for. -/
theorem fresh (fired : x.fired = false) (closed : x.closed = false) : x.Answers v [] where
  fired := by simp [fired, Effective]
  closed := by simp [closed]
  calls early d b late split := by
    have := congrArg List.length split
    simp at this

theorem keeps (h : x.Answers v since) (keeps : x.Keeps y) : y.Answers v since where
  fired := by rw [keeps.fired, keeps.state, h.fired]
  closed := by rw [keeps.closed, h.closed]
  calls early d b late split := keeps.state ▸ h.calls early d b late split

/-- One more mark. -/
theorem snoc (h : x.Answers v since) (heeded : m.Heeded v x y) : y.Answers v (since ++ [m]) where
  fired := by rw [heeded.fired, heeded.state, h.fired, effective_append, effective_singleton]
  closed := by rw [heeded.closed, h.closed, List.mem_append, List.mem_singleton, eq_comm]
  calls early d b late split := by
    rw [heeded.state]
    rcases split_append split with ⟨mid, earlier, -⟩ | ⟨mid, rfl, last⟩
    · exact h.calls early d b mid earlier
    · cases mid with
      | nil =>
        cases last
        rw [heeded.call d b rfl, List.append_nil, ← h.fired, ← h.closed]
        simp
      | cons n mid =>
        have := congrArg List.length last
        simp at this

end Visit.Answers

namespace World

variable {w w' : World} {t : TaskId}

theorem Answering.voices (h : w.Answering) (voices : w.Voices w') : w'.Answering := by
  intro r v before after split
  cases voices with
  | silent marks size keeps =>
    obtain ⟨known, answers⟩ := h r v before after (marks ▸ split)
    exact ⟨Nat.lt_of_lt_of_le known size, answers.keeps (keeps v)⟩
  | utters m marks size heeded fresh =>
    rw [marks] at split
    rcases split_append split with ⟨mid, earlier, rfl⟩ | ⟨mid, rfl, last⟩
    · obtain ⟨known, answers⟩ := h r v before mid earlier
      exact ⟨Nat.lt_of_lt_of_le known size, answers.snoc (heeded v known)⟩
    · cases mid with
      | nil =>
        cases last
        obtain ⟨known, -, fired, closed⟩ := fresh r v rfl
        exact ⟨known, .fresh fired closed⟩
      | cons n mid =>
        have := congrArg List.length last
        simp at this

theorem Answering.strokes (h : w.Answering) (strokes : Strokes t w w') : w'.Answering := by
  induction strokes with
  | refl => exact h
  | tail _ stroke ih => exact ih.voices stroke.voices

/-- The clock says nothing, and whatever else moves consists of strokes. -/
theorem Answering.next (h : w.Answering) (next : w.Next w') : w'.Answering := by
  cases next with
  | move turn => exact h.strokes (.move w)
  | giveUp turn => exact h.strokes (.giveUp w _ _)
  | turn free ready => exact h.strokes (.beginTurn w)
  | tick free later =>
    obtain ⟨time, -, rfl⟩ := advanceClock?_eq later
    have ticked : World.Answering { w with now := max w.now time } := h
    exact ticked.strokes (t := 0) (.wakeAll _ _)
  | wake t => exact h.voices (Stroke.wake (t := 0) t).voices
  | stop i => exact h.strokes (t := 0) (.forceStop w i)
  | start i free started => exact h.strokes (t := 0) (.startInBackground started)
  | abort t => exact h.voices (Stroke.abort (t := 0) t).voices
  | call steps => exact h.voices (Stroke.spawn (t := 0) _).voices

end World

namespace Scenario

variable {s : Scenario} {w₀ w : World} {t : TaskId} {r : RunId} {v : VisitId}
  {before after : List Mark}

/-- Before anything has happened there are no visits, and whoever observes says nothing. -/
theorem answering_start (s : Scenario) : s.start.Answering := by
  have observed (observers : List (Nat × Observer Script)) (w : World) (h : w.Answering) :
      (observers.foldl (fun w o => w.observe o.1 o.2) w).Answering := by
    induction observers generalizing w with
    | nil => exact h
    | cons o os ih => exact ih _ (h.strokes (t := 0) (.observe w o.1 o.2))
  have opening : s.opening.Answering := by
    intro r v before after split
    cases before <;> cases split
  exact (observed s.observers s.opening opening).voices (Stroke.spawn (t := 0) _).voices

theorem Reaches.answering (h : s.Reaches w) : w.Answering := by
  induction h with
  | refl => exact s.answering_start
  | tail _ next ih => exact ih.next next

/-! ## What the flag tells -/

/-- Among marks of effective events there is a first one. -/
theorem exists_first_effective {s : State} {marks : List Mark} (h : Effective s v marks) :
    ∃ early d b late, marks = early ++ .raised v d b :: late ∧ s.admits d = true ∧
      ¬ Effective s v early := by
  induction marks with
  | nil =>
    obtain ⟨d, b, here, -⟩ := h
    cases here
  | cons m marks ih =>
    by_cases now : Effective s v [m]
    · obtain ⟨d, b, rfl, able⟩ := effective_singleton.1 now
      exact ⟨[], d, b, marks, rfl, able, fun ⟨_, _, here, _⟩ => by cases here⟩
    · have later : Effective s v marks :=
        (effective_append.1 (show Effective s v ([m] ++ marks) from h)).resolve_left now
      obtain ⟨early, d, b, late, rfl, able, first⟩ := ih later
      refine ⟨m :: early, d, b, late, rfl, able, fun again => ?_⟩
      exact (effective_append.1 (show Effective s v ([m] ++ early) from again)).elim now first

/-- At every moment, within turns as well as between them, the flag of a visit tells whether an
event that can have an effect on its state was raised since the visit began, and a call is answered
with success if it raises the first such event and the visit has not been left. So the flag tells
whether a call was answered with success unless the first such event was raised after the visit was
left, and in particular as long as it is not. -/
theorem fired_iff_effective (h : s.Reaches w₀) (within : Strokes t w₀ w)
    (entered : w.marks = before ++ .entered r v :: after) :
    ((w.visit v).fired = true ↔ Effective (w.visit v).state v after) ∧
    (∀ early d b late, after = early ++ .raised v d b :: late →
      (b = true ↔ (w.visit v).state.admits d = true ∧ .left v ∉ early ∧
        ¬ Effective (w.visit v).state v early)) ∧
    (((w.visit v).fired = true ↔ ∃ d, .raised v d true ∈ after) ↔
      ¬ ∃ early d late, after = early ++ .raised v d false :: late ∧ .left v ∈ early ∧
        (w.visit v).state.admits d = true ∧ ¬ Effective (w.visit v).state v early) ∧
    (.left v ∉ after → ((w.visit v).fired = true ↔ ∃ d, .raised v d true ∈ after)) := by
  obtain ⟨-, answers⟩ := h.answering.strokes within r v before after entered
  have earned (d : Decision) (here : .raised v d true ∈ after) : (w.visit v).fired = true := by
    obtain ⟨early, late, split⟩ := List.append_of_mem here
    exact answers.fired.2 ⟨d, true, here, ((answers.calls early d true late split).1 rfl).1⟩
  -- The first effective event decides, and is accepted unless the visit was left.
  have tells : ((w.visit v).fired = true ↔ ∃ d, .raised v d true ∈ after) ↔
      ¬ ∃ early d late, after = early ++ .raised v d false :: late ∧ .left v ∈ early ∧
        (w.visit v).state.admits d = true ∧ ¬ Effective (w.visit v).state v early := by
    constructor
    · rintro tells ⟨early, d, late, split, left, able, first⟩
      have here : .raised v d false ∈ after := split ▸ by simp
      obtain ⟨e, accepted⟩ := tells.1 (answers.fired.2 ⟨d, false, here, able⟩)
      obtain ⟨early', late', split'⟩ := List.append_of_mem accepted
      obtain ⟨able', -, first'⟩ := (answers.calls early' e true late' split').1 rfl
      -- Neither of the two events comes before the other.
      rcases split_append (split.symm.trans split') with ⟨mid, rfl, -⟩ | ⟨mid, rfl, last⟩
      · exact first ⟨e, true, by simp, able'⟩
      · cases mid with
        | nil => cases last
        | cons m mid =>
          obtain ⟨rfl, -⟩ := List.cons.inj last
          exact first' ⟨d, false, by simp, able⟩
    · intro timely
      refine ⟨fun fired => ?_, fun ⟨d, here⟩ => earned d here⟩
      obtain ⟨early, d, b, late, split, able, first⟩ :=
        exists_first_effective (answers.fired.1 fired)
      cases b with
      | true => exact ⟨d, split ▸ by simp⟩
      | false =>
        refine absurd ⟨early, d, late, split, ?_, able, first⟩ timely
        refine Classical.byContradiction fun opened => ?_
        cases (answers.calls early d false late split).2 ⟨able, opened, first⟩
  refine ⟨answers.fired, answers.calls, tells, fun here => tells.2 ?_⟩
  rintro ⟨early, d, late, split, left, -⟩
  exact here (split ▸ List.mem_append_left _ left)

/-- A service keeps its callback and has the run stopped; an event is raised through the callback
once the run is over. -/
def heirloom : Scenario where
  machine := ⟨"m", "M", "a", some [
    { State.new "a" with
      routes := [(.named "go", "b")]
      services := [.free { body := [.act (.keep "k"), .act (.stop 0)] }] }]⟩
  interpreters := 1
  limit := none
  observers := []
  steps := [.run 0 100, .script (.act (.raiseKept "k" "go"))]

/-- What happens from the beginning of the visit on. -/
def heirloomMarks : List Mark :=
  [.arrived 0, .launched 0 (.service 0), .turn 1, .stopAsked 0, .ended 1 .returned, .turn 0,
    .concluded 0 .stopped, .left 0, .returned 0 (.ok .stopped), .released 0 .stopped,
    .raised 0 ⟨.named "go", none⟩ false]

theorem marks_heirloom : (heirloom.play 16).marks =
    [.turn 0, .began 0, .notified 0 ⟨"a", none, none⟩] ++ .entered 0 0 :: heirloomMarks := by
  decide +kernel

/-- The event comes too late to be accepted, and sets the flag. -/
theorem heirloom_fired : ((heirloom.play 16).visit 0).fired = true ∧
    ¬ (((heirloom.play 16).visit 0).fired = true ↔ ∃ d, .raised 0 d true ∈ heirloomMarks) := by
  obtain ⟨flag, -, tells, -⟩ := fired_iff_effective (heirloom.reaches_play 16) (.refl (t := 0) _)
    marks_heirloom
  have able : ((heirloom.play 16).visit 0).state.admits ⟨.named "go", none⟩ = true := by
    decide +kernel
  refine ⟨flag.2 ⟨_, false, by simp [heirloomMarks], able⟩, fun same => tells.1 same ?_⟩
  exact ⟨heirloomMarks.dropLast, _, [], rfl, by simp [heirloomMarks], able,
    by simp [heirloomMarks, Effective]⟩

/-- The flag need not tell that a call was answered with success. -/
theorem exists_fired_in_vain : ¬ ∀ (s : Scenario) (w : World) (v : VisitId), s.Reaches w →
    ((w.visit v).fired = true ↔ ∃ d, .raised v d true ∈ w.marks) := by
  intro all
  have tells := all heirloom (heirloom.play 16) 0 (heirloom.reaches_play 16)
  obtain ⟨d, accepted⟩ := tells.1 (by decide +kernel)
  rw [marks_heirloom] at accepted
  simp [heirloomMarks] at accepted

end Scenario

end Statechart
