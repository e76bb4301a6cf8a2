import Statechart.Proofs.News

/-!
# Stops

What a run does after it was asked to stop. A stop is heeded where the run looks for it: before it
tells of a state, and while it waits. So a stop that comes before the stay under way has come to
its end is heeded at once; one that comes later is heeded only if the run goes on to a next state.

## Main definitions

- `World.Undecided`: no end of a stay is pending, and the stay under way is one that waits.
- `World.Stops`: nothing but the end of the run comes after a stop.
- `Standing.Heeds`: where a run may stand from which it stops without leaving a state.

## Main statements

- `Course.since`: what is kept by every leg holds ever since a stop.
- `Standing.Heeds.leg`: a run that is asked to stop goes on to stand where it heeds that.
- `Scenario.stops_of_undecided`: a run that is asked to stop while nothing is decided stops.
- `Scenario.exists_stop_ignored`: it does not always stop before the exit actions.
-/

namespace Statechart

/-! ## Definitions -/

/-- By a moment, no stay of a run has ended from which the run has not moved on, but for a stop,
and a stay that is not over by then is in a state that waits for what its tasks decide. -/
structure World.Undecided (w : World) (r : RunId) (before : List Mark) : Prop where
  moved : ∀ pre v e post, before = pre ++ .concluded v e :: post → (w.visit v).run = r →
    e = .stopped ∨ ∃ hop, .moved r hop ∈ post
  waits : ∀ v, .entered r v ∈ w.marks → (∀ e, .concluded v e ∉ before) →
    (w.visit v).state.mode ≠ .transient

/-- By a moment, a run has told of a state that it has not entered. -/
def Impending (r : RunId) (before : List Mark) : Prop :=
  ∃ pre c post, before = pre ++ .notified r c :: post ∧ ∀ v, .entered r v ∉ post

/-- After a moment, a run tells of no further state and enters none. -/
structure Halts (r : RunId) (before after : List Mark) : Prop where
  told : ∀ c, .notified r c ∉ after
  entered : ∀ v, .entered r v ∈ after → Impending r before

/-- After a moment, a run runs no exit actions, tells of no further state and enters none, and
does not tell that its machine is done; when it returns, it has stopped. -/
structure World.Stops (w : World) (r : RunId) (before after : List Mark) : Prop
    extends Halts r before after where
  exits : ∀ v k, (w.visit v).run = r → .acted v .exit k ∉ after
  announced : .announced r ∉ after
  stopped : ∀ result, .returned r result ∈ after → result = .ok .stopped

/-- Where a run may stand from which it stops without leaving a state. -/
def Standing.Heeds : Standing → Prop
  | .arriving .. | .told .. | .acting _ .enter _ _ | .arrived _ | .launching .. | .waiting _
  | .finished _ | .lost => True
  | .acting _ .cleanup e _ => e = some .stopped
  | .draining _ e | .left _ e => e = .stopped
  | .acting _ .exit _ _ | .announced .. => False

/-- Marks that a run may leave when it heeds a stop. -/
def Mark.isHeeding : Mark → Bool
  | .acted _ .exit _ | .moved _ _ | .announced _ => false
  | .returned _ result => result = .ok .stopped
  | .began _ | .stopAsked _ | .notified _ _ | .entered _ _ | .acted _ .enter _
  | .acted _ .cleanup _ | .arrived _ | .launched _ _ | .turn _ | .ended _ _ | .raised _ _ _
  | .concluded _ _ | .left _ | .released _ _ | .limited _ _ _ => true

/-! ## Courses with a stop -/

section

variable {w : World} {r : RunId} {st st' : Standing} {ms before after news : List Mark}
  {v : VisitId}

/-- What holds where a run stands when it is asked to stop, and is kept by every leg from then on,
holds ever since. -/
theorem Course.since {P : Standing → List Mark → Prop} (c : Course w r st ms)
    (split : ms = before ++ .stopAsked r :: after)
    (here : ∀ {st}, Course w r st before → P st [])
    (step : ∀ {st after news st'}, Course w r st (before ++ .stopAsked r :: after) → P st after →
      Leg w r (before ++ .stopAsked r :: after) st news st' → P st' (after ++ news)) :
    P st after := by
  induction c generalizing after with
  | start =>
    have stop : .stopAsked r ∈ [Mark.began r] := by simp [split]
    simp at stop
  | @leg st st' ms news course leg ih =>
    have ask : .stopAsked r ∈ news → news = [.stopAsked r] ∧ st' = st := by
      intro asked
      cases leg with
      | ask => exact ⟨rfl, rfl⟩
      | fall _ falls => cases falls _ asked
      | _ => simp at asked
    -- Either the stop came before this leg, or it is what the leg does.
    rcases split_append split with ⟨mid, rfl, rfl⟩ | ⟨front, rfl, rest⟩
    · exact step course (ih rfl) leg
    · -- The stop that is meant is the one of this leg.
      obtain ⟨only, rfl⟩ := ask (by simp [rest])
      cases front with
      | nil =>
        cases rest.symm.trans only
        exact here (by simpa using course)
      | cons m front => simp [only] at rest

/-- A stay comes to an end where the run stands at it. -/
theorem Leg.concluded {e : Ending} (leg : Leg w r ms st news st') (here : .concluded v e ∈ news) :
    st.visit? = some v := by
  cases leg with
  | pass | conclude =>
    cases List.mem_singleton.1 here
    rfl
  | fall _ falls => cases falls _ here
  | _ => simp at here

/-- A run that heeds stops goes on to, unless a stay comes to another end. -/
theorem Standing.Heeds.leg (h : st.Heeds) (leg : Leg w r ms st news st')
    (only : ∀ v e, .concluded v e ∈ news → e = .stopped) :
    st'.Heeds ∧ ∀ m ∈ news, m.isHeeding = true := by
  have never {v : VisitId} {e : Ending} (ended : e = .stopped) {a : Aftermath}
      (next : (w.machineOf r).aftermath (w.visit v).state e = a) : a = .back (.ok .stopped) := by
    rw [← next, ended]
    rfl
  cases leg with
  | rest => exact ⟨h, by simp⟩
  | ask => exact ⟨h, by simp [Mark.isHeeding]⟩
  | fall going falls =>
    refine ⟨trivial, fun m hm => ?_⟩
    have fall := falls m hm
    cases m with
    | acted v phrase k => cases phrase <;> first | rfl | cases fall
    | left | ended | released => rfl
    | _ => cases fall
  | tell | enter | arrive | launch | turn | finish => exact ⟨trivial, by simp [Mark.isHeeding]⟩
  | ready | wait => exact ⟨trivial, by simp⟩
  | @act v phrase =>
    cases phrase with
    | enter => exact ⟨trivial, by simp [Mark.isHeeding]⟩
    | cleanup => exact ⟨h, by simp [Mark.isHeeding]⟩
    | exit => exact h.elim
  | pass => cases only _ _ (List.mem_singleton_self _)
  | conclude =>
    exact ⟨congrArg some (only _ _ (List.mem_singleton_self _)), by simp [Mark.isHeeding]⟩
  | relax => exact ⟨Option.some.inj h, by simp⟩
  | drop | quit => exact ⟨h, by simp [Mark.isHeeding]⟩
  | exit exits =>
    cases h
    exact exits.elim
  | close => exact h.elim
  | go next => cases never h next
  | announce next => cases never h next
  | halt => exact ⟨trivial, by simp [Mark.isHeeding]⟩
  | back next =>
    cases never h next
    exact ⟨trivial, by simp [Mark.isHeeding]⟩
  | done => exact h.elim

/-- A run that has moved on from all stays that ended, but for a stop, heeds stops. -/
theorem Course.heeds (c : Course w r st ms)
    (moved : ∀ pre v e post, ms = pre ++ .concluded v e :: post → (w.visit v).run = r →
      e = .stopped ∨ ∃ hop, .moved r hop ∈ post) : st.Heeds := by
  induction c with
  | start => trivial
  | @leg st st' ms news course leg ih =>
    -- A leg by which the run moves on leads to where it looks for stops. By any other leg it goes
    -- on to heed them, since what it has moved on from by now it had moved on from before.
    by_cases hop : ∃ hop, .moved r hop ∈ news
    · obtain ⟨hop, here⟩ := hop
      cases leg with
      | go => trivial
      | fall _ falls => cases falls _ here
      | _ => simp at here
    · have heeds : st.Heeds := by
        refine ih fun pre v e post split own => ?_
        rcases moved pre v e (post ++ news) (by simp [split]) own with stop | ⟨hop', later⟩
        · exact .inl stop
        · exact .inr ⟨hop', (List.mem_append.1 later).resolve_right fun new => hop ⟨hop', new⟩⟩
      refine (heeds.leg leg fun v e here => ?_).1
      have own : (w.visit v).run = r := (course.owns (.inl (leg.concluded here))).run
      obtain ⟨front, back, rfl⟩ := List.append_of_mem here
      rcases moved (ms ++ front) v e back (by simp) own with stop | ⟨hop', later⟩
      · exact stop
      · exact absurd ⟨hop', by simp [later]⟩ hop

/-- A run that has carried out the enter actions of a visit has entered it, and the wait is not
over. -/
theorem Course.arrived (c : Course w r (.arrived v) ms) :
    .entered r v ∈ ms ∧ ∀ e, .concluded v e ∉ ms := by
  obtain ⟨past, x, account⟩ := c.account (by simp)
  obtain ⟨rfl, -⟩ := account.suits.visit v rfl
  constructor
  · have here : .entered r x.visit ∈ ms.filter Mark.isSteady := by
      rw [account.marks]
      simp [Stay.upTo, Stay.opening]
    exact (List.mem_filter.1 here).1
  · intro e ended
    have here := account.upTo rfl ended rfl
    simp [Stay.upTo, Stay.opening, World.chainMarks, actsOf] at here

/-- A run that has returned has come to the end of every visit that it has entered. -/
theorem Course.concludes {result : RunResult} (c : Course w r (.finished result) ms)
    (entered : .entered r v ∈ ms) : ∃ e, .concluded v e ∈ ms ∧ (w.visit v).run = r ∧
      ((w.visit v).state.mode = .transient → e = .decided ⟨.transient, none⟩) := by
  obtain ⟨stays, -, marks, -, fits⟩ := c.stays
  have here : .entered r v ∈ ms.filter Mark.isSteady := List.mem_filter.2 ⟨entered, rfl⟩
  rw [marks] at here
  simp only [List.cons_append, List.mem_cons, List.mem_append, List.mem_flatMap, reduceCtorEq,
    false_or] at here
  -- A visit is entered in a stay, and every stay has come to its end.
  rcases here with ⟨x, hx, here⟩ | coda
  · cases (fits x hx).own here rfl
    have ended : .concluded x.visit x.ending ∈ ms.filter Mark.isSteady := by
      rw [marks, List.cons_append]
      refine List.mem_cons_of_mem _ (List.mem_append_left _ (List.mem_flatMap.2 ⟨x, hx, ?_⟩))
      simp [Stay.marks, Stay.closing]
    exact ⟨x.ending, (List.mem_filter.1 ended).1, (fits x hx).owns.run,
      fun transient => ((fits x hx).transient transient).2⟩
  · unfold Standing.coda at coda
    split at coda <;> simp at coda

/-- A run that is telling of a state has not entered it. -/
theorem Course.impending (c : Course w r st ms) {s : State} {p : Option String}
    {d : Option Decision} (here : st = .told s p d) : Impending r ms := by
  induction c with
  | start => cases here
  | @leg st st' ms news course leg ih =>
    cases leg with
    | tell => exact ⟨ms, _, [], rfl, by simp⟩
    | rest | ask =>
      obtain ⟨pre, c, post, rfl, none⟩ := ih here
      exact ⟨pre, c, _, List.append_assoc .., by simpa using none⟩
    | _ => cases here

/-- A run that is asked to stop tells of no further state, and enters at most the one that it has
told of. -/
theorem Course.halts (c : Course w r st ms) (split : ms = before ++ .stopAsked r :: after) :
    Halts r before after := by
  have kept : Halts r before after ∧ ∀ s p d, st = .told s p d → Impending r before := by
    refine c.since (P := fun st after => Halts r before after ∧
      ∀ s p d, st = .told s p d → Impending r before) split
      (fun course => ⟨⟨by simp, by simp⟩, fun s p d here => course.impending here⟩) ?_
    rintro st after news st' course ⟨halts, told⟩ leg
    have quiet (silent : ∀ m ∈ news, ∀ c v, m ≠ .notified r c ∧ m ≠ .entered r v) :
        Halts r before (after ++ news) := by
      refine ⟨fun c hm => ?_, fun v hm => ?_⟩
      · exact (List.mem_append.1 hm).elim (halts.told c) fun new => (silent _ new c 0).1 rfl
      · refine (List.mem_append.1 hm).elim (halts.entered v) fun new => ?_
        exact absurd rfl (silent _ new ⟨"", none, none⟩ v).2
    -- A state is entered only after it was told of, and the run does not tell of one any more.
    cases leg with
    | tell free => exact absurd (by simp) free
    | @enter s p d v =>
      have due := told s p d rfl
      exact ⟨⟨by simpa using halts.told, fun _ _ => due⟩, by simp⟩
    | rest | ask => exact ⟨quiet (by simp), told⟩
    | fall _ falls =>
      refine ⟨quiet fun m hm c v => ?_, by simp⟩
      constructor <;> rintro rfl <;> cases falls _ hm
    | _ => exact ⟨quiet (by simp), by simp⟩
  exact kept.1

/-- A run that is asked to stop while nothing is decided goes on to heed that. -/
theorem Course.stops (c : Course w r st ms) (split : ms = before ++ .stopAsked r :: after)
    (moved : ∀ pre v e post, before = pre ++ .concluded v e :: post → (w.visit v).run = r →
      e = .stopped ∨ ∃ hop, .moved r hop ∈ post)
    (waits : ∀ v, .entered r v ∈ ms → w.Owns r v → (∀ e, .concluded v e ∉ before) →
      (w.visit v).state.mode ≠ .transient) : st.Heeds ∧ ∀ m ∈ after, m.isHeeding = true := by
  rw [split] at waits
  revert waits
  refine c.since (P := fun st after => (∀ v, .entered r v ∈ before ++ .stopAsked r :: after →
    w.Owns r v → (∀ e, .concluded v e ∉ before) → (w.visit v).state.mode ≠ .transient) →
    st.Heeds ∧ ∀ m ∈ after, m.isHeeding = true) split
    (fun course _ => ⟨course.heeds moved, by simp⟩) ?_
  intro st after news st' course kept leg waits
  have sooner {m : Mark} (hm : m ∈ before ++ .stopAsked r :: after) :
      m ∈ before ++ .stopAsked r :: (after ++ news) := by
    rw [← List.cons_append, ← List.append_assoc]
    exact List.mem_append_left _ hm
  obtain ⟨heeds, heeding⟩ := kept fun v here => waits v (sooner here)
  -- The stay under way can come to another end only if its state does not wait.
  have only : ∀ v e, .concluded v e ∈ news → e = .stopped := by
    intro v e here
    cases leg with
    | pass transient =>
      obtain ⟨entered, going⟩ := course.arrived
      have own := course.owns (.inl rfl)
      refine absurd transient (waits _ (sooner entered) own fun e' ended => going e' ?_)
      exact List.mem_append_left _ ended
    | conclude stop =>
      cases List.mem_singleton.1 here
      exact stop.2 (by simp)
    | fall _ falls => cases falls _ here
    | _ => simp at here
  obtain ⟨heeds', new⟩ := heeds.leg leg only
  exact ⟨heeds', fun m hm => (List.mem_append.1 hm).elim (heeding m) (new m)⟩

/-- A run that is asked to stop and moves on does not come further than to the next state. -/
theorem Course.stops_of_moved (c : Course w r st ms) (split : ms = before ++ .stopAsked r :: after)
    {hop : Hop} (moved : .moved r hop ∈ after) :
    st = .lost ∨ st = .finished (.ok .stopped) ∨ ∃ s p d, st = .arriving s p d := by
  revert moved
  refine c.since (P := fun st after => .moved r hop ∈ after →
    st = .lost ∨ st = .finished (.ok .stopped) ∨ ∃ s p d, st = .arriving s p d) split (by simp) ?_
  intro st after news st' course kept leg moved
  rcases List.mem_append.1 moved with old | new
  · rcases kept old with rfl | rfl | ⟨s, p, d, rfl⟩
    · cases leg <;> exact .inl rfl
    · cases leg with
      | rest | ask => exact .inr (.inl rfl)
      | fall going => cases going
    · cases leg with
      | rest | ask => exact .inr (.inr ⟨s, p, d, rfl⟩)
      | fall => exact .inl rfl
      | tell free => exact absurd (by simp) free
      | halt => exact .inr (.inl rfl)
  · cases leg with
    | go => exact .inr (.inr ⟨_, _, _, rfl⟩)
    | fall _ falls => cases falls _ new
    | _ => simp at new

/-- A run that does not move on from a stay that did not end by a stop does not return that it has
stopped. -/
theorem Course.ends (c : Course w r st ms) {pre post : List Mark} {e : Ending}
    (split : ms = pre ++ .concluded v e :: post) (other : e ≠ .stopped)
    (stays : ∀ hop, .moved r hop ∉ post) :
    st.ending? = some e ∨ st = .lost ∨ ∃ result, st = .finished result ∧ result ≠ .ok .stopped := by
  induction c generalizing post with
  | start =>
    have here : .concluded v e ∈ [Mark.began r] := by simp [split]
    simp at here
  | @leg st st' ms news course leg ih =>
    by_cases here : .concluded v e ∈ news
    · refine .inl ?_
      cases leg with
      | pass | conclude =>
        cases List.mem_singleton.1 here
        rfl
      | fall _ falls => cases falls _ here
      | _ => simp at here
    · -- The end came before, and the run does not move on after it.
      obtain ⟨post, rfl, rfl⟩ := (split_append split).resolve_right fun ⟨front, _, rest⟩ =>
        here (by simp [rest])
      have stays' : ∀ hop, .moved r hop ∉ post := fun hop hm =>
        stays hop (List.mem_append_left _ hm)
      rcases ih rfl stays' with ending | rfl | ⟨result, rfl, fair⟩
      · cases leg with
        | rest | ask | act | relax | drop | exit | close | quit | announce => exact .inl ending
        | fall => exact .inr (.inl rfl)
        | go => exact absurd (List.mem_append_right _ (List.mem_singleton_self _)) (stays _)
        | @back u e' result after =>
          refine .inr (.inr ⟨result, rfl, ?_⟩)
          rintro rfl
          cases Machine.stopped_of_back after
          exact other (Option.some.inj ending).symm
        | done => exact .inr (.inr ⟨_, rfl, by simp⟩)
        | _ => cases ending
      · cases leg <;> exact .inr (.inl rfl)
      · cases leg with
        | rest | ask => exact .inr (.inr ⟨result, rfl, fair⟩)
        | fall going => cases going

end

/-! ## Runs that are asked to stop -/

section

variable {w : World} {σ : Stage} {r : RunId} {st : Standing} {before after pre post : List Mark}
  {m : Mark}

/-- The marks that are about a run, of those before a mark about it and of those after. -/
theorem World.way_of_marks (marks : w.marks = before ++ m :: after)
    (subject : w.subject? m = some r) : w.way r = before.filter (fun m => w.subject? m = some r) ++
      m :: after.filter (fun m => w.subject? m = some r) := by
  simp [way, marks, subject]

theorem World.mem_filter_subject {ms : List Mark} (subject : w.subject? m = some r)
    (hm : m ∈ ms) : m ∈ ms.filter (fun m => w.subject? m = some r) :=
  List.mem_filter.2 ⟨hm, by simp [subject]⟩

/-- A place among the marks that are kept is one among all marks. -/
theorem split_of_filter {ms : List Mark} {p : Mark → Bool}
    (h : ms.filter p = before ++ m :: after) :
    ∃ pre post, ms = pre ++ m :: post ∧ post.filter p = after := by
  obtain ⟨front, back, rfl, -, rest⟩ := List.filter_eq_append_iff.1 h
  obtain ⟨skipped, post, rfl, -, -, rest⟩ := List.filter_eq_cons_iff.1 rest
  exact ⟨front ++ skipped, post, by simp, rest⟩

namespace Chart

/-- A run that is asked to stop tells of no further state and enters none but one that it has told
of. -/
theorem halts (chart : Chart w σ r st) (marks : w.marks = before ++ .stopAsked r :: after) :
    Halts r before after := by
  obtain ⟨told, entered⟩ := chart.course.halts (World.way_of_marks marks rfl)
  refine ⟨fun c hm => told c (World.mem_filter_subject rfl hm), fun v hm => ?_⟩
  obtain ⟨_, c, _, here, none⟩ := entered v (World.mem_filter_subject rfl hm)
  obtain ⟨pre, post, there, rfl⟩ := split_of_filter here
  exact ⟨pre, c, post, there, fun u hu => none u (World.mem_filter_subject rfl hu)⟩

/-- A run that is asked to stop while nothing is decided stops. -/
theorem stops (chart : Chart w σ r st) (marks : w.marks = before ++ .stopAsked r :: after)
    (undecided : w.Undecided r before) : w.Stops r before after := by
  -- Nothing is decided on the way of the run either.
  have moved : ∀ pre v e post, before.filter (fun m => w.subject? m = some r) =
      pre ++ .concluded v e :: post → (w.visit v).run = r →
      e = .stopped ∨ ∃ hop, .moved r hop ∈ post := by
    rintro _ v e _ here own
    obtain ⟨pre, post, there, rfl⟩ := split_of_filter here
    refine (undecided.moved pre v e post there own).imp_right fun ⟨hop, hm⟩ => ?_
    exact ⟨hop, World.mem_filter_subject rfl hm⟩
  have split := World.way_of_marks marks (r := r) rfl
  obtain ⟨-, heeding⟩ := chart.course.stops split moved fun v entered own going => by
    refine undecided.waits v (World.mem_way.1 entered).1 fun e ended => going e ?_
    exact World.mem_filter_subject (congrArg some own.run) ended
  refine ⟨chart.halts marks, fun v k own hm => ?_, fun hm => ?_, fun result hm => ?_⟩
  · cases heeding (.acted v .exit k) (World.mem_filter_subject (congrArg some own) hm)
  · cases heeding (.announced r) (World.mem_filter_subject rfl hm)
  · exact of_decide_eq_true (heeding (.returned r result) (World.mem_filter_subject rfl hm))

/-- If a run has returned that it has stopped, it moved on from every stay that did not end by a
stop. -/
theorem moved (chart : Chart w σ r (.finished (.ok .stopped))) {v : VisitId} {e : Ending}
    (own : (w.visit v).run = r) (marks : w.marks = pre ++ .concluded v e :: post) :
    e = .stopped ∨ ∃ hop, .moved r hop ∈ post := by
  refine Classical.or_iff_not_imp_left.2 fun other => Classical.byContradiction fun stays => ?_
  rcases chart.course.ends (World.way_of_marks marks (congrArg some own)) other
    (fun hop hm => stays ⟨hop, (List.mem_filter.1 hm).1⟩) with here | gone | ⟨result, same, fair⟩
  · cases here
  · cases gone
  · exact fair (Standing.finished.inj same).symm

/-- If a run has returned that it has stopped, and has not moved on since it was asked to, then
nothing was decided when it was. -/
theorem undecided (chart : Chart w σ r (.finished (.ok .stopped)))
    (marks : w.marks = before ++ .stopAsked r :: after)
    (stays : ∀ hop, .moved r hop ∉ after) : w.Undecided r before := by
  refine ⟨fun pre v e post here own => ?_, fun v entered going transient => ?_⟩
  · have there : w.marks = pre ++ .concluded v e :: (post ++ .stopAsked r :: after) := by
      simp [marks, here]
    refine (chart.moved own there).imp_right fun ⟨hop, hm⟩ => ⟨hop, ?_⟩
    exact (List.mem_append.1 hm).resolve_right fun late => stays hop (by simpa using late)
  · -- A transient state that is entered is left again, and the run moves on then.
    obtain ⟨e, ended, own, passes⟩ :=
      chart.course.concludes (World.mem_way.2 ⟨entered, rfl⟩)
    have late : .concluded v e ∈ after := by
      have ended : .concluded v e ∈ before ∨ .concluded v e ∈ after := by
        simpa [marks] using (World.mem_way.1 ended).1
      exact ended.resolve_left (going e)
    obtain ⟨front, back, rfl⟩ := List.append_of_mem late
    have there : w.marks = (before ++ .stopAsked r :: front) ++ .concluded v e :: back := by
      simp [marks]
    rcases chart.moved own there with stop | ⟨hop, hm⟩
    · cases stop.symm.trans (passes transient)
    · exact stays hop (by simp [hm])

end Chart

end

/-- A run that is asked to stop tells of no further state and enters none. If nothing is decided
by then, it runs no exit actions either, and returns that it has stopped. Otherwise it returns so
exactly if it moves on. -/
theorem Scenario.stops_of_undecided {s : Scenario} {w : World} (h : s.Reaches w) {r : RunId}
    {before after : List Mark} (marks : w.marks = before ++ .stopAsked r :: after)
    (began : .began r ∈ before) :
    (w.Undecided r before → w.Stops r before after) ∧ Halts r before after ∧
    ∀ result, .returned r result ∈ after →
      (result = .ok .stopped ↔ w.Undecided r before ∨ ∃ hop, .moved r hop ∈ after) := by
  obtain ⟨st, chart⟩ := h.orderly.charted r (by simp [marks, began])
  refine ⟨chart.stops marks, chart.halts marks, fun result returned => ?_⟩
  have finished : st = .finished result :=
    chart.course.finished_of_returned (World.mem_way.2 ⟨by simp [marks, returned], rfl⟩)
  constructor
  · rintro rfl
    refine Classical.or_iff_not_imp_right.2 fun none => ?_
    exact (finished ▸ chart).undecided marks fun hop hm => none ⟨hop, hm⟩
  · rintro (undecided | ⟨hop, hm⟩)
    · exact (chart.stops marks undecided).stopped result returned
    · have split := World.way_of_marks marks (r := r) rfl
      rcases chart.course.stops_of_moved split (World.mem_filter_subject rfl hm) with
        gone | stopped | ⟨s, p, d, here⟩
      · cases finished.symm.trans gone
      · exact Standing.finished.inj (finished.symm.trans stopped)
      · cases finished.symm.trans here

/-- A service stops its own interpreter before it raises an event. -/
def Scenario.recalled : Scenario where
  machine := ⟨"m", "M", "a", some [
    { State.new "a" with
      routes := [(.named "go", "b")]
      services := [.free { body := [.act (.stop 0), .act (.raise "go")] }]
      exitActions := ⟨[[]]⟩ },
    { State.new "b" with mode := .final }]⟩
  interpreters := 1
  limit := none
  observers := []
  steps := [.run 0 100]

theorem Scenario.recalled_stops :
    (recalled.play 13).Stops 0 ((recalled.play 13).marks.take 7)
      ((recalled.play 13).marks.drop 8) := by
  have going : ((recalled.play 13).marks.take 7).all
      (fun | .concluded _ _ => false | _ => true) = true := by decide +kernel
  have waits : (recalled.play 13).marks.all (fun
      | .entered _ v => ((recalled.play 13).visit v).state.mode ≠ .transient
      | _ => true) = true := by decide +kernel
  have undecided : (recalled.play 13).Undecided 0 ((recalled.play 13).marks.take 7) := by
    refine ⟨fun pre v e post split _ => ?_, fun v entered _ => ?_⟩
    · cases List.all_eq_true.1 going (.concluded v e) (by simp [split])
    · exact of_decide_eq_true (List.all_eq_true.1 waits _ entered)
  have stops := stops_of_undecided (recalled.reaches_play 13) (r := 0)
    (show _ = (recalled.play 13).marks.take 7 ++ .stopAsked 0 :: (recalled.play 13).marks.drop 8
      by decide +kernel) (by decide +kernel)
  exact stops.1 undecided

/-- A cleanup action stops the interpreter in a final state that has settled. -/
def Scenario.dismissed : Scenario where
  machine := ⟨"m", "M", "a", some [
    { State.new "a" with
      mode := .final
      activities := [{ body := [] }]
      cleanup := ⟨[[.act (.stop 0)]]⟩
      exitActions := ⟨[[]]⟩ }]⟩
  interpreters := 1
  limit := none
  observers := []
  steps := [.run 0 100]

/-- Not every run stops that is asked to before it runs the first exit action of the state that
it is in. -/
theorem Scenario.exists_stop_ignored :
    ¬ ∀ (s : Scenario) (w : World) (r : RunId) (before after : List Mark), s.Reaches w →
      w.marks = before ++ .stopAsked r :: after → .began r ∈ before →
      (∀ v, .entered r v ∈ before → (∀ u, .entered r u ∈ before → u ≤ v) →
        ∀ k, .acted v .exit k ∉ before) → w.Stops r before after := by
  intro all
  have heeding : ((dismissed.play 11).marks.take 11).all Mark.isHeeding = true := by
    decide +kernel
  have stops := all dismissed _ 0 ((dismissed.play 11).marks.take 11)
    ((dismissed.play 11).marks.drop 12) (dismissed.reaches_play 11) (by decide +kernel)
    (by decide +kernel) fun v _ _ k exited => by
      cases List.all_eq_true.1 heeding (.acted v .exit k) exited
  exact stops.announced (by decide +kernel)

end Statechart
