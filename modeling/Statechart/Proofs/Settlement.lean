import Statechart.Proofs.Polls
import Statechart.Proofs.Sequels

/-!
# When visits settle

A visit settles when nothing is left that could raise an event: all of its work has finished, every
clone of its callback is gone, and nothing was accepted before. Clones may outlive the tasks, and
tasks may outlive the clones. Until then, and unless something is accepted, a task panics or the run
is stopped, the visit goes on waiting.

## Main definitions

- `World.Quiescent`: nothing is left that could keep a visit from settling.
- `World.Engaged`: something is left that a visit waits for.
- `World.Settles`: a poll that settles its visit and ends its run.

## Main statements

- `World.finding?_of_quiescent`, `World.quiescent_of_finding?`: a poll that hears of no further task
  settles just the visits that are quiescent.
- `World.Quiescent.later`: visits stay quiescent while their runs wait and are not stopped.
- `Scenario.settles_iff_quiescent`: the condition under which visits settle, and what comes of it.
-/

namespace Statechart

/-! ## Definitions -/

/-- Nothing is left that could keep a visit from settling. -/
structure World.Quiescent (w : World) (v : VisitId) : Prop where
  /-- Every service and every activity has finished, and none has panicked. -/
  idle : ∀ t, (w.task t).home = some v →
    (w.task t).isAlive = false ∧ (w.task t).fate ≠ some .panicked
  /-- Every clone of the callback is gone, those of other tasks and those in slots as well. -/
  released : w.isHeld v = false
  silent : ∀ d, .raised v d true ∉ w.marks
  free : (w.runOf v).cancelled = false

/-- Work or a clone of the callback is left, and nothing has happened that ends the wait of a
visit. -/
structure World.Engaged (w : World) (v : VisitId) : Prop where
  left : (∃ t, (w.task t).home = some v ∧ (w.task t).isAlive = true) ∨ w.isHeld v = true
  calm : ∀ t, (w.task t).home = some v → (w.task t).fate ≠ some .panicked
  silent : ∀ d, .raised v d true ∉ w.marks
  free : (w.runOf v).cancelled = false

/-- What a run returns that settles in a state. -/
def State.settlement (s : State) : RunResult :=
  if s.mode = .final then .ok .done else .ok (.settled s.id)

/-- The poll of a visit goes on until the visit has settled. In the next move the run returns,
unless an action of the state or an observer of the machine has panicked: then it is over without a
result. -/
structure World.Settles (w : World) (v : VisitId) : Prop where
  looks : ∀ n ≤ (w.visit v).finished.length,
    (w.moves (w.runOf v).host n).Polls v ∧ (w.moves (w.runOf v).host n).marks = w.marks
  settles : w.marks ++ [.concluded v .settled] <+:
    (w.moves (w.runOf v).host ((w.visit v).finished.length + 1)).marks
  returns :
    .released (w.visit v).run .stopped ∈
      (w.moves (w.runOf v).host ((w.visit v).finished.length + 1)).marks ∨
    (w.moves (w.runOf v).host ((w.visit v).finished.length + 1)).running =
      some (w.runOf v).host ∧
    (.returned (w.visit v).run (w.visit v).state.settlement ∈
        (w.moves (w.runOf v).host ((w.visit v).finished.length + 2)).marks ∨
      .released (w.visit v).run .stopped ∈
        (w.moves (w.runOf v).host ((w.visit v).finished.length + 2)).marks)

section

variable {s : Scenario} {w w' : World} {σ σ' : Stage} {t : TaskId} {r : RunId} {v : VisitId}

/-! ## What polls find -/

/-- Nothing has been accepted, so nothing is in the inbox. -/
theorem Counted.inbox (h : Counted w) (silent : ∀ d, .raised v d true ∉ w.marks) :
    (w.visit v).inbox = none := by
  refine Option.eq_none_iff_forall_ne_some.2 fun d news => silent d ?_
  rw [← World.mem_accepted, h.accepted v, news]
  exact List.mem_singleton.2 rfl

theorem Counted.silent (h : Counted w) (news : (w.visit v).inbox = none) (d : Decision) :
    .raised v d true ∉ w.marks := by
  intro raised
  rw [← World.mem_accepted, h.accepted v, news] at raised
  cases raised

namespace World

/-- Nobody works for a quiescent visit. -/
theorem Quiescent.working (quiet : w.Quiescent v) (staffed : Staffed w) :
    (w.visit v).working = [] := by
  refine List.eq_nil_iff_forall_not_mem.2 fun t ht => ?_
  have gone := (quiet.idle t (staffed.listed t v ht)).1
  cases gone.symm.trans ((staffed.busy v).2 t ht)

/-- A quiescent visit settles, once it has heard of all of its tasks. -/
theorem finding?_of_quiescent (staffed : Staffed w) (counted : Counted w) (quiet : w.Quiescent v) :
    w.finding? v = if (w.visit v).finished = [] then some .settled else none := by
  have working := quiet.working staffed
  have inbox := counted.inbox quiet.silent
  cases finished : (w.visit v).finished with
  | nil => simp [finding?, quiet.free, inbox, finished, quiet.released, working]
  | cons t rest =>
    have calm := (quiet.idle t (staffed.finished t v (by simp [finished])).1).2
    simp [finding?, quiet.free, inbox, finished, calm]

/-- A visit that settles is quiescent. -/
theorem quiescent_of_finding? (staffed : Staffed w) (counted : Counted w)
    (waits : ∀ e, .concluded v e ∉ w.marks) (found : w.finding? v = some .settled) :
    w.Quiescent v := by
  unfold finding? at found
  split at found
  · cases found
  · next free =>
    split at found
    · cases found
    · split at found <;> cases found
    · next inbox finished =>
      split at found
      · cases found
      · next idle =>
        obtain ⟨released, working⟩ := not_or.1 idle
        refine ⟨fun t home => ⟨?_, fun panicked => ?_⟩, by simpa using released,
          counted.silent inbox, by simpa using free⟩
        · rw [← Bool.not_eq_true]
          intro alive
          have listed := staffed.working t v home alive
          rw [Classical.not_not.1 working] at listed
          cases listed
        · -- Nobody mourns a task whose panic the visit has yet to hear of.
          rcases staffed.mourned t v home panicked with listed | ⟨e, -, past⟩
          · rw [finished] at listed
            cases listed
          · exact waits e past

/-- It is for a stop that a wait ends so. -/
theorem cancelled_of_finding? (found : w.finding? v = some .stopped) :
    (w.runOf v).cancelled = true := by
  unfold finding? at found
  split at found
  · assumption
  · split at found
    · cases found
    · split at found <;> cases found
    · split at found <;> cases found

/-- While something is left to wait for, and nothing has happened, a poll finds nothing. -/
theorem finding?_of_engaged (staffed : Staffed w) (counted : Counted w) (engaged : w.Engaged v) :
    w.finding? v = none := by
  have inbox := counted.inbox engaged.silent
  cases finished : (w.visit v).finished with
  | nil =>
    have busy : w.isHeld v = true ∨ ¬ (w.visit v).working = [] := by
      refine engaged.left.symm.imp_right fun ⟨t, home, alive⟩ none => ?_
      have listed := staffed.working t v home alive
      rw [none] at listed
      cases listed
    simp [finding?, engaged.free, inbox, finished, busy]
  | cons t rest =>
    have calm := engaged.calm t (staffed.finished t v (by simp [finished])).1
    simp [finding?, engaged.free, inbox, finished, calm]

end World

/-- A wait that is not over has no end among the marks. -/
theorem Raced.unconcluded (h : Raced w .rest) (phase : (w.runOf v).phase = .waiting v)
    (e : Ending) : .concluded v e ∉ w.marks :=
  fun past => h.waits _ v phase ⟨e, past⟩

/-! ## Visits that stay quiescent -/

/-- A run that has ended is not begun again. -/
theorem Stride.ended (b : Stride t r (w, σ) (w', σ')) (staged : Staged w σ)
    (ended : (w.run r).phase = .ended) : (w'.run r).phase = .ended := by
  have suits {spot : Spot} (hσ : σ = .busy t r spot) : spot.Suits .ended :=
    ended ▸ (staged.placed t r spot hσ).suits
  cases b with
  | depart _ phase | tell _ phase | conclude _ phase | exit _ phase | quit _ phase | go phase
  | announce phase => cases ended.symm.trans phase
  | pass | wait => cases suits rfl
  | halt | back | done => exact World.phase_endRun ..
  | unwind => exact World.phase_release ..
  | dropBegun | dropArriving => exact World.phase_setPhase ..
  | dropWaiting =>
    rw [World.run_closeVisit, World.run_abortWork]
    exact World.phase_setPhase ..
  | dropDraining => exact World.phase_setPhase ..
  | relax =>
    rw [World.run_abortWork]
    exact ended
  | _ => exact ended

/-- A run that waits goes on waiting, unless it is dropped or its wait is over. -/
theorem Stride.of_waiting (b : Stride t r (w, σ) (w', σ')) (staged : Staged w σ)
    (phase : (w.run r).phase = .waiting v) :
    (w'.run r).phase = .waiting v ∨ (w'.run r).phase = .ended ∨ w'.Concluded v := by
  have idle {spot : Spot} (hσ : σ = .busy t r spot) : spot = .idle :=
    Spot.Suits.eq_idle (phase ▸ (staged.placed t r spot hσ).suits)
  cases b with
  | depart _ other | exit _ other | quit _ other | go other => cases phase.symm.trans other
  | pass | wait | relax => cases idle rfl
  | @conclude _ u e drives other =>
    cases phase.symm.trans other
    exact .inr (.inr ⟨e, by simp⟩)
  | halt | back | done => exact .inr (.inl (World.phase_endRun ..))
  | unwind => exact .inr (.inl (World.phase_release ..))
  | dropBegun | dropArriving => exact .inr (.inl (World.phase_setPhase ..))
  | dropWaiting =>
    rw [World.run_closeVisit, World.run_abortWork]
    exact .inr (.inl (World.phase_setPhase ..))
  | dropDraining => exact .inr (.inl (World.phase_setPhase ..))
  | _ => exact .inl phase

/-- Nobody is left who works for a visit, or who could raise an event on it. -/
structure World.Barren (w : World) (σ : Stage) (v : VisitId) : Prop where
  idle : ∀ t, (w.task t).home = some v →
    (w.task t).isAlive = false ∧ (w.task t).fate ≠ some .panicked
  released : ¬ w.Usable σ v
  silent : w.accepted v = []

/-- What has become of a task that is gone is known for good. -/
theorem Beat.fate (b : Beat (w, σ) (w', σ')) (o : Orderly w σ) (home : (w.task t).home = some v)
    (gone : (w.task t).isAlive = false) : (w'.task t).fate = (w.task t).fate := by
  obtain ⟨fate, told⟩ := o.fated.gone home gone
  obtain ⟨news, marks⟩ := Beat.marks b o.toStaged
  have told' : w'.fates t = fate :: news.filterMap (Mark.fate? t) := by
    have told : w.marks.filterMap (Mark.fate? t) = [fate] := told
    simp [World.fates, marks, told]
  rw [(o.beat b).fated t v (b.lasting.homes home)] at told'
  rw [o.fated t v home] at told
  rw [Option.toList_eq_singleton_iff] at told
  rw [told]
  cases fate' : (w'.task t).fate with
  | none => simp [fate'] at told'
  | some f =>
    rw [fate'] at told'
    exact congrArg some (List.cons.inj told').1

/-- While its run waits, a barren visit stays so. -/
theorem World.Barren.beat (h : w.Barren σ v) (o : Orderly w σ)
    (phase : (w.run r).phase = .waiting v) (b : Beat (w, σ) (w', σ')) : w'.Barren σ' v := by
  have own := o.waits r v (congrArg Phase.visit? phase)
  -- No move is under way in which the work of the visit is still to be set up.
  have apart {u : TaskId} {q : RunId} {spot : Spot} (hσ : σ = .busy u q spot)
      (visit : spot.visit? = some v) (early : spot.Suits (.waiting v) → False) : False := by
    have placed := o.placed u q spot hσ
    have same : q = r := (placed.own v visit).run.symm.trans own.run
    exact early (phase ▸ same ▸ placed.suits)
  refine ⟨fun t home => ?_, fun use => ?_, ?_⟩
  · have old : (w.task t).home = some v := by
      refine (b.came home).resolve_right fun ⟨u, q, k, hσ, _⟩ => ?_
      exact apart hσ rfl nofun
    obtain ⟨gone, calm⟩ := h.idle t old
    refine ⟨?_, b.fate o old gone ▸ calm⟩
    rw [← Bool.not_eq_true]
    intro alive
    cases gone.symm.trans (b.alive old alive)
  · cases b with
    | stir b => exact h.released (b.usable use)
    | shift b =>
      rcases use with held | lent
      · exact h.released (.inl (b.isHeld held))
      · cases lent
    | stride b =>
      rcases b.usable use with use | ⟨arrived, -⟩
      · exact h.released use
      · exact apart arrived rfl nofun
  · cases b with
    | stir b =>
      rcases b.hears with deaf | ⟨u, d, use, -, -, -, rfl⟩
      · exact (deaf.accepted v).trans h.silent
      · rw [World.accepted_accept, if_neg]
        · exact h.silent
        · rintro rfl
          exact h.released use
    | shift b => exact (b.deaf.accepted v).trans h.silent
    | stride b => exact ((b.deaf o.toStaged).accepted v).trans h.silent

/-- A run that is over, or waits, or has waited, is so after a beat. -/
theorem Beat.of_waiting (b : Beat (w, σ) (w', σ')) (o : Orderly w σ) (known : r < w.runs.size) :
    ((w.run r).phase = .ended → (w'.run r).phase = .ended) ∧
      ((w.run r).phase = .waiting v →
        (w'.run r).phase = .waiting v ∨ (w'.run r).phase = .ended ∨ w'.Concluded v) := by
  have steady (same : (w'.run r).phase = (w.run r).phase) :
      ((w.run r).phase = .ended → (w'.run r).phase = .ended) ∧
        ((w.run r).phase = .waiting v →
          (w'.run r).phase = .waiting v ∨ (w'.run r).phase = .ended ∨ w'.Concluded v) :=
    ⟨same.trans, fun phase => .inl (same.trans phase)⟩
  cases b with
  | stir b => exact steady (b.steady.run r known).phase
  | shift b => exact steady (b.steady.run r known).phase
  | @stride t q _ _ b =>
    by_cases mine : r = q
    · subst mine
      exact ⟨b.ended o.toStaged, b.of_waiting o.toStaged⟩
    · exact steady (congrArg Run.phase (b.onward.run r mine))

/-- A run that has waited still does, or has been dropped, or its wait is over; and while it waits,
a barren visit stays so. -/
theorem Beats.of_waiting {x y : World × Stage} (b : Beats x y) (o : Orderly x.1 x.2)
    (phase : (x.1.run r).phase = .waiting v) :
    (y.1.run r).phase = .ended ∨ y.1.Concluded v ∨ (y.1.run r).phase = .waiting v ∧
      (x.1.Barren x.2 v → y.1.Barren y.2 v) := by
  have known : r < x.1.runs.size := Nat.lt_of_not_le fun new => by
    cases (World.phase_of_size_le new).symm.trans phase
  suffices r < y.1.runs.size ∧ ((y.1.run r).phase = .ended ∨ y.1.Concluded v ∨
      (y.1.run r).phase = .waiting v ∧ (x.1.Barren x.2 v → y.1.Barren y.2 v)) from this.2
  induction b with
  | refl => exact ⟨known, .inr (.inr ⟨phase, id⟩)⟩
  | @tail u y before beat ih =>
    obtain ⟨known, here⟩ := ih
    have o := o.beats before
    obtain ⟨ended, waits⟩ := beat.of_waiting (v := v) o known
    refine ⟨Nat.lt_of_lt_of_le known beat.runs, ?_⟩
    rcases here with here | ⟨e, past⟩ | ⟨phase, barren⟩
    · exact .inl (ended here)
    · exact .inr (.inl ⟨e, beat.mem_marks o.toStaged past⟩)
    · rcases waits phase with phase' | past | past
      · exact .inr (.inr ⟨phase', fun h => (barren h).beat o phase beat⟩)
      · exact .inl past
      · exact .inr (.inl past)

theorem World.Quiescent.barren (h : w.Quiescent v) (counted : Counted w) : w.Barren .rest v where
  idle := h.idle
  released := by
    rintro (held | lent)
    · cases h.released.symm.trans held
    · cases lent
  silent := by rw [counted.accepted v, counted.inbox h.silent, Option.toList_none]

theorem World.Barren.quiescent (h : w.Barren .rest v) (free : (w.runOf v).cancelled = false) :
    w.Quiescent v where
  idle := h.idle
  released := by
    rw [← Bool.not_eq_true]
    exact fun held => h.released (.inl held)
  silent d raised := by
    rw [← World.mem_accepted, h.silent] at raised
    cases raised
  free := free

namespace Scenario.Reaches

theorem later (h : s.Reaches w) (path : Relation.ReflTransGen World.Next w w') :
    s.Reaches w' ∧ Beats (w, .rest) (w', .rest) := by
  induction path with
  | refl => exact ⟨h, .refl⟩
  | tail _ next ih => exact ⟨ih.1.tail next, ih.2.trans (Beats.next ih.1.sound next)⟩

/-- A visit that is quiescent stays so until its run is polled, unless the run is stopped. -/
theorem quiescent (h : s.Reaches w) (phase : (w.runOf v).phase = .waiting v) (quiet : w.Quiescent v)
    (path : Relation.ReflTransGen World.Next w w') (phase' : (w'.runOf v).phase = .waiting v)
    (free : (w'.runOf v).cancelled = false) : w'.Quiescent v := by
  obtain ⟨reach', beats⟩ := h.later path
  have own := h.sound.waits _ v (congrArg Phase.visit? phase)
  have same : (w'.visit v).run = (w.visit v).run := beats.lasting.owner v own.known
  have here : (w'.run (w.visit v).run).phase = .waiting v := same ▸ phase'
  rcases beats.of_waiting h.orderly phase with ended | ⟨e, past⟩ | ⟨-, barren⟩
  · cases here.symm.trans ended
  · exact absurd past (reach'.raced.2.unconcluded phase' e)
  · exact (barren (quiet.barren h.raced.1)).quiescent free

end Scenario.Reaches

/-! ## Polls that settle -/

theorem World.run_tearScope (w : World) (v : VisitId) (r : RunId) :
    (w.tearScope v).run r = w.run r := by
  unfold tearScope
  simp only
  rw [(Frame.wakeAll _ _).run_eq, (Frame.wakeAll _ _).run_eq]
  rfl

/-- The end of a wait leaves the visit with its tasks to be waited for, unless the cleanup
panics. -/
theorem World.tearDown_spec (w : World) (r : RunId) (v : VisitId) (e : Ending) :
    (w.tearDown r v e).2 = .panicked ∧ .released r .stopped ∈ (w.tearDown r v e).1.marks ∨
      (w.tearDown r v e).2 = .busy ∧ ((w.tearDown r v e).1.run r).phase = .draining v e ∧
        ((w.tearDown r v e).1.visit v).state = (w.visit v).state ∧
        ((w.tearDown r v e).1.visit v).working = (w.visit v).working ∧
        ((w.tearDown r v e).1.visit v).finished = (w.visit v).finished := by
  obtain ⟨w₀, hw₀⟩ : ∃ w₀, w₀ = (w.setPhase r (.draining v e)).mark (.concluded v e) := ⟨_, rfl⟩
  have torn := Spares.tearScope (c := none) w₀ v
  have ran := torn.trans (.runPhrase (w₀.tearScope v) v .cleanup)
  have phase₀ : (w₀.run r).phase = .draining v e := by
    rw [hw₀, run_mark]
    exact phase_setPhase ..
  have visit₀ : w₀.visit v = w.visit v := by rw [hw₀]; rfl
  have phase₁ : ((w₀.tearScope v).run r).phase = .draining v e := by
    rw [run_tearScope, phase₀]
  obtain ⟨n, -, -, phase, -, -⟩ := Paces.runPhrase (t := 0) (r := r) (w₀.tearScope v) v .cleanup
    (.acting v .cleanup) (fun _ => rfl) fun w' k state scope more =>
      .act (state ▸ more) fun _ => scope.trans (World.torn_tearScope ..)
  rw [tearDown_eq, ← hw₀]
  split
  · exact .inl ⟨rfl, by simp [unwind]⟩
  · next w₁ eq =>
    rw [eq] at ran phase
    have gone : (w₁.abortWork v).visit v = w₁.visit v :=
      congrArg (Table.get · v) (Dismisses.abortWork w₁ v).visits
    rw [gone]
    refine .inr ⟨rfl, ?_, ?_, ?_, ?_⟩
    · rw [run_abortWork, phase (by simp [phase₁]), phase₁]
    · rw [ran.state, visit₀]
    · rw [ran.working, visit₀]
    · rw [ran.finished, visit₀]

/-- A visit that has settled, and whose tasks are gone, is left for good. -/
theorem World.leave_settled (w : World) (r : RunId) (v : VisitId) :
    .returned r (w.visit v).state.settlement ∈ (w.leave r v .settled).1.marks ∨
      .released r .stopped ∈ (w.leave r v .settled).1.marks := by
  unfold State.settlement leave
  simp only
  split
  · unfold exitThen
    split
    · exact .inr (by simp [unwind])
    · unfold announceDone
      simp only
      split
      · exact .inr (by simp [unwind])
      · exact .inl (by simp [conclude])
  · exact .inl (by simp [conclude])

namespace Scenario.Reaches

/-- A poll that finds something ends the wait with it. The host goes on to leave the visit, unless
the cleanup has panicked. -/
theorem concludes (h : s.Reaches w) (p : w.Polls v) {e : Ending} (found : w.finding? v = some e) :
    w.marks ++ [.concluded v e] <+: (w.move (w.runOf v).host).marks ∧
      (.released (w.visit v).run .stopped ∈ (w.move (w.runOf v).host).marks ∨
        (w.move (w.runOf v).host).Leaves (w.runOf v).host (w.visit v).run v e ∧
        ((w.move (w.runOf v).host).visit v).state = ((w.looked v).visit v).state ∧
        ((w.move (w.runOf v).host).visit v).working = ((w.looked v).visit v).working ∧
        ((w.move (w.runOf v).host).visit v).finished = ((w.looked v).visit v).finished) := by
  obtain ⟨r, hr⟩ : ∃ r, r = (w.visit v).run := ⟨_, rfl⟩
  have host : (w.runOf v).host = (w.run r).host := by rw [hr]; rfl
  have waits : (w.run r).phase = .waiting v := by rw [hr]; exact p.waits
  have advance : w.advance r = w.inspect r v := by rw [hr, p.inspects]
  have tears : w.advance r = (w.looked v).tearDown r v e := by
    rw [advance, World.inspect_eq hr.symm, found, Option.elim_some]
  refine ⟨?_, ?_⟩
  · have grown := (p.ends h.sound found).marks
    rwa [World.marks_mark, World.marks_looked] at grown
  obtain ⟨defers, busy⟩ := p.advances h.sound
  rw [← hr, tears] at defers busy
  rw [← hr]
  -- The cleanup has panicked, or the host goes on to leave the visit.
  rcases (w.looked v).tearDown_spec r v e with ⟨-, broken⟩ | ⟨goes, phase, same⟩
  · exact .inl (defers.marks.subset broken)
  · have next := busy goes
    have hosts := h.sound.host r (by simp [waits])
    have moved : w.move (w.runOf v).host = (w.inspect r v).1 := by rw [next, ← tears, advance]
    have turn : (w.move (w.runOf v).host).running = some (w.runOf v).host := by
      rw [moved]
      exact (Paces.inspect ⟨p.turn, host ▸ hosts.job⟩ waits).running.trans p.turn
    have same_host : ((w.move (w.runOf v).host).run r).host = (w.runOf v).host := by
      rw [moved, host]
      exact (Tends.inspect w r v).anchored.host r hosts.known
    rw [← next] at phase same
    exact .inr ⟨⟨turn, same_host, phase⟩, same⟩

/-- A poll settles a quiescent visit that has heard of all of its tasks, and in the next move the
run of the visit is over. -/
theorem settles_of_heard (h : s.Reaches w) (p : w.Polls v) (quiet : w.Quiescent v)
    (heard : (w.visit v).finished = []) :
    w.marks ++ [.concluded v .settled] <+: (w.move (w.runOf v).host).marks ∧
      (.released (w.visit v).run .stopped ∈ (w.move (w.runOf v).host).marks ∨
        (w.move (w.runOf v).host).running = some (w.runOf v).host ∧
        (.returned (w.visit v).run (w.visit v).state.settlement ∈
            ((w.move (w.runOf v).host).move (w.runOf v).host).marks ∨
          .released (w.visit v).run .stopped ∈
            ((w.move (w.runOf v).host).move (w.runOf v).host).marks)) := by
  have counted := h.raced.1
  have found : w.finding? v = some .settled := by
    rw [World.finding?_of_quiescent h.staffed counted quiet, if_pos heard]
  have looked : (w.looked v).visit v = { w.visit v with listening := w.isHeld v } := by
    unfold World.looked
    rw [if_neg (by simp [quiet.free, counted.inbox quiet.silent])]
    simp only [heard]
    rw [World.visit_modifyVisit, if_pos rfl, heard]
  obtain ⟨marks, goes⟩ := h.concludes p found
  refine ⟨marks, goes.imp_right fun ⟨leaves, state, working, finished⟩ => ⟨leaves.turn, ?_⟩⟩
  rw [looked] at state working finished
  have next : s.Reaches (w.move (w.runOf v).host) := h.tail (.move p.turn)
  obtain ⟨w', past, left⟩ := next.leaves leaves (working.trans (quiet.working h.staffed))
  obtain ⟨listening, visit⟩ := past.visit
  rw [show ((w.move (w.runOf v).host).visit v).finished = [] from finished.trans heard] at left
  have result := w'.leave_settled (w.visit v).run v
  rw [visit] at result
  rw [show ({ (w.move (w.runOf v).host).visit v with listening, finished := [] } : Visit).state =
    (w.visit v).state from state] at result
  exact result.imp (left.subset ·) (left.subset ·)

/-- The poll of a quiescent visit settles it. -/
theorem settles (h : s.Reaches w) (p : w.Polls v) (quiet : w.Quiescent v) : w.Settles v := by
  have inbox := h.raced.1.inbox quiet.silent
  have calm {calm rest : List TaskId} (split : (w.visit v).finished = calm ++ rest) (t : TaskId)
      (ht : t ∈ calm) : (w.task t).fate ≠ some .panicked := by
    have here : t ∈ (w.visit v).finished := split ▸ List.mem_append_left _ ht
    exact (quiet.idle t (h.staffed.finished t v here).1).2
  have looks (n : Nat) (hn : n ≤ (w.visit v).finished.length) :
      s.Reaches (w.moves (w.runOf v).host n) ∧
        w.Heard v ((w.visit v).finished.drop n) (w.moves (w.runOf v).host n) := by
    have split := (List.take_append_drop n (w.visit v).finished).symm
    have heard := h.hears p quiet.free inbox split (calm split)
    rwa [List.length_take, Nat.min_eq_left hn] at heard
  obtain ⟨reach, heard⟩ := looks _ (Nat.le_refl _)
  rw [List.drop_length] at heard
  have still : (w.moves (w.runOf v).host (w.visit v).finished.length).Quiescent v := by
    refine ⟨fun t => ?_, ?_, fun d => ?_, ?_⟩
    · rw [heard.task]
      exact quiet.idle t
    · rw [heard.isHeld, quiet.released]
    · rw [heard.marks]
      exact quiet.silent d
    · rw [heard.runOf, quiet.free]
  have past := reach.settles_of_heard (heard.polls p) still heard.finished
  obtain ⟨listening, visit⟩ := heard.visit
  rw [heard.runOf, heard.marks, visit, ← World.moves_succ, ← World.moves_succ] at past
  refine ⟨fun n hn => ?_, past.1, past.2⟩
  obtain ⟨-, heard⟩ := looks n hn
  exact ⟨heard.polls p, heard.marks⟩

/-- A run that returns after a visit of its own has settled returns what settling comes to. The
cleanup of the state was carried out, and the exit actions were if the state is final. -/
theorem settled (h : s.Reaches w) (own : w.Owns r v) {result : RunResult}
    (returned : .returned r result ∈ w.marks) (past : .concluded v .settled ∈ w.marks) :
    result = (w.visit v).state.settlement ∧
    (∀ k, .acted v .cleanup k ∈ w.marks ↔ k < (w.visit v).state.cleanup.actions.length) ∧
    ∀ k, .acted v .exit k ∈ w.marks ↔
      k < (w.visit v).state.exitActions.actions.length ∧ (w.visit v).state.mode = .final := by
  obtain ⟨stays, unfolds, sequels⟩ := h.sequels returned
  obtain ⟨x, hx, rfl, ended⟩ := unfolds.stay_of_concluded own past
  have acted := unfolds.mem_acted hx
  rw [ended] at acted
  refine ⟨?_, fun k => ?_, fun k => ?_⟩
  · obtain ⟨before, after, here⟩ := List.append_of_mem hx
    have sequel := sequels before x after here
    have aftermath : (w.machineOf r).aftermath (x.state w) .settled =
      if (x.state w).mode = .final then .announce else .back (.ok (.settled (x.state w).id)) := rfl
    rw [ended, aftermath] at sequel
    show result = if (x.state w).mode = .final then _ else _
    split at sequel
    · next final =>
      rw [if_pos final]
      cases sequel with
      | done done => exact done
    · next normal =>
      rw [if_neg normal]
      cases sequel with
      | back => rfl
  · exact (acted .cleanup k).trans (and_iff_left nofun)
  · refine (acted .exit k).trans (and_congr_right fun _ => ?_)
    exact ⟨fun calls => calls rfl, fun calls _ => calls⟩

/-- What ends the wait of a visit leaves nothing to wait for, or is an event, a panic or a stop. -/
theorem unconcluded (h : s.Reaches w) (engaged : w.Engaged v) (e : Ending) :
    .concluded v e ∉ w.marks := by
  intro past
  have staffed := h.staffed
  obtain ⟨counted, raced⟩ := h.raced
  have going : (w.visit v).state.mode ≠ .transient := by
    rcases engaged.left with ⟨t, home, -⟩ | held
    · exact (h.orderly.crewed.home t v home).2.2
    · exact (raced.lent v (.inl (.inl held))).2
  obtain ⟨before, after, marks⟩ := List.append_of_mem past
  have verdict := raced.judged v e before after marks
  cases e with
  | decided d =>
    refine engaged.silent d ?_
    rw [marks]
    exact List.mem_append_left _ (verdict.decided d rfl going)
  | settled =>
    rcases engaged.left with ⟨t, home, alive⟩ | held
    · have listed := staffed.working t v home alive
      rw [(staffed.cleared v past).1] at listed
      cases listed
    · exact raced.silent v past (.inl held)
  | panicked =>
    obtain ⟨t, home, panicked⟩ := staffed.blamed v past
    exact engaged.calm t home panicked
  | stopped =>
    -- A run that was stopped when its wait ended is stopped for good.
    obtain ⟨w₀, reach, path, -, polls, found⟩ := h.polled marks going
    obtain ⟨-, beats⟩ := reach.later path
    have own := reach.sound.waits _ v (congrArg Phase.visit? polls.waits)
    have asked := reach.orderly.asked _ (World.cancelled_of_finding? found)
    have cancelled := h.orderly.heeded _ (beats.mem reach.orderly asked)
    have same : (w.visit v).run = (w₀.visit v).run := beats.lasting.owner v own.known
    rw [← same] at cancelled
    cases engaged.free.symm.trans cancelled

end Scenario.Reaches

end

namespace Scenario

/-- A wait ends as settled just when the visit is quiescent in the poll that ends it. A visit that
becomes quiescent while its run waits settles in the next poll, unless the run is stopped before;
and a visit that is engaged goes on waiting, whatever happens but that its run is dropped. A run
that returns after it has settled in a final state is done, after the cleanup and the exit actions;
one that has settled in another state says so, after the cleanup, and without the exit actions. -/
theorem settles_iff_quiescent {scn : Scenario} {w : World} (h : scn.Reaches w) (v : VisitId) :
    (∀ e before after, w.marks = before ++ .concluded v e :: after →
      (w.visit v).state.mode ≠ .transient →
      ∃ w₀, scn.Reaches w₀ ∧ Relation.ReflTransGen World.Next w₀ w ∧ w₀.marks = before ∧
        w₀.Polls v ∧ (e = .settled ↔ w₀.Quiescent v)) ∧
    (w.Quiescent v → (w.runOf v).phase = .waiting v →
      ∀ w', Relation.ReflTransGen World.Next w w' → w'.Polls v → (w'.runOf v).cancelled = false →
        w'.Settles v) ∧
    ((w.runOf v).phase = .waiting v →
      ∀ w', Relation.ReflTransGen World.Next w w' → w'.Engaged v →
        (∀ e, .concluded v e ∉ w'.marks) ∧
          ((w'.runOf v).phase = .waiting v ∨ (w'.runOf v).phase = .ended)) ∧
    ∀ r result, w.Owns r v → .returned r result ∈ w.marks → .concluded v .settled ∈ w.marks →
      (∀ k, .acted v .cleanup k ∈ w.marks ↔ k < (w.visit v).state.cleanup.actions.length) ∧
      if (w.visit v).state.mode = .final then
        result = .ok .done ∧
          ∀ k, .acted v .exit k ∈ w.marks ↔ k < (w.visit v).state.exitActions.actions.length
      else result = .ok (.settled (w.visit v).state.id) ∧ ∀ k, .acted v .exit k ∉ w.marks := by
  refine ⟨fun e before after marks going => ?_, fun quiet phase w' path polls free => ?_,
    fun phase w' path engaged => ?_, fun r result own returned settled => ?_⟩
  -- The poll that ended the wait found how it ends, and it finds `settled` just if the visit is
  -- quiescent.
  · obtain ⟨w₀, reach, path, same, polls, found⟩ := h.polled marks going
    have counted := reach.raced.1
    refine ⟨w₀, reach, path, same, polls, fun settled => ?_, fun quiet => ?_⟩
    · rw [settled] at found
      exact World.quiescent_of_finding? reach.staffed counted
        (reach.raced.2.unconcluded polls.waits) found
    · rw [World.finding?_of_quiescent reach.staffed counted quiet] at found
      split at found
      · exact (Option.some.inj found).symm
      · cases found
  · exact (h.later path).1.settles polls (h.quiescent phase quiet path polls.waits free)
  -- Nothing that is found ends the wait of an engaged visit.
  · obtain ⟨reach, beats⟩ := h.later path
    have own := h.sound.waits _ v (congrArg Phase.visit? phase)
    have same : (w'.visit v).run = (w.visit v).run := beats.lasting.owner v own.known
    have past := reach.unconcluded engaged
    refine ⟨past, ?_⟩
    unfold World.runOf
    rw [same]
    rcases beats.of_waiting h.orderly phase with ended | ⟨e, he⟩ | ⟨waits, -⟩
    · exact .inr ended
    · exact absurd he (past e)
    · exact .inl waits
  · obtain ⟨rfl, cleaned, exited⟩ := h.settled own returned settled
    refine ⟨cleaned, ?_⟩
    unfold State.settlement
    split
    · next final => exact ⟨rfl, fun k => (exited k).trans (and_iff_left final)⟩
    · next normal => exact ⟨rfl, fun k here => normal ((exited k).1 here).2⟩

/-- A final state whose callback outlives the service that it was lent to, and whose activity
outlives the callback. -/
def lull : Scenario where
  machine := ⟨"m", "M", "a", some [
    { State.new "a" with
      mode := .final
      services := [.free { body := [.detach [.pause (.sleep 5)]] }]
      activities := [{ body := [.pause (.sleep 10)] }]
      cleanup := ⟨[[]]⟩
      exitActions := ⟨[[]]⟩ }]⟩
  interpreters := 1
  limit := none
  observers := []
  steps := [.run 0 100]

/-- It settles when both are gone. -/
theorem lull_settles :
    .returned 0 (.ok .done) ∈ (lull.play 60).marks ∧
      .concluded 0 .settled ∈ (lull.play 60).marks ∧
      (∃ w₀, lull.Reaches w₀ ∧ w₀.Quiescent 0 ∧ w₀.Settles 0) ∧
      .acted 0 .exit 0 ∈ (lull.play 60).marks := by
  have returned : .returned 0 (.ok .done) ∈ (lull.play 60).marks := by decide +kernel
  have settled : .concluded 0 .settled ∈ (lull.play 60).marks := by decide +kernel
  obtain ⟨before, after, marks⟩ := List.append_of_mem settled
  obtain ⟨exact, -, -, result⟩ := settles_iff_quiescent (lull.reaches_play 60) 0
  refine ⟨returned, settled, ?_, ?_⟩
  · have going : ((lull.play 60).visit 0).state.mode ≠ .transient := by decide +kernel
    obtain ⟨w₀, reach, path, -, polls, quiet⟩ := exact .settled before after marks going
    have quiet := quiet.1 rfl
    obtain ⟨-, settles, -, -⟩ := settles_iff_quiescent reach 0
    exact ⟨w₀, reach, quiet, settles quiet polls.waits w₀ .refl polls quiet.free⟩
  · obtain ⟨-, final⟩ := result 0 _ ⟨by decide +kernel, by decide +kernel⟩ returned settled
    rw [if_pos (by decide +kernel)] at final
    exact (final.2 0).2 (by decide +kernel)

end Scenario

end Statechart
