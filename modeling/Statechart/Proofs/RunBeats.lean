import Statechart.Proofs.ScriptBeats

/-!
# Runs in beats

One move of a run, and the end of a run that is dropped, taken apart into beats.

## Main definitions

- `Signal.stage`: where the engine is after a move of a run.

## Main statements

- `Paces.advance`: a move of a run is a number of beats.
- `Paces.dropRun`: so is the end of a run that is dropped.
-/

namespace Statechart

namespace World

/-- A wait that is over is marked so before the scope is cancelled and the cleanup runs. -/
theorem tearDown_eq (w : World) (r : RunId) (v : VisitId) (e : Ending) :
    w.tearDown r v e = match (((w.setPhase r (.draining v e)).mark
      (.concluded v e)).tearScope v).runPhrase v .cleanup with
      | (w₁, true) => ((w₁.abortWork v).closeVisit v).unwind r
      | (w₁, false) => (w₁.abortWork v, .busy) := rfl

/-- A visit begins, runs its enter actions, and has arrived when the last of them is done. -/
theorem enter_eq (w : World) (r : RunId) (s : State) :
    w.enter r s = match (w.pushVisit r s).runPhrase w.visits.size .enter with
      | (w₁, true) => (w₁.closeVisit w.visits.size).unwind r
      | (w₁, false) =>
        if s.mode = .transient then
          (w₁.mark (.arrived w.visits.size)).tearDown r w.visits.size
            (.decided ⟨.transient, none⟩)
        else (w₁.mark (.arrived w.visits.size)).launch r w.visits.size := rfl

/-- The scope of a visit is cancelled before anybody is woken. -/
theorem torn_tearScope (w : World) (v : VisitId) : ((w.tearScope v).visit v).torn = true := by
  have woken (w : World) (ts : List TaskId) : ((w.wakeAll ts).visit v).torn = (w.visit v).torn :=
    ((Frame.wakeAll w ts).visit v).torn
  simp only [tearScope, woken, visit_modifyVisit, if_true]

end World

/-- Where the engine is when a move of a run has left the task that drives it so. -/
def Signal.stage (t : TaskId) (r : RunId) : Signal → Stage
  | .busy => .rest
  | .parked => .busy t r .idle
  | .returned _ => .busy t r .finished
  | .panicked => .busy t r .finished

namespace Paces

variable {w w' : World} {t : TaskId} {r : RunId} {σ σ' : Stage}

theorem stride (h : Stride t r (w, σ) (w', σ')) : Paces t r (w, σ) (w', σ') :=
  .single (.stride h)

theorem then_stride {x : World × Stage} (h : Paces t r x (w, σ)) (b : Stride t r (w, σ) (w', σ')) :
    Paces t r x (w', σ') :=
  h.tail (.stride b)

/-- Between moves and in them, scripts may stir. -/
theorem then_stirs {x : World × Stage} (h : Paces t r x (w, σ)) (b : Stirs σ w w') :
    Paces t r x (w', σ) :=
  h.trans b.paces

theorem then_log {x : World × Stage} (h : Paces t r x (w, σ)) (eyes : σ.isIdle = false) {e : Entry}
    (plain : e.isNotice = false) : Paces t r x (w.log e, σ) :=
  h.then_stirs (Stirs.log eyes w e plain)

/-! ## The end of a run -/

/-- A run that ends writes a trace and returns. -/
theorem conclude (eyes : σ.isIdle = false) (result : RunResult)
    (finished : ∀ tr,
      Stride t r (w.trace tr, σ) ((w.trace tr).endRun r result, .busy t r .finished)) :
    Paces t r (w, σ) ((w.conclude r result).1, (w.conclude r result).2.stage t r) := by
  cases result with
  | ok outcome =>
    have noted : Paces t r (w, σ) (w.trace (.finished (w.machineOf r).id outcome), σ) :=
      then_log .refl eyes rfl
    exact noted.then_stride (finished _)
  | error e =>
    have noted : Paces t r (w, σ) (w.trace (.failed (w.machineOf r).id e), σ) :=
      then_log .refl eyes rfl
    exact noted.then_stride (finished _)

/-- A run that was stopped ends before it arrives at a state. -/
theorem halt {s : State} {previous : Option String} {cause : Option Decision}
    (drives : w.Drives t r) (phase : (w.run r).phase = .arriving s previous cause)
    (stopped : (w.run r).cancelled = true) :
    Paces t r (w, .rest) ((w.conclude r (.ok .stopped)).1,
      (w.conclude r (.ok .stopped)).2.stage t r) :=
  conclude rfl _ fun _ => .halt ⟨drives.turn, drives.job⟩ phase stopped

/-- A run that has left a state returns if that is what comes of the stay. -/
theorem back {v : VisitId} {e : Ending} {result : RunResult}
    (phase : (w.run r).phase = .draining v e)
    (after : (w.machineOf r).aftermath (w.visit v).state e = .back result) :
    Paces t r (w, .busy t r (.left v))
      ((w.conclude r result).1, (w.conclude r result).2.stage t r) :=
  conclude rfl _ fun _ => .back phase after

theorem announceDone {v : VisitId} {e : Ending} (phase : (w.run r).phase = .draining v e)
    (after : (w.machineOf r).aftermath (w.visit v).state e = .announce) :
    Paces t r (w, .busy t r (.left v)) ((w.announceDone r).1, (w.announceDone r).2.stage t r) := by
  obtain ⟨rest, told, all⟩ := Paces.notifyDone (t := t) (r := r) (w.mark (.announced r))
    (w.interpreter (w.run r).interpreter).doneHandlers
  have announced := (stride (.announce (t := t) phase after)).trans told
  unfold World.announceDone
  simp only
  split
  · next h =>
    rw [h] at announced
    exact announced.tail (.stride (.unwind (.inr (.inl ⟨_, rfl⟩))))
  · next h =>
    rw [h] at announced all
    cases all rfl
    exact announced.trans (conclude rfl _ fun _ => .done)

/-! ## Leaving a state -/

theorem takeTransition {v : VisitId} {d : Decision} {target : String}
    (phase : (w.run r).phase = .draining v (.decided d))
    (resolved : (w.visit v).state.resolve d = .move target) :
    Paces t r (w, .busy t r (.left v))
      ((w.takeTransition r (w.visit v).state d target).1,
        (w.takeTransition r (w.visit v).state d target).2.stage t r) := by
  unfold World.takeTransition
  split
  · next missing =>
    -- A target that is missing is the end of the run.
    refine back phase ?_
    simp [Machine.aftermath, Machine.afterDecision, resolved, missing]
  · next next found =>
    have moved : Paces t r (w, .busy t r (.left v))
        (w.trace (.moving ⟨(w.visit v).state.id, d.event, next.id⟩), _) := then_log .refl rfl rfl
    have after : (w.machineOf r).aftermath (w.visit v).state (.decided d) = .move next d := by
      simp [Machine.aftermath, Machine.afterDecision, resolved, found]
    exact moved.then_stride (.go phase after)

theorem follow {v : VisitId} {k : Nat} {d : Decision}
    (phase : (w.run r).phase = .draining v (.decided d))
    (all : k = (w.visit v).state.exitActions.actions.length) :
    Paces t r (w, .busy t r (.acting v .exit k))
      ((w.follow r v d).1, (w.follow r v d).2.stage t r) := by
  have state := World.state_closeVisit w v v
  have closed : Paces t r (w, .busy t r (.acting v .exit k)) (w.closeVisit v, _) :=
    stride (.close all)
  unfold World.follow
  simp only
  -- What the state makes of the decision is what comes after the visit.
  split
  · next target resolved =>
    exact closed.trans (state ▸ takeTransition phase (state.symm ▸ resolved))
  · next resolved =>
    refine closed.trans (announceDone phase ?_)
    rw [state]
    simp [Machine.aftermath, Machine.afterDecision, resolved]
  · next resolved =>
    have noted : Paces t r (w, .busy t r (.acting v .exit k))
        (w.trace (.noTarget (w.visit v).state.id d.event), _) := then_log .refl rfl rfl
    refine (noted.then_stride (.close all)).trans (back phase ?_)
    rw [World.state_closeVisit]
    have same : ((w.trace (.noTarget (w.visit v).state.id d.event)).visit v).state =
        (w.visit v).state := rfl
    simp [Machine.aftermath, Machine.afterDecision, same, resolved]
  · next fault resolved =>
    refine closed.trans (back phase ?_)
    rw [state]
    simp [Machine.aftermath, Machine.afterDecision, resolved]

/-- Running the exit actions, whatever comes after them. -/
theorem exitThen {v : VisitId} {e : Ending} {next : World → World × Signal}
    (drives : w.Drives t r) (phase : (w.run r).phase = .draining v e)
    (gone : (w.visit v).working = []) (exits : e.exits (w.visit v).state)
    (goOn : ∀ (w' : World) k, (w'.run r).phase = .draining v e →
      (w'.visit v).state = (w.visit v).state →
      k = (w'.visit v).state.exitActions.actions.length →
      Paces t r (w', .busy t r (.acting v .exit k)) ((next w').1, (next w').2.stage t r)) :
    Paces t r (w, .rest) ((w.exitThen r v next).1, (w.exitThen r v next).2.stage t r) := by
  have left := stride (.exit drives phase gone exits)
  obtain ⟨n, ran, state, same, -, all⟩ := Paces.runPhrase (t := t) (r := r) w v .exit
    (.acting v .exit) (fun _ => rfl) fun w' k state _ more =>
      .act (state ▸ more) fun cleanup => (by cases cleanup)
  unfold World.exitThen
  split
  · next h =>
    rw [h] at ran
    have shut := (left.trans ran).tail
      (.stride (.shut (fun h => by cases h) fun h => by cases h))
    -- An exit action has panicked.
    exact shut.tail (.stride (.unwind (.inr (.inr rfl))))
  · next h =>
    rw [h] at ran state same all
    refine (left.trans ran).trans (goOn _ n ?_ state (state ▸ all rfl))
    exact (same (by simp [phase])).trans phase

theorem leave {v : VisitId} {e : Ending} (drives : w.Drives t r)
    (phase : (w.run r).phase = .draining v e) (gone : (w.visit v).working = []) :
    Paces t r (w, .rest) ((w.leave r v e).1, (w.leave r v e).2.stage t r) := by
  -- The exit actions are carried out only after an event, and in a final state.
  cases e with
  | decided d =>
    exact exitThen drives phase gone trivial fun w' k phase _ all => follow phase all
  | settled =>
    simp only [World.leave]
    split
    · next final =>
      have noted : Paces t r (w, .rest) (w.trace (.finalFinished (w.visit v).state.id), _) :=
        then_log .refl rfl rfl
      refine noted.trans (exitThen ⟨drives.turn, drives.job⟩ phase gone final
        fun w' k phase state all => ?_)
      refine (stride (.close all)).trans (announceDone phase ?_)
      have final' : (w'.visit v).state.mode = .final := state ▸ final
      simp [ Machine.aftermath, final']
    · next normal =>
      have noted : Paces t r (w, .rest) (w.trace (.settled (w.visit v).state.id), _) :=
        then_log .refl rfl rfl
      refine (noted.then_stride (.quit ⟨drives.turn, drives.job⟩ phase gone normal)).trans
        (back phase ?_)
      rw [World.state_closeVisit]
      exact if_neg normal
  | stopped =>
    have noted : Paces t r (w, .rest) (w.trace (.stopped (w.visit v).state.id), _) :=
      then_log .refl rfl rfl
    exact (noted.then_stride (.quit ⟨drives.turn, drives.job⟩ phase gone id)).trans
      (back phase rfl)
  | panicked =>
    refine (stride (.quit drives phase gone id)).trans (back phase ?_)
    rw [World.state_closeVisit]
    rfl

theorem drain {v : VisitId} {e : Ending} (drives : w.Drives t r)
    (phase : (w.run r).phase = .draining v e) :
    Paces t r (w, .rest) ((w.drain r v e).1, (w.drain r v e).2.stage t r) := by
  unfold World.drain
  split
  · next u rest _ =>
    have looked : Stirs .rest w (w.modifyVisit v fun x => { x with finished := rest }) :=
      .chore rfl (.visit v _ ⟨rfl, rfl, rfl, rfl, rfl⟩ rfl rfl rfl)
    simp only
    split
    · exact looked.paces.then_log rfl rfl
    · exact looked.paces
  · split
    · next gone => exact leave drives phase gone
    · refine stride (.idle drives (phase ▸ rfl) fun u hu => ?_)
      rw [phase] at hu
      cases hu

/-! ## Waiting -/

theorem tearScope {v : VisitId} {spot : Spot}
    (early : spot = .acting v .cleanup 0 ∨ spot = .forsaken v 0) :
    Paces t r (w, .busy t r spot) (w.tearScope v, .busy t r spot) := by
  have eyes : (Stage.busy t r spot).isIdle = false := by
    rcases early with rfl | rfl <;> rfl
  have cleared := (Stirs.clearWaiters eyes w v).paces (t := t) (r := r)
  have torn := cleared.tail (.stride (.tear (t := t) (r := r) early))
  exact (torn.trans (Stirs.wakeAll eyes _ _).paces).trans (Stirs.wakeAll eyes _ _).paces

/-- Once a wait is over, the scope is cancelled, the cleanup runs and the tasks are aborted. -/
theorem tornDown {v : VisitId} {e : Ending} :
    Paces t r ((w.setPhase r (.draining v e)).mark (.concluded v e),
        .busy t r (.acting v .cleanup 0))
      ((w.tearDown r v e).1, (w.tearDown r v e).2.stage t r) := by
  have torn := tearScope (w := (w.setPhase r (.draining v e)).mark (.concluded v e)) (t := t)
    (r := r) (v := v) (.inl rfl)
  obtain ⟨n, ran, state, -, panics, all⟩ := Paces.runPhrase (t := t) (r := r)
    (((w.setPhase r (.draining v e)).mark (.concluded v e)).tearScope v) v .cleanup
    (.acting v .cleanup) (fun _ => rfl) fun w' k state scope more =>
      .act (state ▸ more) fun _ => scope.trans (World.torn_tearScope ..)
  rw [World.tearDown_eq]
  split
  · next w₁ h =>
    rw [h] at ran state panics
    -- The cleanup has panicked, so the visit is over before its tasks are gone.
    have aborted := (torn.trans ran).trans (Stirs.abortWork rfl w₁ v).paces
    have state' := ((Frame.abortWork w₁ v).visit v).state.trans state
    refine (aborted.tail (.stride (.shut (fun _ => ?_) fun _ => w₁.dismissed_abortWork v))).tail
      (.stride (.unwind (.inr (.inr rfl))))
    exact state' ▸ panics rfl
  · next w₁ h =>
    rw [h] at ran state all
    exact (torn.trans ran).tail (.stride (.relax (state ▸ all rfl)))

/-- The end of a wait, however the move has come to it. -/
theorem tearDown {v : VisitId} {e : Ending}
    (finished : Stride t r (w, σ) ((w.setPhase r (.draining v e)).mark (.concluded v e),
      .busy t r (.acting v .cleanup 0))) :
    Paces t r (w, σ) ((w.tearDown r v e).1, (w.tearDown r v e).2.stage t r) :=
  (stride finished).trans tornDown

theorem inspect {v : VisitId} (drives : w.Drives t r) (phase : (w.run r).phase = .waiting v) :
    Paces t r (w, .rest) ((w.inspect r v).1, (w.inspect r v).2.stage t r) := by
  -- A stop comes first, then the inbox, then the tasks that have ended, and last that nothing is
  -- left -- to wait for.
  unfold World.inspect
  split
  · next stop => exact tearDown (.conclude drives phase (.stopped stop))
  · next go =>
    have free : (w.run r).cancelled = false := by simpa using go
    split
    · next d news => exact tearDown (.conclude drives phase (.decided free news))
    · next news =>
      have looked := stride (.look drives phase)
      simp only
      split
      · next u rest finished =>
        have took := looked.trans (Stirs.chore rfl (.visit v (fun x => { x with finished := rest })
          ⟨rfl, rfl, rfl, rfl, rfl⟩ rfl rfl rfl)).paces
        have news' : (((w.modifyVisit v fun x => { x with listening := w.isHeld v }).modifyVisit v
            fun x => { x with finished := rest }).visit v).inbox = none := by
          simpa [World.visit_modifyVisit] using news
        split
        · next fate =>
          exact took.trans (tearDown (.conclude ⟨drives.turn, drives.job⟩ phase
            (.panicked free news' fate)))
        · exact took
      · next finished =>
        have news' : ((w.modifyVisit v fun x => { x with listening := w.isHeld v }).visit v).inbox
            = none := by
          simpa [World.visit_modifyVisit] using news
        split
        · refine looked.tail (.stride (.idle ⟨drives.turn, drives.job⟩ ?_ fun u hu => ?_))
          · change (w.run r).phase.isSuspended = true
            rw [phase]
            rfl
          · have hu : v = u := Phase.waiting.inj (phase.symm.trans hu)
            subst hu
            exact ⟨news', by simp [World.visit_modifyVisit]; rfl⟩
        · next settled =>
          simp only [Bool.or_eq_true, decide_eq_true_eq, not_or, Bool.not_eq_true, ne_eq,
            Decidable.not_not] at settled
          exact looked.trans (tearDown (.conclude ⟨drives.turn, drives.job⟩ phase
            (.settled free news' settled.1 finished settled.2)))

/-! ## Entering a state -/

/-- A visit that is given up runs its cleanup at once. -/
theorem forsaken {v : VisitId} :
    Paces t r (w, .busy t r (.forsaken v 0))
      (((w.tearScope v).runPhrase v .cleanup).1, .busy t r .broken) := by
  have torn : Paces t r (w, .busy t r (.forsaken v 0)) _ := tearScope (.inr rfl)
  obtain ⟨n, ran, state, -, panics, all⟩ := Paces.runPhrase (t := t) (r := r)
    (w.tearScope v) v .cleanup (.forsaken v) (fun _ => rfl)
    fun w' k state scope more => .tend (state ▸ more) (scope.trans (World.torn_tearScope ..))
  refine (torn.trans ran).tail (.stride (.tended ?_))
  rw [state]
  cases h : ((w.tearScope v).runPhrase v .cleanup).2 with
  | true => exact .inr (panics h)
  | false => exact .inl (all h)

theorem launchWork {v : VisitId} {k : Nat} {part : Part} (reach : Reach) (route : Option Route)
    (work : Work) (next : (w.visit v).state.parts[k]? = some part)
    (lent : ∀ u, reach.callback = some u → u = v) (routed : ∀ x, route = some x → x.visit = v) :
    Paces t r (w, .busy t r (.launching v k))
        ((w.launchWork v part reach route work).1, .busy t r (.launching v (k + 1))) ∧
      ((w.launchWork v part reach route work).1.visit v).state = (w.visit v).state := by
  have marked := stride (.launch (t := t) (r := r) next)
  obtain ⟨ran, hands⟩ := Stirs.runAction (σ := .busy t r (.launching v (k + 1))) rfl
    (w.mark (.launched v part)) reach work.setUp fun u hu => congrArg some (lent u hu).symm
  have state := ran.steady.state v
  unfold World.launchWork
  split
  · next h =>
    rw [h] at ran state
    exact ⟨marked.trans ran.paces, state⟩
  · next w₁ reach' h =>
    rw [h] at ran hands state
    -- The new task holds the callback of its visit at most.
    have crewed := Stride.crew (t := t) (r := r) (k := k + 1) (v := v) (w := w₁)
      (x := { job := .script work.body, reach := reach', route }) ⟨rfl, rfl, rfl, rfl⟩
      fun u holds => by
        simp only [Task.holds, Task.isAlive, Bool.and_eq_true, Bool.or_eq_true,
          decide_eq_true_eq, Option.any_eq_true] at holds
        rcases holds.2 with callback | ⟨x, hx, rfl⟩
        · exact (Option.some.inj (hands u callback)).symm
        · exact routed x hx
    refine ⟨(marked.trans ran.paces).tail (.stride crewed), ?_⟩
    simp only [World.spawnFor, World.spawn, World.modifyVisit, World.visit_mk, Table.get_modify]
    exact state

theorem launchService {v : VisitId} {k : Nat} {s : Service}
    (next : (w.visit v).state.parts[k]? = some (.service k)) :
    Paces t r (w, .busy t r (.launching v k))
        ((w.launchService v k s).1, .busy t r (.launching v (k + 1))) ∧
      ((w.launchService v k s).1.visit v).state = (w.visit v).state := by
  cases s with
  | free work =>
    exact launchWork _ _ _ next (fun u hu => (Option.some.inj hu).symm) fun x hx => by cases hx
  | routed work =>
    refine launchWork _ _ _ next (fun u hu => by cases hu) fun x hx => ?_
    cases hx
    rfl
  | nested machine =>
    have marked := stride (.launch (t := t) (r := r) next)
    refine ⟨marked.tail (.stride (.crew (x := { job := .nested machine, route := some ⟨v, k⟩ })
      ⟨rfl, rfl, rfl, rfl⟩ fun u holds => ?_)), ?_⟩
    · simpa [Task.holds, Task.isAlive, eq_comm] using holds
    · simp only [World.launchService, World.spawnFor, World.spawn, World.modifyVisit,
        World.visit_mk, Table.get_modify]
      rfl

theorem launchServices {v : VisitId} {s : State} (state : (w.visit v).state = s) (k : Nat)
    (rest : List Service) (here : s.services.drop k = rest) :
    ∃ n, Paces t r (w, .busy t r (.launching v k))
        ((w.launchServices v k rest).1, .busy t r (.launching v n)) ∧
      ((w.launchServices v k rest).1.visit v).state = s ∧
      ((w.launchServices v k rest).2 = false → n = k + rest.length) := by
  -- Each service is a beat, and a panic on the way leaves the rest aside.
  induction rest generalizing w k with
  | nil => exact ⟨k, .refl, state, fun _ => rfl⟩
  | cons x rest ih =>
    obtain ⟨found, next⟩ := getElem?_of_drop here
    have more : k < s.services.length := (List.getElem?_eq_some_iff.1 found).1
    have part : s.parts[k]? = some (.service k) := by
      simp [State.parts, List.getElem?_append, more]
    obtain ⟨launched, state'⟩ := launchService (t := t) (r := r) (s := x) (state ▸ part)
    unfold World.launchServices
    split
    · next w₁ h =>
      rw [h] at launched state'
      exact ⟨k + 1, launched, state'.trans state, fun h => (by cases h)⟩
    · next w₁ h =>
      rw [h] at launched state'
      obtain ⟨n, beats, state'', all⟩ := ih (state'.trans state) (k + 1) next
      refine ⟨n, launched.trans beats, state'', fun h => ?_⟩
      rw [all h, List.length_cons]
      omega

theorem launchActivities {v : VisitId} {s : State} (state : (w.visit v).state = s) (k : Nat)
    (rest : List Work) (here : s.activities.drop k = rest) :
    ∃ n, Paces t r (w, .busy t r (.launching v (s.services.length + k)))
        ((w.launchActivities v k rest).1, .busy t r (.launching v n)) ∧
      ((w.launchActivities v k rest).1.visit v).state = s ∧
      ((w.launchActivities v k rest).2 = false →
        n = s.services.length + k + rest.length) := by
  induction rest generalizing w k with
  | nil => exact ⟨_, .refl, state, fun _ => rfl⟩
  | cons x rest ih =>
    obtain ⟨found, next⟩ := getElem?_of_drop here
    have more : k < s.activities.length := (List.getElem?_eq_some_iff.1 found).1
    have part : s.parts[s.services.length + k]? = some (.activity k) := by
      simp [State.parts, more]
    have part' : (w.visit v).state.parts[s.services.length + k]? = some (.activity k) := by
      rw [state]
      exact part
    obtain ⟨launched, state'⟩ := launchWork (t := t) (r := r) {} none x part'
      (fun u hu => by cases hu) fun y hy => by cases hy
    unfold World.launchActivities
    split
    · next w₁ h =>
      rw [h] at launched state'
      exact ⟨_, launched, state'.trans state, fun h => (by cases h)⟩
    · next w₁ h =>
      rw [h] at launched state'
      obtain ⟨n, beats, state'', all⟩ := ih (state'.trans state) (k + 1) next
      refine ⟨n, launched.trans beats, state'', fun h => ?_⟩
      rw [all h, List.length_cons]
      omega

theorem launchAll {v : VisitId} :
    ∃ n, Paces t r (w, .busy t r (.launching v 0))
        ((w.launchAll v).1, .busy t r (.launching v n)) ∧
      ((w.launchAll v).1.visit v).state = (w.visit v).state ∧
      ((w.launchAll v).2 = false → n = (w.visit v).state.parts.length) := by
  obtain ⟨m, served, state, all⟩ := launchServices (w := w) (t := t) (r := r) (v := v) rfl 0
    (w.visit v).state.services rfl
  unfold World.launchAll
  simp only
  split
  · next w₁ h =>
    rw [h] at served state
    exact ⟨m, served, state, fun h => (by cases h)⟩
  · next w₁ h =>
    rw [h] at served state all
    -- Activities are counted from the last service on.
    obtain ⟨n, acted, state', all'⟩ := launchActivities (t := t) (r := r) state 0 _ rfl
    have count : m = (w.visit v).state.services.length + 0 := by simpa using all rfl
    refine ⟨n, served.trans (count ▸ acted), state', fun h => ?_⟩
    rw [all' h]
    simp [State.parts]

theorem launch {v : VisitId} :
    Paces t r (w, .busy t r (.launching v 0))
      ((w.launch r v).1, (w.launch r v).2.stage t r) := by
  obtain ⟨n, launched, state, all⟩ := launchAll (w := w) (t := t) (r := r) (v := v)
  unfold World.launch
  split
  · next w₁ h =>
    rw [h] at launched
    have aborted := launched.trans (Stirs.abortWork rfl w₁ v).paces
    exact ((aborted.tail (.stride (.forsake (w₁.dismissed_abortWork v)))).trans forsaken).tail
      (.stride (.unwind (.inr (.inr rfl))))
  · next w₁ h =>
    rw [h] at launched state all
    exact launched.tail (.stride (.wait (state ▸ all rfl)))

theorem enter {s : State} {c : Change} :
    Paces t r (w, .busy t r (.told s c [])) ((w.enter r s).1, (w.enter r s).2.stage t r) := by
  have visited := stride (.visit (w := w) (t := t) (r := r) (s := s) (c := c))
  have own : ((w.pushVisit r s).visit w.visits.size).state = s := by
    simp [World.pushVisit, World.trace, World.mark, World.log]
  obtain ⟨n, ran, state, -, -, all⟩ := Paces.runPhrase (t := t) (r := r) (w.pushVisit r s)
    w.visits.size .enter (.acting w.visits.size .enter) (fun _ => rfl)
    fun w' k state _ more => .act (state ▸ more) fun cleanup => (by cases cleanup)
  rw [World.enter_eq]
  split
  · next w₁ h =>
    rw [h] at ran
    exact ((visited.trans ran).tail
      (.stride (.shut (fun h => by cases h) fun h => by cases h))).tail
      (.stride (.unwind (.inr (.inr rfl))))
  · next w₁ h =>
    rw [h] at ran state all
    have arrived := (visited.trans ran).tail (.stride (.arrive (state ▸ all rfl)))
    have own' : ((w₁.mark (.arrived w.visits.size)).visit w.visits.size).state = s :=
      state.trans own
    split
    · next transient => exact arrived.trans (tearDown (.pass (own' ▸ transient)))
    · next stays => exact (arrived.tail (.stride (.ready (own' ▸ stays)))).trans launch

theorem arrive {s : State} {previous : Option String} {cause : Option Decision}
    (drives : w.Drives t r) (phase : (w.run r).phase = .arriving s previous cause) :
    Paces t r (w, .rest)
      ((w.arrive r s previous cause).1, (w.arrive r s previous cause).2.stage t r) := by
  unfold World.arrive
  split
  · next stopped => exact halt drives phase stopped
  · next go =>
    have told := stride (.tell drives phase (by simpa using go))
    obtain ⟨rest, heard, all⟩ := Paces.notifyChange (t := t) (r := r)
      (w.mark (.notified r ⟨s.id, previous, cause⟩)) s ⟨s.id, previous, cause⟩
      (w.interpreter (w.run r).interpreter).changeHandlers
    simp only
    split
    · next h =>
      rw [h] at heard
      exact (told.trans heard).tail (.stride (.unwind (.inl ⟨_, _, _, rfl⟩)))
    · next h =>
      rw [h] at heard all
      cases all rfl
      exact (told.trans heard).trans enter

/-! ## Moves -/

/-- A move of a run that has not ended is a number of beats. -/
theorem advance (drives : w.Drives t r) (going : (w.run r).phase ≠ .ended) :
    Paces t r (w, .rest) ((w.advance r).1, (w.advance r).2.stage t r) := by
  unfold World.advance
  cases phase : (w.run r).phase with
  | begun s =>
    have noted : Paces t r (w, .rest) (w.trace (.starting (w.machineOf r).id s.id), _) :=
      then_log .refl rfl rfl
    exact noted.then_stride (.depart ⟨drives.turn, drives.job⟩ phase)
  | arriving s previous cause => exact arrive drives phase
  | waiting v => exact inspect drives phase
  | draining v e => exact drain drives phase
  | ended => exact absurd phase going

/-- The end of a run that is dropped is a number of beats. It is dropped between turns, or while
it waits. -/
theorem dropRun (alive : (w.task t).isAlive = true) (job : (w.task t).job.run? = some r)
    (turn : w.running = none ∨ w.running = some t)
    (ease : (σ = .rest ∧ (w.run r).phase ≠ .ended ∧ w.running = none) ∨
      ((σ = .rest ∨ σ = .busy t r .idle) ∧ (w.run r).phase.isSuspended = true)) :
    Paces t r (w, σ) ((w.dropRun r).1, .busy t r .finished) := by
  -- Only a run that waits can be dropped in its turn.
  have between (busy : (w.run r).phase.isSuspended = false) :
      σ = .rest ∧ (w.run r).phase ≠ .ended ∧ w.running = none :=
    ease.resolve_right fun ⟨_, suspended⟩ => by cases busy.symm.trans suspended
  unfold World.dropRun
  cases phase : (w.run r).phase with
  | begun s =>
    obtain ⟨rfl, -, free⟩ := between (by rw [phase]; rfl)
    exact stride (.dropBegun alive job free phase)
  | arriving s previous cause =>
    obtain ⟨rfl, -, free⟩ := between (by rw [phase]; rfl)
    exact (stride (.dropArriving alive job phase free)).tail
      (.stride (.unwind (.inr (.inr rfl))))
  | waiting v =>
    have dropped := stride (.dropWaiting alive job (ease.elim (.inl ·.1) (·.1)) phase turn)
    exact (dropped.trans forsaken).tail (.stride (.unwind (.inr (.inr rfl))))
  | draining v e =>
    have dropped := stride (.dropDraining alive job (ease.elim (.inl ·.1) (·.1)) phase turn)
    exact dropped.tail (.stride (.unwind (.inr (.inr rfl))))
  | ended => exact absurd phase (between (by rw [phase]; rfl)).2.1

end Paces

end Statechart
