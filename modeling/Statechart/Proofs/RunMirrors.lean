import Statechart.Proofs.RunBeats
import Statechart.Proofs.ScriptMirrors

/-!
# Runs in worlds that mirror each other

Runs that correspond go the same way: they tell of the same states, end the same stays in the same
way, and return with the same result. Only a run that is in a visit whose callback is kept from the
others is left out.

## Main statements

- `Mirrors.tearDown`, `Mirrors.leave`, `Mirrors.inspect`, `Mirrors.enter`: the parts of a move.
- `Mirrors.advance`: a move of runs that correspond.
- `Mirrors.dropRun`: runs that correspond are dropped.
-/

namespace Statechart

namespace Mirrors

variable {P : Pairing} {b b' w w' : World} {t t' : TaskId} {r r' : RunId} {v v' : VisitId}
  {i i' : InterpreterId}

/-! ## The end of a run -/

theorem setPhase (h : Mirrors P b b' w w') (hr : P.live r r') {p p' : Phase}
    (phase : p.Pairs P p') (plain : ∀ v, p.visit? = some v → ¬ P.hidden v) :
    Mirrors P b b' (w.modifyRun r fun x => { x with phase := p })
      (w'.modifyRun r' fun x => { x with phase := p' }) :=
  h.modifyRun hr.1 { h.run hr.1 with phase } rfl rfl (fun lost => absurd lost hr.2) fun _ => plain

theorem release (h : Mirrors P b b' w w') (hr : P.live r r') (status : Status) :
    Mirrors P b b' (w.release r status) (w'.release r' status) := by
  have row := h.run hr.1
  have ended := h.setPhase hr .ended fun v hv => by cases hv
  have slot := ended.interpreter row.interpreter
  exact (ended.modifyInterpreter row.interpreter
    { slot with slot := .none, status := rfl }).mark _ _

theorem conclude (h : Mirrors P b b' w w') (hr : P.live r r') (result : RunResult) :
    MirrorsWith P b b' (w.conclude r result) (w'.conclude r' result) := by
  refine ⟨?_, rfl⟩
  simp only [World.conclude, h.machineOf hr.1]
  cases result with
  | ok outcome => exact ((h.trace _).mark _ _).release hr _
  | error e => exact ((h.trace _).mark _ _).release hr _

theorem unwind (h : Mirrors P b b' w w') (hr : P.live r r') :
    MirrorsWith P b b' (w.unwind r) (w'.unwind r') :=
  ⟨h.release hr _, rfl⟩

theorem closeVisit (h : Mirrors P b b' w w') (hv : P.shared v v') :
    Mirrors P b b' (w.closeVisit v) (w'.closeVisit v') :=
  (h.modifyVisit hv { h.visit hv with closed := rfl }).mark _ _

theorem abortWork (h : Mirrors P b b' w w') (hv : P.shared v v') :
    Mirrors P b b' (w.abortWork v) (w'.abortWork v') :=
  h.abortAll (h.visit hv).working

theorem abandon (h : Mirrors P b b' w w') (hv : P.shared v v') :
    P.Grows fun Q => MirrorsWith Q b b' (w.abandon v) (w'.abandon v') :=
  (((h.abortWork hv).closeVisit hv).tearScope hv).runPhrase hv .cleanup

theorem dropRun (h : Mirrors P b b' w w') (hr : P.live r r')
    (unveiled : ¬ P.veiled r) :
    P.Grows fun Q => MirrorsWith Q b b' (w.dropRun r) (w'.dropRun r') := by
  have ended := h.setPhase hr .ended fun v hv => by cases hv
  have phase := (h.run hr.1).phase
  have seen := h.runs.plain r r' hr.1 unveiled
  simp only [World.get_runs] at seen
  unfold World.dropRun
  simp only
  generalize (w.run r).phase = p, (w'.run r').phase = p' at phase seen
  -- The runs have come equally far.
  cases phase with
  | begun s => exact .pure ⟨ended, rfl⟩
  | arriving s previous cause => exact .pure ⟨ended.release hr _, rfl⟩
  | waiting hv =>
    refine (ended.abandon ⟨hv, seen _ rfl⟩).map fun Q le done => ?_
    dsimp only
    generalize World.abandon _ _ = x at done ⊢
    generalize World.abandon _ _ = x' at done ⊢
    exact ⟨done.world.release (le.live hr) _, done.value⟩
  | draining hv e => exact .pure ⟨(ended.closeVisit ⟨hv, seen _ rfl⟩).release hr _, rfl⟩
  | ended => exact .pure ⟨ended, rfl⟩

/-! ## Leaving a state -/

theorem tearDown (h : Mirrors P b b' w w') (hr : P.live r r') (hv : P.shared v v') (e : Ending) :
    P.Grows fun Q => MirrorsWith Q b b' (w.tearDown r v e) (w'.tearDown r' v' e) := by
  have concluded := (h.setPhase hr (.draining hv.1 e) fun x hx => by
    obtain rfl := Option.some.inj hx
    exact hv.2).mark (.concluded v e) (.concluded v' e)
  refine ((concluded.tearScope hv).runPhrase hv .cleanup).bind fun Q le ran => ?_
  unfold World.tearDown
  simp only
  obtain ⟨w₁, w₁', panicked, hx, hx', h₁⟩ := ran.exists_eq
  rw [hx, hx']
  cases panicked with
  | true =>
    exact .pure (((h₁.abortWork (le.shared hv)).closeVisit (le.shared hv)).unwind (le.live hr))
  | false => exact .pure ⟨h₁.abortWork (le.shared hv), rfl⟩

theorem announceDone (h : Mirrors P b b' w w') (hr : P.live r r') :
    P.Grows fun Q => MirrorsWith Q b b' (w.announceDone r) (w'.announceDone r') := by
  have handlers := (h.interpreter (h.run hr.1).interpreter).doneHandlers
  refine ((h.mark (.announced r) (.announced r')).notifyDone
    (w.interpreter (w.run r).interpreter).doneHandlers).map fun Q le ran => ?_
  simp only [World.announceDone, handlers]
  obtain ⟨w₁, w₁', panicked, hx, hx', h₁⟩ := ran.exists_eq
  rw [hx, hx']
  cases panicked with
  | true => exact h₁.unwind (le.live hr)
  | false => exact h₁.conclude (le.live hr) _

theorem takeTransition (h : Mirrors P b b' w w') (hr : P.live r r') (source : State)
    (d : Decision) (target : String) :
    MirrorsWith P b b' (w.takeTransition r source d target)
      (w'.takeTransition r' source d target) := by
  simp only [World.takeTransition, h.machineOf hr.1]
  split
  · exact h.conclude hr _
  · next s _ =>
    have moved := (h.trace (.moving ⟨source.id, d.event, s.id⟩)).mark
      (.moved r ⟨source.id, d.event, s.id⟩) (.moved r' ⟨source.id, d.event, s.id⟩)
    have hi := (h.run hr.1).interpreter
    have interpreter := moved.interpreter hi
    have recorded := moved.modifyInterpreter hi
      (f := fun x => { x with history := x.history.push ⟨source.id, d.event, s.id⟩ })
      (g := fun x => { x with history := x.history.push ⟨source.id, d.event, s.id⟩ })
      { interpreter with history := congrArg (Window.push · _) interpreter.history }
    exact ⟨recorded.setPhase hr (.arriving ..) fun x hx => (by cases hx), rfl⟩

theorem follow (h : Mirrors P b b' w w') (hr : P.live r r') (hv : P.shared v v')
    (d : Decision) :
    P.Grows fun Q => MirrorsWith Q b b' (w.follow r v d) (w'.follow r' v' d) := by
  simp only [World.follow, (h.visit hv).state]
  split
  · exact .pure ((h.closeVisit hv).takeTransition hr _ _ _)
  · exact (h.closeVisit hv).announceDone hr
  · exact .pure (((h.trace _).closeVisit hv).conclude hr _)
  · exact .pure ((h.closeVisit hv).conclude hr _)

theorem exitThen (h : Mirrors P b b' w w') (hr : P.live r r') (hv : P.shared v v')
    {next next' : World → World × Signal}
    (on : ∀ {Q}, P.Le Q → ∀ {w₁ w₁'}, w.runPhrase v .exit = (w₁, false) → Mirrors Q b b' w₁ w₁' →
      Q.Grows fun S => MirrorsWith S b b' (next w₁) (next' w₁')) :
    P.Grows fun Q => MirrorsWith Q b b' (w.exitThen r v next) (w'.exitThen r' v' next') := by
  refine (h.runPhrase hv .exit).bind fun Q le ran => ?_
  unfold World.exitThen
  obtain ⟨w₁, w₁', panicked, hx, hx', h₁⟩ := ran.exists_eq
  rw [hx, hx']
  cases panicked with
  | true => exact .pure ((h₁.closeVisit (le.shared hv)).unwind (le.live hr))
  | false => exact on le hx h₁

theorem leave (h : Mirrors P b b' w w') (hr : P.live r r') (hv : P.shared v v') (e : Ending) :
    P.Grows fun Q => MirrorsWith Q b b' (w.leave r v e) (w'.leave r' v' e) := by
  simp only [World.leave, (h.visit hv).state]
  cases e with
  | decided d =>
    exact h.exitThen hr hv fun le _ _ _ h₁ => h₁.follow (le.live hr) (le.shared hv) d
  | settled =>
    dsimp only
    split
    · exact (h.trace _).exitThen hr hv fun le _ _ _ h₁ =>
        (h₁.closeVisit (le.shared hv)).announceDone (le.live hr)
    · exact .pure (((h.trace _).closeVisit hv).conclude hr _)
  | stopped => exact .pure (((h.trace _).closeVisit hv).conclude hr _)
  | panicked => exact .pure ((h.closeVisit hv).conclude hr _)

theorem working_eq_nil (h : Mirrors P b b' w w') (hv : P.shared v v') :
    (w'.visit v').working = [] ↔ (w.visit v).working = [] := by
  have working := (h.visit hv).working
  generalize (w.visit v).working = ts, (w'.visit v').working = ts' at working
  cases working <;> simp

theorem drain (h : Mirrors P b b' w w') (hr : P.live r r') (hv : P.shared v v') (e : Ending) :
    P.Grows fun Q => MirrorsWith Q b b' (w.drain r v e) (w'.drain r' v' e) := by
  have row := h.visit hv
  have finished := row.finished
  simp only [World.drain, h.working_eq_nil hv]
  generalize (w.visit v).finished = ts, (w'.visit v').finished = ts' at finished
  cases finished with
  | nil =>
    dsimp only
    split
    · exact h.leave hr hv e
    · exact .pure ⟨h, rfl⟩
  | @cons t t' rest rest' ht others =>
    have seen := h.modifyVisit hv (f := fun x => { x with finished := rest })
      (g := fun x => { x with finished := rest' }) { row with finished := others }
    simp only [(seen.like ht.1).fate, (seen.visit hv).state]
    split
    · exact .pure ⟨seen.trace _, rfl⟩
    · exact .pure ⟨seen, rfl⟩

/-! ## Waiting -/

theorem inspect (h : Mirrors P b b' w w') (hr : P.live r r') (hv : P.shared v v') :
    P.Grows fun Q => MirrorsWith Q b b' (w.inspect r v) (w'.inspect r' v') := by
  have row := h.visit hv
  simp only [World.inspect, (h.run hr.1).cancelled, row.inbox, h.isHeld hv]
  split
  · exact h.tearDown hr hv _
  · split
    · exact h.tearDown hr hv _
    · have looked := h.modifyVisit hv (f := fun x => { x with listening := w.isHeld v })
        (g := fun x => { x with listening := w.isHeld v }) { row with listening := rfl }
      have finished := (looked.visit hv).finished
      simp only [ne_eq, looked.working_eq_nil hv]
      generalize w.modifyVisit v _ = w₁, w'.modifyVisit v' _ = w₁' at looked finished
      have row₁ := looked.visit hv
      generalize (w₁.visit v).finished = ts, (w₁'.visit v').finished = ts' at finished
      -- The lists are equally long, and the tasks at their heads have met the same fate.
      cases finished with
      | nil =>
        dsimp only
        split
        · exact .pure ⟨looked, rfl⟩
        · exact looked.tearDown hr hv _
      | @cons t t' rest rest' ht others =>
        have seen := looked.modifyVisit hv (f := fun x => { x with finished := rest })
          (g := fun x => { x with finished := rest' }) { row₁ with finished := others }
        simp only [(seen.like ht.1).fate]
        split
        · exact seen.tearDown hr hv _
        · exact .pure ⟨seen, rfl⟩

/-! ## Entering a state -/

theorem spawnFor (h : Mirrors P b b' w w') (hv : P.shared v v') {x y : Task}
    (row : x.Pairs P y) : P.Grows fun Q => Mirrors Q b b' (w.spawnFor v x) (w'.spawnFor v' y) := by
  refine (h.spawn (x := { x with home := some v }) (y := { y with home := some v' })
    { row with home := .some hv }).map fun Q le new => ?_
  obtain ⟨ht, spawned⟩ := new
  have visit := spawned.visit (le.shared hv)
  exact spawned.modifyVisit (le.shared hv)
    (f := fun z => { z with working := z.working ++ [w.tasks.size] })
    (g := fun z => { z with working := z.working ++ [w'.tasks.size] })
    { visit with working := List.rel_append visit.working (.cons ht .nil) }

theorem launchWork (h : Mirrors P b b' w w') (hv : P.shared v v') (part : Part) {x y : Reach}
    (reach : x.Pairs P y) {route route' : Option Route}
    (hroute : Option.Rel (Route.Pairs P) route route') (work : Work) :
    P.Grows fun Q => MirrorsWith Q b b' (w.launchWork v part x route work)
      (w'.launchWork v' part y route' work) := by
  refine ((h.mark (.launched v part) (.launched v' part)).runAction reach work.setUp).bind
    fun Q le ran => ?_
  unfold World.launchWork
  obtain ⟨w₁, w₁', x₁, x₁', panicked, hx, hx', h₁, reach₁⟩ := ran.exists_eq
  rw [hx, hx']
  cases panicked with
  | true => exact .pure ⟨h₁, rfl⟩
  | false =>
    refine (h₁.spawnFor (le.shared hv) (x := { job := .script work.body, reach := x₁, route })
      (y := { job := .script work.body, reach := x₁', route := route' }) ?_).map
      fun Q' le' h₂ => ⟨h₂, rfl⟩
    exact { fate := rfl, aborted := rfl, rewoken := rfl, guards := rfl, job := .script work.body
            reach := reach₁, home := .none, route := rel_mono hroute (Route.Pairs.mono le)
            wait := .none, joiner := .none }

theorem launchService (h : Mirrors P b b' w w') (hv : P.shared v v') (k : Nat) (s : Service) :
    P.Grows fun Q => MirrorsWith Q b b' (w.launchService v k s) (w'.launchService v' k s) := by
  cases s with
  | free work =>
    exact h.launchWork hv _ (x := { callback := some v }) (y := { callback := some v' })
      ⟨.some hv, .none⟩ .none work
  | routed work =>
    exact h.launchWork hv _ (x := { action := some v }) (y := { action := some v' })
      ⟨.none, .some hv.1⟩ (.some (a := ⟨v, k⟩) (b := ⟨v', k⟩) ⟨hv, rfl⟩) work
  | nested machine =>
    have route : Route.Pairs P ⟨v, k⟩ ⟨v', k⟩ := ⟨hv, rfl⟩
    refine ((h.mark _ _).spawnFor hv (x := { job := .nested machine, route := some ⟨v, k⟩ })
      (y := { job := .nested machine, route := some ⟨v', k⟩ }) ?_).map fun Q le h₁ => ⟨h₁, rfl⟩
    exact { fate := rfl, aborted := rfl, rewoken := rfl, guards := rfl, job := .nested machine
            reach := ⟨.none, .none⟩, home := .none, route := .some route, wait := .none
            joiner := .none }

theorem launchServices (h : Mirrors P b b' w w') (hv : P.shared v v') (k : Nat)
    (services : List Service) :
    P.Grows fun Q => MirrorsWith Q b b' (w.launchServices v k services)
      (w'.launchServices v' k services) := by
  induction services generalizing P w w' k with
  | nil => exact .pure ⟨h, rfl⟩
  | cons s rest ih =>
    refine (h.launchService hv k s).bind fun Q le ran => ?_
    unfold World.launchServices
    obtain ⟨w₁, w₁', panicked, hx, hx', h₁⟩ := ran.exists_eq
    rw [hx, hx']
    cases panicked with
    | true => exact .pure ⟨h₁, rfl⟩
    | false => exact ih h₁ (le.shared hv) (k + 1)

theorem launchActivities (h : Mirrors P b b' w w') (hv : P.shared v v') (k : Nat)
    (activities : List Work) :
    P.Grows fun Q => MirrorsWith Q b b' (w.launchActivities v k activities)
      (w'.launchActivities v' k activities) := by
  induction activities generalizing P w w' k with
  | nil => exact .pure ⟨h, rfl⟩
  | cons a rest ih =>
    refine (h.launchWork hv (.activity k) (x := {}) (y := {}) ⟨.none, .none⟩ .none a).bind
      fun Q le ran => ?_
    unfold World.launchActivities
    obtain ⟨w₁, w₁', panicked, hx, hx', h₁⟩ := ran.exists_eq
    rw [hx, hx']
    cases panicked with
    | true => exact .pure ⟨h₁, rfl⟩
    | false => exact ih h₁ (le.shared hv) (k + 1)

theorem launchAll (h : Mirrors P b b' w w') (hv : P.shared v v') :
    P.Grows fun Q => MirrorsWith Q b b' (w.launchAll v) (w'.launchAll v') := by
  simp only [World.launchAll, (h.visit hv).state]
  refine (h.launchServices hv 0 (w.visit v).state.services).bind fun Q le ran => ?_
  obtain ⟨w₁, w₁', panicked, hx, hx', h₁⟩ := ran.exists_eq
  rw [hx, hx']
  cases panicked with
  | true => exact .pure ⟨h₁, rfl⟩
  | false => exact Mirrors.launchActivities h₁ (le.shared hv) 0 _

theorem launch (h : Mirrors P b b' w w') (hr : P.live r r') (hv : P.shared v v') :
    P.Grows fun Q => MirrorsWith Q b b' (w.launch r v) (w'.launch r' v') := by
  refine (h.launchAll hv).bind fun Q le ran => ?_
  unfold World.launch
  obtain ⟨w₁, w₁', panicked, hx, hx', h₁⟩ := ran.exists_eq
  rw [hx, hx']
  cases panicked with
  | true =>
    exact (Mirrors.abandon h₁ (le.shared hv)).map fun Q' le' done =>
      done.world.unwind (le'.live (le.live hr))
  | false =>
    refine .pure ⟨Mirrors.setPhase h₁ (le.live hr) (.waiting (le.shared hv).1) fun x hx => ?_, rfl⟩
    obtain rfl := Option.some.inj hx
    exact (le.shared hv).2

theorem enter (h : Mirrors P b b' w w') (hr : P.live r r') (s : State) :
    P.Grows fun Q => MirrorsWith Q b b' (w.enter r s) (w'.enter r' s) := by
  refine (h.pushVisit (x := { state := s, run := r }) (y := { state := s, run := r' })
    { run := hr, torn := rfl, scopeWaiters := .nil, actionWaiters := .nil, state := rfl
      fired := rfl, inbox := rfl, listening := rfl, closed := rfl, working := .nil
      finished := .nil }).bind fun Q le new => ?_
  -- The new visits correspond from now on.
  obtain ⟨hv, pushed⟩ := new
  refine (((pushed.trace (.entering s.id s.mode)).mark (.entered r w.visits.size)
    (.entered r' w'.visits.size)).runPhrase hv .enter).bind fun Q' le' ran => ?_
  unfold World.enter
  simp only
  obtain ⟨w₁, w₁', panicked, hx, hx', h₁⟩ := ran.exists_eq
  rw [hx, hx']
  have hr' := le'.live (le.live hr)
  have hv' := le'.shared hv
  cases panicked with
  | true => exact .pure ((h₁.closeVisit hv').unwind hr')
  | false =>
    dsimp only
    have arrived := Mirrors.mark h₁ (.arrived w.visits.size) (.arrived w'.visits.size)
    split
    · exact arrived.tearDown hr' hv' _
    · exact arrived.launch hr' hv'

theorem arrive (h : Mirrors P b b' w w') (hr : P.live r r') (s : State)
    (previous : Option String) (cause : Option Decision) :
    P.Grows fun Q => MirrorsWith Q b b' (w.arrive r s previous cause)
      (w'.arrive r' s previous cause) := by
  have row := h.run hr.1
  have handlers := (h.interpreter row.interpreter).changeHandlers
  simp only [World.arrive, row.cancelled, handlers]
  split
  · exact .pure (h.conclude hr _)
  · refine ((h.mark (.notified r ⟨s.id, previous, cause⟩)
      (.notified r' ⟨s.id, previous, cause⟩)).notifyChange ⟨s.id, previous, cause⟩
      (w.interpreter (w.run r).interpreter).changeHandlers).bind fun Q le ran => ?_
    obtain ⟨w₁, w₁', panicked, hx, hx', h₁⟩ := ran.exists_eq
    rw [hx, hx']
    cases panicked with
    | true => exact .pure (Mirrors.unwind h₁ (le.live hr))
    | false => exact Mirrors.enter h₁ (le.live hr) s

/-! ## Moves -/

/-- Runs that correspond go on in the same way. -/
theorem advance (h : Mirrors P b b' w w') (hr : P.live r r')
    (unveiled : ¬ P.veiled r) :
    P.Grows fun Q => MirrorsWith Q b b' (w.advance r) (w'.advance r') := by
  have phase := (h.run hr.1).phase
  have seen := h.runs.plain r r' hr.1 unveiled
  simp only [World.get_runs] at seen
  simp only [World.advance, h.machineOf hr.1]
  generalize (w.run r).phase = p, (w'.run r').phase = p' at phase seen
  cases phase with
  | begun s => exact .pure ⟨(h.trace _).setPhase hr (.arriving ..) fun x hx => (by cases hx), rfl⟩
  | arriving s previous cause => exact h.arrive hr s previous cause
  | waiting hv => exact h.inspect hr ⟨hv, seen _ rfl⟩
  | draining hv e => exact h.drain hr ⟨hv, seen _ rfl⟩ e
  | ended => exact .pure ⟨h, rfl⟩

end Mirrors

end Statechart
