import Statechart.Proofs.Nursing

/-!
# Machines within machines

A state whose only work is to run a machine waits for that machine and for nothing else, so its
wait ends according to what becomes of the machine. Success leads where the success of the service
was to lead. An error is raised as it is, and unless it has a route it fails the run of the state,
whose own host is told of it in turn. So when runs like that are nested, the error of the innermost
machine comes out at the top, wrapped once for every state on its way.

## Main definitions

- `State.Invokes`: the only work of a state is to run a machine, with targets for its outcome.
- `Upshot`, `World.Bears`: what has become of a machine that is run for a visit.
- `State.verdict`: how the wait for it ends.
- `Stay.Composes`: what comes of a stay in such a state.
- `World.Stacks`: runs that wait for each other, with the error of the innermost machine.

## Main statements

- `Scenario.Reaches.bears_of_concluded`: a wait ends with what has become of the machine.
- `Scenario.Reaches.ends_of_bears`: as soon as something has become of it, the wait is about to end.
- `Scenario.nested_machines_compose`: nested machines compose, to any depth.
-/

namespace Statechart

/-! ## Definitions -/

/-- The only work of a state is to run a machine; these are the targets of its success and its
failure, which may be empty. -/
structure State.Invokes (s : State) (m : Machine) (done failed : Option String) : Prop where
  offers : s.Offers [⟨.nested m, done, failed⟩]
  idle : s.activities = []
  stays : s.mode ≠ .transient

/-- What becomes of a machine that is run for a visit: it cannot start, its run returns, or a panic
on its own path takes down the task that drives it. -/
inductive Upshot where
  | refused (e : RunError)
  | returned (result : RunResult)
  | panicked
deriving DecidableEq

/-- The outcome that is raised for it, with a failure or without. -/
def Upshot.outcome? (id : String) : Upshot → Option (Option Fault)
  | .refused e => some (some (.run e))
  | .returned result => some (World.nestedFailure id result)
  | .panicked => none

/-- What has become of the machine that is run for a visit. -/
inductive World.Bears (w : World) (v : VisitId) (m : Machine) : Upshot → Prop where
  | refused {t : TaskId} {e : RunError} (home : (w.task t).home = some v)
      (gone : (w.task t).fate = some .returned) (refused : m.startState = .error e) :
      w.Bears v m (.refused e)
  | returned {t : TaskId} {c : RunId} {result : RunResult} (home : (w.task t).home = some v)
      (gone : (w.task t).fate = some .returned) (carries : w.Carries t c m)
      (returned : .returned c result ∈ w.marks) : w.Bears v m (.returned result)
  | panicked {t : TaskId} (home : (w.task t).home = some v)
      (gone : (w.task t).fate = some .panicked) : w.Bears v m .panicked

/-- What the next poll of a visit that finds anything is to find. -/
inductive World.Portends (w : World) (v : VisitId) : Ending → Prop where
  | decided {d : Decision} (news : (w.visit v).inbox = some d) : w.Portends v (.decided d)
  | settled (quiet : w.Quiescent v) : w.Portends v .settled
  | panicked (bereaved : w.Bereaved v) (silent : ∀ d, .raised v d true ∉ w.marks) :
    w.Portends v .panicked

/-- How the wait for a machine ends: with its outcome, unless that is to lead nowhere. -/
def State.verdict (s : State) (m : Machine) (b : Upshot) : Ending :=
  match b.outcome? m.id with
  | some failure =>
    if s.admits (.outcome 0 failure) then .decided (.outcome 0 failure) else .settled
  | none => .panicked

/-- What comes of a stay in a state that runs a machine, by what has become of the machine. -/
structure Stay.Composes (w : World) (r : RunId) (result : RunResult) (x : Stay) (after : List Stay)
    (m : Machine) (done failed : Option String) (b : Upshot) : Prop where
  ends : x.ending = (x.state w).verdict m b
  /-- Success leads to its target. -/
  moves : b.outcome? m.id = some none → (x.state w).mode = .normal →
    ∀ target, done.filter (· ≠ "") = some target →
      x.GoesTo w (w.machineOf r) result (.outcome 0 none) target after
  /-- Without a target, the run settles. -/
  settles : b.outcome? m.id = some none → (x.state w).mode = .normal →
    done.filter (· ≠ "") = none → after = [] ∧ result = .ok (.settled (x.state w).id)
  completes : b.outcome? m.id = some none → (x.state w).mode = .final →
    after = [] ∧ result = .ok .done
  /-- An error leads to its target, as it is. -/
  reroutes : ∀ fault, b.outcome? m.id = some (some fault) → (x.state w).mode = .normal →
    ∀ target, failed.filter (· ≠ "") = some target →
      x.GoesTo w (w.machineOf r) result (.outcome 0 (some fault)) target after
  /-- Without a target, and in a final state in any case, it fails the run. -/
  fails : ∀ fault, b.outcome? m.id = some (some fault) →
    (x.state w).mode = .final ∨ failed.filter (· ≠ "") = none →
      after = [] ∧ result = .error (.serviceFailed (x.state w).id fault)
  panics : b.outcome? m.id = none → after = [] ∧ result = .error (.taskPanicked (x.state w).id)
  /-- The observers are told of the next state with the outcome that has led there. -/
  told : ∀ failure, b.outcome? m.id = some failure → ∀ y rest, after = y :: rest →
    .notified r ⟨(y.state w).id, some (x.state w).id, some (.outcome 0 failure)⟩ ∈ w.marks

/-- A run has returned without being asked to stop, and was in a normal state whose only work is to
run a machine, and which has no target for its failure. -/
structure World.Exposes (w : World) (r : RunId) (v : VisitId) (m : Machine) : Prop where
  own : (w.visit v).run = r
  normal : (w.visit v).state.mode = .normal
  invokes : ∃ done failed, (w.visit v).state.Invokes m done failed ∧ failed.filter (· ≠ "") = none
  free : .stopAsked r ∉ w.marks
  returned : ∃ result, .returned r result ∈ w.marks

/-- Runs wait for each other in states of these ids, from the outermost to the innermost, and the
machine that the innermost of them waits for has come to an error. -/
inductive World.Stacks (w : World) : RunId → List String → RunError → Prop where
  | innermost {r : RunId} {v : VisitId} {m : Machine} {b : Upshot} {e : RunError}
      (exposes : w.Exposes r v m) (bears : w.Bears v m b)
      (error : b.outcome? m.id = some (some (.run e))) : w.Stacks r [(w.visit v).state.id] e
  | around {r c : RunId} {v : VisitId} {m : Machine} {t : TaskId} {ids : List String} {e : RunError}
      (exposes : w.Exposes r v m) (home : (w.task t).home = some v)
      (gone : (w.task t).fate = some .returned) (carries : w.Carries t c m)
      (inner : w.Stacks c ids e) : w.Stacks r ((w.visit v).state.id :: ids) e

/-- An error that has come out through states of these ids. -/
def RunError.through (ids : List String) (e : RunError) : RunError :=
  ids.foldr (fun id e => .serviceFailed id (.run e)) e

section

variable {scn : Scenario} {w w' : World} {σ : Stage} {x y : World × Stage} {s : State} {t : TaskId}
  {r c : RunId} {v : VisitId} {m : Machine} {done failed : Option String} {b b' : Upshot}
  {e : Ending}

/-! ## States that run a machine -/

namespace State

theorem Invokes.fosters (h : s.Invokes m done failed) : s.Fosters m where
  services := h.offers.services
  activities := h.idle

/-- Every step of configuration adds its activity. -/
theorem activities_of_configure {s s' : State} {steps : List Directive}
    (configured : s.configure steps = .ok s') :
    s'.activities = s.activities ++ steps.filterMap Directive.activity? := by
  induction steps generalizing s with
  | nil =>
    cases configured
    simp
  | cons d steps ih =>
    simp only [configure, List.foldlM_cons] at configured
    cases applied : s.apply d with
    | error e =>
      rw [applied] at configured
      cases configured
    | ok next =>
      rw [applied] at configured
      rw [apply_eq] at applied
      split at applied
      · cases applied
      · cases applied
        rw [ih configured, extend, List.append_assoc, List.filterMap_cons]
        cases d.activity? <;> rfl

/-- A state that was configured with a machine, and with no other work, runs it. -/
theorem invokes_of_configure {id : String} {steps : List Directive}
    (configured : State.configure (.new id) steps = .ok s)
    (offers : steps.filterMap Directive.offer? = [⟨.nested m, done, failed⟩])
    (idle : steps.filterMap Directive.activity? = []) (stays : s.mode ≠ .transient) :
    s.Invokes m done failed := by
  refine ⟨offers ▸ offers_of_configure configured, ?_, stays⟩
  rw [activities_of_configure configured, idle]
  rfl

/-- Where the outcome of its service leads is where the machine was to lead. -/
theorem Invokes.targetOf (h : s.Invokes m done failed) (failure : Option Fault) :
    s.targetOf (Decision.outcome 0 failure).event =
      (failure.elim done fun _ => failed).filter (· ≠ "") := by
  rw [h.offers.targetOf (k := 0) rfl failure]
  cases failure <;> rfl

/-- An outcome that has no effect is a success that is to lead nowhere. -/
theorem Invokes.aimless (h : s.Invokes m done failed) {failure : Option Fault}
    (aimless : ¬ s.admits (.outcome 0 failure) = true) :
    failure = none ∧ s.mode ≠ .final ∧ done.filter (· ≠ "") = none := by
  rw [admits_iff, Classical.not_not] at aimless
  have target := h.targetOf failure
  unfold resolve at aimless
  split at aimless
  · split at aimless <;> cases aimless
  · next going =>
    split at aimless
    · cases aimless
    · cases aimless
    · next none fair =>
      rw [Decision.outcome_fault] at fair
      subst fair
      exact ⟨rfl, going, target.symm.trans none⟩

/-- Without an outcome there has been a panic. -/
theorem verdict_of_none (s : State) (none : b.outcome? m.id = none) :
    s.verdict m b = .panicked := by
  simp [verdict, none]

theorem verdict_of_some (s : State) {failure : Option Fault}
    (some : b.outcome? m.id = some failure) :
    s.verdict m b = if s.admits (.outcome 0 failure) then .decided (.outcome 0 failure)
      else .settled := by
  simp [verdict, some]

end State

/-! ## What has become of a machine -/

/-- A run that has begun could start. -/
theorem Course.startState {st : Standing} {ms : List Mark} (c : Course w r st ms) :
    ∃ s, (w.machineOf r).startState = .ok s := by
  induction c with
  | start first => exact ⟨_, first⟩
  | leg _ _ ih => exact ih

theorem World.Bears.mono (h : x.1.Bears v m b) (beats : Beats x y) (o : Orderly x.1 x.2) :
    y.1.Bears v m b := by
  have marks : x.1.marks ⊆ y.1.marks := fun _ => beats.mem o
  have fate {t : TaskId} {f : Fate} (home : (x.1.task t).home = some v)
      (gone : (x.1.task t).fate = some f) : (y.1.task t).fate = some f :=
    (beats.fate o home (by simp [Task.isAlive, gone])).trans gone
  cases h with
  | refused home gone refused => exact .refused (beats.lasting.homes home) (fate home gone) refused
  | returned home gone carries returned =>
    exact .returned (beats.lasting.homes home) (fate home gone)
      (carries.mono beats.anchored marks) (marks returned)
  | panicked home gone => exact .panicked (beats.lasting.homes home) (fate home gone)

namespace Scenario.Reaches

theorem startState_of_began (h : scn.Reaches w) (began : .began r ∈ w.marks) :
    ∃ s, (w.machineOf r).startState = .ok s := by
  obtain ⟨st, chart⟩ := h.orderly.charted r began
  exact chart.course.startState

/-- A run returns once. -/
theorem returned_inj (h : scn.Reaches w) {result result' : RunResult}
    (returned : .returned r result ∈ w.marks) (returned' : .returned r result' ∈ w.marks) :
    result = result' := by
  have course := (h.finished returned).course
  have mine : .returned r result' ∈ w.way r := World.mem_way.2 ⟨returned', rfl⟩
  cases course.finished_of_returned mine
  rfl

/-- At most one thing has become of the machine of a visit. -/
theorem bears_inj (h : scn.Reaches w) (fosters : (w.visit v).state.Fosters m)
    (bears : w.Bears v m b) (bears' : w.Bears v m b') : b = b' := by
  have nursed := h.fostered.nursed v m fosters
  -- A machine that was refused has no run.
  have apart {c : RunId} {t : TaskId} {e : RunError} (carries : w.Carries t c m)
      (refused : m.startState = .error e) : False := by
    obtain ⟨s, starts⟩ := h.startState_of_began carries.began
    rw [carries.machine, refused] at starts
    cases starts
  cases bears with
  | refused home gone refused =>
    cases bears' with
    | refused home' gone' refused' =>
      cases refused.symm.trans refused'
      rfl
    | returned home' gone' carries => exact (apart carries refused).elim
    | panicked home' gone' =>
      cases nursed.one _ _ home home'
      cases gone.symm.trans gone'
  | returned home gone carries returned =>
    cases bears' with
    | refused home' gone' refused => exact (apart carries refused).elim
    | returned home' gone' carries' returned' =>
      cases nursed.one _ _ home home'
      cases (h.devoted fosters home).one _ _ carries.began carries'.began carries.host carries'.host
      rw [h.returned_inj returned returned']
    | panicked home' gone' =>
      cases nursed.one _ _ home home'
      cases gone.symm.trans gone'
  | panicked home gone =>
    cases bears' with
    | refused home' gone' | returned home' gone' =>
      cases nursed.one _ _ home home'
      cases gone.symm.trans gone'
    | panicked => rfl

end Scenario.Reaches

/-- What a task that has returned has come to is what has become of its machine. -/
theorem World.Came.bears {failure : Option Fault} (came : w.Came t m failure)
    (home : (w.task t).home = some v) (gone : (w.task t).fate = some .returned) :
    ∃ b, w.Bears v m b ∧ b.outcome? m.id = some failure := by
  cases came with
  | refused refused => exact ⟨_, .refused home gone refused, rfl⟩
  | ran carries returned => exact ⟨_, .returned home gone carries returned, rfl⟩

/-! ## Polls -/

namespace World.Portends

variable {e' : Ending}

/-- A poll that finds anything finds what it was to find. -/
theorem finding? (p : w.Portends v e) (h : scn.Reaches w)
    (phase : (w.runOf v).phase = .waiting v) (free : (w.runOf v).cancelled = false)
    (found : w.finding? v = some e') : e' = e := by
  cases p with
  | decided news =>
    simp [World.finding?, free, news] at found
    exact found.symm
  | settled quiet =>
    rw [finding?_of_quiescent h.staffed h.raced.1 quiet] at found
    split at found <;> cases found
    rfl
  | panicked bereaved silent =>
    have inbox := h.raced.1.inbox silent
    obtain ⟨calm, t, rest, split, -⟩ := bereaved.split h.staffed (h.raced.2.unconcluded phase)
    cases finished : (w.visit v).finished with
    | nil => simp [finished] at split
    | cons u rest =>
      simp only [World.finding?, free, inbox, finished] at found
      simp at found
      exact found.2.symm

/-- From a poll on, the host goes on until the wait is over. -/
theorem ends (p : w.Portends v e) (h : scn.Reaches w) (free : (w.runOf v).cancelled = false)
    (polls : w.Polls v) : ∃ n ≤ (w.visit v).finished.length + 1,
      .concluded v e ∈ (w.moves (w.runOf v).host n).marks := by
  cases p with
  | @decided d news =>
    have found : w.finding? v = some (.decided d) := by
      simp only [World.finding?, free, news]
      rfl
    refine ⟨1, by omega, (polls.ends h.sound found).marks.subset ?_⟩
    rw [marks_mark]
    simp
  | settled quiet =>
    refine ⟨_, Nat.le_refl _, (h.settles polls quiet).settles.subset ?_⟩
    simp
  | panicked bereaved silent =>
    obtain ⟨n, few, mourns⟩ := h.mourns polls free silent bereaved
    refine ⟨n + 1, by omega, mourns.mourns.subset ?_⟩
    simp

end World.Portends

namespace Scenario.Reaches

/-- A run that waits in a state that fosters a machine has hired a task for it. -/
theorem hired_of_waiting (h : scn.Reaches w) (invokes : (w.visit v).state.Invokes m done failed)
    (phase : (w.runOf v).phase = .waiting v) : ∃ t, (w.task t).home = some v := by
  have o := h.orderly
  have own := o.waits _ v (congrArg Phase.visit? phase)
  have going : (w.run (w.visit v).run).phase ≠ .ended := by
    simp [show (w.run (w.visit v).run).phase = _ from phase]
  have began := (o.slotted.owner _ _ (o.slotted.holder _ (.inl going))).2
  obtain ⟨st, chart⟩ := o.charted _ began
  have stands : st.Matches (w.run (w.visit v).run).phase.standing? := chart.stands
  rw [show (w.run (w.visit v).run).phase = _ from phase] at stands
  cases stands
  obtain ⟨past, x, account⟩ := chart.course.account (by simp)
  obtain ⟨rfl, -⟩ := account.suits.visit v rfl
  have launched : .launched x.visit (.service 0) ∈ (w.way (w.visit x.visit).run).filter
      Mark.isSteady := by
    rw [account.marks]
    simp [Stay.upTo, World.launchMarks, invokes.stays, State.parts, invokes.offers.services]
  exact (h.fostered.nursed _ m invokes.fosters).hired
    (World.mem_way.1 (List.mem_filter.1 launched).1).1

/-- Once something has become of the machine that a run waits for, the next poll that finds anything
finds out what. -/
theorem portends_of_bears (h : scn.Reaches w) (invokes : (w.visit v).state.Invokes m done failed)
    (phase : (w.runOf v).phase = .waiting v) (bears : w.Bears v m b)
    (free : (w.runOf v).cancelled = false) :
    w.Portends v ((w.visit v).state.verdict m b) := by
  have fosters := invokes.fosters
  have nursed := h.fostered.nursed v m fosters
  cases outcome : b.outcome? m.id with
  -- The machine has panicked, and so has its task; no outcome was raised.
  | none =>
    rw [State.verdict_of_none _ outcome]
    cases bears with
    | refused | returned => cases outcome
    | panicked home gone =>
      refine .panicked ⟨_, home, gone⟩ fun d raised => ?_
      obtain ⟨u, home', gone'⟩ := nursed.silent d raised
      cases nursed.one _ _ home home'
      cases gone.symm.trans gone'
  -- The machine has an outcome, which its task has raised.
  | some failure =>
    obtain ⟨t, home, gone⟩ : ∃ t, (w.task t).home = some v ∧ (w.task t).fate = some .returned := by
      cases bears with
      | refused home gone | returned home gone => exact ⟨_, home, gone⟩
      | panicked => cases outcome
    have same {f : Option Fault} (came : w.Came t m f) : f = failure := by
      obtain ⟨b', bears', outcome'⟩ := came.bears home gone
      cases h.bears_inj fosters bears bears'
      exact Option.some.inj (outcome'.symm.trans outcome)
    rw [State.verdict_of_some _ outcome]
    obtain ⟨f, came, told⟩ := h.told fosters home gone
    cases same came
    cases told with
    -- It has an effect on the state: it is in the inbox, which is looked at first.
    | raised raised =>
      rw [if_pos (h.staffed.admitted v _ raised).2]
      refine .decided ?_
      rw [← World.mem_accepted, h.raced.1.accepted] at raised
      exact Option.mem_toList.1 raised
    -- It has none, so nothing is left to wait for.
    | aimless aimless =>
      rw [aimless, if_neg (by simp)]
      have dead : (w.task t).isAlive = false := by simp [Task.isAlive, gone]
      refine .settled ⟨fun u home' => ?_, h.released_of_gone fosters home dead, fun d raised => ?_,
        free⟩
      · cases nursed.one _ _ home home'
        exact ⟨dead, by simp [gone]⟩
      · -- What was accepted would have had an effect.
        have admits := (h.staffed.admitted v d raised).2
        cases nursed.went t _ home gone with
        | returned came only =>
          rw [only d raised, same came, aimless] at admits
          cases admits
    | lapsed lapsed =>
      cases lapsed with
      | stopped asked =>
        cases (h.orderly.heeded _ asked).symm.trans free
      | ended ended => cases ended.symm.trans phase
      | concluded past => exact absurd past (h.raced.2.unconcluded phase _)
      | left left => exact absurd left (h.not_left (congrArg Phase.visit? phase))

/-- A poll finds nothing as long as nothing has become of the machine. -/
theorem bears_of_finding? (h : scn.Reaches w) (invokes : (w.visit v).state.Invokes m done failed)
    (phase : (w.runOf v).phase = .waiting v) (free : (w.runOf v).cancelled = false)
    (found : w.finding? v = some e) : ∃ b, w.Bears v m b := by
  have nursed := h.fostered.nursed v m invokes.fosters
  obtain ⟨t, home⟩ := h.hired_of_waiting invokes phase
  cases fate : (w.task t).fate with
  | none =>
    have engaged : w.Engaged v := by
      refine ⟨.inl ⟨t, home, by simp [Task.isAlive, fate]⟩, fun u home' => ?_, fun d raised => ?_,
        free⟩
      · cases nursed.one _ _ home home'
        simp [fate]
      · obtain ⟨u, home', gone⟩ := nursed.silent d raised
        cases nursed.one _ _ home home'
        cases fate.symm.trans gone
    cases found.symm.trans (World.finding?_of_engaged h.staffed h.raced.1 engaged)
  | some f =>
    cases nursed.went t f home fate with
    | returned came =>
      obtain ⟨b, bears, -⟩ := came.bears home fate
      exact ⟨b, bears⟩
    | panicked => exact ⟨_, .panicked home fate⟩
    | dropped aborted => cases (h.not_aborted phase home).symm.trans aborted

/-- Unless its run was asked to stop, a wait for a machine ends with what has become of it. -/
theorem bears_of_concluded (h : scn.Reaches w) (invokes : (w.visit v).state.Invokes m done failed)
    (concluded : .concluded v e ∈ w.marks) (free : .stopAsked (w.visit v).run ∉ w.marks) :
    ∃ b, w.Bears v m b ∧ e = (w.visit v).state.verdict m b := by
  obtain ⟨before, after, marks⟩ := List.append_of_mem concluded
  obtain ⟨u, reach, path, -, polls, found⟩ := h.polled marks invokes.stays
  obtain ⟨-, beats⟩ := reach.later path
  have own := reach.sound.waits _ v (congrArg Phase.visit? polls.waits)
  have state : (w.visit v).state = (u.visit v).state := beats.lasting.state v own.known
  have invokes' : (u.visit v).state.Invokes m done failed := state ▸ invokes
  have free' : (u.runOf v).cancelled = false := by
    rw [← Bool.not_eq_true]
    intro stop
    have asked := beats.mem reach.orderly (reach.orderly.asked _ stop)
    rw [beats.lasting.owner v own.known] at free
    exact free asked
  obtain ⟨b, bears⟩ := reach.bears_of_finding? invokes' polls.waits free' found
  have portends := reach.portends_of_bears invokes' polls.waits bears free'
  refine ⟨b, bears.mono beats reach.orderly, ?_⟩
  rw [state]
  exact portends.finding? reach polls.waits free' found

/-- Once something has become of the machine that a run waits for, the host of the run is up, unless
it was told to go, and as soon as it has the turn it goes on until the wait is over. -/
theorem ends_of_bears (h : scn.Reaches w) (invokes : (w.visit v).state.Invokes m done failed)
    (phase : (w.runOf v).phase = .waiting v) (bears : w.Bears v m b)
    (free : (w.runOf v).cancelled = false) :
    ((w.task (w.runOf v).host).aborted = false → w.IsUp (w.runOf v).host) ∧
    (w.running = some (w.runOf v).host → ∃ n ≤ (w.visit v).finished.length + 1,
      .concluded v ((w.visit v).state.verdict m b) ∈
        (w.moves (w.runOf v).host n).marks) := by
  refine ⟨fun whole => ?_, fun turn => ?_⟩
  · cases bears with
    | refused home gone | returned home gone | panicked home gone =>
      exact h.heedful invokes.fosters phase home (by simp [Task.isAlive, gone]) whole
  · exact (h.portends_of_bears invokes phase bears free).ends h free ⟨turn, phase⟩

end Scenario.Reaches

/-! ## The end of stays -/

/-- A stay tells only of the ends of its own tasks. -/
theorem Stay.Fits.home_of_ended {z : Stay} {fate : Fate} (fits : z.Fits w r)
    (here : .ended t fate ∈ z.marks w r) : (w.task t).home = some z.visit := by
  refine Classical.byContradiction fun other => ?_
  have told : fate ∈ (z.marks w r).filterMap (Mark.fate? t) :=
    List.mem_filterMap.2 ⟨_, here, by simp [Mark.fate?]⟩
  rw [Stay.fates_marks, fits.fates other] at told
  cases told

/-- A visit of a run that has returned, and that had a task, is that of a stay. -/
theorem World.Unfolds.stay_of_home {result : RunResult} {stays : List Stay}
    (h : w.Unfolds r result stays) (fated : Fated w) (home : (w.task t).home = some v)
    (own : (w.visit v).run = r) {fate : Fate} (gone : (w.task t).fate = some fate) :
    ∃ z ∈ stays, z.visit = v := by
  have ended : .ended t fate ∈ (w.way r).filter Mark.isSteady := by
    refine List.mem_filter.2 ⟨World.mem_way.2 ⟨fated.told home gone, ?_⟩, rfl⟩
    simp [subject?, home, own]
  have coda : .ended t fate ∉ Standing.coda r (.finished result) := by
    unfold Standing.coda
    split <;> simp
  rw [h.way, List.mem_append, List.mem_cons, List.mem_flatMap] at ended
  obtain ⟨z, hz, here⟩ := (ended.resolve_right coda).resolve_left (by simp)
  have mine := (h.fits z hz).home_of_ended here
  exact ⟨z, hz, Option.some.inj (mine.symm.trans home)⟩

namespace Scenario.Reaches

/-- When something has become of the machine of a visit, the run waits on the visit, or has done so,
or was dropped. -/
theorem attended (h : scn.Reaches w) (home : (w.task t).home = some v) {fate : Fate}
    (gone : (w.task t).fate = some fate) :
    (w.runOf v).phase = .waiting v ∨ (∃ e, .concluded v e ∈ w.marks) ∨
      (w.runOf v).phase = .ended := by
  have o := h.orderly
  obtain ⟨r, hr⟩ : ∃ r, r = (w.visit v).run := ⟨_, rfl⟩
  have run : w.runOf v = w.run r := by rw [hr]; rfl
  rw [run]
  by_cases last : (w.run r).phase = .ended
  · exact .inr (.inr last)
  obtain ⟨st, chart⟩ := o.charted r (o.slotted.owner _ r (o.slotted.holder r (.inl last))).2
  have stands : st.Matches (w.run r).phase.standing? := chart.stands
  have ended : .ended t fate ∈ (w.way r).filter Mark.isSteady := by
    refine List.mem_filter.2 ⟨World.mem_way.2 ⟨o.fated.told home gone, ?_⟩, rfl⟩
    simp [World.subject?, home, hr]
  -- The end of the task belongs to a stay, which is over or under way.
  have mine {z : Stay} (fits : z.Fits w r) (here : .ended t fate ∈ z.marks w r) : z.visit = v :=
    Option.some.inj ((fits.home_of_ended here).symm.trans home)
  have split (going : st ≠ .lost) (coda : st.coda r = []) :
      (∃ e, .concluded v e ∈ w.marks) ∨
        ∃ z : Stay, .ended t fate ∈ z.upTo w r st ∧ z.Suits w r st := by
    obtain ⟨past, z, account⟩ := chart.course.account going
    have here := ended
    rw [account.marks, coda, List.append_nil, List.mem_append] at here
    rcases here with before | now
    · obtain ⟨y, hy, before⟩ := List.mem_flatMap.1
        ((List.mem_cons.1 before).resolve_left (by simp))
      have concluded : .concluded v y.ending ∈ (w.way r).filter Mark.isSteady := by
        rw [account.marks, ← mine (account.fits y hy) before]
        refine List.mem_append_left _ (List.mem_append_left _ (List.mem_cons_of_mem _ ?_))
        exact List.mem_flatMap.2 ⟨y, hy, by simp [Stay.marks, Stay.closing]⟩
      exact .inl ⟨_, (World.mem_way.1 (List.mem_filter.1 concluded).1).1⟩
    · exact .inr ⟨z, now, account.suits⟩
  -- The stays that are over have all been concluded; the one under way is that of the visit at
  -- which the run stands.
  cases phase : (w.run r).phase with
  | ended => exact absurd phase last
  | begun | arriving =>
    rw [phase] at stands
    cases stands
    refine .inr (.inl ((split (by simp) rfl).resolve_right ?_))
    rintro ⟨z, now, -⟩
    cases now
  | waiting u =>
    rw [phase] at stands
    cases stands
    rcases split (by simp) rfl with past | ⟨z, now, suits⟩
    · exact .inr (.inl past)
    · obtain ⟨rfl, fits⟩ := suits.visit u rfl
      have here : .ended t fate ∈ z.marks w r := by
        simp only [Stay.upTo] at now
        simp only [Stay.marks, List.mem_append]
        exact .inl (.inl (.inl (by simpa [or_assoc] using now)))
      exact .inl (congrArg Phase.waiting (mine fits here))
  | draining u e =>
    rw [phase] at stands
    cases stands
    rcases split (by simp) rfl with past | ⟨z, now, suits⟩
    · exact .inr (.inl past)
    · obtain ⟨rfl, fits⟩ := suits.visit u rfl
      have here : .ended t fate ∈ z.marks w r := by
        simp only [Stay.upTo] at now
        simp only [Stay.marks, List.mem_append]
        exact .inl (.inl (by simpa [or_assoc] using now))
      exact .inr (.inl ⟨e, mine fits here ▸ h.concluded phase⟩)

end Scenario.Reaches

section

variable {result : RunResult} {stays before after : List Stay} {z : Stay}

/-- The observers were told of every stay. -/
theorem World.Unfolds.notified (h : w.Unfolds r result stays) (hz : z ∈ stays) :
    .notified r (z.change w) ∈ w.marks := by
  have steady : .notified r (z.change w) ∈ (w.way r).filter Mark.isSteady := by
    rw [h.way]
    refine List.mem_append_left _ (List.mem_cons_of_mem _ (List.mem_flatMap.2 ⟨z, hz, ?_⟩))
    simp [Stay.marks, Stay.opening]
  exact (World.mem_way.1 (List.mem_filter.1 steady).1).1

/-- What comes of a stay that has ended with what has become of a machine. -/
theorem World.Unfolds.composes (h : w.Unfolds r result stays) (split : stays = before ++ z :: after)
    (sequel : w.Sequel result z ((w.machineOf r).aftermath (z.state w) z.ending) after)
    (invokes : (z.state w).Invokes m done failed) (ends : z.ending = (z.state w).verdict m b) :
    z.Composes w r result after m done failed b := by
  cases outcome : b.outcome? m.id with
  -- The machine has panicked.
  | none =>
    have here := sequel
    rw [ends, State.verdict_of_none _ outcome] at here
    have last : after = [] ∧ result = .error (.taskPanicked (z.state w).id) := by
      cases here
      exact ⟨rfl, rfl⟩
    exact { ends, moves := by simp [outcome], settles := by simp [outcome],
            completes := by simp [outcome], reroutes := by simp [outcome],
            fails := by simp [outcome], panics := fun _ => last, told := by simp [outcome] }
  | some failure =>
    -- Its outcome leads somewhere, or it is a success that leads nowhere.
    by_cases admits : (z.state w).admits (.outcome 0 failure) = true
    · have ended : z.ending = .decided (.outcome 0 failure) := by
        rw [ends, State.verdict_of_some _ outcome, if_pos admits]
      have obeys := sequel.obeys invokes.offers (k := 0) rfl ended admits
      have normal (mode : (z.state w).mode = .normal) : (z.state w).mode ≠ .final := by simp [mode]
      refine { ends, moves := fun success mode target hit => ?_,
               settles := fun success mode none => ?_, completes := fun success final => ?_,
               reroutes := fun fault error mode target hit => ?_, fails := fun fault error lost => ?_,
               panics := by simp [outcome], told := fun f same y rest here => ?_ }
      · cases Option.some.inj (outcome.symm.trans success)
        exact obeys.goes (normal mode) target hit
      · cases Option.some.inj (outcome.symm.trans success)
        exact absurd none (obeys.leads (normal mode) rfl)
      · cases Option.some.inj (outcome.symm.trans success)
        exact obeys.completes final rfl
      · cases Option.some.inj (outcome.symm.trans error)
        exact obeys.goes (normal mode) target hit
      · cases Option.some.inj (outcome.symm.trans error)
        exact obeys.fails fault rfl lost
      · cases Option.some.inj (outcome.symm.trans same)
        subst here
        have outlook := (w.machineOf r).outlook (z.state w) z.ending
        generalize (w.machineOf r).aftermath (z.state w) z.ending = comes at sequel outlook
        rw [ended] at outlook
        cases sequel with
        | next previous cause =>
          cases outlook
          have notified := h.notified (z := y) (by simp [split])
          rwa [Stay.change, previous, cause] at notified
    · obtain ⟨rfl, going, aimless⟩ := invokes.aimless admits
      have normal : (z.state w).mode = .normal := by
        cases mode : (z.state w).mode with
        | normal => rfl
        | transient => exact absurd mode invokes.stays
        | final => exact absurd mode going
      have last : after = [] ∧ result = .ok (.settled (z.state w).id) := by
        have settled : z.ending = .settled := by
          rw [ends, State.verdict_of_some _ outcome, if_neg admits]
        simp only [settled, Machine.aftermath, normal] at sequel
        cases sequel
        exact ⟨rfl, rfl⟩
      exact { ends, moves := fun _ _ _ hit => (by cases aimless.symm.trans hit),
              settles := fun _ _ _ => last,
              completes := by simp [normal], reroutes := by simp [outcome],
              fails := by simp [outcome], panics := by simp [outcome], told := by simp [last.1] }

namespace Scenario.Reaches

/-- What comes of the stays of a run that has returned without being asked to stop. -/
theorem composes (h : scn.Reaches w) (returned : .returned r result ∈ w.marks)
    (free : .stopAsked r ∉ w.marks) :
    ∃ stays, w.Unfolds r result stays ∧ ∀ before z after, stays = before ++ z :: after →
      ∀ m done failed, (z.state w).Invokes m done failed →
        ∃ b, w.Bears z.visit m b ∧ z.Composes w r result after m done failed b := by
  obtain ⟨stays, unfolds, sequel⟩ := h.sequels returned
  refine ⟨stays, unfolds, fun before z after split m done failed invokes => ?_⟩
  have hz : z ∈ stays := by simp [split]
  have own := (unfolds.fits z hz).owns.run
  obtain ⟨b, bears, ends⟩ := h.bears_of_concluded invokes (unfolds.concluded hz) (own.symm ▸ free)
  exact ⟨b, bears, unfolds.composes split (sequel before z after split) invokes ends⟩

/-- An error that has no target comes out as the error of the run. -/
theorem fails_of_exposes {fault : Fault} (h : scn.Reaches w) (exposes : w.Exposes r v m)
    (bears : w.Bears v m b) (error : b.outcome? m.id = some (some fault)) :
    .returned r (.error (.serviceFailed (w.visit v).state.id fault)) ∈ w.marks := by
  obtain ⟨result, returned⟩ := exposes.returned
  obtain ⟨stays, unfolds, composes⟩ := h.composes returned exposes.free
  obtain ⟨done, failed, invokes, lost⟩ := exposes.invokes
  obtain ⟨t, fate, home, gone⟩ : ∃ t fate, (w.task t).home = some v ∧
      (w.task t).fate = some fate := by
    cases bears with
    | refused home gone | returned home gone | panicked home gone => exact ⟨_, _, home, gone⟩
  obtain ⟨z, hz, rfl⟩ := unfolds.stay_of_home h.orderly.fated home exposes.own gone
  obtain ⟨before, after, split⟩ := List.append_of_mem hz
  obtain ⟨b', bears', composes⟩ := composes before z after split m done failed invokes
  cases h.bears_inj invokes.fosters bears bears'
  obtain ⟨-, rfl⟩ := composes.fails fault error (.inr lost)
  exact returned

end Scenario.Reaches

end

end

/-! ## Machines that are nested -/

namespace Scenario

/-- A wait for a machine ends with what has become of that machine, and with nothing else, unless
the run is asked to stop; and once something has become of it, the wait is over, or about to end, or
the run was dropped. What comes of the stay then is up to the targets of success and failure. So
when runs wait for each other in normal states without a target for failure, to any depth, the
outermost returns the error of the innermost machine, wrapped once for each of the states. -/
theorem nested_machines_compose {scn : Scenario} {w : World} (h : scn.Reaches w) :
    (∀ v m done failed, (w.visit v).state.Invokes m done failed →
      (∀ b b', w.Bears v m b → w.Bears v m b' → b = b') ∧
      (.stopAsked (w.visit v).run ∉ w.marks →
        (∀ e, .concluded v e ∈ w.marks →
          ∃ b, w.Bears v m b ∧ e = (w.visit v).state.verdict m b) ∧
        ∀ b, w.Bears v m b →
          .concluded v ((w.visit v).state.verdict m b) ∈ w.marks ∨
          (w.runOf v).phase = .ended ∨
          (w.runOf v).phase = .waiting v ∧
            ((w.task (w.runOf v).host).aborted = false → w.IsUp (w.runOf v).host) ∧
            (w.running = some (w.runOf v).host → ∃ n ≤ (w.visit v).finished.length + 1,
              .concluded v ((w.visit v).state.verdict m b) ∈
                (w.moves (w.runOf v).host n).marks))) ∧
    (∀ r result, .returned r result ∈ w.marks → .stopAsked r ∉ w.marks →
      ∃ stays, w.Unfolds r result stays ∧ ∀ before z after, stays = before ++ z :: after →
        ∀ m done failed, (z.state w).Invokes m done failed →
          ∃ b, w.Bears z.visit m b ∧ z.Composes w r result after m done failed b) ∧
    ∀ r ids e, w.Stacks r ids e → .returned r (.error (e.through ids)) ∈ w.marks := by
  refine ⟨fun v m done failed invokes => ?_, fun r result => h.composes,
    fun r ids e stacked => ?_⟩
  · refine ⟨fun b b' => h.bears_inj invokes.fosters, fun free => ?_⟩
    refine ⟨fun e past => h.bears_of_concluded invokes past free, fun b bears => ?_⟩
    have idle : (w.runOf v).cancelled = false := by
      rw [← Bool.not_eq_true]
      exact fun stop => free (h.orderly.asked _ stop)
    obtain ⟨t, fate, home, gone⟩ : ∃ t fate, (w.task t).home = some v ∧
        (w.task t).fate = some fate := by
      cases bears with
      | refused home gone | returned home gone | panicked home gone => exact ⟨_, _, home, gone⟩
    -- The run hears of it still, has heard of it, or was dropped.
    rcases h.attended home gone with phase | ⟨e, past⟩ | last
    · exact .inr (.inr ⟨phase, h.ends_of_bears invokes phase bears idle⟩)
    · obtain ⟨b', bears', rfl⟩ := h.bears_of_concluded invokes past free
      cases h.bears_inj invokes.fosters bears bears'
      exact .inl past
    · exact .inr (.inl last)
  -- The induction is on the states that the error goes through, from the innermost machine
  -- outwards.
  · induction stacked with
    | innermost exposes bears error => exact h.fails_of_exposes exposes bears error
    | around exposes home gone carries inner ih =>
      exact h.fails_of_exposes exposes (.returned home gone carries ih) rfl

/-- A machine with one state, whose only work is to run another machine. -/
def wrapping (id state : String) (m : Machine) : Machine :=
  ⟨id, id, state, some [{ State.new state with services := [.nested m] }]⟩

/-- A machine without states. -/
def hollow : Machine := ⟨"n", "N", "x", none⟩

/-- Three machines around one that cannot start; the outermost has a target for the failure. -/
def wrapped : Scenario where
  machine := ⟨"m", "M", "a", some [
    { State.new "a" with
      routes := [(.failed 0, "d")]
      services := [.nested (wrapping "p" "b" (wrapping "q" "c" hollow))] },
    { State.new "d" with mode := .final }]⟩
  interpreters := 1
  limit := none
  observers := []
  steps := [.run 0 100]

/-- The error has come out of two of them when it leads the outermost to its target. -/
theorem wrapped_composes :
    (wrapped.play 40).Stacks 1 ["b", "c"] (.missingStates "n") ∧
    .returned 1 (.error ((RunError.missingStates "n").through ["b", "c"])) ∈
      (wrapped.play 40).marks ∧
    .returned 0 (.ok .done) ∈ (wrapped.play 40).marks ∧
    ∃ stays, (wrapped.play 40).Unfolds 0 (.ok .done) stays ∧
      ∀ before z after, stays = before ++ z :: after → z.visit = 0 →
        ∃ b, (wrapped.play 40).Bears 0 (wrapping "p" "b" (wrapping "q" "c" hollow)) b ∧
          z.Composes (wrapped.play 40) 0 (.ok .done) after
            (wrapping "p" "b" (wrapping "q" "c" hollow)) none (some "d") b := by
  obtain ⟨-, composes, comesOut⟩ := nested_machines_compose (wrapped.reaches_play 40)
  have returned : .returned 0 (.ok .done) ∈ (wrapped.play 40).marks := by decide +kernel
  have runs {state : String} {m : Machine} :
      State.Invokes { State.new state with services := [.nested m] } m none none :=
    State.invokes_of_configure
      (show State.configure (.new state) [.machine m none none] = .ok _ from rfl) rfl rfl nofun
  have innermost : (wrapped.play 40).Exposes 2 2 hollow :=
    ⟨by decide +kernel, by decide +kernel, ⟨none, none, runs, rfl⟩, by decide +kernel,
      .error ((RunError.missingStates "n").through ["c"]), by decide +kernel⟩
  have outer : (wrapped.play 40).Exposes 1 1 (wrapping "q" "c" hollow) :=
    ⟨by decide +kernel, by decide +kernel, ⟨none, none, runs, rfl⟩, by decide +kernel,
      .error ((RunError.missingStates "n").through ["b", "c"]), by decide +kernel⟩
  have carries : (wrapped.play 40).Carries 3 2 (wrapping "q" "c" hollow) :=
    ⟨by decide +kernel, by decide +kernel, by decide +kernel, by decide +kernel, rfl⟩
  -- The innermost machine has no states, so it is refused; two runs fail for it in turn.
  have stacked : (wrapped.play 40).Stacks 1 ["b", "c"] (.missingStates "n") :=
    .around outer (by decide +kernel) (by decide +kernel) carries
      (.innermost innermost (.refused (t := 5) (by decide +kernel) (by decide +kernel) rfl) rfl)
  obtain ⟨stays, unfolds, ends⟩ := composes 0 _ returned (by decide +kernel)
  refine ⟨stacked, comesOut _ _ _ stacked, returned, stays, unfolds,
    fun before z after here visit => ?_⟩
  have invokes : (z.state (wrapped.play 40)).Invokes
      (wrapping "p" "b" (wrapping "q" "c" hollow)) none (some "d") := by
    unfold Stay.state
    rw [visit]
    exact State.invokes_of_configure
      (show State.configure (.new "a") [.machine _ none (some "d")] = .ok _ from rfl) rfl rfl nofun
  obtain ⟨b, bears, composed⟩ := ends before z after here _ _ _ invokes
  exact ⟨b, visit ▸ bears, composed⟩

end Scenario

end Statechart
