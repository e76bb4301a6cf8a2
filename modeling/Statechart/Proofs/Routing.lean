import Statechart.Proofs.Configuration
import Statechart.Proofs.Race
import Statechart.Proofs.Sequels
import Statechart.Proofs.Staffing

/-!
# Where the outcomes of services lead

A service is added to a state together with the targets of its success and its failure. The routes
of all services share one table with those of named events, and each outcome finds its own target
there. An event is accepted exactly if it does not leave the run settled, so an event that was
accepted moves the machine, completes it or fails it.

## Main definitions

- `Offer`, `State.Directive.offer?`: the service that a step of configuration adds, with its
  targets.
- `Decision.outcome`: the event that is raised for the outcome of a service.
- `State.Offers`: a state has these services, and its routes for outcomes are theirs.
- `Stay.GoesTo`, `Stay.Obeys`: a stay that the outcome of a service has ended goes where the
  service was to lead.

## Main statements

- `State.admits_iff`: an event is admitted exactly if it does not settle.
- `State.offers_of_configure`: a state that was configured has the services that were added.
- `Scenario.outcomes_routed`: outcomes that are accepted lead where they were to lead.
-/

namespace Statechart

/-! ## Definitions -/

/-- A service of a state, and the targets of its success and its failure, which may be empty. -/
structure Offer where
  service : Service
  done : Option String
  failed : Option String

/-- The event that is raised for the success or the failure of a service. -/
def Decision.outcome (k : Nat) : Option Fault → Decision
  | none => ⟨.succeeded k, none⟩
  | some fault => ⟨.failed k, some fault⟩

/-- Where the success or the failure of a service is to lead: an empty target is none. -/
def Offer.outlet (o : Offer) : Option Fault → Option String
  | none => o.done.filter (· ≠ "")
  | some _ => o.failed.filter (· ≠ "")

namespace State

/-- The service that a step of configuration adds, if it adds one. -/
def Directive.offer? : Directive → Option Offer
  | .service work _ => some ⟨.free work, none, none⟩
  | .action work done failed => some ⟨.routed work, done, failed⟩
  | .machine child done failed => some ⟨.nested child, done, failed⟩
  | .timeout ms target => some ⟨.routed (timer ms), some target, none⟩
  | .transition .. | .transient _ | .final | .onEnter _ | .onExit _ | .activity .. => none

/-- A state has these services, in order, and its routes for their outcomes are their own. -/
structure Offers (s : State) (offers : List Offer) : Prop where
  services : s.services = offers.map Offer.service
  done : ∀ k, s.route? (.succeeded k) = offers[k]?.bind Offer.done
  failed : ∀ k, s.route? (.failed k) = offers[k]?.bind Offer.failed

end State

namespace Stay

/-- A stay is left for a target by a decision: the next stay is in the first state of that id,
unless the run is stopped on the way there, or there is no such state. -/
inductive GoesTo (w : World) (m : Machine) (result : RunResult) (x : Stay) (d : Decision)
    (target : String) : List Stay → Prop where
  | next {y : Stay} {rest : List Stay} (found : m.find? target = some (y.state w))
      (previous : y.previous = some (x.state w).id) (cause : y.cause = some d) :
      GoesTo w m result x d target (y :: rest)
  | halted {s : State} (found : m.find? target = some s) (stopped : result = .ok .stopped) :
      GoesTo w m result x d target []
  | dangling (missing : m.find? target = none)
      (error : result = .error (.danglingTransition (x.state w).id d.event target)) :
      GoesTo w m result x d target []

/-- A stay that the outcome of a service has ended goes where the service was to lead. -/
structure Obeys (w : World) (m : Machine) (result : RunResult) (x : Stay) (after : List Stay)
    (k : Nat) (o : Offer) (failure : Option Fault) : Prop where
  /-- Outside final states, the stay goes to the target of its own service. -/
  goes : (x.state w).mode ≠ .final → ∀ target, o.outlet failure = some target →
    x.GoesTo w m result (.outcome k failure) target after
  /-- There a success has a target, or it would not have ended the stay. -/
  leads : (x.state w).mode ≠ .final → failure = none → o.outlet none ≠ none
  /-- A failure without a target of its own is that of the run, as is any in a final state. -/
  fails : ∀ fault, failure = some fault →
    (x.state w).mode = .final ∨ o.outlet failure = none →
    after = [] ∧ result = .error (.serviceFailed (x.state w).id fault)
  /-- A success completes the machine in a final state. -/
  completes : (x.state w).mode = .final → failure = none → after = [] ∧ result = .ok .done

end Stay

/-! ## Events that have an effect -/

/-- An event is admitted exactly if it does not settle. -/
theorem State.admits_iff (s : State) (d : Decision) :
    s.admits d = true ↔ s.resolve d ≠ .settled := by
  unfold admits resolve
  by_cases final : s.mode = .final
  · cases d.fault <;> simp [final]
  · cases s.targetOf d.event <;> cases d.fault <;> simp [final]

/-- A success that has no effect is reported, and changes nothing. -/
theorem World.raiseOutcome_of_aimless (w : World) (route : Route)
    (aimless : (w.visit route.visit).state.admits (.outcome route.service none) = false) :
    w.raiseOutcome route none = w ∨
      w.raiseOutcome route none =
        (w.trace (.unrouted (w.visit route.visit).state.id (.succeeded route.service))).mark
          (.raised route.visit (.outcome route.service none) false) := by
  simp only [Decision.outcome] at aimless ⊢
  by_cases cancelled : w.isCancelled route.visit
  · exact .inl (if_pos cancelled)
  · right
    simp [raiseOutcome, raise, cancelled, aimless]

/-! ## Configuration -/

namespace State

variable {s s' : State} {offers : List Offer}

@[simp]
theorem routeOutcome_services (s : State) (event : EventId) (target : Option String) :
    (s.routeOutcome event target).services = s.services := by
  cases target <;> rfl

/-- A new route answers for its own event, unless there was one before. -/
theorem route?_routeOutcome (s : State) (event other : EventId) (target : Option String) :
    (s.routeOutcome event target).route? other =
      (s.route? other).or (if other = event then target else none) := by
  cases target with
  | none => simp [routeOutcome]
  | some target =>
    simp only [routeOutcome, route?, List.lookup_append, lookup_route]

/-- What is registered for a named event does not answer for outcomes. -/
theorem withTransition_spec {event target : String} (h : s.withTransition event target = .ok s') :
    s'.services = s.services ∧
      ∀ e, e.name? = none → s'.route? e = s.route? e := by
  unfold withTransition at h
  split at h
  · cases h
  · cases h
    refine ⟨rfl, fun e unnamed => ?_⟩
    have other : e ≠ .named event := by
      rintro rfl
      cases unnamed
    simp only [route?, List.lookup_append, lookup_route, if_neg other, Option.or_none]

namespace Offers

/-- A change that keeps the services and the routes of outcomes keeps what is offered. -/
theorem of_eq (h : s.Offers offers) (services : s'.services = s.services)
    (routes : ∀ e, e.name? = none → s'.route? e = s.route? e) : s'.Offers offers where
  services := services.trans h.services
  done k := (routes _ rfl).trans (h.done k)
  failed k := (routes _ rfl).trans (h.failed k)

/-- A service that is added is offered after those that there are. -/
theorem invoke (h : s.Offers offers) (o : Offer) :
    (s.invoke o.service o.done o.failed).Offers (offers ++ [o]) := by
  have position : s.services.length = offers.length := by simp [h.services]
  -- Positions that are there already have their answer; the next one is the new service's.
  have answer (f : Offer → Option String) (k : Nat) :
      (offers[k]?.bind f).or (if k = offers.length then f o else none) =
        (offers ++ [o])[k]?.bind f := by
    rcases Nat.lt_trichotomy k offers.length with before | rfl | after
    · simp [List.getElem?_append_left before, Nat.ne_of_lt before]
    · simp
    · have all : (offers ++ [o]).length ≤ k := by simpa using Nat.succ_le_of_lt after
      simp [List.getElem?_eq_none all, List.getElem?_eq_none (Nat.le_of_lt after),
        Nat.ne_of_gt after]
  have routes (e : EventId) : (s.invoke o.service o.done o.failed).route? e =
      ((s.route? e).or (if e = .succeeded offers.length then o.done else none)).or
        (if e = .failed offers.length then o.failed else none) := by
    rw [← route?_routeOutcome, ← route?_routeOutcome, ← position]
    rfl
  refine ⟨?_, fun k => ?_, fun k => ?_⟩
  · simp [State.invoke, h.services]
  · rw [← answer, ← h.done k, routes]
    simp
  · rw [← answer, ← h.failed k, routes]
    simp

/-- Every step of configuration offers the service that it adds. -/
theorem apply {d : Directive} (h : s.Offers offers) (applied : s.apply d = .ok s') :
    s'.Offers (offers ++ d.offer?.toList) := by
  have silent (none : d.offer? = none) (same : s'.Offers offers) :
      s'.Offers (offers ++ d.offer?.toList) := by simpa [none] using same
  cases d with
  | transition event target =>
    obtain ⟨services, routes⟩ := withTransition_spec applied
    exact silent rfl (h.of_eq services routes)
  | transient target =>
    obtain ⟨services, routes⟩ := withTransition_spec applied
    exact silent rfl (h.of_eq services routes)
  | final | onEnter | onExit =>
    cases applied
    exact silent rfl (h.of_eq rfl fun _ _ => rfl)
  | activity work cleanup =>
    cases applied
    refine silent rfl (h.of_eq ?_ fun _ _ => ?_) <;> cases cleanup <;> rfl
  | service work cleanup =>
    cases applied
    have free : (s.invoke (.free work) none none).Offers (offers ++ [⟨.free work, none, none⟩]) :=
      h.invoke ⟨.free work, none, none⟩
    refine free.of_eq ?_ fun _ _ => ?_ <;> cases cleanup <;> rfl
  | action work done failed =>
    cases applied
    exact h.invoke ⟨.routed work, done, failed⟩
  | machine child done failed =>
    cases applied
    exact h.invoke ⟨.nested child, done, failed⟩
  | timeout ms target =>
    cases applied
    exact h.invoke ⟨.routed (timer ms), some target, none⟩

/-- Steps of configuration offer the services that they add, in order. -/
theorem configure {steps : List Directive} (h : s.Offers offers)
    (configured : s.configure steps = .ok s') :
    s'.Offers (offers ++ steps.filterMap Directive.offer?) := by
  induction steps generalizing s offers with
  | nil =>
    cases configured
    simpa using h
  | cons d rest ih =>
    unfold State.configure at configured ih
    rw [List.foldlM_cons] at configured
    cases applied : s.apply d with
    | error e =>
      rw [applied] at configured
      cases configured
    | ok next =>
      rw [applied] at configured
      have onward := ih (h.apply applied) configured
      cases added : d.offer? <;> simpa [added, List.filterMap_cons] using onward

/-- The outcome of a service leads where the service was to lead. -/
theorem targetOf (h : s.Offers offers) {k : Nat} {o : Offer} (offer : offers[k]? = some o)
    (failure : Option Fault) :
    s.targetOf (Decision.outcome k failure).event = o.outlet failure := by
  cases failure with
  | none => simp [State.targetOf, Decision.outcome, Offer.outlet, h.done k, offer]
  | some fault => simp [State.targetOf, Decision.outcome, Offer.outlet, h.failed k, offer]

end Offers

/-- A state that was configured step by step has the services that were added. -/
theorem offers_of_configure {id : String} {steps : List Directive}
    (configured : State.configure (.new id) steps = .ok s) :
    s.Offers (steps.filterMap Directive.offer?) := by
  have blank : (State.new id).Offers [] := ⟨rfl, fun _ => rfl, fun _ => rfl⟩
  simpa using blank.configure configured

end State

@[simp]
theorem Decision.outcome_fault (k : Nat) (failure : Option Fault) :
    (Decision.outcome k failure).fault = failure := by
  cases failure <;> rfl

/-! ## Stays that outcomes have ended -/

section

variable {w : World} {m : Machine} {result : RunResult} {x : Stay} {after : List Stay}
  {offers : List Offer} {k : Nat} {o : Offer} {failure : Option Fault}

/-- What follows a stay that the outcome of a service has ended is what the service was to lead
to. -/
theorem World.Sequel.obeys (h : w.Sequel result x (m.aftermath (x.state w) x.ending) after)
    (built : (x.state w).Offers offers) (offer : offers[k]? = some o)
    (ended : x.ending = .decided (.outcome k failure))
    (effect : (x.state w).admits (.outcome k failure) = true) :
    x.Obeys w m result after k o failure := by
  have route := built.targetOf offer failure
  have outlook := m.outlook (x.state w) x.ending
  rw [ended] at h outlook
  generalize m.aftermath (x.state w) (.decided (.outcome k failure)) = comes at h outlook
  -- What can come of the decision, case by case, against what the service was offered with.
  cases outlook with
  | move going leads found =>
    rw [route] at leads
    refine ⟨fun _ target hit => ?_, fun _ none => ?_, fun fault _ lost => ?_,
      fun final => absurd final going⟩
    · cases leads.symm.trans hit
      cases h with
      | next previous cause => exact .next found previous cause
      | halted stopped => exact .halted found stopped
    · simp [← none, leads]
    · simp [going, leads] at lost
  | dangle going leads missing =>
    rw [route] at leads
    cases h
    refine ⟨fun _ target hit => ?_, fun _ none => ?_, fun fault _ lost => ?_,
      fun final => absurd final going⟩
    · cases leads.symm.trans hit
      exact .dangling missing rfl
    · simp [← none, leads]
    · simp [going, leads] at lost
  | fail raised lost =>
    rw [Decision.outcome_fault] at raised
    rw [route] at lost
    cases h
    refine ⟨fun going target hit => ?_, fun _ none => ?_, fun fault failed _ => ?_,
      fun _ none => ?_⟩
    · simp [going, hit] at lost
    · cases raised.symm.trans none
    · cases raised.symm.trans failed
      exact ⟨rfl, rfl⟩
    · cases raised.symm.trans none
  | done final fair =>
    rw [Decision.outcome_fault] at fair
    cases h with
    | done returned =>
      refine ⟨fun going => absurd final going, fun going => absurd final going,
        fun fault failed => ?_, fun _ _ => ⟨rfl, returned⟩⟩
      cases fair.symm.trans failed
  | stay going aimless fair =>
    -- Nothing would have come of the event, so it was not admitted.
    refine absurd ?_ ((State.admits_iff ..).1 effect)
    rw [Decision.outcome_fault] at fair
    subst fair
    simp [State.resolve, going, aimless]

end

/-! ## Outcomes that are accepted -/

section

variable {w : World} {v : VisitId}

/-- An event that was accepted has ended the wait of its visit, unless the run was asked to stop or
a panic came first. -/
theorem Raced.heard (raced : Raced w .rest) (counted : Counted w) {d : Decision} {e : Ending}
    (raised : .raised v d true ∈ w.marks) (concluded : .concluded v e ∈ w.marks) :
    e = .decided d ∨ e = .stopped ∨ e = .panicked := by
  obtain ⟨before, after, marks⟩ := List.append_of_mem concluded
  have verdict := raced.judged v e before after marks
  have inbox : (w.visit v).inbox = some d := by
    rw [← World.mem_accepted, counted.accepted v] at raised
    exact Option.mem_toList.1 raised
  cases e with
  | stopped => exact .inr (.inl rfl)
  | panicked => exact .inr (.inr rfl)
  | settled =>
    refine absurd ?_ (verdict.settled rfl d)
    simpa [marks] using raised
  | decided d' =>
    -- The event that ended the wait was accepted as well, and one event is accepted at most.
    have going := (raced.lent v (.inr (by simp [inbox]))).2
    have first := verdict.decided d' rfl going
    have other : d' ∈ w.accepted v := by
      rw [World.mem_accepted, marks]
      exact List.mem_append_left _ first
    rw [counted.accepted v, inbox] at other
    cases List.mem_singleton.1 other
    exact .inl rfl

end

namespace Scenario

/-- Whatever is admitted does not settle, so no event that was accepted does. A success that is to
lead nowhere, outside final states, is not accepted, and changes nothing. An outcome that was
accepted ends its stay, unless a stop or a panic does, and the outcome of a service that has ended
a stay leads where that very service was to lead when it was added to the state. -/
theorem outcomes_routed {scn : Scenario} {w : World} (h : scn.Reaches w) :
    (∀ (s : State) (d : Decision), s.admits d = true ↔ s.resolve d ≠ .settled) ∧
    (∀ v d, .raised v d true ∈ w.marks → (w.visit v).state.resolve d ≠ .settled) ∧
    (∀ id steps v, State.configure (.new id) steps = .ok (w.visit v).state →
      (w.visit v).state.mode ≠ .final →
      ∀ k o, (steps.filterMap State.Directive.offer?)[k]? = some o → o.outlet none = none →
        .raised v (.outcome k none) true ∉ w.marks ∧
        (w.raiseOutcome ⟨v, k⟩ none = w ∨ w.raiseOutcome ⟨v, k⟩ none =
          (w.trace (.unrouted (w.visit v).state.id (.succeeded k))).mark
            (.raised v (.outcome k none) false))) ∧
    ∀ r result, .returned r result ∈ w.marks → ∃ stays, w.Unfolds r result stays ∧
      ∀ before x after, stays = before ++ x :: after →
        ∀ id steps, State.configure (.new id) steps = .ok (x.state w) →
        ∀ k o, (steps.filterMap State.Directive.offer?)[k]? = some o → ∀ failure,
          (.raised x.visit (.outcome k failure) true ∈ w.marks →
            x.ending = .decided (.outcome k failure) ∨ .stopAsked r ∈ w.marks ∨
              x.ending = .panicked) ∧
          (x.ending = .decided (.outcome k failure) →
            x.Obeys w (w.machineOf r) result after k o failure) := by
  obtain ⟨counted, raced⟩ := h.raced
  have effect {v : VisitId} {d : Decision} (raised : .raised v d true ∈ w.marks) :
      (w.visit v).state.admits d = true := (h.staffed.admitted v d raised).2
  refine ⟨State.admits_iff, fun v d raised => (State.admits_iff ..).1 (effect raised),
    fun id steps v configured going k o offer aimless => ?_, fun r result returned => ?_⟩
  · have route := (State.offers_of_configure configured).targetOf offer none
    have idle : (w.visit v).state.admits (.outcome k none) = false := by
      simp [State.admits, route, aimless, going]
    refine ⟨fun raised => ?_, w.raiseOutcome_of_aimless ⟨v, k⟩ idle⟩
    cases idle.symm.trans (effect raised)
  -- What the run has done falls into stays, each of which obeys what ended it.
  obtain ⟨stays, unfolds, sequel⟩ := h.sequels returned
  refine ⟨stays, unfolds, fun before x after here id steps configured k o offer failure => ?_⟩
  have hx : x ∈ stays := by simp [here]
  have concluded := unfolds.concluded hx
  have sequel := sequel before x after here
  refine ⟨fun raised => ?_, fun ended => ?_⟩
  · refine (raced.heard counted raised concluded).imp_right (.imp_left fun stopped => ?_)
    rw [stopped] at sequel
    cases sequel
    exact h.asked_of_stopped returned
  · refine sequel.obeys (State.offers_of_configure configured) offer ended (effect ?_)
    have going : (x.state w).mode ≠ .transient := by
      intro transient
      have passed := ((unfolds.fits x hx).transient transient).2
      rw [ended] at passed
      cases failure <;> cases passed
    obtain ⟨mb, ma, marks⟩ := List.append_of_mem concluded
    rw [marks]
    exact List.mem_append_left _ ((raced.judged _ _ mb ma marks).decided _ ended going)

/-- The steps that configure a state with a route and three services: one whose success leads
nowhere, one whose failure does not come about, and one that fails. -/
def junction : List State.Directive := [
  .transition "go" "d",
  .action {} (some "") (some "d"),
  .timeout 50 "d",
  .action { body := [.pause .yield, .finish (some "no")] } none (some "b")]

/-- A service fails beside others, and in the final state that it leads to another one succeeds. -/
def junctions : Scenario where
  machine := ⟨"m", "M", "a", some [
    { State.new "a" with
      routes := [(.named "go", "d"), (.succeeded 0, ""), (.failed 0, "d"), (.succeeded 1, "d"),
        (.failed 2, "b")]
      services := [.routed {}, .routed (State.timer 50),
        .routed { body := [.pause .yield, .finish (some "no")] }] },
    { State.new "b" with mode := .final, services := [.routed {}] }]⟩
  interpreters := 1
  limit := none
  observers := []
  steps := [.run 0 100]

/-- The failure of the third service leads to the target that it was added with. -/
theorem junctions_routed :
    .raised 0 (.outcome 2 (some (.message "no"))) true ∈ (junctions.play 60).marks ∧
      .returned 0 (.ok .done) ∈ (junctions.play 60).marks ∧
      ∃ stays, (junctions.play 60).Unfolds 0 (.ok .done) stays ∧
        ∀ before x after, stays = before ++ x :: after → x.visit = 0 →
          x.ending = .decided (.outcome 2 (some (.message "no"))) →
          x.Obeys (junctions.play 60) ((junctions.play 60).machineOf 0) (.ok .done) after 2
            ⟨.routed { body := [.pause .yield, .finish (some "no")] }, none, some "b"⟩
            (some (.message "no")) := by
  have returned : .returned 0 (.ok .done) ∈ (junctions.play 60).marks := by decide +kernel
  obtain ⟨-, -, -, routed⟩ := outcomes_routed (junctions.reaches_play 60)
  obtain ⟨stays, unfolds, obeys⟩ := routed 0 (.ok .done) returned
  refine ⟨by decide +kernel, returned, stays, unfolds, fun before x after here visit ended => ?_⟩
  refine (obeys before x after here "a" junction ?_ 2 _ rfl _).2 ended
  unfold Stay.state
  rw [visit]
  rfl

end Scenario

end Statechart
