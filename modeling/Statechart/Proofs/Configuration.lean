import Mathlib.Data.List.Nodup
import Statechart.Machine.State

/-!
# Configuring states

A state is configured step by step, and a step that fails leaves the state as it was, mode and all.
The only steps that can fail are those that register a named event, and they fail exactly if the
event is registered already. Every other fact about a configured state can be read off the steps
that were accepted.

## Main definitions

- `State.attempt`, `State.attemptAll`: steps of configuration, those that fail left out.
- `State.accepted`: the steps that do not fail.
- `State.extend`: the state with what a step adds to it.
- `State.Tabled`: every event has at most one route.
- `State.Tallies`: a state has what the accepted steps gave it, and nothing else.

## Main statements

- `State.apply_eq`: a step either clashes with an event that is registered, or extends the state.
- `State.attemptAll_eq`: a configured state is extended by the accepted steps, in order.
- `State.tabled_attemptAll`: configured states have at most one route for an event.
- `State.attemptAll_tallies`: configured states tally with their steps.
-/

namespace Statechart.State

/-! ## What steps add -/

namespace Directive

/-- The named event that a step registers, with its target. -/
def registration? : Directive → Option (String × String)
  | .transition event target => some (event, target)
  | .transient target => some ("", target)
  | _ => none

/-- The mode that a step gives a state. -/
def mode? : Directive → Option Mode
  | .transient _ => some .transient
  | .final => some .final
  | _ => none

/-- The targets that a step gives for the outcomes of its service. -/
def outlets : Directive → List String
  | .action _ done failed | .machine _ done failed => done.toList ++ failed.toList
  | .timeout _ target => [target]
  | _ => []

/-- The routes that a step adds to a state that has so many services. -/
def routes (position : Nat) : Directive → List (EventId × String)
  | .transition event target => [(.named event, target)]
  | .transient target => [(.transient, target)]
  | .action _ done failed | .machine _ done failed =>
    done.toList.map (.succeeded position, ·) ++ failed.toList.map (.failed position, ·)
  | .timeout _ target => [(.succeeded position, target)]
  | _ => []

/-- The action that a step adds to those on entering. -/
def enterAction? : Directive → Option Script
  | .onEnter script => some script
  | _ => none

/-- The action that a step adds to those on leaving. -/
def exitAction? : Directive → Option Script
  | .onExit script => some script
  | _ => none

/-- The service that a step adds. -/
def service? : Directive → Option Service
  | .service work _ => some (.free work)
  | .action work _ _ => some (.routed work)
  | .machine child _ _ => some (.nested child)
  | .timeout ms _ => some (.routed (timer ms))
  | _ => none

/-- The activity that a step adds. -/
def activity? : Directive → Option Work
  | .activity work _ => some work
  | _ => none

/-- The action that a step adds to the cleanup. -/
def cleanup? : Directive → Option Script
  | .service _ cleanup | .activity _ cleanup => cleanup
  | _ => none

end Directive

/-- The state with what a step adds to it. -/
def extend (s : State) (d : Directive) : State where
  id := s.id
  mode := d.mode?.getD s.mode
  routes := s.routes ++ d.routes s.services.length
  enterActions := ⟨s.enterActions.actions ++ d.enterAction?.toList⟩
  exitActions := ⟨s.exitActions.actions ++ d.exitAction?.toList⟩
  services := s.services ++ d.service?.toList
  activities := s.activities ++ d.activity?.toList
  cleanup := ⟨s.cleanup.actions ++ d.cleanup?.toList⟩

/-- The event that a step would register although it is registered already. -/
def clash? (s : State) (d : Directive) : Option String :=
  (d.registration?.map Prod.fst).filter fun event => (s.route? (.named event)).isSome

/-! ## Configuration that goes on after failures -/

/-- The state after one step of configuration; if the step fails, the state as it was. -/
def attempt (s : State) (d : Directive) : State :=
  match s.apply d with
  | .ok s' => s'
  | .error _ => s

/-- The state after steps of configuration, without those that fail. -/
def attemptAll (s : State) (steps : List Directive) : State :=
  steps.foldl attempt s

/-- The steps of a configuration that do not fail, in order. -/
def accepted (s : State) : List Directive → List Directive
  | [] => []
  | d :: rest =>
    match s.apply d with
    | .ok s' => d :: s'.accepted rest
    | .error _ => s.accepted rest

/-- Every event has at most one route, and outcomes with a route are those of services. -/
structure Tabled (s : State) : Prop where
  once : (s.routes.map Prod.fst).Nodup
  succeeded : ∀ k, .succeeded k ∈ s.routes.map Prod.fst → k < s.services.length
  failed : ∀ k, .failed k ∈ s.routes.map Prod.fst → k < s.services.length

/-- A state of an id has what the accepted ones of some steps gave it, and nothing else. -/
structure Tallies (id : String) (steps : List Directive) (s : State) : Prop where
  /-- A further step fails exactly if it registers a named event that is registered, whatever the
  targets; the error names the state and the event. -/
  fails : ∀ d e, s.apply d = .error e ↔ ∃ event target, d.registration? = some (event, target) ∧
    (s.route? (.named event)).isSome ∧ e = .duplicateTransition id event
  /-- The accepted steps alone lead to the same state, and none of them fails. -/
  accepted : (State.new id).configure ((State.new id).accepted steps) = .ok s
  /-- A named event has the target of the first step that registers it. -/
  named : ∀ event, s.route? (.named event) = (steps.filterMap Directive.registration?).lookup event
  /-- No further steps remove a route or change its target. -/
  kept : ∀ event target more, s.route? event = some target →
    (s.attemptAll more).route? event = some target
  /-- The mode is that of the last accepted step that gives one. -/
  mode : s.mode = (((State.new id).accepted steps).filterMap Directive.mode?).getLast?.getD .normal
  /-- A transient state has a route for the event by which it is left. -/
  passes : s.mode = .transient → (s.route? .transient).isSome
  /-- There is a route for every accepted registration and for every target of an outcome. -/
  routes : s.routes.length =
    (((State.new id).accepted steps).filterMap Directive.registration?).length +
      (((State.new id).accepted steps).flatMap Directive.outlets).length
  /-- No event has two routes. -/
  once : (s.routes.map Prod.fst).Nodup
  enterActions : s.enterActions.actions =
    ((State.new id).accepted steps).filterMap Directive.enterAction?
  exitActions : s.exitActions.actions =
    ((State.new id).accepted steps).filterMap Directive.exitAction?
  services : s.services = ((State.new id).accepted steps).filterMap Directive.service?
  activities : s.activities = ((State.new id).accepted steps).filterMap Directive.activity?
  cleanup : s.cleanup.actions = ((State.new id).accepted steps).filterMap Directive.cleanup?

/-! ## Routes -/

/-- A route answers for its own event. -/
theorem lookup_route (event other : EventId) (target : String) :
    List.lookup other [(event, target)] = if other = event then some target else none := by
  by_cases same : other = event
  · simp [same]
  · simp [List.lookup_cons, beq_false_of_ne same, same]

/-- An event without a route is none of those that have one. -/
theorem route?_eq_none {s : State} {event : EventId} :
    s.route? event = none ↔ event ∉ s.routes.map Prod.fst := by
  unfold route?
  rw [List.lookup_eq_none_iff, List.mem_map]
  constructor
  · rintro apart ⟨route, here, rfl⟩
    simp at apart
    exact apart _ _ here rfl
  · intro apart route here
    rw [bne_iff_ne]
    rintro rfl
    exact apart ⟨route, here, rfl⟩

/-- Routes for outcomes do not answer for named events. -/
theorem lookup_named_of_unnamed {routes : List (EventId × String)}
    (unnamed : ∀ route ∈ routes, route.1.name? = none) (event : String) :
    routes.lookup (.named event) = none := by
  refine List.lookup_eq_none_iff.2 fun route here => bne_iff_ne.2 fun same => ?_
  have none := unnamed route here
  rw [← same] at none
  cases none

/-- In a state with one route for each event, the routes are what is registered. -/
theorem Tabled.route? {s : State} (h : s.Tabled) {event : EventId} {target : String} :
    s.route? event = some target ↔ (event, target) ∈ s.routes := by
  unfold State.route?
  have once := h.once
  revert once
  induction s.routes with
  | nil => simp
  | cons route rest ih =>
    intro once
    obtain ⟨other, target'⟩ := route
    rw [List.map_cons, List.nodup_cons] at once
    rw [List.lookup_cons]
    by_cases same : event = other
    · subst same
      have apart : (event, target) ∉ rest := fun here =>
        once.1 (List.mem_map.2 ⟨_, here, rfl⟩)
      simp [apart, eq_comm]
    · simp [beq_false_of_ne same, same, ih once.2]

/-- The routes that a step adds answer after those that there are. -/
theorem route?_extend (s : State) (d : Directive) (event : EventId) :
    (s.extend d).route? event =
      (s.route? event).or ((d.routes s.services.length).lookup event) :=
  List.lookup_append

/-- Among the routes that a step adds, only the one that it registers is for a named event. -/
theorem lookup_routes (d : Directive) (position : Nat) (event : String) :
    (d.routes position).lookup (.named event) = d.registration?.toList.lookup event := by
  cases d with
  | transition other target =>
    simp only [Directive.routes, Directive.registration?, lookup_route, Option.toList_some]
    by_cases same : event = other
    · simp [same]
    · simp [same, List.lookup_cons, beq_false_of_ne same]
  | transient target =>
    simp only [Directive.routes, Directive.registration?, EventId.transient, lookup_route,
      Option.toList_some]
    by_cases same : event = ""
    · simp [same]
    · simp [same, List.lookup_cons, beq_false_of_ne same]
  | timeout ms target =>
    exact lookup_named_of_unnamed (by simp [Directive.routes, EventId.name?]) event
  | action work done failed | machine work done failed =>
    refine lookup_named_of_unnamed (fun route here => ?_) event
    simp only [Directive.routes, List.mem_append, List.mem_map] at here
    rcases here with ⟨target, -, rfl⟩ | ⟨target, -, rfl⟩ <;> rfl
  | final | onEnter | onExit | service | activity => rfl

/-! ## One step -/

theorem clash?_eq_some {s : State} {d : Directive} {event : String} :
    s.clash? d = some event ↔
      ∃ target, d.registration? = some (event, target) ∧ (s.route? (.named event)).isSome := by
  unfold clash?
  rw [Option.filter_eq_some_iff, Option.map_eq_some_iff]
  constructor
  · rintro ⟨⟨⟨event, target⟩, registers, rfl⟩, there⟩
    exact ⟨target, registers, there⟩
  · rintro ⟨target, registers, there⟩
    exact ⟨⟨_, registers, rfl⟩, there⟩

/-- What a registration does, by whether the event is registered. -/
theorem withTransition_eq (s : State) (event target : String) :
    s.withTransition event target =
      if (s.route? (.named event)).isSome then .error (.duplicateTransition s.id event)
      else .ok { s with routes := s.routes ++ [(.named event, target)] } := by
  unfold withTransition
  cases s.route? (.named event) <;> rfl

/-- A step either clashes with an event that is registered, or extends the state. -/
theorem apply_eq (s : State) (d : Directive) :
    s.apply d = match s.clash? d with
      | some event => .error (.duplicateTransition s.id event)
      | none => .ok (s.extend d) := by
  have free (h : d.registration? = none) : s.clash? d = none := by simp [clash?, h]
  cases d with
  -- Two steps register an event that the caller names, so they may clash.
  | transition event target =>
    simp only [apply, withTransition_eq, clash?, Directive.registration?, Option.map_some,
      Option.filter_some]
    split
    · rfl
    · simp [extend, Directive.mode?, Directive.routes, Directive.enterAction?,
        Directive.exitAction?, Directive.service?, Directive.activity?, Directive.cleanup?]
  | transient target =>
    have same : ({ s with mode := .transient } : State).route? (.named "") =
        s.route? (.named "") := rfl
    simp only [apply, asTransient, withTransition_eq, clash?, Directive.registration?,
      Option.map_some, Option.filter_some, same]
    split
    · rfl
    · simp [extend, Directive.mode?, Directive.routes, Directive.enterAction?,
        Directive.exitAction?, Directive.service?, Directive.activity?, Directive.cleanup?,
        EventId.transient]
  -- The others add to the state, each in its own place.
  | final | onEnter | onExit =>
    rw [free rfl]
    simp [apply, extend, ActionChain.push, Directive.mode?, Directive.routes,
      Directive.enterAction?, Directive.exitAction?, Directive.service?, Directive.activity?,
      Directive.cleanup?]
  | service work cleanup | activity work cleanup =>
    rw [free rfl]
    cases cleanup <;>
      simp [apply, extend, withCleanup, ActionChain.push, Directive.mode?, Directive.routes,
        Directive.enterAction?, Directive.exitAction?, Directive.service?, Directive.activity?,
        Directive.cleanup?]
  | action work done failed | machine work done failed =>
    rw [free rfl]
    cases done <;> cases failed <;>
      simp [apply, extend, invoke, routeOutcome, Directive.mode?, Directive.routes,
        Directive.enterAction?, Directive.exitAction?, Directive.service?, Directive.activity?,
        Directive.cleanup?]
  | timeout ms target =>
    rw [free rfl]
    simp [apply, extend, invoke, routeOutcome, Directive.mode?, Directive.routes,
      Directive.enterAction?, Directive.exitAction?, Directive.service?, Directive.activity?,
      Directive.cleanup?]

theorem attempt_eq (s : State) (d : Directive) :
    s.attempt d = if (s.clash? d).isSome then s else s.extend d := by
  unfold attempt
  rw [apply_eq]
  cases s.clash? d <;> rfl

/-- A step registers its event, unless that has a route already. -/
theorem route?_attempt_named (s : State) (d : Directive) (event : String) :
    (s.attempt d).route? (.named event) =
      (s.route? (.named event)).or (d.registration?.toList.lookup event) := by
  rw [attempt_eq]
  split
  · next clashes =>
    obtain ⟨other, clash⟩ := Option.isSome_iff_exists.1 clashes
    obtain ⟨target, registers, there⟩ := clash?_eq_some.1 clash
    rw [registers, Option.toList_some]
    by_cases same : event = other
    · subst same
      obtain ⟨first, found⟩ := Option.isSome_iff_exists.1 there
      rw [found, Option.some_or]
    · have apart : List.lookup event [(other, target)] = none := by
        simp [List.lookup_cons, beq_false_of_ne same]
      rw [apart, Option.or_none]
  · rw [route?_extend, lookup_routes]

/-- A step removes no route, and changes none. -/
theorem route?_attempt {s : State} {event : EventId} {target : String}
    (h : s.route? event = some target) (d : Directive) :
    (s.attempt d).route? event = some target := by
  rw [attempt_eq]
  split
  · exact h
  · rw [route?_extend, h, Option.some_or]

/-! ## All steps -/

/-- A named event has the target of the first step that registers it. -/
theorem route?_attemptAll_named (s : State) (steps : List Directive) (event : String) :
    (s.attemptAll steps).route? (.named event) =
      (s.route? (.named event)).or
        ((steps.filterMap Directive.registration?).lookup event) := by
  induction steps generalizing s with
  | nil => simp [attemptAll]
  | cons d rest ih =>
    have parts : (d :: rest).filterMap Directive.registration? =
        d.registration?.toList ++ rest.filterMap Directive.registration? := by
      cases here : d.registration? <;> simp [here]
    have onward := ih (s.attempt d)
    rw [route?_attempt_named, Option.or_assoc] at onward
    rw [parts, List.lookup_append]
    exact onward

/-- Steps remove no route, and change none. -/
theorem route?_attemptAll {s : State} {event : EventId} {target : String}
    (h : s.route? event = some target) (steps : List Directive) :
    (s.attemptAll steps).route? event = some target := by
  induction steps generalizing s with
  | nil => exact h
  | cons d rest ih => exact ih (route?_attempt h d)

theorem accepted_cons (s : State) (d : Directive) (rest : List Directive) :
    s.accepted (d :: rest) =
      if (s.clash? d).isSome then s.accepted rest else d :: (s.extend d).accepted rest := by
  rw [accepted, apply_eq]
  cases s.clash? d <;> rfl

/-- A configured state is extended by the accepted steps, in order. -/
theorem attemptAll_eq (s : State) (steps : List Directive) :
    s.attemptAll steps = (s.accepted steps).foldl extend s := by
  induction steps generalizing s with
  | nil => rfl
  | cons d rest ih =>
    have onward := ih (s.attempt d)
    rw [accepted_cons]
    rw [attempt_eq] at onward
    unfold attemptAll at onward ⊢
    rw [List.foldl_cons, attempt_eq]
    split at onward
    · next clashes => simpa [clashes] using onward
    · next free => simpa [free] using onward

/-- None of the accepted steps fails. -/
theorem configure_accepted (s : State) (steps : List Directive) :
    s.configure (s.accepted steps) = .ok (s.attemptAll steps) := by
  induction steps generalizing s with
  | nil => rfl
  | cons d rest ih =>
    have onward := ih (s.attempt d)
    have first : s.attemptAll (d :: rest) = (s.attempt d).attemptAll rest := rfl
    have applied := s.apply_eq d
    rw [accepted_cons, first]
    rw [attempt_eq] at onward ⊢
    cases clash : s.clash? d with
    | some event => simpa [clash] using onward
    | none =>
      simp only [clash, Option.isSome_none, Bool.false_eq_true, if_false] at onward applied ⊢
      unfold configure at onward ⊢
      rw [List.foldlM_cons, applied]
      exact onward

/-- What every step adds at the end of a list, steps add one after the other. -/
theorem foldl_extend_append {α : Type} {part : State → List α} {gain : Directive → List α}
    (adds : ∀ s d, part (s.extend d) = part s ++ gain d) (s : State) (steps : List Directive) :
    part (steps.foldl extend s) = part s ++ steps.flatMap gain := by
  induction steps generalizing s with
  | nil => simp
  | cons d rest ih => rw [List.foldl_cons, ih, adds, List.append_assoc, List.flatMap_cons]

/-- The last step that gives a mode decides it. -/
theorem mode_foldl_extend (s : State) (steps : List Directive) :
    (steps.foldl extend s).mode = (steps.filterMap Directive.mode?).getLast?.getD s.mode := by
  induction steps generalizing s with
  | nil => rfl
  | cons d rest ih =>
    rw [List.foldl_cons, ih]
    show _ = (List.filterMap Directive.mode? (d :: rest)).getLast?.getD s.mode
    cases here : d.mode? with
    | none => simp [extend, here]
    | some mode => simp [extend, here, List.getLast?_cons]

theorem length_routes (d : Directive) (position : Nat) :
    (d.routes position).length = d.registration?.toList.length + d.outlets.length := by
  cases d <;> simp [Directive.routes, Directive.registration?, Directive.outlets]

/-- There is a route for every registration and for every target of an outcome. -/
theorem length_routes_foldl_extend (s : State) (steps : List Directive) :
    (steps.foldl extend s).routes.length = s.routes.length +
      (steps.filterMap Directive.registration?).length +
        (steps.flatMap Directive.outlets).length := by
  induction steps generalizing s with
  | nil => rfl
  | cons d rest ih =>
    have added : (s.extend d).routes.length = s.routes.length +
        (d.registration?.toList.length + d.outlets.length) := by
      rw [← length_routes d s.services.length]
      exact List.length_append
    have parts : ((d :: rest).filterMap Directive.registration?).length =
        d.registration?.toList.length + (rest.filterMap Directive.registration?).length := by
      cases here : d.registration? <;> simp [here, Nat.add_comm]
    rw [List.foldl_cons, ih, added, parts, List.flatMap_cons, List.length_append]
    omega

/-! ### Invariants -/

/-- An invariant of the extensions that do not clash is one of configured states. -/
theorem attemptAll_induction {motive : State → Prop}
    (step : ∀ s d, motive s → s.clash? d = none → motive (s.extend d)) {s : State}
    (h : motive s) (steps : List Directive) : motive (s.attemptAll steps) := by
  induction steps generalizing s with
  | nil => exact h
  | cons d rest ih =>
    refine ih (s := s.attempt d) ?_
    rw [attempt_eq]
    split
    · exact h
    · next free => exact step s d h (by simpa using free)

/-- The events whose routes a step adds: the one that it registers, or the outcomes of the service
that it adds. -/
theorem mem_routes {d : Directive} {position : Nat} {event : EventId}
    (h : event ∈ (d.routes position).map Prod.fst) :
    (∃ name target, d.registration? = some (name, target) ∧ event = .named name) ∨
      d.service?.isSome ∧ (event = .succeeded position ∨ event = .failed position) := by
  cases d with
  | transition name target | transient target =>
    exact .inl ⟨_, target, rfl, by simpa [Directive.routes, EventId.transient] using h⟩
  | timeout ms target => exact .inr ⟨rfl, .inl (by simpa [Directive.routes] using h)⟩
  | action work done failed | machine work done failed =>
    refine .inr ⟨rfl, ?_⟩
    cases done <;> cases failed <;> simp [Directive.routes] at h <;> simp [h]
  | final | onEnter | onExit | service | activity => simp [Directive.routes] at h

theorem nodup_routes (d : Directive) (position : Nat) :
    ((d.routes position).map Prod.fst).Nodup := by
  cases d with
  | action work done failed | machine work done failed =>
    cases done <;> cases failed <;> simp [Directive.routes]
  | _ => simp [Directive.routes]

/-- A step that does not clash registers no event twice. -/
theorem Tabled.extend {s : State} (h : s.Tabled) {d : Directive} (free : s.clash? d = none) :
    (s.extend d).Tabled := by
  have keys : (s.extend d).routes.map Prod.fst =
      s.routes.map Prod.fst ++ (d.routes s.services.length).map Prod.fst := List.map_append
  have services : (s.extend d).services.length = s.services.length + d.service?.toList.length :=
    List.length_append
  -- A route for an outcome is one that there was, or that of the service that is added.
  have bound {event : EventId} {k : Nat} (outcome : event = .succeeded k ∨ event = .failed k)
      (old : event ∈ s.routes.map Prod.fst → k < s.services.length)
      (here : event ∈ (s.extend d).routes.map Prod.fst) : k < (s.extend d).services.length := by
    rw [keys, List.mem_append] at here
    rw [services]
    rcases here with here | new
    · exact Nat.lt_of_lt_of_le (old here) (Nat.le_add_right ..)
    · rcases mem_routes new with ⟨name, target, -, rfl⟩ | ⟨service, rfl | rfl⟩
      · simp at outcome
      · obtain ⟨service, adds⟩ := Option.isSome_iff_exists.1 service
        simp only [EventId.succeeded.injEq, reduceCtorEq, or_false] at outcome
        simp [adds, outcome]
      · obtain ⟨service, adds⟩ := Option.isSome_iff_exists.1 service
        simp only [EventId.failed.injEq, reduceCtorEq, false_or] at outcome
        simp [adds, outcome]
  refine ⟨?_, fun k => bound (.inl rfl) (h.succeeded k), fun k => bound (.inr rfl) (h.failed k)⟩
  rw [keys]
  refine List.Nodup.append h.once (nodup_routes ..) fun event old new => ?_
  rcases mem_routes new with ⟨name, target, registers, rfl⟩ | ⟨-, rfl | rfl⟩
  · have there : (s.route? (.named name)).isSome := by
      rw [Option.isSome_iff_ne_none]
      exact fun missing => route?_eq_none.1 missing old
    rw [clash?_eq_some.2 ⟨target, registers, there⟩] at free
    cases free
  · exact Nat.lt_irrefl _ (h.succeeded _ old)
  · exact Nat.lt_irrefl _ (h.failed _ old)

/-- Configured states have at most one route for an event. -/
theorem tabled_attemptAll (id : String) (steps : List Directive) :
    ((State.new id).attemptAll steps).Tabled :=
  attemptAll_induction (fun _ _ tabled free => tabled.extend free)
    ⟨List.nodup_nil, by simp [new], by simp [new]⟩ steps

/-- A state that a step makes transient has a route for the event by which it is left. -/
theorem passes_extend {s : State} {d : Directive}
    (h : s.mode = .transient → (s.route? .transient).isSome)
    (transient : (s.extend d).mode = .transient) : ((s.extend d).route? .transient).isSome := by
  rw [route?_extend, EventId.transient, lookup_routes, Option.isSome_or, Bool.or_eq_true]
  cases d with
  | transient target => exact .inr rfl
  | final => cases transient
  | _ => exact .inl (h transient)

/-! ## Configured states -/

/-- Every state that is configured step by step tallies with its steps. -/
theorem attemptAll_tallies (id : String) (steps : List Directive) :
    ((State.new id).attemptAll steps).Tallies id steps := by
  have extended := attemptAll_eq (.new id) steps
  have name : ((State.new id).attemptAll steps).id = id :=
    attemptAll_induction (motive := (·.id = id)) (fun _ _ same _ => same) rfl steps
  -- Each list of the state is that of the accepted steps.
  have gains {α : Type} (part : State → List α) (gain : Directive → Option α)
      (adds : ∀ s d, part (s.extend d) = part s ++ (gain d).toList)
      (empty : part (.new id) = []) : part ((State.new id).attemptAll steps) =
        ((State.new id).accepted steps).filterMap gain := by
    rw [extended, foldl_extend_append adds, empty, List.nil_append,
      List.filterMap_eq_flatMap_toList]
  -- The parts of the tally, one by one; most of them are about what the accepted steps have added.
  constructor
  case fails =>
    intro d e
    rw [apply_eq]
    constructor
    · intro failed
      split at failed
      · next event clash =>
        cases failed
        obtain ⟨target, registers, there⟩ := clash?_eq_some.1 clash
        exact ⟨event, target, registers, there, by rw [name]⟩
      · cases failed
    · rintro ⟨event, target, registers, there, rfl⟩
      rw [clash?_eq_some.2 ⟨target, registers, there⟩, name]
  case accepted => exact configure_accepted _ _
  case named => exact fun event => route?_attemptAll_named (.new id) steps event
  case kept => exact fun event target more here => route?_attemptAll here more
  case mode =>
    rw [extended, mode_foldl_extend]
    rfl
  case passes =>
    exact attemptAll_induction (motive := fun s => s.mode = .transient → _)
      (fun _ _ passes _ => passes_extend passes) (by simp [new]) steps
  case routes =>
    rw [extended, length_routes_foldl_extend]
    simp [new]
  case once => exact (tabled_attemptAll id steps).once
  case enterActions => exact gains (·.enterActions.actions) _ (fun _ _ => rfl) rfl
  case exitActions => exact gains (·.exitActions.actions) _ (fun _ _ => rfl) rfl
  case services => exact gains (·.services) _ (fun _ _ => rfl) rfl
  case activities => exact gains (·.activities) _ (fun _ _ => rfl) rfl
  case cleanup => exact gains (·.cleanup.actions) _ (fun _ _ => rfl) rfl

/-- A step that fails to make a final state transient leaves it final. -/
example : ((State.new "a").attemptAll [.transient "b", .final, .transient "c"]).mode = .final := rfl

end Statechart.State
