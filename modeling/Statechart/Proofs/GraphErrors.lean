import Statechart.Proofs.Stays

/-!
# Errors of the graph

What validation says of a machine is what can go wrong with its states when it runs: a run cannot
begin exactly if validation finds no states or no initial state, and whenever a run fails because a
target is missing, validation has found that the route dangles.

## Main definitions

- `RunError.IsOfGraph`: the errors that validation is about.

## Main statements

- `Machine.missingStates_mem_issues`, `Machine.initialStateNotFound_mem_issues`: which problems
  keep a run from beginning.
- `Leads.mem_stateList`: a run stays in states of its machine.
- `Scenario.issues_forecast`: validation foresees the errors of the graph.
-/

namespace Statechart

/-! ## Definitions -/

/-- Whether an error is that states are missing, or the initial one, or the target of a route. -/
def RunError.IsOfGraph : RunError → Prop
  | .missingStates _ | .initialStateNotFound _ _ | .danglingTransition _ _ _ => True
  | .alreadyRunning _ | .serviceFailed _ _ | .taskPanicked _ | .childMachineIncomplete _ _ => False

/-! ## Problems of machines -/

namespace Machine

variable {m : Machine} {s : State}

/-- The problems with the routes of a state are dangling routes. -/
theorem eq_dangling_of_mem {i : Issue} (h : i ∈ m.stateIssues s) :
    ∃ event target, i = .danglingTransition s.id event target := by
  obtain ⟨route, -, rfl⟩ := List.mem_map.1 h
  exact ⟨_, _, rfl⟩

/-- States are missing exactly if that keeps a run from beginning. -/
theorem missingStates_mem_issues (id : String) :
    .missingStates id ∈ m.issues ↔ m.startState = .error (.missingStates id) := by
  unfold issues startState
  cases states : m.states with
  | none => simp [eq_comm]
  | some all =>
    have valid : .missingStates id ∉ m.initialIssues ++ all.flatMap m.stateIssues := by
      rw [List.mem_append, List.mem_flatMap]
      rintro (initial | ⟨s, -, here⟩)
      · unfold initialIssues at initial
        split at initial <;> simp at initial
      · obtain ⟨event, target, other⟩ := eq_dangling_of_mem here
        cases other
    refine iff_of_false valid ?_
    cases found : m.find? m.initialStateId <;> simp

/-- The initial state is missing exactly if that keeps a run from beginning. -/
theorem initialStateNotFound_mem_issues (id state : String) :
    .initialStateNotFound id state ∈ m.issues ↔
      m.startState = .error (.initialStateNotFound id state) := by
  unfold issues startState
  cases states : m.states with
  | none => simp
  | some all =>
    have routes : .initialStateNotFound id state ∉ all.flatMap m.stateIssues := by
      rw [List.mem_flatMap]
      rintro ⟨s, -, here⟩
      obtain ⟨event, target, other⟩ := eq_dangling_of_mem here
      cases other
    simp only [List.mem_append, routes, or_false]
    unfold initialIssues
    cases found : m.find? m.initialStateId with
    | none => simp [eq_comm]
    | some s => simp

/-- A machine that keeps a run from beginning has a problem. -/
theorem issues_ne_nil_of_startState {e : RunError} (h : m.startState = .error e) :
    m.issues ≠ [] := by
  unfold startState at h
  split at h
  · next none => simp [issues, none]
  · next all =>
    split at h
    · next missing => simp [issues, all, initialIssues, missing]
    · cases h

/-- A route to a state that is missing is a problem. -/
theorem dangling_mem_issues {event : EventId} {target : String} (hs : s ∈ m.stateList)
    (route : s.targetOf event = some target) (missing : m.find? target = none) :
    .danglingTransition s.id event target ∈ m.issues := by
  unfold State.targetOf State.route? at route
  obtain ⟨found, nonempty⟩ := Option.filter_eq_some_iff.1 route
  -- The route that counts for the event is one of those that validation goes through.
  obtain ⟨before, after, routes, -⟩ := List.lookup_eq_some_iff.1 found
  have listed : (event, target) ∈ s.listedRoutes := by
    unfold State.listedRoutes
    rw [List.mem_mergeSort, routes]
    simp
  have dangles : (event, target) ∈ m.danglingRoutes s :=
    List.mem_filter.2 ⟨listed, by simpa [missing] using nonempty⟩
  unfold issues
  cases states : m.states with
  | none => simp [stateList, states] at hs
  | some all =>
    simp only [stateList, states, Option.getD_some] at hs
    refine List.mem_append_right _ (List.mem_flatMap.2 ⟨s, hs, ?_⟩)
    exact List.mem_map.2 ⟨_, dangles, rfl⟩

theorem mem_stateList_of_find? {id : String} (h : m.find? id = some s) : s ∈ m.stateList :=
  List.mem_of_find?_eq_some h

theorem find?_of_startState (h : m.startState = .ok s) : m.find? m.initialStateId = some s := by
  unfold startState at h
  split at h
  · cases h
  · split at h
    · cases h
    · next found =>
      cases h
      exact found

/-- A run goes on to the target of the event that it has accepted. -/
theorem route_of_move {e : Ending} {next : State} {d : Decision}
    (h : m.aftermath s e = .move next d) : e = .decided d ∧ s.mode ≠ .final ∧
      ∃ target, s.targetOf d.event = some target ∧ m.find? target = some next := by
  have outlook := m.outlook s e
  rw [h] at outlook
  cases outlook with
  | move going route found => exact ⟨rfl, going, _, route, found⟩

/-- A run fails for want of a target only if the target of its event is missing; other errors of
the graph do not end a run. -/
theorem route_of_back {e : Ending} {error : RunError} (h : m.aftermath s e = .back (.error error))
    (graph : error.IsOfGraph) : ∃ (d : Decision) (target : String),
      error = .danglingTransition s.id d.event target ∧ s.targetOf d.event = some target ∧
        m.find? target = none := by
  have outlook := m.outlook s e
  rw [h] at outlook
  cases outlook with
  | dangle going route missing => exact ⟨_, _, rfl, route, missing⟩
  | fail | panic => exact graph.elim

end Machine

/-! ## Runs -/

/-- A run stays in states of its machine. -/
theorem Leads.mem_stateList {w : World} {m : Machine} {past : List Stay} {s : State}
    {p : Option String} {c : Option Decision} (h : Leads w m past s p c) : s ∈ m.stateList := by
  cases h with
  | start first => exact Machine.mem_stateList_of_find? (Machine.find?_of_startState first)
  | next here after =>
    obtain ⟨-, -, target, -, found⟩ := Machine.route_of_move after
    exact Machine.mem_stateList_of_find? found

/-- An error of the graph that ends a run is a dangling route of its machine. -/
theorem Comes.mem_issues {w : World} {m : Machine} {stays : List Stay} {error : RunError}
    (h : Comes w m stays (.error error)) (graph : error.IsOfGraph) :
    ∃ source event target, error = .danglingTransition source event target ∧
      .danglingTransition source event target ∈ m.issues := by
  cases h with
  | back here after =>
    obtain ⟨d, target, rfl, route, missing⟩ := Machine.route_of_back after graph
    exact ⟨_, _, _, rfl, Machine.dangling_mem_issues here.mem_stateList route missing⟩

/-- A run that has returned came to its result. -/
theorem Scenario.Reaches.comes {s : Scenario} {w : World} (h : s.Reaches w) {r : RunId}
    {result : RunResult} (returned : .returned r result ∈ w.marks) :
    ∃ stays, Comes w (w.machineOf r) stays result := by
  obtain ⟨stays, comes, -⟩ := (h.finished returned).course.stays
  exact ⟨stays, comes⟩

theorem World.begin_eq_error {w : World} {i : InterpreterId} {t : TaskId} {e : RunError} :
    w.begin i t = .error e ↔ (w.interpreter i).startState = .error e := by
  unfold begin
  cases (w.interpreter i).startState <;> simp [Except.map]

/-- Validation foresees the errors of the graph. A run of an interpreter that is free cannot begin
for want of states, or of the initial one, exactly if validation says so, and in the same words;
if a run returns because a target is missing, validation has said that the route dangles. So a
machine that is valid never has any of these errors. -/
theorem Scenario.issues_forecast {s : Scenario} {w : World} (h : s.Reaches w) :
    (∀ i t, (w.interpreter i).slot = none →
      (∀ id, .missingStates id ∈ (w.interpreter i).machine.issues ↔
        w.begin i t = .error (.missingStates id)) ∧
      ∀ id state, .initialStateNotFound id state ∈ (w.interpreter i).machine.issues ↔
        w.begin i t = .error (.initialStateNotFound id state)) ∧
    (∀ r source event target,
      .returned r (.error (.danglingTransition source event target)) ∈ w.marks →
      .danglingTransition source event target ∈ (w.machineOf r).issues) ∧
    (∀ i t e, (w.interpreter i).machine.issues = [] → w.begin i t = .error e → ¬ e.IsOfGraph) ∧
    ∀ r e, (w.machineOf r).issues = [] → .returned r (.error e) ∈ w.marks → ¬ e.IsOfGraph := by
  refine ⟨fun i t free => ?_, fun r source event target returned => ?_,
    fun i t e valid failed => ?_, fun r e valid returned graph => ?_⟩
  · simp only [World.begin_eq_error, Interpreter.startState, free, Option.isSome_none,
      Bool.false_eq_true, if_false]
    exact ⟨Machine.missingStates_mem_issues, Machine.initialStateNotFound_mem_issues⟩
  -- The last stay of the run has ended in a state that leads nowhere, and validation looks at all
  -- states.
  · obtain ⟨stays, comes⟩ := h.comes returned
    obtain ⟨_, _, _, same, issue⟩ := comes.mem_issues trivial
    cases same
    exact issue
  · rw [World.begin_eq_error] at failed
    unfold Interpreter.startState at failed
    split at failed
    · cases failed
      exact id
    · exact absurd valid (Machine.issues_ne_nil_of_startState failed)
  · obtain ⟨stays, comes⟩ := h.comes returned
    obtain ⟨_, _, _, -, issue⟩ := comes.mem_issues graph
    rw [valid] at issue
    cases issue

/-- A run is to go on to a state that is missing. -/
def Scenario.astray : Scenario where
  machine := ⟨"m", "M", "a", some [
    { State.new "a" with mode := .transient, routes := [(.transient, "nowhere")] }]⟩
  interpreters := 1
  limit := none
  observers := []
  steps := [.run 0 100]

theorem Scenario.astray_foreseen :
    .danglingTransition "a" .transient "nowhere" ∈ ((astray.play 9).machineOf 0).issues := by
  have forecast := issues_forecast (astray.reaches_play 9)
  exact forecast.2.1 0 "a" .transient "nowhere" (by decide +kernel)

end Statechart
