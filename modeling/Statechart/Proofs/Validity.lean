import Mathlib.Data.List.Forall2
import Statechart.Machine.Validation
import Statechart.Proofs.Configuration

/-!
# What validation lists

Validation goes through the states of a machine in their order, and in each through its routes by
event. It lists every route that leads to no state, once, and nothing else but a missing initial
state or missing states.

## Main definitions

- `State.IsConfigured`: a state that steps of configuration lead to.
- `Machine.Dangles`: the routes of a state that validation is to list, in order.
- `Machine.IsSound`: nothing that validation looks for is wrong.

## Main statements

- `Machine.dangles_danglingRoutes`: validation finds the routes that it is to list.
- `Machine.issues_listed`: the problems of a machine are listed in order, each once.
-/

namespace Statechart

/-! ## Definitions -/

/-- A state that steps of configuration lead to. -/
def State.IsConfigured (s : State) : Prop :=
  ∃ id steps, (State.new id).attemptAll steps = s

namespace Machine

/-- The routes of a state that validation is to list: those that lead to no state of the machine,
each of them once, by the names of their events. -/
structure Dangles (m : Machine) (s : State) (routes : List (EventId × String)) : Prop where
  once : routes.Nodup
  exact : ∀ event target, (event, target) ∈ routes ↔
    s.route? event = some target ∧ target ≠ "" ∧ ∀ u ∈ m.stateList, u.id ≠ target
  ordered : routes.Pairwise fun a b => ∀ x y, a.1 = .named x → b.1 = .named y → x < y

/-- A machine has states, among them the initial one and every state that a route leads to. -/
structure IsSound (m : Machine) : Prop where
  bound : m.states ≠ none
  initial : ∃ s ∈ m.stateList, s.id = m.initialStateId
  routed : ∀ s ∈ m.stateList, ∀ event target, s.route? event = some target → target ≠ "" →
    ∃ u ∈ m.stateList, u.id = target

variable {m : Machine} {s : State}

/-- No state of an id is found if there is none. -/
theorem find?_eq_none {id : String} : m.find? id = none ↔ ∀ u ∈ m.stateList, u.id ≠ id := by
  simp [find?]

/-! ## The order of routes -/

/-- Routes as they are listed: by the names of their events, those without a name at the end. -/
theorem pairwise_listedRoutes (s : State) :
    s.listedRoutes.Pairwise fun a b => ∀ x y, a.1 = .named x → b.1 = .named y → ¬ y < x := by
  suffices sorted : s.listedRoutes.Pairwise fun a b : EventId × String =>
      (a.1.before b.1 || (!b.1.before a.1 && (a.2 < b.2 || a.2 = b.2))) = true by
    refine sorted.imp fun {a b} before x y hx hy => ?_
    rw [hx, hy] at before
    simp only [EventId.before, Bool.or_eq_true, decide_eq_true_eq, Bool.and_eq_true,
      Bool.not_eq_true', decide_eq_false_iff_not] at before
    rcases before with before | ⟨other, -⟩
    · exact String.lt_asymm before
    · exact other
  refine List.pairwise_mergeSort (fun a b c => ?_) (fun a b => ?_) s.routes
  · obtain ⟨e, x⟩ := a
    obtain ⟨f, y⟩ := b
    obtain ⟨g, z⟩ := c
    cases e <;> cases f <;> cases g <;> grind [EventId.before]
  · obtain ⟨e, x⟩ := a
    obtain ⟨f, y⟩ := b
    cases e <;> cases f <;> grind [EventId.before]

/-! ## The routes that dangle -/

/-- Validation finds the routes of a state that it is to list. -/
theorem dangles_danglingRoutes (tabled : s.Tabled) : m.Dangles s (m.danglingRoutes s) := by
  have same : s.listedRoutes.Perm s.routes := List.mergeSort_perm ..
  have keys : (s.listedRoutes.map Prod.fst).Nodup := (same.map Prod.fst).nodup_iff.2 tabled.once
  refine ⟨keys.of_map.filter _, fun event target => ?_, List.Pairwise.filter _ ?_⟩
  · unfold danglingRoutes
    rw [List.mem_filter, same.mem_iff, tabled.route?]
    simp only [decide_eq_true_eq, Option.isNone_iff_eq_none, find?_eq_none]
  · -- Two events of one name would be one event.
    have apart : s.listedRoutes.Pairwise fun a b => a.1 ≠ b.1 := List.pairwise_map.1 keys
    refine apart.imp₂ ?_ (pairwise_listedRoutes s)
    intro a b apart before x y hx hy
    have other : x ≠ y := by
      rintro rfl
      exact apart (hx.trans hy.symm)
    have before := before x y hx hy
    grind

/-- A state has no route that dangles exactly if every target is that of a state. -/
theorem danglingRoutes_eq_nil (tabled : s.Tabled) : m.danglingRoutes s = [] ↔
    ∀ event target, s.route? event = some target → target ≠ "" → ∃ u ∈ m.stateList, u.id = target := by
  have exact := (m.dangles_danglingRoutes tabled).exact
  rw [List.eq_nil_iff_forall_not_mem]
  constructor
  · intro none event target route given
    by_contra missing
    exact none (event, target) ((exact event target).2
      ⟨route, given, fun u hu same => missing ⟨u, hu, same⟩⟩)
  · intro routed ⟨event, target⟩ here
    obtain ⟨route, given, missing⟩ := (exact event target).1 here
    obtain ⟨u, hu, same⟩ := routed event target route given
    exact missing u hu same

/-! ## The problems of a machine -/

/-- The initial state is missing exactly if no state has its id. -/
theorem initialIssues_eq (m : Machine) :
    m.initialIssues = if ∃ s ∈ m.stateList, s.id = m.initialStateId then []
      else [.initialStateNotFound m.id m.initialStateId] := by
  unfold initialIssues
  cases found : m.find? m.initialStateId with
  | none =>
    rw [if_neg]
    rintro ⟨s, hs, same⟩
    exact find?_eq_none.1 found s hs same
  | some s =>
    unfold find? at found
    rw [if_pos ⟨s, List.mem_of_find?_eq_some found, by simpa using List.find?_some found⟩]

theorem tabled_of_configured {s : State} (h : s.IsConfigured) : s.Tabled := by
  obtain ⟨id, steps, rfl⟩ := h
  exact State.tabled_attemptAll id steps

/-- Validation lists nothing exactly if nothing is wrong. -/
theorem issues_eq_nil (configured : ∀ s ∈ m.stateList, s.IsConfigured) :
    m.issues = [] ↔ m.IsSound := by
  unfold issues
  cases bound : m.states with
  | none => exact iff_of_false (by simp) fun sound => sound.bound bound
  | some states =>
    have list : m.stateList = states := by simp [stateList, bound]
    have routed (s : State) (hs : s ∈ m.stateList) :=
      danglingRoutes_eq_nil (m := m) (tabled_of_configured (configured s hs))
    simp only [List.append_eq_nil_iff, List.flatMap_eq_nil_iff, stateIssues, List.map_eq_nil_iff,
      initialIssues_eq, ite_eq_left_iff, reduceCtorEq, imp_false, not_not]
    rw [← list]
    constructor
    · rintro ⟨initial, dangling⟩
      exact ⟨by simp [bound], initial, fun s hs => (routed s hs).1 (dangling s hs)⟩
    · intro sound
      exact ⟨sound.initial, fun s hs => (routed s hs).2 (sound.routed s hs)⟩

/-- Validation lists that states are missing, and nothing else, if none are bound. Otherwise it
lists a missing initial state first, and then state by state, also where ids are repeated, every
route of the state that dangles. The list is empty exactly if nothing is wrong. -/
theorem issues_listed (configured : ∀ s ∈ m.stateList, s.IsConfigured) :
    (m.states = none → m.issues = [.missingStates m.id]) ∧
    (∀ states, m.states = some states → ∃ dangling, List.Forall₂ m.Dangles states dangling ∧
      m.issues = (if ∃ s ∈ states, s.id = m.initialStateId then []
          else [.initialStateNotFound m.id m.initialStateId]) ++
        (List.zipWith (fun s routes => routes.map fun (r : EventId × String) =>
          Issue.danglingTransition s.id r.1 r.2) states dangling).flatten) ∧
    (m.issues = [] ↔ m.IsSound) := by
  refine ⟨fun unbound => by simp [issues, unbound], fun states bound => ?_,
    issues_eq_nil configured⟩
  have list : m.stateList = states := by simp [stateList, bound]
  refine ⟨states.map m.danglingRoutes, ?_, ?_⟩
  · rw [List.forall₂_map_right_iff, List.forall₂_same]
    exact fun s hs => dangles_danglingRoutes (tabled_of_configured (configured s (list ▸ hs)))
  · unfold issues
    rw [bound, ← list]
    simp only [initialIssues_eq, List.zipWith_map_right, List.zipWith_self, List.flatMap_def]
    rfl

/-- A machine without its initial state, two states of one id, and routes on named events and on
outcomes that lead astray, among others that do not. -/
def maze : Machine where
  id := "m"
  name := "M"
  initialStateId := "start"
  states := some [
    (State.new "a").attemptAll
      [.timeout 5 "nowhere", .transition "y" "ghost", .transition "x" "ghost", .transition "y" "a",
        .transition "w" "", .action {} (some "a") (some "")],
    (State.new "a").attemptAll [.transient "b", .transition "" "ghost"],
    (State.new "").attemptAll [.transition "x" "a"]]

theorem maze_configured : ∀ s ∈ maze.stateList, s.IsConfigured := by
  simp only [maze, stateList, Option.getD_some, List.forall_mem_cons]
  exact ⟨⟨_, _, rfl⟩, ⟨_, _, rfl⟩, ⟨_, _, rfl⟩, by simp⟩

/-- Every problem of the maze is listed, so it is not sound. -/
theorem maze_listed : (∀ s ∈ maze.stateList, s.IsConfigured) ∧
    (∃ dangling, List.Forall₂ maze.Dangles maze.stateList dangling ∧
      maze.issues = .initialStateNotFound "m" "start" ::
        (List.zipWith (fun s routes => routes.map fun (r : EventId × String) =>
          Issue.danglingTransition s.id r.1 r.2) maze.stateList dangling).flatten) ∧
    ¬ maze.IsSound := by
  obtain ⟨-, listed, valid⟩ := issues_listed maze_configured
  obtain ⟨dangling, dangles, issues⟩ := listed maze.stateList rfl
  refine ⟨maze_configured, ⟨dangling, dangles, issues⟩, fun sound => ?_⟩
  rw [valid.2 sound] at issues
  cases issues

end Machine

end Statechart
