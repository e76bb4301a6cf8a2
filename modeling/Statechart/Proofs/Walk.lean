import Mathlib.Data.List.Chain
import Statechart.Proofs.GraphErrors

/-!
# The walk of a run

The hops of a run are a walk through the graph of its machine, whatever becomes of the run. Each of
them is due from the end of a stay, and the observers are told of the state it leads to before
another one is due.

## Architecture

- `Machine.Walk` is the specification: what one hop more requires of the graph.
- `Trail` keeps of the course of a run only what it shows of its hops: what observers are told, how
  stays end, and the hops themselves.
- `Course.trail` reads every course as a trail. The facts about hops are inductions on trails.

## Main definitions

- `Machine.Allows`: a machine has a transition.
- `Machine.Walk`: hops that a machine allows, one after the other from its initial state on.
- `World.hops`, `World.told`, `World.dueHops`: the hops of a run, the states that observers are told
  of, and the hops that the ends of its stays call for.
- `World.IsCutShort`: the last hop of a run leads to a state that nobody is told of.
- `Trail`: the course of a run as far as its hops show it.

## Main statements

- `Machine.Walk.allowed`, `Machine.Walk.chain`, `Machine.Walk.path`: what a walk is.
- `Trail.walk`, `Trail.due`, `Trail.told`: the hops of a run are a walk, they are due, and the
  observers are told of where they lead.
- `Course.trail`: every course is a trail.
-/

namespace Statechart

/-! ## Walks through the graph of a machine -/

namespace Machine

variable {m : Machine} {hops : List Hop} {s : State}

/-- A machine has a transition: the first state of the source id is not final and leads to the
target on the event, and there is a state of the target id. -/
structure Allows (m : Machine) (hop : Hop) : Prop where
  source : ∃ s, m.find? hop.source = some s ∧ s.mode ≠ .final ∧
    s.route? hop.event = some hop.target
  named : hop.target ≠ ""
  target : (m.find? hop.target).isSome = true

/-- Hops from the initial state on, and the state that they lead to. -/
inductive Walk (m : Machine) : List Hop → State → Prop where
  | start {s : State} (first : m.startState = .ok s) : Walk m [] s
  | hop {hops : List Hop} {s next : State} {event : EventId} {target : String}
      (here : Walk m hops s) (going : s.mode ≠ .final)
      (route : s.targetOf event = some target) (found : m.find? target = some next) :
      Walk m (hops ++ [⟨s.id, event, next.id⟩]) next

/-- The ids of the states that hops from the initial state on pass through. -/
def stops (m : Machine) (hops : List Hop) : List String :=
  m.initialStateId :: hops.map Hop.target

theorem id_of_find? {id : String} (h : m.find? id = some s) : s.id = id := by
  simpa using List.find?_some h

namespace Walk

/-- A walk leads to the first state of an id. -/
theorem found (h : m.Walk hops s) : m.find? s.id = some s := by
  cases h with
  | start first =>
    have found := find?_of_startState first
    rwa [id_of_find? found]
  | hop here going route found => rwa [id_of_find? found]

/-- Where a walk begins and where it leads to. -/
theorem ends (h : m.Walk hops s) : (∀ a ∈ hops.head?, a.source = m.initialStateId) ∧
    (m.stops hops).getLast? = some s.id := by
  induction h with
  | start first =>
    rw [id_of_find? (find?_of_startState first)]
    exact ⟨by simp, rfl⟩
  | @hop hops s next event target here going route found ih =>
    constructor
    · cases hops with
      | nil =>
        -- The first hop leaves the state that the empty walk leads to, which is the initial one.
        have last : m.initialStateId = s.id := by simpa [stops] using ih.2
        simp [last]
      | cons a hops => exact ih.1
    · rw [stops, List.map_append, ← List.cons_append, List.getLast?_append]
      rfl

/-- The machine allows each hop of a walk. -/
theorem allowed (h : m.Walk hops s) : ∀ hop ∈ hops, m.Allows hop := by
  induction h with
  | start => simp
  | @hop hops s next event target here going route found ih =>
    intro hop member
    rcases List.mem_append.1 member with old | new
    · exact ih hop old
    · cases List.mem_singleton.1 new
      obtain ⟨route, named⟩ := Option.filter_eq_some_iff.1 route
      have same := id_of_find? found
      constructor
      case source => exact ⟨s, here.found, going, same ▸ route⟩
      case named =>
        show next.id ≠ ""
        rw [same]
        simpa using named
      case target =>
        show (m.find? next.id).isSome = true
        rw [same, found]
        rfl

/-- Each hop of a walk begins where the one before has led. -/
theorem chain (h : m.Walk hops s) : hops.IsChain fun a b => a.target = b.source := by
  induction h with
  | start => exact .nil
  | @hop hops s next event target here going route found ih =>
    apply ih.append (.singleton _)
    -- Only where the new hop meets the last one is there anything to show.
    intro a ha b hb
    cases hb
    have last := here.ends.2
    rw [stops, List.getLast?_cons, List.getLast?_map, Option.mem_def.1 ha] at last
    exact Option.some.inj last

/-- A walk passes through the initial state and every target. -/
theorem path (h : m.Walk hops s) (some : hops ≠ []) :
    pathOf Hop.source Hop.target hops = m.stops hops := by
  cases hops with
  | nil => exact absurd rfl some
  | cons a hops =>
    have first := h.ends.1 a rfl
    rw [pathOf, first]
    rfl

end Walk

end Machine

/-! ## What the marks tell of hops -/

namespace Mark

/-- The hop of a run that a mark tells of. -/
@[simp]
def hop? (r : RunId) : Mark → Option Hop
  | .moved q hop => if q = r then some hop else none
  | _ => none

/-- The state that the observers of a run are told of. -/
@[simp]
def told? (r : RunId) : Mark → Option String
  | .notified q c => if q = r then some c.state else none
  | _ => none

/-- Marks of the hops of a run and of what its observers are told. -/
def paces (r : RunId) : Mark → Bool
  | .moved q _ | .notified q _ => q = r
  | _ => false

/-- Marks of what observers are told, of the ends of stays and of hops. -/
def isPace : Mark → Bool
  | .notified _ _ | .concluded _ _ | .moved _ _ => true
  | _ => false

end Mark

/-- The hop that the end of a stay in a state calls for. -/
def Machine.dueHop? (m : Machine) (s : State) (e : Ending) : Option Hop :=
  match m.aftermath s e with
  | .move next d => some ⟨s.id, d.event, next.id⟩
  | .announce | .back _ => none

section

variable {m : Machine} {s next : State} {e : Ending} {d : Decision}

theorem Machine.dueHop?_of_move (h : m.aftermath s e = .move next d) :
    m.dueHop? s e = some ⟨s.id, d.event, next.id⟩ := by
  rw [dueHop?, h]

theorem Machine.dueHop?_eq_none (h : ∀ next d, m.aftermath s e ≠ .move next d) :
    m.dueHop? s e = none := by
  unfold dueHop?
  split
  · next after => exact absurd after (h _ _)
  · rfl
  · rfl

end

namespace World

variable (w : World) (r : RunId)

/-- The hop of a run that a mark of the end of a stay calls for. -/
@[simp]
def dueHop? : Mark → Option Hop
  | .concluded v e => (w.machineOf r).dueHop? (w.visit v).state e
  | _ => none

/-- The hops of a run, in order. -/
def hops : List Hop :=
  w.marks.filterMap (Mark.hop? r)

/-- The ids of the states that the observers of a run are told of, in order. -/
def told : List String :=
  w.marks.filterMap (Mark.told? r)

/-- The hops that the ends of the stays of a run call for, in order. -/
def dueHops : List Hop :=
  (w.way r).filterMap (w.dueHop? r)

/-- The last that is heard of a run, of its hops and of what its observers are told, is a hop. -/
def IsCutShort : Prop :=
  ∃ hop, (w.marks.filter (Mark.paces r)).getLast? = some (.moved r hop)

end World

/-! ## Trails -/

/-- Where a run is on its walk. -/
inductive Whereabouts where
  /-- On the way to a state that nobody was told of. -/
  | bound (state : State)
  | within (state : State)
  /-- At the end of a stay, with the hop that it calls for. -/
  | after (state : State) (due : Option Hop)

namespace Whereabouts

/-- The state that a run is in, or on the way to. -/
@[simp]
def state : Whereabouts → State
  | bound s | within s | after s _ => s

/-- The hop that the run has yet to make. -/
@[simp]
def due : Whereabouts → List Hop
  | after _ due => due.toList
  | _ => []

/-- The ids of the states that the observers have yet to be told of. -/
@[simp]
def untold : Whereabouts → List String
  | bound s => [s.id]
  | _ => []

end Whereabouts

/-- The course of a run as far as its hops show it. -/
inductive Trail (w : World) (r : RunId) : Whereabouts → List Mark → Prop where
  | start {s : State} (first : (w.machineOf r).startState = .ok s) :
      Trail w r (.bound s) [.began r]
  | pause {a : Whereabouts} {ms news : List Mark} (here : Trail w r a ms)
      (quiet : ∀ m ∈ news, m.isPace = false) : Trail w r a (ms ++ news)
  | tell {s : State} {p : Option String} {c : Option Decision} {ms : List Mark}
      (here : Trail w r (.bound s) ms) : Trail w r (.within s) (ms ++ [.notified r ⟨s.id, p, c⟩])
  /-- A stay in a transient state ends in one way only. -/
  | conclude {v : VisitId} {e : Ending} {ms : List Mark}
      (here : Trail w r (.within (w.visit v).state) ms)
      (hasty : (w.visit v).state.mode = .transient → e = .decided ⟨.transient, none⟩) :
      Trail w r (.after (w.visit v).state ((w.machineOf r).dueHop? (w.visit v).state e))
        (ms ++ [.concluded v e])
  | go {s next : State} {d : Decision} {e : Ending} {ms : List Mark}
      (here : Trail w r (.after s (some ⟨s.id, d.event, next.id⟩)) ms)
      (onward : (w.machineOf r).aftermath s e = .move next d) :
      Trail w r (.bound next) (ms ++ [.moved r ⟨s.id, d.event, next.id⟩])

namespace Trail

variable {w : World} {r : RunId} {a : Whereabouts} {ms : List Mark}

/-- Nothing is picked out of marks that tell nothing of hops. -/
theorem pick_quiet {α : Type} {news : List Mark} (f : Mark → Option α)
    (only : ∀ m : Mark, m.isPace = false → f m = none)
    (quiet : ∀ m ∈ news, m.isPace = false) : news.filterMap f = [] :=
  List.filterMap_eq_nil_iff.2 fun m hm => only m (quiet m hm)

theorem hop?_quiet (m : Mark) (quiet : m.isPace = false) : m.hop? r = none := by
  cases m <;> first | rfl | cases quiet

theorem told?_quiet (m : Mark) (quiet : m.isPace = false) : m.told? r = none := by
  cases m <;> first | rfl | cases quiet

theorem dueHop?_quiet (m : Mark) (quiet : m.isPace = false) : w.dueHop? r m = none := by
  cases m <;> first | rfl | cases quiet

theorem paces_quiet (m : Mark) (quiet : m.isPace = false) : m.paces r = false := by
  cases m <;> first | rfl | cases quiet

/-- The hops of a trail are a walk. -/
theorem walk (h : Trail w r a ms) :
    (w.machineOf r).Walk (ms.filterMap (Mark.hop? r)) a.state := by
  induction h with
  | start first => exact .start first
  | pause here quiet ih =>
    rwa [List.filterMap_append, pick_quiet _ hop?_quiet quiet, List.append_nil]
  | tell here ih => simpa [List.filterMap_cons] using ih
  | conclude here hasty ih => simpa [List.filterMap_cons] using ih
  | go here onward ih =>
    -- Only a state with a route for its decision is left, and only for a state that is there.
    obtain ⟨-, going, target, route, found⟩ := Machine.route_of_move onward
    have further := Machine.Walk.hop ih going route found
    simpa [List.filterMap_cons] using further

/-- The hops of a trail are those that the ends of stays call for, but for one that has yet to be
made. -/
theorem due (h : Trail w r a ms) : ms.filterMap (w.dueHop? r) =
    ms.filterMap (Mark.hop? r) ++ a.due := by
  induction h with
  | start => rfl
  | pause here quiet ih =>
    simp only [List.filterMap_append, pick_quiet _ hop?_quiet quiet,
      pick_quiet _ dueHop?_quiet quiet, List.append_nil, ih]
  | tell here ih => simpa [List.filterMap_cons] using ih
  | @conclude v e ms here hasty ih =>
    -- Within a stay every hop that was called for is made.
    have paid : ms.filterMap (w.dueHop? r) = ms.filterMap (Mark.hop? r) := by simpa using ih
    cases due : (w.machineOf r).dueHop? (w.visit v).state e <;>
      simp [List.filterMap_cons, paid, due]
  | go here onward ih => simpa [List.filterMap_cons] using ih

/-- The observers are told of every state that a trail passes through, but for the one that it is
on the way to. -/
theorem told (h : Trail w r a ms) : ms.filterMap (Mark.told? r) ++ a.untold =
    (w.machineOf r).stops (ms.filterMap (Mark.hop? r)) := by
  induction h with
  | start first =>
    have same := Machine.id_of_find? (Machine.find?_of_startState first)
    simp [List.filterMap_cons, Machine.stops, same]
  | pause here quiet ih =>
    simp only [List.filterMap_append, pick_quiet _ hop?_quiet quiet, pick_quiet _ told?_quiet quiet,
      List.append_nil, ih]
  | tell here ih => simpa [List.filterMap_cons] using ih
  | conclude here hasty ih => simpa [List.filterMap_cons] using ih
  | @go s next d e ms here onward ih =>
    have all : ms.filterMap (Mark.told? r) =
        (w.machineOf r).stops (ms.filterMap (Mark.hop? r)) := by simpa using ih
    simp [List.filterMap_cons, Machine.stops, all]

/-- A trail is on the way from one state to another exactly if the last that is heard is a hop. -/
theorem cutShort (h : Trail w r a ms) :
    (∃ hop, (ms.filter (Mark.paces r)).getLast? = some (.moved r hop)) ↔
      a.untold ≠ [] ∧ ms.filterMap (Mark.hop? r) ≠ [] := by
  induction h with
  | start => simp [Mark.paces]
  | @pause a ms news here quiet ih =>
    have none : news.filter (Mark.paces r) = [] :=
      List.filter_eq_nil_iff.2 fun m hm => by simp [paces_quiet m (quiet m hm)]
    rwa [List.filter_append, none, List.append_nil, List.filterMap_append,
      pick_quiet _ hop?_quiet quiet, List.append_nil]
  | tell => simp [Mark.paces]
  | conclude here hasty ih => simpa [Mark.paces, List.filterMap_cons] using ih
  | go => simp [Mark.paces]

/-- A stay in a transient state ends by its transient event. -/
theorem hasty (h : Trail w r a ms) {v : VisitId} {e : Ending} (ended : .concluded v e ∈ ms)
    (transient : (w.visit v).state.mode = .transient) : e = .decided ⟨.transient, none⟩ := by
  induction h with
  | start => simp at ended
  | pause here quiet ih =>
    rcases List.mem_append.1 ended with old | new
    · exact ih old
    · cases quiet _ new
  | conclude here hasty ih =>
    rcases List.mem_append.1 ended with old | new
    · exact ih old
    · cases List.mem_singleton.1 new
      exact hasty transient
  | tell here ih | go here onward ih =>
    rcases List.mem_append.1 ended with old | new
    · exact ih old
    · simp at new

end Trail

/-! ## Courses are trails -/

/-- Where a standing is on the walk, unless the run is lost. A run that has returned was stopped on
the way to a state, or has no hop to make. -/
def Standing.Agrees (w : World) (r : RunId) (ms : List Mark) (a : Whereabouts) : Standing → Prop
  | .arriving s _ _ => a = .bound s
  | .told s _ _ => a = .within s
  | .acting v _ none _ | .arrived v | .launching v _ | .waiting v =>
    a = .within (w.visit v).state
  | .acting v _ (some e) _ | .draining v e | .left v e =>
    a = .after (w.visit v).state ((w.machineOf r).dueHop? (w.visit v).state e)
  | .announced v _ => a = .after (w.visit v).state none
  | .finished result =>
    (∃ s, a = .after s none) ∨
      (∃ s, a = .bound s) ∧ result = .ok .stopped ∧ .stopAsked r ∈ ms
  | .lost => True

namespace Standing.Agrees

variable {w : World} {r : RunId} {st : Standing} {ms news : List Mark} {a : Whereabouts}

/-- A standing that agrees with its whereabouts does so whatever comes after. -/
theorem append (h : st.Agrees w r ms a) : st.Agrees w r (ms ++ news) a := by
  cases st with
  | finished result => exact h.imp_right fun ⟨here, stopped, asked⟩ =>
      ⟨here, stopped, List.mem_append_left _ asked⟩
  | acting v phrase e k => cases e <;> exact h
  | _ => exact h

end Standing.Agrees

/-- A run that waits is not in a transient state. -/
theorem Course.stays_of_waiting {w : World} {r : RunId} {v : VisitId} {ms : List Mark}
    (c : Course w r (.waiting v) ms) : (w.visit v).state.mode ≠ .transient := by
  obtain ⟨past, x, account⟩ := c.account (by simp)
  obtain ⟨rfl, -⟩ := account.suits.visit v rfl
  exact account.suits.stays rfl

/-- A leg of the course takes the trail further. -/
theorem Leg.trail {w : World} {r : RunId} {ms news : List Mark} {st st' : Standing}
    {a : Whereabouts} (leg : Leg w r ms st news st') (course : Course w r st ms)
    (here : Trail w r a ms) (agrees : st.Agrees w r ms a) :
    ∃ a, Trail w r a (ms ++ news) ∧ st'.Agrees w r (ms ++ news) a := by
  -- Most legs leave no mark that shows on the trail.
  have pause (quiet : ∀ m ∈ news, m.isPace = false) (agrees : st'.Agrees w r (ms ++ news) a) :
      ∃ a, Trail w r a (ms ++ news) ∧ st'.Agrees w r (ms ++ news) a :=
    ⟨a, here.pause quiet, agrees⟩
  cases leg with
  | rest => exact pause (by simp) agrees.append
  | ask => exact pause (by simp [Mark.isPace]) agrees.append
  | fall going falls =>
    -- A run that is lost need not agree with its trail any more.
    apply pause _ trivial
    intro m hm
    have falls := falls m hm
    cases m <;> first | rfl | cases falls
  | tell free =>
    cases agrees
    exact ⟨_, here.tell, rfl⟩
  | enter own state new =>
    apply pause (by simp [Mark.isPace])
    cases agrees
    exact congrArg Whereabouts.within state.symm
  | @act v phrase e k more =>
    apply pause (by simp [Mark.isPace])
    cases e <;> exact agrees
  | arrive | ready | launch | wait | turn | finish | relax | drop | exit | close | quit =>
    exact pause (by simp [Mark.isPace]) agrees
  | pass transient =>
    cases agrees
    exact ⟨_, here.conclude fun _ => rfl, rfl⟩
  | conclude stop =>
    -- Only a run that waits ends its stay so, and in a transient state none waits.
    cases agrees
    exact ⟨_, here.conclude fun transient => absurd transient course.stays_of_waiting, rfl⟩
  | @go v e next d after =>
    cases agrees
    rw [Machine.dueHop?_of_move after] at here
    exact ⟨_, here.go after, rfl⟩
  | @announce v e after =>
    apply pause (by simp [Mark.isPace])
    exact agrees.trans (congrArg _ (Machine.dueHop?_eq_none (by simp [after])))
  | halt asked =>
    apply pause (by simp [Mark.isPace])
    exact .inr ⟨⟨_, agrees⟩, rfl, List.mem_append_left _ asked⟩
  | @back v e result after =>
    apply pause (by simp [Mark.isPace])
    have none := Machine.dueHop?_eq_none (m := w.machineOf r) (s := (w.visit v).state) (e := e)
      (by simp [after])
    exact .inl ⟨_, agrees.trans (congrArg _ none)⟩
  | done =>
    apply pause (by simp [Mark.isPace])
    exact .inl ⟨_, agrees⟩

/-- Every course is a trail. -/
theorem Course.trail {w : World} {r : RunId} {st : Standing} {ms : List Mark}
    (c : Course w r st ms) : ∃ a, Trail w r a ms ∧ st.Agrees w r ms a := by
  induction c with
  | start first => exact ⟨_, .start first, rfl⟩
  | leg course leg ih =>
    obtain ⟨a, here, agrees⟩ := ih
    exact leg.trail course here agrees

end Statechart
