import Mathlib.Data.List.TakeWhile
import Statechart.Proofs.News
import Statechart.Proofs.Race
import Statechart.Proofs.Tenure
import Statechart.Proofs.Walk

/-!
# The history of a run

The history of an interpreter is that of its latest run: the hops that the run has made, the oldest
dropped first where the limit leaves no room for them.

## Main definitions

- `World.historyOf`, `World.limits`: the history that a run writes to, and the limits on it while it
  does.
- `Recalled`: histories hold the hops of the latest runs.
- `World.Recounts`: what the history of a run tells of it.
- `World.Retraces`, `World.Overshoots`: a history that agrees with what observers were told, and
  one that goes a state further.

## Main statements

- `Recalled.beat`: every beat keeps the histories.
- `Scenario.history_recounts`: the history of a run is a walk through the graph of its machine.
- `Scenario.path_of_returned`: when the path in the history is that of what observers were told.
-/

namespace Statechart

/-! ## Definitions -/

/-- The limits on the history of an interpreter that a mark tells of. -/
def Mark.limits (i : InterpreterId) : Mark → List Nat
  | .limited j before after => if j = i then [before, after] else []
  | _ => []

namespace World

/-- The history that a run writes to. -/
def historyOf (w : World) (r : RunId) : Window Hop :=
  (w.interpreter (w.run r).interpreter).history

/-- The marks since a run began. -/
def since (w : World) (r : RunId) : List Mark :=
  w.marks.dropWhile (· ≠ .began r)

/-- The limits that the history of a run has had since the run began. -/
def limits (w : World) (r : RunId) : List Nat :=
  (w.historyOf r).limit :: (w.since r).flatMap (Mark.limits (w.run r).interpreter)

end World

/-- The history of an interpreter holds the hops of its latest run, as many as every limit since
the run began leaves room for. -/
def Recalled (w : World) : Prop :=
  ∀ r, .began r ∈ w.marks → w.IsLatest r → ∀ k, (∀ n ∈ w.limits r, k ≤ n) →
    (w.historyOf r).Recalls (w.hops r) k

/-! ## What beats do to histories -/

section

variable {w w' : World} {σ σ' : Stage} {r : RunId} {news : List Mark}

theorem World.hops_append (marks : w'.marks = w.marks ++ news) :
    w'.hops r = w.hops r ++ news.filterMap (Mark.hop? r) := by
  unfold hops
  rw [marks, List.filterMap_append]

/-- The time since a run began goes on when the marks do. -/
theorem World.since_append (began : .began r ∈ w.marks) (marks : w'.marks = w.marks ++ news) :
    w'.since r = w.since r ++ news := by
  unfold since
  -- The beginning of the run is among the old marks, so nothing of the new ones is dropped.
  rw [marks, List.dropWhile_append, if_neg]
  rw [List.isEmpty_iff, List.dropWhile_eq_nil_iff]
  intro none
  simpa using none _ began

/-- A run that has not begun has made no hop. -/
theorem World.hops_of_size (listed : Listed w) : w.hops w.runs.size = [] := by
  apply List.filterMap_eq_nil_iff.2
  intro m hm
  cases m with
  | moved q hop =>
    have known := listed _ hm q rfl
    exact if_neg (Nat.ne_of_lt known)
  | _ => rfl

/-- Limits that there have been since a run began are still known of after a beat, if the one that
was in force is. -/
theorem Beat.limits (b : Beat (w, σ) (w', σ')) (o : Orderly w σ) (began : .began r ∈ w.marks)
    (marks : w'.marks = w.marks ++ news) (last : (w.historyOf r).limit ∈ w'.limits r) :
    ∀ n ∈ w.limits r, n ∈ w'.limits r := by
  intro n hn
  rcases List.mem_cons.1 hn with rfl | hn
  · exact last
  · apply List.mem_cons_of_mem
    rw [World.since_append began marks, List.flatMap_append, b.interpreter (o.rooted.run r began)]
    exact List.mem_append_left _ hn

namespace Recalled

/-- Whoever makes no hop, and whose history is left alone, is recalled as before. -/
theorem keep (h : Recalled w) (o : Orderly w σ) (b : Beat (w, σ) (w', σ'))
    (began : .began r ∈ w.marks) (latest : w'.IsLatest r) (marks : w'.marks = w.marks ++ news)
    (still : news.filterMap (Mark.hop? r) = []) (same : w'.historyOf r = w.historyOf r) (k : Nat)
    (room : ∀ n ∈ w'.limits r, k ≤ n) : (w'.historyOf r).Recalls (w'.hops r) k := by
  have before := Tenured.latest_of_beat o b (o.rooted.run r began) latest
  have limits := b.limits o began marks (same ▸ List.mem_cons_self)
  rw [World.hops_append marks, still, List.append_nil, same]
  exact h r began before k fun n hn => room n (limits n hn)

/-- A run that makes a hop is recalled with it. -/
theorem push (h : Recalled w) (o : Orderly w σ) (b : Beat (w, σ) (w', σ'))
    (began : .began r ∈ w.marks) (latest : w'.IsLatest r) {hop : Hop}
    (marks : w'.marks = w.marks ++ [.moved r hop])
    (pushed : w'.historyOf r = (w.historyOf r).push hop) (k : Nat)
    (room : ∀ n ∈ w'.limits r, k ≤ n) : (w'.historyOf r).Recalls (w'.hops r) k := by
  have before := Tenured.latest_of_beat o b (o.rooted.run r began) latest
  have limit : (w'.historyOf r).limit = (w.historyOf r).limit := by
    rw [pushed, Window.limit_push]
  have limits := b.limits o began marks (limit ▸ List.mem_cons_self)
  have recalls := h r began before k fun n hn => room n (limits n hn)
  have last : [Mark.moved r hop].filterMap (Mark.hop? r) = [hop] := by simp
  rw [World.hops_append marks, last, pushed]
  exact recalls.push (limit ▸ room _ List.mem_cons_self) hop

/-- A run whose history is limited anew is recalled as far as the new limit lets it. -/
theorem setLimit (h : Recalled w) (o : Orderly w σ) (b : Beat (w, σ) (w', σ'))
    (began : .began r ∈ w.marks) (latest : w'.IsLatest r) {n : Nat}
    (marks : w'.marks = w.marks ++ [.limited (w.run r).interpreter (w.historyOf r).limit n])
    (limited : w'.historyOf r = (w.historyOf r).setLimit n) (k : Nat)
    (room : ∀ n ∈ w'.limits r, k ≤ n) : (w'.historyOf r).Recalls (w'.hops r) k := by
  have before := Tenured.latest_of_beat o b (o.rooted.run r began) latest
  -- The limit that was in force is told of by the mark.
  have limits := b.limits o began marks <| by
    apply List.mem_cons_of_mem
    rw [World.since_append began marks, b.interpreter (o.rooted.run r began),
      List.flatMap_append]
    simp [Mark.limits]
  have recalls := h r began before k fun n hn => room n (limits n hn)
  have still : [Mark.limited (w.run r).interpreter (w.historyOf r).limit n].filterMap
    (Mark.hop? r) = [] := rfl
  rw [World.hops_append marks, still, List.append_nil, limited]
  apply recalls.setLimit
  apply room
  rw [World.limits, limited]
  exact List.mem_cons_self

/-- Every beat keeps the history of a run that is under way. -/
theorem goOn (h : Recalled w) (tenured : Tenured w) (o : Orderly w σ) (b : Beat (w, σ) (w', σ'))
    (began : .began r ∈ w.marks) (latest : w'.IsLatest r) (k : Nat)
    (room : ∀ n ∈ w'.limits r, k ≤ n) : (w'.historyOf r).Recalls (w'.hops r) k := by
  have same := b.interpreter (o.rooted.run r began)
  have before := Tenured.latest_of_beat o b (o.rooted.run r began) latest
  -- Only hops and limits change the history of a run, and only a hop is noted as one.
  cases b.turnover with
  | stay news marks quiet akin history =>
    apply h.keep o b began latest marks _ _ k room
    · refine List.filterMap_eq_nil_iff.2 fun m hm => ?_
      have quiet := quiet m hm
      cases m <;> first | rfl | cases quiet
    · unfold World.historyOf
      rw [same, history]
  | take i free marks own row =>
    have ne := Tenured.apart_of_latest b (o.rooted.run r began) latest (by simp [marks]) own
    apply h.keep o b began latest marks rfl _ k room
    unfold World.historyOf
    rw [same, row, if_neg ne]
  -- The interpreter may give up its slot, and keeps its history then.
  | give q status news marks told progress row =>
    apply h.keep o b began latest marks _ _ k room
    · rcases told with rfl | ⟨result, -, rfl⟩ <;> rfl
    · unfold World.historyOf
      rw [same, row]
      split <;> rfl
  | record q hop marks progress row =>
    by_cases mine : q = r
    · subst mine
      apply h.push o b began latest marks _ k room
      unfold World.historyOf
      rw [same, row, if_pos rfl]
    · -- The run that goes on holds the slot, so it is the latest of its own interpreter.
      have ne : (w.run r).interpreter ≠ (w.run q).interpreter := by
        intro here
        have holds := o.slotted.holder q progress
        have sooner := tenured.latest _ q holds r began here
        have later := before q (o.slotted.owner _ q holds).2 here.symm
        exact mine (Nat.le_antisymm later sooner)
      apply h.keep o b began latest marks _ _ k room
      · simp [mine]
      · unfold World.historyOf
        rw [same, row, if_neg ne]
  | limit i n marks row =>
    by_cases mine : (w.run r).interpreter = i
    · subst mine
      apply h.setLimit o b began latest marks _ k room
      unfold World.historyOf
      rw [same, row, if_pos rfl]
    · apply h.keep o b began latest marks rfl _ k room
      unfold World.historyOf
      rw [same, row, if_neg mine]

/-- Every beat keeps the histories. -/
theorem beat (h : Recalled w) (tenured : Tenured w) (o : Orderly w σ) (b : Beat (w, σ) (w', σ')) :
    Recalled w' := by
  intro r began latest k room
  by_cases old : .began r ∈ w.marks
  · exact h.goOn tenured o b old latest k room
  have new (news : List Mark) (marks : w'.marks = w.marks ++ news) : .began r ∈ news := by
    rw [marks] at began
    exact (List.mem_append.1 began).resolve_left old
  cases b.turnover with
  | take i free marks own row =>
    obtain rfl : r = w.runs.size := by simpa using new _ marks
    have none : w'.hops w.runs.size = [] := by
      rw [World.hops_append marks, World.hops_of_size o.listed]
      rfl
    have cleared : w'.historyOf w.runs.size = (w.interpreter i).history.clear := by
      unfold World.historyOf
      rw [own, row, if_pos rfl]
    rw [none, cleared]
    exact .clear ..
  | stay news marks quiet => cases quiet _ (new news marks)
  | give q status news marks told =>
    have new := new news marks
    rcases told with rfl | ⟨result, -, rfl⟩ <;> simp at new
  | record q hop marks | limit i n marks => simpa using new _ marks

end Recalled

end

/-! ## What histories tell -/

namespace World

/-- A stay of a run calls for a hop: it ended by an event that was accepted, unless it is in a
transient state, which ends by its own. -/
structure Calls (w : World) (r : RunId) (v : VisitId) (d : Decision) (hop : Hop) : Prop where
  owner : (w.visit v).run = r
  concluded : .concluded v (.decided d) ∈ w.marks
  source : (w.visit v).state.id = hop.source
  event : d.event = hop.event
  accepted : if (w.visit v).state.mode = .transient then d = ⟨.transient, none⟩
    else .raised v d true ∈ w.marks

/-- The history of a run tells of a walk through the graph of its machine. -/
structure Recounts (w : World) (r : RunId) (limit : Nat) : Prop where
  /-- It holds the newest hops of the run, as many as it may. -/
  newest : (w.historyOf r).entries = (w.hops r).drop ((w.hops r).length - limit)
  chain : (w.historyOf r).entries.IsChain fun a b => a.target = b.source
  allowed : ∀ hop ∈ (w.historyOf r).entries, (w.machineOf r).Allows hop
  first : (w.hops r).length ≤ limit → ∀ hop ∈ (w.historyOf r).entries.head?,
    hop.source = (w.machineOf r).initialStateId
  /-- The run makes the hops that the ends of its stays call for, and no others; the last one may
  have yet to be made. -/
  due : ∃ pending, w.dueHops r = w.hops r ++ pending ∧ pending.length ≤ 1
  called : ∀ hop ∈ (w.historyOf r).entries, ∃ v d, w.Calls r v d hop

/-- The history of a run agrees with what its observers were told, and the run has been in every
state that it tells of. -/
structure Retraces (w : World) (r : RunId) : Prop where
  length : (w.historyOf r).entries.length = (w.told r).length - 1
  path : (w.historyOf r).entries ≠ [] →
    (w.interpreter (w.run r).interpreter).path = w.told r
  entered : ∀ hop ∈ (w.historyOf r).entries, ∃ v, .entered r v ∈ w.marks ∧
    (w.visit v).state.id = hop.target

/-- A run was stopped on the way to a state that nobody was told of, but that is in its history. -/
structure Overshoots (w : World) (r : RunId) (result : RunResult) : Prop where
  result : result = .ok .stopped
  asked : .stopAsked r ∈ w.marks
  length : (w.historyOf r).entries.length = (w.told r).length
  path : ∃ hop ∈ (w.historyOf r).entries.getLast?,
    (w.interpreter (w.run r).interpreter).path = w.told r ++ [hop.target]

end World

section

variable {s : Scenario} {w : World} {σ : Stage} {r : RunId} {a : Whereabouts}

/-! ### Ways and marks -/

/-- Whatever marks of a run's own tell is told on its way. -/
theorem World.filterMap_way {α : Type} {f : Mark → Option α}
    (own : ∀ m, w.subject? m ≠ some r → f m = none) :
    (w.way r).filterMap f = w.marks.filterMap f := by
  unfold way
  rw [List.filterMap_filter]
  apply List.filterMap_congr
  intro m _
  split
  · rfl
  · next other => exact (own m (by simpa using other)).symm

theorem World.hops_way : (w.way r).filterMap (Mark.hop? r) = w.hops r := by
  apply filterMap_way
  intro m other
  cases m with
  | moved q hop => exact if_neg fun mine => other (congrArg some mine)
  | _ => rfl

theorem World.told_way : (w.way r).filterMap (Mark.told? r) = w.told r := by
  apply filterMap_way
  intro m other
  cases m with
  | notified q c => exact if_neg fun mine => other (congrArg some mine)
  | _ => rfl

theorem World.paces_way : (w.way r).filter (Mark.paces r) = w.marks.filter (Mark.paces r) := by
  unfold way
  rw [List.filter_filter]
  apply List.filter_congr
  intro m _
  cases m <;> simp [subject?, Mark.paces]

/-! ### Hops that are called for -/

/-- Every hop of a trail is called for by the end of a stay. -/
theorem Trail.calls (trail : Trail w r a (w.way r)) (raced : Raced w σ) {hop : Hop}
    (member : hop ∈ w.hops r) : ∃ v d, w.Calls r v d hop := by
  have due := trail.due
  rw [World.hops_way] at due
  have called : hop ∈ (w.way r).filterMap (w.dueHop? r) := due ▸ List.mem_append_left _ member
  obtain ⟨m, here, calls⟩ := List.mem_filterMap.1 called
  obtain ⟨marked, subject⟩ := World.mem_way.1 here
  cases m with
  | concluded v e =>
    simp only [World.dueHop?, Machine.dueHop?] at calls
    split at calls
    · next next d onward =>
      obtain ⟨rfl, -⟩ := Machine.route_of_move onward
      cases calls
      refine ⟨v, d, Option.some.inj subject, marked, rfl, rfl, ?_⟩
      -- A transient state decides for itself; any other waits for an event that it accepts.
      split
      · next transient => exact Ending.decided.inj (trail.hasty here transient)
      · next stays =>
        obtain ⟨before, after, split⟩ := List.append_of_mem marked
        have verdict := raced.judged v (.decided d) before after split
        rw [split]
        exact List.mem_append_left _ (verdict.decided d rfl stays)
    · cases calls
    · cases calls
  | _ => cases calls

/-- A state that the observers of a run that has returned were told of is one that it was in. -/
theorem Course.entered_of_told {result : RunResult} (c : Course w r (.finished result) (w.way r))
    {id : String} (told : id ∈ w.told r) :
    ∃ v, .entered r v ∈ w.marks ∧ (w.visit v).state.id = id := by
  obtain ⟨stays, -, way, -, fits⟩ := c.stays
  rw [← World.told_way] at told
  obtain ⟨m, here, tells⟩ := List.mem_filterMap.1 told
  cases m with
  | notified q change =>
    obtain ⟨rfl, rfl⟩ : q = r ∧ change.state = id := by simpa using tells
    have news : .notified q change ∈ (w.way q).filter Mark.isNews := List.mem_filter.2 ⟨here, rfl⟩
    rw [World.news_way way fits] at news
    -- What the observers were told of is a stay, which begins with a visit.
    obtain ⟨x, hx, rfl⟩ : ∃ x ∈ stays, change = x.change w := by
      by_cases done : result = .ok .done <;> simpa [Stay.news, done] using news
    refine ⟨x.visit, ?_, rfl⟩
    have steady : .entered q x.visit ∈ (w.way q).filter Mark.isSteady := by
      rw [way]
      refine List.mem_append_left _ (List.mem_cons_of_mem _ (List.mem_flatMap.2 ⟨x, hx, ?_⟩))
      simp [Stay.marks, Stay.opening]
    exact (World.mem_way.1 (List.mem_filter.1 steady).1).1
  | _ => cases tells

end

/-! ### Histories that hold all hops -/

namespace World

variable {w : World} {r : RunId} {here : State} {result : RunResult}

/-- The path in the history is that of the walk. -/
theorem path_of_walk (all : (w.historyOf r).entries = w.hops r)
    (walk : (w.machineOf r).Walk (w.hops r) here) (some : w.hops r ≠ []) :
    (w.interpreter (w.run r).interpreter).path = (w.machineOf r).stops (w.hops r) := by
  rw [← walk.path some, ← all]
  rfl

/-- Observers who were told of every state of the walk agree with the history. -/
theorem retraces_of_told (all : (w.historyOf r).entries = w.hops r)
    (walk : (w.machineOf r).Walk (w.hops r) here)
    (told : w.told r = (w.machineOf r).stops (w.hops r))
    (been : ∀ id ∈ w.told r, ∃ v, .entered r v ∈ w.marks ∧ (w.visit v).state.id = id) :
    w.Retraces r := by
  constructor
  case length =>
    rw [all, told]
    simp [Machine.stops]
  case path =>
    intro some
    rw [all] at some
    rw [told]
    exact path_of_walk all walk some
  case entered =>
    intro hop member
    rw [all] at member
    apply been
    rw [told]
    exact List.mem_cons_of_mem _ (List.mem_map_of_mem member)

/-- So do observers who were told of nothing, as the run was stopped before its first state. -/
theorem retraces_of_silence (all : (w.historyOf r).entries = w.hops r) (none : w.hops r = [])
    (told : w.told r ++ [here.id] = (w.machineOf r).stops (w.hops r)) : w.Retraces r := by
  have silent : w.told r = [] := by
    simpa [none, Machine.stops] using congrArg List.length told
  rw [none] at all
  constructor
  case length =>
    rw [all, silent]
    rfl
  case path =>
    intro some
    exact absurd all some
  case entered =>
    intro hop member
    rw [all] at member
    cases member

/-- Observers who were told of every state but the last are behind the history. -/
theorem overshoots_of_told (all : (w.historyOf r).entries = w.hops r)
    (walk : (w.machineOf r).Walk (w.hops r) here) (some : w.hops r ≠ [])
    (told : w.told r ++ [here.id] = (w.machineOf r).stops (w.hops r))
    (stopped : result = .ok .stopped) (asked : .stopAsked r ∈ w.marks) :
    w.Overshoots r result := by
  refine ⟨stopped, asked, ?_, (w.hops r).getLast some, ?_, ?_⟩
  · have length := congrArg List.length told
    rw [all]
    simpa [Machine.stops] using length.symm
  · rw [all]
    exact List.getLast?_eq_some_getLast some
  · have last := walk.ends.2
    rw [Machine.stops, List.getLast?_cons, List.getLast?_map,
      List.getLast?_eq_some_getLast some] at last
    rw [path_of_walk all walk some, ← told]
    exact congrArg (w.told r ++ [·]) (Option.some.inj last).symm

/-- A history that goes beyond what the observers were told does not agree with it. -/
theorem Overshoots.not_retraces (h : w.Overshoots r result) : ¬ w.Retraces r := by
  intro agrees
  obtain ⟨hop, last, -⟩ := h.path
  have some := List.length_pos_of_mem (List.mem_of_getLast? last)
  have length := agrees.length
  rw [← h.length] at length
  omega

end World

/-! ## The history of a run -/

namespace Scenario

variable {s : Scenario} {w : World} {σ : Stage} {r : RunId} {result : RunResult}

/-- At every moment slots, statuses and histories agree with the marks. -/
theorem Moment.recalled (h : s.Moment w σ) : Tenured w ∧ Recalled w :=
  h.invariant (I := fun w _ => Tenured w ∧ Recalled w)
    ⟨.opening s, fun r began => by cases began⟩
    fun o ⟨tenured, recalled⟩ beat => ⟨tenured.beat o beat, recalled.beat tenured o beat⟩

/-- The history of the latest run of an interpreter, whose limit stays the same, holds the newest
hops of that run, as many as the limit allows, and nothing of an earlier run. They are a walk: each
hop begins where the one before has led, the machine has it as a transition of a state that is not
final, and the first that the run made begins in the initial state. The run makes a hop whenever a
stay has ended by an event that leads to a state that is there, and at no other time. -/
theorem history_recounts (h : s.Moment w σ) {limit : Nat} (began : .began r ∈ w.marks)
    (latest : w.IsLatest r) (steady : ∀ n ∈ w.limits r, n = limit) : w.Recounts r limit := by
  obtain ⟨-, recalled⟩ := h.recalled
  obtain ⟨-, raced⟩ := raced_of_beats h
  obtain ⟨st, chart⟩ := h.orderly.charted r began
  obtain ⟨a, trail, -⟩ := chart.course.trail
  have walk := trail.walk
  rw [World.hops_way] at walk
  have same : (w.historyOf r).limit = limit := steady _ List.mem_cons_self
  have recalls := recalled r began latest limit fun n hn => Nat.le_of_eq (steady n hn).symm
  subst same
  have newest := recalls.eq_drop
  have kept {hop : Hop} (member : hop ∈ (w.historyOf r).entries) : hop ∈ w.hops r :=
    recalls.newest.subset member
  constructor
  case newest => exact newest
  case chain => exact walk.chain.suffix recalls.newest
  case allowed => exact fun hop member => walk.allowed hop (kept member)
  case first =>
    intro room hop head
    rw [recalls.eq_all room] at head
    exact walk.ends.1 hop head
  case due =>
    refine ⟨a.due, ?_, ?_⟩
    · rw [World.dueHops, trail.due, World.hops_way]
    · -- Only a run at the end of a stay has a hop to make.
      cases a with
      | after s due => cases due <;> simp
      | _ => simp
  case called => exact fun hop member => trail.calls raced (kept member)

/-- The history of a run that has returned, and that had room for all its hops, agrees with what
its observers were told, unless the run was stopped between a hop and the notification of the state
that the hop leads to. In that case the run returns that it was stopped, and the path in the history
goes on to that state, beyond all that the observers were told of. -/
theorem path_of_returned (h : s.Moment w σ) (returned : .returned r result ∈ w.marks)
    (latest : w.IsLatest r) (room : ∀ n ∈ w.limits r, (w.hops r).length ≤ n) :
    (w.Retraces r ↔ ¬ w.IsCutShort r) ∧ (w.IsCutShort r → w.Overshoots r result) := by
  obtain ⟨-, recalled⟩ := h.recalled
  have chart := h.finished returned
  obtain ⟨a, trail, agrees⟩ := chart.course.trail
  have walk := trail.walk
  have told := trail.told
  have cut := trail.cutShort
  rw [World.hops_way] at walk told cut
  rw [World.told_way] at told
  rw [World.paces_way] at cut
  have began := h.began returned rfl rfl
  have all : (w.historyOf r).entries = w.hops r :=
    (recalled r began latest _ room).eq_all (Nat.le_refl _)
  have been (id : String) (told : id ∈ w.told r) := chart.course.entered_of_told told
  rcases agrees with ⟨s, rfl⟩ | ⟨⟨s, rfl⟩, stopped, asked⟩
  · -- The run has come to its end in a state.
    have whole : ¬ w.IsCutShort r := fun short => (cut.1 short).1 rfl
    have agrees := World.retraces_of_told all walk (by simpa using told) been
    exact ⟨iff_of_true agrees whole, (absurd · whole)⟩
  · have told : w.told r ++ [s.id] = (w.machineOf r).stops (w.hops r) := told
    by_cases none : w.hops r = []
    · -- The run was stopped before it came to its first state.
      have whole : ¬ w.IsCutShort r := fun short => (cut.1 short).2 none
      have agrees := World.retraces_of_silence all none told
      exact ⟨iff_of_true agrees whole, (absurd · whole)⟩
    · -- The run was stopped on its way from one state to another.
      have short : w.IsCutShort r := cut.2 ⟨by simp, none⟩
      have beyond := World.overshoots_of_told all walk none told stopped (World.mem_way.1 asked).1
      exact ⟨iff_of_false beyond.not_retraces (not_not.2 short), fun _ => beyond⟩

/-! ## Runs of some machines -/

/-- A run goes to a transient state and on from there, and its history keeps one hop. -/
def forgetful : Scenario where
  machine := ⟨"m", "M", "a", some [
    { State.new "a" with
      routes := [(.named "go", "b")]
      services := [.free { body := [.act (.raise "go")] }] },
    { State.new "b" with mode := .transient, routes := [(.transient, "c")] },
    { State.new "c" with mode := .final }]⟩
  interpreters := 1
  limit := some 1
  observers := []
  steps := [.run 0 100]

theorem forgetful_recounts : ((forgetful.play 23).hops 0).length = 2 ∧
    (forgetful.play 23).Recounts 0 1 := by
  have reached := forgetful.reaches_play 23
  have steady : ((forgetful.play 23).limits 0).all (· = 1) = true := by decide +kernel
  refine ⟨by decide +kernel, ?_⟩
  apply history_recounts reached.moment
  · decide +kernel
  · exact reached.orderly.isLatest (by decide +kernel)
  · exact fun n hn => of_decide_eq_true (List.all_eq_true.1 steady n hn)

/-- An exit action stops the run on its way out of a transient state. -/
def intercepted : Scenario where
  machine := ⟨"m", "M", "a", some [
    { State.new "a" with
      mode := .transient
      routes := [(.transient, "b")]
      exitActions := ⟨[[.act (.stop 0)]]⟩ },
    { State.new "b" with mode := .final }]⟩
  interpreters := 1
  limit := none
  observers := []
  steps := [.run 0 100]

theorem intercepted_returned : .returned 0 (.ok .stopped) ∈ (intercepted.play 6).marks ∧
    (intercepted.play 6).IsLatest 0 ∧
    ∀ n ∈ (intercepted.play 6).limits 0, ((intercepted.play 6).hops 0).length ≤ n := by
  have room : ((intercepted.play 6).limits 0).all (((intercepted.play 6).hops 0).length ≤ ·) =
      true := by decide +kernel
  refine ⟨by decide +kernel, ?_, fun n hn => of_decide_eq_true (List.all_eq_true.1 room n hn)⟩
  exact (intercepted.reaches_play 6).orderly.isLatest (by decide +kernel)

/-- The history tells of the second state, which the observers are not told of. -/
theorem intercepted_overshoots : (intercepted.play 6).IsCutShort 0 ∧
    (intercepted.play 6).Overshoots 0 (.ok .stopped) := by
  obtain ⟨returned, latest, room⟩ := intercepted_returned
  have told := path_of_returned (intercepted.reaches_play 6).moment returned latest room
  have short : (intercepted.play 6).IsCutShort 0 := ⟨⟨"a", .transient, "b"⟩, by decide +kernel⟩
  exact ⟨short, told.2 short⟩

/-- Not every history of a run that has returned, with room for all its hops, agrees with what the
observers were told. -/
theorem exists_history_beyond :
    ¬ ∀ (s : Scenario) (w : World) (r : RunId) (result : RunResult), s.Reaches w →
      .returned r result ∈ w.marks → w.IsLatest r →
      (∀ n ∈ w.limits r, (w.hops r).length ≤ n) → w.Retraces r := by
  intro all
  obtain ⟨returned, latest, room⟩ := intercepted_returned
  have agrees := all _ _ _ _ (intercepted.reaches_play 6) returned latest room
  have length : ((intercepted.play 6).historyOf 0).entries.length ≠
      ((intercepted.play 6).told 0).length - 1 := by decide +kernel
  exact length agrees.length

end Scenario

end Statechart
