import Statechart.Proofs.Successions
import Statechart.Proofs.Turns

/-!
# Chains of transient states

Transient states lead from one to the next within one turn of the host. A run that begins with a
chain of them passes through all of its states, and comes to rest at its end: in a state without
work, in a transient state that leads nowhere, or in one that leads to a state that is not there.

## Main definitions

- `Machine.Threads`: transient states lead from one state to another.
- `Machine.RestsIn`: how a run ends in the last state of a chain.
- `World.Traverses`: a run has passed through a chain, and nothing else has come of it.

## Main statements

- `Machine.Threads.closes`: a run at the beginning of a chain comes to its end in the same turn.
- `Machine.Threads.unfolds`: the stays of a run that began with a chain are those of the chain.
- `Scenario.transients_traversed`: what becomes of a run that begins with a chain.
-/

namespace Statechart

/-! ## Definitions -/

namespace Machine

/-- From a state on, each of the transient states of a path leads to the next, and the last of them
to one more. The next state is always the first of its id. -/
inductive Threads (m : Machine) (last : State) : State → List State → Prop where
  | here : Threads m last last []
  | pass {s next : State} {path : List State} {target : String} (transient : s.mode = .transient)
      (route : s.targetOf .transient = some target) (found : m.find? target = some next)
      (rest : Threads m last next path) : Threads m last s (s :: path)

/-- What a run returns that comes to the last state of a chain. -/
inductive RestsIn (m : Machine) (s : State) : RunResult → Prop where
  | done (final : s.mode = .final) (idle : ¬ s.HasWork) : RestsIn m s (.ok .done)
  | settled (normal : s.mode = .normal) (idle : ¬ s.HasWork) : RestsIn m s (.ok (.settled s.id))
  /-- A transient state whose target is empty leads nowhere. -/
  | blank (transient : s.mode = .transient) (route : s.targetOf .transient = none) :
      RestsIn m s (.ok (.settled s.id))
  | dangling {target : String} (transient : s.mode = .transient)
      (route : s.targetOf .transient = some target) (missing : m.find? target = none) :
      RestsIn m s (.error (.danglingTransition s.id .transient target))

end Machine

/-- The hops from each of some states to the next. -/
def State.hops (states : List State) : List Hop :=
  List.zipWith (fun s next => ⟨s.id, .transient, next.id⟩) states states.tail

/-- The actions of one kind that a visit has carried out, in order. -/
def Mark.acted? (v : VisitId) (phrase : Phrase) : Mark → Option Nat
  | .acted u p k => if u = v ∧ p = phrase then some k else none
  | _ => none

/-- A run that has returned has passed through the states of a chain, one stay in each. -/
structure World.Traverses (w : World) (r : RunId) (chain : List State) (result : RunResult)
    (stays : List Stay) : Prop where
  returned : .returned r result ∈ w.marks
  unfolds : w.Unfolds r result stays
  states : stays.map (Stay.state w) = chain
  endings : stays.map Stay.ending = chain.map State.ownEnding
  /-- No work is set up, no task works, and none is left to be dropped. -/
  idle : ∀ x ∈ stays, w.launchMarks x.visit = [] ∧ x.work = [] ∧ x.drops = []
  /-- Every action is carried out once, those on exit if the ending calls for them. -/
  acted : ∀ x ∈ stays, ∀ phrase, w.marks.filterMap (Mark.acted? x.visit phrase) =
    if phrase = .exit → x.ending.exits (x.state w) then
      List.range ((x.state w).chain phrase).actions.length
    else []
  told : w.told r = chain.map State.id
  hops : w.hops r = State.hops chain
  /-- The history holds the newest hops, as many as it may. -/
  history : ∀ limit, (∀ n ∈ w.limits r, n = limit) →
    (w.historyOf r).entries = (State.hops chain).drop ((State.hops chain).length - limit)

section

variable {scn : Scenario} {w : World} {m : Machine} {t : TaskId} {r : RunId} {s last : State}
  {path : List State} {e : Ending} {result result' : RunResult} {stays : List Stay}

/-! ## Chains -/

namespace Machine

theorem aftermath_of_pass {target : String} {next : State} (transient : s.mode = .transient)
    (route : s.targetOf .transient = some target) (found : m.find? target = some next) :
    m.aftermath s s.ownEnding = .move next ⟨.transient, none⟩ := by
  simp [State.ownEnding, aftermath, afterDecision, State.resolve, transient, route, found]

namespace RestsIn

theorem isVacant (h : m.RestsIn s result) : s.IsVacant := by
  cases h with
  | done _ idle | settled _ idle => exact .inr idle
  | blank transient | dangling transient => exact .inl transient

/-- A run that comes to rest is done, or returns its result. -/
theorem aftermath (h : m.RestsIn s result) :
    m.aftermath s s.ownEnding = .announce ∧ result = .ok .done ∨
      m.aftermath s s.ownEnding = .back result := by
  cases h with
  | done final => exact .inl ⟨by simp [State.ownEnding, Machine.aftermath, final], rfl⟩
  | settled normal => exact .inr (by simp [State.ownEnding, Machine.aftermath, normal])
  | blank transient route | dangling transient route missing =>
    refine .inr ?_
    simp [State.ownEnding, Machine.aftermath, afterDecision, State.resolve, *]

/-- Nothing leads on from where a run comes to rest. -/
theorem remains (h : m.RestsIn s result) (next : State) (d : Decision) :
    m.aftermath s s.ownEnding ≠ .move next d := by
  intro goes
  rcases h.aftermath with ⟨done, -⟩ | back
  · cases done.symm.trans goes
  · cases back.symm.trans goes

end RestsIn

namespace Threads

/-- A chain begins with its first state. -/
theorem states (h : m.Threads last s path) : ∃ rest, path ++ [last] = s :: rest := by
  cases h with
  | here => exact ⟨[], rfl⟩
  | pass => exact ⟨_, rfl⟩

theorem isVacant (h : m.Threads last s path) (rests : m.RestsIn last result) :
    ∀ x ∈ path ++ [last], x.IsVacant := by
  induction h with
  | here => simpa using rests.isVacant
  | pass transient route found rest ih =>
    intro x hx
    rcases List.mem_cons.1 hx with rfl | hx
    · exact .inl transient
    · exact ih x hx

/-- A run at the beginning of a chain comes to its end in the same turn of its host. -/
theorem closes (h : m.Threads last s path) (rests : m.RestsIn last result)
    (reach : scn.Reaches w) (d : w.Drives t r) (machine : w.machineOf r = m) {p : Option String}
    {c : Option Decision} (phase : (w.run r).phase = .arriving s p c) :
    World.Closes t r (3 * (path.length + 1)) w := by
  induction h generalizing w p c with
  | here =>
    refine reach.closes_of_arriving d phase rests.isVacant fun w' v e h' d' same there here ends =>
      h'.closes_of_draining d' there (here ▸ rests.isVacant) fun next cause goes => ?_
    rw [same, machine, here] at goes
    rcases ends with rfl | rfl
    · exact absurd goes (rests.remains next cause)
    · cases goes
  | @pass s next path target transient route found rest ih =>
    refine reach.closes_of_arriving d phase (.inl transient)
      fun w' v e h' d' same there here ends =>
        h'.closes_of_draining d' there (here ▸ .inl transient)
          fun next' cause goes h'' d'' same' there' => ?_
    rw [same, machine, here] at goes
    rcases ends with rfl | rfl
    · rw [aftermath_of_pass transient route found] at goes
      cases goes
      exact ih h'' d'' (same'.trans (same.trans machine)) there'
    · cases goes

/-- The stays of a run that was not stopped, from the first state of a chain on, are those of the
chain. -/
theorem unfolds (h : m.Threads last s path) (rests : m.RestsIn last result) {x : Stay}
    {after : List Stay} (here : x.state w = s)
    (follows : ∀ before y rest, x :: after = before ++ y :: rest →
      w.Sequel result' y (m.aftermath (y.state w) y.ending) rest)
    (ending : ∀ y ∈ x :: after, (y.state w).IsVacant → y.ending = (y.state w).ownEnding)
    (going : result' ≠ .ok .stopped) :
    result' = result ∧ (x :: after).map (Stay.state w) = path ++ [last] ∧
      (x :: after).map Stay.ending = (path ++ [last]).map State.ownEnding ∧
      (x :: after).filterMap (fun y => m.dueHop? (y.state w) y.ending) =
        State.hops (path ++ [last]) := by
  induction h generalizing x after with
  | here =>
    have same : x.ending = last.ownEnding :=
      here ▸ ending x List.mem_cons_self (here ▸ rests.isVacant)
    have none : m.dueHop? last last.ownEnding = none := dueHop?_eq_none rests.remains
    have sequel := follows [] x after rfl
    rw [here, same] at sequel
    have last : result' = result ∧ after = [] := by
      rcases rests.aftermath with ⟨done, rfl⟩ | back
      · rw [done] at sequel
        cases sequel with
        | done done => exact ⟨done, rfl⟩
      · rw [back] at sequel
        cases sequel with
        | back => exact ⟨rfl, rfl⟩
    obtain ⟨rfl, rfl⟩ := last
    simp [here, same, none, State.hops]
  | @pass s next path target transient route found rest ih =>
    have same : x.ending = s.ownEnding :=
      here ▸ ending x List.mem_cons_self (here ▸ .inl transient)
    have goes := aftermath_of_pass transient route found
    have sequel := follows [] x after rfl
    rw [here, same, goes] at sequel
    obtain ⟨y, rest', rfl, there⟩ : ∃ y rest', after = y :: rest' ∧ y.state w = next := by
      generalize state : next = next' at sequel
      cases sequel with
      | @next y rest' => exact ⟨y, rest', rfl, rfl⟩
      | halted stopped => exact absurd stopped going
    obtain ⟨returns, states, endings, hops⟩ := ih there
      (fun before z rest' split => follows (x :: before) z rest' (by rw [split]; rfl))
      fun z hz => ending z (List.mem_cons_of_mem _ hz)
    obtain ⟨others, first⟩ := rest.states
    refine ⟨returns, ?_, ?_, ?_⟩
    · rw [List.map_cons, states, here, List.cons_append]
    · rw [List.map_cons, endings, same, List.cons_append, List.map_cons]
    · rw [List.filterMap_cons, here, same, dueHop?_of_move goes, hops, first, List.cons_append,
        first]
      rfl

end Threads

end Machine

/-! ## What stays tell of -/

theorem Mark.acted?_actsOf (v u : VisitId) (phrase other : Phrase) (n : Nat) :
    (actsOf u other n).filterMap (Mark.acted? v phrase) =
      if u = v ∧ other = phrase then List.range n else [] := by
  unfold actsOf
  rw [List.filterMap_map]
  split
  · next same =>
    rw [show Mark.acted? v phrase ∘ Mark.acted u other = some from
      funext fun k => if_pos same, List.filterMap_some]
  · next apart => exact List.filterMap_eq_nil_iff.2 fun k _ => if_neg apart

/-- A stay carries out the actions of its state, each of them once; those on exit if the ending
calls for them. -/
theorem Stay.Fits.filterMap_acted {x : Stay} (fits : x.Fits w r) (v : VisitId) (phrase : Phrase) :
    (x.marks w r).filterMap (Mark.acted? v phrase) =
      if x.visit = v ∧ (phrase = .exit → x.ending.exits (x.state w)) then
        List.range ((x.state w).chain phrase).actions.length
      else [] := by
  have none (ms : List Mark) (h : ∀ m ∈ ms, ∀ u p k, m ≠ .acted u p k) :
      ms.filterMap (Mark.acted? v phrase) = [] := by
    refine List.filterMap_eq_nil_iff.2 fun m hm => ?_
    cases m with
    | acted u p k => exact absurd rfl (h _ hm u p k)
    | _ => rfl
  have launches : (w.launchMarks x.visit).filterMap (Mark.acted? v phrase) = [] := by
    refine none _ fun m hm u p k other => ?_
    subst other
    unfold World.launchMarks at hm
    split at hm <;> simp at hm
  have work : x.work.filterMap (Mark.acted? v phrase) = [] := by
    refine none _ fun m hm u p k other => ?_
    obtain ⟨t, -, rfl | ⟨fate, rfl⟩⟩ := fits.work m hm <;> cases other
  have drops : x.drops.filterMap (Mark.acted? v phrase) = [] := by
    refine none _ fun m hm u p k other => ?_
    obtain ⟨t, -, rfl | rfl⟩ := fits.drops m hm <;> cases other
  have exits : (w.exitMarks x.visit x.ending).filterMap (Mark.acted? v phrase) =
      if x.visit = v ∧ x.ending.exits (x.state w) ∧ phrase = .exit then
        List.range (x.state w).exitActions.actions.length
      else [] := by
    unfold World.exitMarks
    by_cases calls : x.ending.exits (w.visit x.visit).state
    · rw [if_pos calls, World.chainMarks, Mark.acted?_actsOf]
      simp [Stay.state, calls, State.chain, eq_comm]
    · rw [if_neg calls]
      simp [Stay.state, calls]
  simp only [Stay.marks, opening, closing, List.filterMap_append, List.filterMap_cons, launches,
    work, drops, exits, World.chainMarks, Mark.acted?_actsOf, Mark.acted?]
  by_cases here : x.visit = v
  · cases phrase <;> simp [here, State.chain, Stay.state]
  · simp [here]

/-- So does the run that the stay is one of. -/
theorem World.Unfolds.filterMap_acted (h : w.Unfolds r result stays) {x : Stay} (hx : x ∈ stays)
    (phrase : Phrase) : w.marks.filterMap (Mark.acted? x.visit phrase) =
      if phrase = .exit → x.ending.exits (x.state w) then
        List.range ((x.state w).chain phrase).actions.length
      else [] := by
  have own (m : Mark) (other : w.subject? m ≠ some r) : m.acted? x.visit phrase = none := by
    cases m with
    | acted u p k =>
      refine if_neg fun same => other ?_
      rw [same.1]
      exact congrArg some (h.fits x hx).owns.run
    | _ => rfl
  have steady : (w.way r).filterMap (Mark.acted? x.visit phrase) =
      ((w.way r).filter Mark.isSteady).filterMap (Mark.acted? x.visit phrase) := by
    rw [List.filterMap_filter]
    refine List.filterMap_congr fun m _ => ?_
    cases m <;> rfl
  have coda : (Standing.coda r (.finished result)).filterMap (Mark.acted? x.visit phrase) = [] := by
    unfold Standing.coda
    split <;> simp [Mark.acted?]
  rw [← World.filterMap_way own, steady, h.way, List.filterMap_append, List.filterMap_cons_none rfl,
    coda, List.append_nil, Stay.filterMap_stays h.order hx, (h.fits x hx).filterMap_acted]
  · simp
  · intro y hy other
    rw [(h.fits y hy).filterMap_acted, if_neg fun same => other same.1]

/-- Whatever is told of news on the way of a run is told by its stays. -/
theorem World.Unfolds.filterMap_news {α : Type} {f : Mark → Option α}
    (h : w.Unfolds r result stays) (only : ∀ m : Mark, m.isNews = false → f m = none)
    (announced : f (.announced r) = none) (returned : f (.returned r result) = none) :
    (w.way r).filterMap f = stays.flatMap fun x => (x.news w r).filterMap f := by
  have news : (w.way r).filterMap f = ((w.way r).filter Mark.isNews).filterMap f := by
    rw [List.filterMap_filter]
    refine List.filterMap_congr fun m _ => ?_
    split
    · rfl
    · next other => exact only m (by simpa using other)
  have done : (if result = .ok .done then [Mark.announced r] else []).filterMap f = [] := by
    split
    · simp [announced]
    · rfl
  rw [news, World.news_way h.way h.fits, List.filterMap_append, List.filterMap_append, done,
    List.filterMap_flatMap]
  simp [returned]

/-- The observers of a run that has returned are told of the states of its stays. -/
theorem World.Unfolds.told (h : w.Unfolds r result stays) :
    w.told r = stays.map fun x => (x.state w).id := by
  have only (m : Mark) (other : m.isNews = false) : m.told? r = none := by
    cases m <;> first | rfl | cases other
  rw [← World.told_way, h.filterMap_news only rfl rfl, List.map_eq_flatMap]
  refine List.flatMap_congr fun x _ => ?_
  simp [Stay.news, Stay.change, List.filterMap_cons]

namespace Scenario.Reaches

/-- A run that has returned, and was not stopped on its way, has made the hops that the ends of its
stays call for. -/
theorem hops_of_unfolds (h : scn.Reaches w) (unfolds : w.Unfolds r result stays)
    (returned : .returned r result ∈ w.marks) (going : result ≠ .ok .stopped) :
    w.hops r = stays.filterMap fun x => (w.machineOf r).dueHop? (x.state w) x.ending := by
  obtain ⟨a, trail, agrees⟩ := (h.finished returned).course.trail
  have nothing : a.due = [] := by
    rcases agrees with ⟨s, rfl⟩ | ⟨-, stopped, -⟩
    · rfl
    · exact absurd stopped going
  have only (m : Mark) (other : m.isNews = false) : w.dueHop? r m = none := by
    cases m <;> first | rfl | cases other
  have due := trail.due
  rw [nothing, List.append_nil, World.hops_way, unfolds.filterMap_news only rfl rfl] at due
  rw [← due, List.filterMap_eq_flatMap_toList]
  refine List.flatMap_congr fun x _ => ?_
  simp only [Stay.news, List.filterMap_cons, List.filterMap_nil, World.dueHop?, Stay.state]
  split <;> simp [*]

/-- In a stay in a state in which nobody works, no work is set up or done. -/
theorem idle_of_vacant (h : scn.Reaches w) {x : Stay} (fits : x.Fits w r)
    (vacant : (x.state w).IsVacant) :
    w.launchMarks x.visit = [] ∧ x.work = [] ∧ x.drops = [] := by
  refine ⟨?_, List.eq_nil_iff_forall_not_mem.2 fun m hm => ?_,
    List.eq_nil_iff_forall_not_mem.2 fun m hm => ?_⟩
  · unfold World.launchMarks
    rcases vacant with transient | idle
    · exact if_pos transient
    · obtain ⟨services, activities⟩ := State.not_hasWork.1 idle
      have parts : (w.visit x.visit).state.parts = [] := by
        simp [State.parts, show (w.visit x.visit).state.services = [] from services,
          show (w.visit x.visit).state.activities = [] from activities]
      rw [parts]
      split <;> rfl
  · obtain ⟨t, home, -⟩ := fits.work m hm
    exact h.homeless vacant t home
  · obtain ⟨t, home, -⟩ := fits.drops m hm
    exact h.homeless vacant t home

/-- Unless its run was asked to stop, a stay in a state in which nobody works ends in one way. -/
theorem ending_of_vacant (h : scn.Reaches w) (unfolds : w.Unfolds r result stays) {x : Stay}
    (hx : x ∈ stays) (vacant : (x.state w).IsVacant) (free : .stopAsked r ∉ w.marks) :
    x.ending = (x.state w).ownEnding := by
  have fits := unfolds.fits x hx
  unfold State.ownEnding
  split
  · next transient => exact (fits.transient transient).2
  · next stays =>
    rcases h.settled_or_stopped (vacant.resolve_left stays) stays (unfolds.concluded hx) with
      settled | ⟨-, asked⟩
    · exact settled
    · exact absurd (fits.owns.run ▸ asked) free

/-- A run that has returned, without having been asked to stop, from the first state of a chain on
has passed through the chain. -/
theorem traverses (h : scn.Reaches w) (returned : .returned r result' ∈ w.marks)
    (latest : w.IsLatest r) (free : .stopAsked r ∉ w.marks)
    (first : (w.machineOf r).startState = .ok s) (threads : (w.machineOf r).Threads last s path)
    (rests : (w.machineOf r).RestsIn last result) :
    ∃ stays, w.Traverses r (path ++ [last]) result stays := by
  -- The stays of the run are those of the chain, by the course that every run takes.
  have going : result' ≠ .ok .stopped := fun stopped =>
    free (h.asked_of_stopped (stopped ▸ returned))
  obtain ⟨stays, unfolds, comes⟩ := h.unfolds returned
  obtain ⟨x, after, rfl, here⟩ : ∃ x after, stays = x :: after ∧ x.state w = s := by
    cases stays with
    | nil =>
      generalize nothing : ([] : List Stay) = past at comes
      cases comes with
      | stopped => exact absurd rfl going
      | back | done => cases List.append_eq_nil_iff.1 nothing.symm |>.2
    | cons x after =>
      refine ⟨x, after, rfl, ?_⟩
      have initial := (comes.chain.first x rfl).initial
      rw [Machine.find?_of_startState first, Option.some.injEq] at initial
      exact initial.symm
  obtain ⟨rfl, states, endings, hops⟩ := threads.unfolds rests here
    (fun before y rest split => comes.sequel split)
    (fun y hy vacant => h.ending_of_vacant unfolds hy vacant free) going
  have vacant (y : Stay) (hy : y ∈ x :: after) : (y.state w).IsVacant := by
    refine threads.isVacant rests _ ?_
    rw [← states]
    exact List.mem_map_of_mem hy
  have walked := (h.hops_of_unfolds unfolds returned going).trans hops
  refine ⟨x :: after, returned, unfolds, states, endings,
    fun y hy => h.idle_of_vacant (unfolds.fits y hy) (vacant y hy),
    fun y hy phrase => unfolds.filterMap_acted hy phrase, ?_, walked, fun limit steady => ?_⟩
  · rw [unfolds.told, ← states, List.map_map]
    rfl
  · obtain ⟨-, recalled⟩ := h.moment.recalled
    have began := h.moment.began returned rfl rfl
    have same : (w.historyOf r).limit = limit := steady _ List.mem_cons_self
    subst same
    have recalls := recalled r began latest _ fun n hn => Nat.le_of_eq (steady n hn).symm
    rw [← walked]
    exact recalls.eq_drop

end Scenario.Reaches

/-! ## Runs that begin with a chain -/

/-- A run that has only begun is on its way to the initial state of its machine. -/
theorem Scenario.Reaches.startState_of_begun (h : scn.Reaches w)
    (begun : (w.run r).phase = .begun s) : (w.machineOf r).startState = .ok s := by
  have o := h.orderly
  have began := (o.slotted.owner _ r (o.slotted.holder r (.inl (by simp [begun])))).2
  obtain ⟨st, chart⟩ := o.charted r began
  have stands := chart.stands
  simp only [World.standing?_rest, begun, Phase.standing?, Standing.matches_some] at stands
  subst stands
  obtain ⟨past, x, account⟩ := chart.course.account (by simp)
  have leads : Leads w (w.machineOf r) past s none none := account.linked
  cases leads with
  | start first => exact first

namespace Scenario

/-- When the host of a run that has just begun has its turn, and a chain of transient states leads
from the initial state to a last one in which the run comes to rest, then in the same turn, and in
no time, the run returns what comes of the last state, unless it is stopped or something panics
on its way. It has passed through the states of the chain, each of which has carried out its actions
once; its hops are those of the chain, of which the history holds the newest; and no work of any
state was set up. -/
theorem transients_traversed {scn : Scenario} {w : World} {t : TaskId} {r : RunId}
    {s last : State} {path : List State} {result : RunResult} (h : scn.Reaches w)
    (d : w.Drives t r) (begun : (w.run r).phase = .begun s)
    (threads : (w.machineOf r).Threads last s path)
    (rests : (w.machineOf r).RestsIn last result) :
    (w.machineOf r).startState = .ok s ∧
    ∃ n ≤ 3 * path.length + 4, scn.Reaches (w.moves t n) ∧ (w.moves t n).now = w.now ∧
      ((∃ k < n, ((w.moves t k).advance r).2 = .panicked) ∨
        .stopAsked r ∈ (w.moves t n).marks ∨
        ∃ stays, (w.moves t n).Traverses r (path ++ [last]) result stays) := by
  have o := h.orderly
  have first := h.startState_of_begun begun
  have began := (o.slotted.owner _ r (o.slotted.holder r (.inl (by simp [begun])))).2
  -- The first move only notes that the run starts.
  have departs : (w.advance r).2 = .busy ∧
      ((w.advance r).1.run r).phase = .arriving s none none := by
    unfold World.advance
    rw [begun]
    exact ⟨rfl, World.phase_setPhase (w.trace _) r _⟩
  obtain ⟨move, d', machine⟩ := h.goesOn d departs.1
  have closes : World.Closes t r (3 * path.length + 4) w := .goesOn departs.1 <|
    threads.closes rests (h.tail (.move d.turn)) d' machine (move ▸ departs.2)
  -- The host goes on in one turn up to the last move, in which the run returns or panics.
  obtain ⟨n, few, made, drives, ends⟩ := closes.last h d
  have made' : Relation.ReflTransGen World.Next w (w.moves t (n + 1)) :=
    w.moves_succ t n ▸ made.tail (.move drives.turn)
  obtain ⟨reach, -⟩ := h.later made
  obtain ⟨reach', beats⟩ := h.later made'
  refine ⟨first, n + 1, few, reach', w.now_moves t _, ?_⟩
  rcases ends with broken | ⟨result', returned⟩
  · exact .inl ⟨n, Nat.lt_succ_self n, broken⟩
  · refine .inr (Classical.or_iff_not_imp_left.2 fun free => ?_)
    obtain ⟨here, latest⟩ := reach.isLatest_of_returned drives returned
    rw [← World.moves_succ] at here latest
    have same : (w.moves t (n + 1)).machineOf r = w.machineOf r := Beats.machineOf beats o began
    exact reach'.traverses here latest free (same ▸ first) (same ▸ threads) (same ▸ rests)

/-- A transient state that leads on to another. -/
def passing (id target : String) : State :=
  { State.new id with
    mode := .transient
    routes := [(.transient, target)]
    enterActions := ⟨[[.act (.assign "x" 1)]]⟩
    exitActions := ⟨[[], []]⟩ }

/-- A final state in which nothing is to be done. -/
def resting (id : String) : State :=
  { State.new id with mode := .final, cleanup := ⟨[[]]⟩, exitActions := ⟨[[]]⟩ }

/-- Two transient states lead to a final one, past a second state of the id of the first; the
history keeps one hop. -/
def corridor : Scenario where
  machine := ⟨"m", "M", "a", some [passing "a" "b", passing "b" "c", resting "a", resting "c"]⟩
  interpreters := 1
  limit := some 1
  observers := []
  steps := [.run 0 100]

theorem corridor_traversed : ∃ n stays, ((corridor.play 2).moves 0 n).Traverses 0
    [passing "a" "b", passing "b" "c", resting "c"] (.ok .done) stays := by
  have machine : (corridor.play 2).machineOf 0 = corridor.machine := by rfl
  have threads : corridor.machine.Threads (resting "c") (passing "a" "b")
      [passing "a" "b", passing "b" "c"] := by
    have second : corridor.machine.find? "b" = some (passing "b" "c") := rfl
    exact .pass rfl rfl second (.pass rfl rfl rfl .here)
  have rests : corridor.machine.RestsIn (resting "c") (.ok .done) := .done rfl (by decide)
  obtain ⟨-, n, few, -, -, ends⟩ := transients_traversed (corridor.reaches_play 2) (t := 0) (r := 0)
    ⟨by rfl, by rfl⟩ (by rfl) (machine ▸ threads) (machine ▸ rests)
  have calm : ∀ n ≤ 10, .stopAsked 0 ∉ ((corridor.play 2).moves 0 n).marks ∧
      ∀ k < n, (((corridor.play 2).moves 0 k).advance 0).2 ≠ .panicked := by decide +kernel
  rcases ends with ⟨k, early, broken⟩ | asked | ⟨stays, traversed⟩
  · exact absurd broken ((calm n few).2 k early)
  · exact absurd asked (calm n few).1
  · exact ⟨n, stays, traversed⟩

end Scenario

end

end Statechart
