import Mathlib.Data.List.Nodup
import Mathlib.Data.Nat.Find
import Mathlib.Order.WellFounded
import Statechart.Proofs.Departures
import Statechart.Proofs.Timers

/-!
# Races of timers

Several timers work for one visit, and the events of nobody else are accepted on it. The one with
the least delay decides the visit at the moment at which it wakes: the others are asleep until then,
and have no turn afterwards.

## Main definitions

- `World.Fair`: a move in a race of timers.
- `World.Race`: how a race of timers stands while the visit is waited for.
- `World.Contest`: how far a visit has come on which timers race.
- `World.WonBy`: what becomes of a visit that a rival wins.

## Main statements

- `World.Race.step`: every fair move takes a race further.
- `World.Race.finding`: a wait ends with the event of the first timer, at its moment.
- `World.Contest.step`: every fair move takes a contest further, from the wait to the departure.
- `World.Contest.ends`: a contest is over at the moment of the first timer, if time goes on.
- `Scenario.earliest_timer_wins`: what becomes of a visit on which only timers raise events.
-/

namespace Statechart

/-! ## Definitions -/

/-- A move in which the run of a visit is not dropped, and time goes on only when nobody is ready.
Only tasks that race raise events on the visit with success, and while it is waited for, the run
has not been stopped, and none of its other tasks has panicked. -/
structure World.Fair (v : VisitId) (racing : List TaskId) (w w' : World) : Prop where
  next : w.Next w'
  keeps : w.Keeps v w'
  prompt : w'.now = w.now ∨ w.queue = []
  free : (w.runOf v).phase = .waiting v → (w.runOf v).cancelled = false
  calm : (w.runOf v).phase = .waiting v → ∀ t, (w.task t).home = some v → t ∉ racing →
    (w.task t).fate ≠ some .panicked
  raised : ∀ d, .raised v d true ∈ w'.marks →
    .raised v d true ∈ w.marks ∨ ∃ t ∈ racing, w.running = some t

/-- The tasks of timers that work for a visit, one of which has less delay than all others. -/
structure Racers (s : State) (v : VisitId) (racers : List (TaskId × Timer))
    (first : TaskId × Timer) : Prop where
  works : ∀ y ∈ racers, y.2.Works v
  mem : first ∈ racers
  least : ∀ y ∈ racers, y ≠ first → first.2.delay < y.2.delay
  admits : s.admits first.2.decision = true

/-- How a race stands that began at a time: no event has been accepted, or that of the first
timer has. -/
inductive World.Race (w : World) (v : VisitId) (τ : Nat) (racers : List (TaskId × Timer))
    (first : TaskId × Timer) : Prop where
  | undecided (silent : ∀ d, .raised v d true ∉ w.marks) (early : w.now ≤ τ + first.2.delay)
      (timing : ∀ y ∈ racers, w.Timing y.1 y.2 τ)
  | decided (raised : .raised v first.2.decision true ∈ w.marks)
      (now : w.now = τ + first.2.delay) (timing : ∀ y ∈ racers, y ≠ first → w.Timing y.1 y.2 τ)

/-- How far a visit has come on which timers race: it is waited for, or it is being left on the
event of the first timer at its moment, or it has been left. -/
inductive World.Contest (w : World) (v : VisitId) (s : State) (τ : Nat)
    (racers : List (TaskId × Timer)) (first : TaskId × Timer) : Prop where
  | racing (phase : (w.runOf v).phase = .waiting v) (state : (w.visit v).state = s)
      (race : w.Race v τ racers first)
  | leaving (departs : w.Departs v (.decided first.2.decision)) (state : (w.visit v).state = s)
      (raised : .raised v first.2.decision true ∈ w.marks) (now : w.now = τ + first.2.delay)
  | gone (left : .left v ∈ w.marks)
      (past : .concluded v (.decided first.2.decision) ∈ w.marks)
      (raised : .raised v first.2.decision true ∈ w.marks)

/-- The tasks of rivals among those of a visit, which lists the tasks of services in order. -/
def World.tasksOf (w : World) (v : VisitId) (rivals : List Rival) : List TaskId :=
  rivals.filterMap fun x => (w.visit v).working[x.position]?

/-- A visit that has just been entered is won by a rival, in fair moves. -/
structure World.WonBy (w : World) (v : VisitId) (rivals : List Rival) (first : Rival) : Prop where
  /-- Until it is left, time does not pass the moment of the rival, and there is a next move. -/
  goesOn : ∀ w', Relation.ReflTransGen (World.Fair v (w.tasksOf v rivals)) w w' →
    .left v ∉ w'.marks → w'.now ≤ w.now + first.delay ∧
      ((w'.task (w'.runOf v).host).aborted = false → ∃ w'', w'.step? = some w'')
  /-- It is left at that moment, and the run goes where the event of the rival leads. -/
  leaves : ∀ w' w'', Relation.ReflTransGen (World.Fair v (w.tasksOf v rivals)) w w' →
    w'.Fair v (w.tasksOf v rivals) w'' → .left v ∉ w'.marks → .left v ∈ w''.marks →
      w''.now = w.now + first.delay ∧ ∃ target,
        (w.visit v).state.targetOf first.event = some target ∧
          w'.LedTo w'' v first.decision target
  /-- It is left some time, unless time stands still for good because somebody is always ready. -/
  ends : ∀ x : Nat → World, x 0 = w →
    (∀ n, .left v ∉ (x n).marks → (x n).Fair v (w.tasksOf v rivals) (x (n + 1))) →
      (∃ n, .left v ∈ (x n).marks ∧ (x n).now = w.now + first.delay) ∨
        ∃ n, ∀ m ≥ n, (x m).now = (x n).now
  /-- The task of any other rival says nothing in its turns, and has none once the wait is over,
  whatever happens then. -/
  losers : ∀ y ∈ rivals, y ≠ first → ∀ t, (w.visit v).working[y.position]? = some t →
    ∀ w', Relation.ReflTransGen (World.Fair v (w.tasksOf v rivals)) w w' →
      (∀ w'', w'.Fair v (w.tasksOf v rivals) w'' → .left v ∉ w'.marks → w'.running = some t →
        w''.marks = w'.marks) ∧
      ∀ e, .concluded v e ∈ w'.marks → ∀ w'', Relation.ReflTransGen World.Next w' w'' →
        w''.running ≠ some t
  /-- No other event is ever accepted on it. -/
  accepted : ∀ w', Relation.ReflTransGen (World.Fair v (w.tasksOf v rivals)) w w' →
    ∀ e, .concluded v e ∈ w'.marks → ∀ w'', Relation.ReflTransGen World.Next w' w'' →
      ∀ d, .raised v d true ∈ w''.marks → d = first.decision

section

variable {scn : Scenario} {w w' : World} {v : VisitId} {τ : Nat} {racers : List (TaskId × Timer)}
  {first y : TaskId × Timer} {s : State} {e : Ending}

namespace World

/-! ## Waits that an event is about to end -/

/-- The host of a visit that is waited for is up as soon as an event has been accepted. -/
theorem isUp_of_raised (h : scn.Reaches w) (phase : (w.runOf v).phase = .waiting v)
    (whole : (w.task (w.runOf v).host).aborted = false) {d : Decision}
    (raised : .raised v d true ∈ w.marks) : w.IsUp (w.runOf v).host := by
  have news : (w.visit v).inbox = some d := by
    rw [← mem_accepted, h.raced.1.accepted] at raised
    exact Option.mem_toList.1 raised
  exact h.awake.isUp phase news whole

namespace Race

theorem now_le (race : w.Race v τ racers first) : w.now ≤ τ + first.2.delay := by
  cases race with
  | undecided _ early => exact early
  | decided _ now => exact Nat.le_of_eq now

/-- While nobody is ready, the first timer is asleep. -/
theorem asleep (race : w.Race v τ racers first) (h : scn.Reaches w)
    (phase : (w.runOf v).phase = .waiting v) (whole : (w.task (w.runOf v).host).aborted = false)
    (r : Racers s v racers first) (free : w.running = none) (empty : w.queue = []) :
    (w.task first.1).deadline? = some (τ + first.2.delay) ∧ w.now < τ + first.2.delay := by
  have nobody (t : TaskId) : ¬ w.IsUp t := by
    rintro (turn | ready)
    · cases free.symm.trans turn
    · rw [empty] at ready
      cases ready
  cases race with
  | undecided silent early timing =>
    cases timing first r.mem with
    | fresh minds up now => exact absurd up (nobody _)
    | asleep minds due =>
      exact ⟨(r.works first r.mem).deadline?_asleep minds,
        Nat.not_le.1 fun late => nobody _ (due late)⟩
    | awake minds turn now => exact absurd (.inl turn) (nobody _)
  | decided raised now timing => exact absurd (isUp_of_raised h phase whole raised) (nobody _)

/-- Time does not pass the moment of the first timer. -/
theorem now_le_next (race : w.Race v τ racers first) (h : scn.Reaches w) (a : w.Awaits v)
    (r : Racers s v racers first) (next : w.Next w') (prompt : w'.now = w.now ∨ w.queue = []) :
    w'.now = w.now ∨ w.now < τ + first.2.delay ∧ w'.now ≤ τ + first.2.delay := by
  rcases next.now_eq with same | ⟨free, later⟩
  · exact .inl same
  · rcases prompt with same | empty
    · exact .inl same
    · obtain ⟨waits, early⟩ := race.asleep h a.phase a.whole r free empty
      obtain ⟨time, soon, found⟩ := nextDeadline?_le waits
      obtain ⟨time', found', rfl⟩ := advanceClock?_eq later
      cases found.symm.trans found'
      rw [now_wakeAll_dueTasks]
      exact .inr ⟨early, Nat.max_le.2 ⟨Nat.le_of_lt early, soon⟩⟩

/-- A timer that is awake is the first, and nothing has been accepted yet. -/
theorem eq_first (race : w.Race v τ racers first) (r : Racers s v racers first)
    (mem : y ∈ racers) (now : w.now = τ + y.2.delay) : y = first := by
  refine Classical.byContradiction fun other => ?_
  have late := r.least y mem other
  have early := race.now_le
  omega

/-- Every fair move takes a race further. -/
theorem step (race : w.Race v τ racers first) (h : scn.Reaches w) (a : w.Awaits v)
    (r : Racers s v racers first) (state : (w.visit v).state = s)
    (fair : w.Fair v (racers.map Prod.fst) w') : w'.Race v τ racers first := by
  have early (y : TaskId × Timer) (mem : y ∈ racers) : w.now ≤ τ + y.2.delay := by
    by_cases same : y = first
    · exact same ▸ race.now_le
    · have late := r.least y mem same
      have soon := race.now_le
      omega
  have next := race.now_le_next h a r fair.next fair.prompt
  have goes (y : TaskId × Timer) (mem : y ∈ racers) (timing : w.Timing y.1 y.2 τ) :=
    timing.step h a (r.works y mem) (early y mem) fair.next fair.prompt
  -- Whoever loses is not awake.
  have others (y : TaskId × Timer) (mem : y ∈ racers) (other : y ≠ first)
      (timing : w.Timing y.1 y.2 τ) :
      w'.Timing y.1 y.2 τ ∧ (w.running = some y.1 → w'.marks = w.marks) :=
    (goes y mem timing).resolve_left fun ⟨_, now, _⟩ => other (race.eq_first r mem now)
  cases race with
  | undecided silent soon timing =>
    rcases goes first r.mem (timing first r.mem) with ⟨turn, now, minds⟩ | ⟨timing', quiet⟩
    · have job : ∀ steps doing, (w.task first.1).job ≠ .control steps doing := by
        intro steps doing other
        cases other.symm.trans minds.job
      obtain rfl := Timing.eq_move fair.next turn job
      have accepted := h.raise_accepted a.phase (state ▸ r.admits) silent
      have fires := (r.works first r.mem).fires w first.1 (a.isCancelled h) accepted minds
      refine .decided fires ((now_move ..).trans now) fun y mem other => ?_
      exact (others y mem other (timing y mem)).1
    · refine .undecided (fun d raised => ?_) ?_ fun y mem => ?_
      · rcases fair.raised d raised with old | ⟨t, racing, turn⟩
        · exact silent d old
        · obtain ⟨y, mem, rfl⟩ := List.mem_map.1 racing
          have same : w'.marks = w.marks := by
            by_cases mine : y = first
            · exact quiet (mine ▸ turn)
            · exact (others y mem mine (timing y mem)).2 turn
          exact silent d (same ▸ raised)
      · rcases next with same | ⟨-, late⟩
        · exact same ▸ soon
        · exact late
      · by_cases mine : y = first
        · exact mine ▸ timing'
        · exact (others y mem mine (timing y mem)).1
  | decided raised now timing =>
    have beats := Beats.next h.sound fair.next
    refine .decided (beats.mem h.orderly raised) ?_ fun y mem other => ?_
    · rcases next with same | ⟨soon, -⟩
      · exact same.trans now
      · exact absurd now (Nat.ne_of_lt soon)
    · exact (others y mem other (timing y mem other)).1

/-- A poll that finds something finds the event of the first timer, at its moment. -/
theorem finding (race : w.Race v τ racers first) (h : scn.Reaches w) (a : w.Awaits v)
    (r : Racers s v racers first) (calm : ∀ t, (w.task t).home = some v →
      t ∉ racers.map Prod.fst → (w.task t).fate ≠ some .panicked)
    (found : w.finding? v = some e) :
    e = .decided first.2.decision ∧ .raised v first.2.decision true ∈ w.marks ∧
      w.now = τ + first.2.delay := by
  cases race with
  | undecided silent early timing =>
    -- Nothing has been accepted, and the first timer is still at work, so the poll finds nothing.
    have engaged : w.Engaged v := by
      obtain ⟨alive, home⟩ := (timing first r.mem).serves (r.works first r.mem)
      refine ⟨.inl ⟨first.1, home, alive⟩, fun t home panicked => ?_, silent, a.free⟩
      by_cases racing : t ∈ racers.map Prod.fst
      · obtain ⟨y, mem, rfl⟩ := List.mem_map.1 racing
        obtain ⟨alive, -⟩ := (timing y mem).serves (r.works y mem)
        rw [Task.isAlive, panicked] at alive
        cases alive
      · exact calm t home racing panicked
    cases found.symm.trans (finding?_of_engaged h.staffed h.raced.1 engaged)
  | decided raised now timing =>
    have news : (w.visit v).inbox = some first.2.decision := by
      rw [← mem_accepted, h.raced.1.accepted] at raised
      exact Option.mem_toList.1 raised
    have finds : w.finding? v = some (.decided first.2.decision) := by
      simp [finding?, a.free, news]
    cases found.symm.trans finds
    exact ⟨rfl, raised, now⟩

/-- A timer that loses says nothing in its turns. -/
theorem quiet (race : w.Race v τ racers first) (h : scn.Reaches w) (a : w.Awaits v)
    (r : Racers s v racers first) (mem : y ∈ racers) (other : y ≠ first)
    (turn : w.running = some y.1) (fair : w.Fair v (racers.map Prod.fst) w') :
    w'.marks = w.marks := by
  have late := r.least y mem other
  have soon := race.now_le
  have timing : w.Timing y.1 y.2 τ := by
    cases race with
    | undecided _ _ timing => exact timing y mem
    | decided _ _ timing => exact timing y mem other
  have goes := timing.step h a (r.works y mem) (by omega) fair.next fair.prompt
  exact (goes.resolve_left fun ⟨_, now, _⟩ => other (race.eq_first r mem now)).2 turn

/-- A race is not over as long as nobody is ready, so there is a next move. -/
theorem ticks (race : w.Race v τ racers first) (h : scn.Reaches w)
    (phase : (w.runOf v).phase = .waiting v) (whole : (w.task (w.runOf v).host).aborted = false)
    (r : Racers s v racers first) : ∃ w', w.step? = some w' := by
  cases turn : w.running with
  | some t => exact ⟨w.move t, by rw [step?, turn]⟩
  | none =>
    cases ready : w.queue with
    | cons t rest => exact ⟨w.beginTurn t, by rw [step?, turn, ready]⟩
    | nil =>
      obtain ⟨time, -, found⟩ := nextDeadline?_le (race.asleep h phase whole r turn ready).1
      simp only [step?, turn, ready, advanceClock?, found, Option.map_some]
      exact ⟨_, rfl⟩

end Race

end World

namespace World

/-! ## From the entry of a state to its end -/

namespace Contest

variable {target : String}

/-- Every fair move takes a contest further. A visit is left at the moment of the first timer, by
going where its event leads. -/
theorem step (c : w.Contest v s τ racers first) (h : scn.Reaches w) (r : Racers s v racers first)
    (goes : s.resolve first.2.decision = .move target)
    (fair : w.Fair v (racers.map Prod.fst) w') :
    w'.Contest v s τ racers first ∧
      (.left v ∉ w.marks → .left v ∈ w'.marks →
        w'.now = τ + first.2.delay ∧ w.LedTo w' v first.2.decision target) := by
  have beats := Beats.next h.sound fair.next
  have h' : scn.Reaches w' := h.tail fair.next
  cases c with
  | racing phase state race =>
    have a : w.Awaits v := ⟨phase, fair.free phase, fair.keeps.whole⟩
    have own := h.sound.waits _ v (congrArg Phase.visit? phase)
    have state' : (w'.visit v).state = s := (beats.lasting.state v own.known).trans state
    rcases h.waits_on phase fair.next fair.keeps with phase' | ⟨turn, rfl, e, found⟩
    · refine ⟨.racing phase' state' (race.step h a r state fair), fun _ left => ?_⟩
      exact absurd left (h'.not_left (congrArg Phase.visit? phase'))
    · obtain ⟨rfl, raised, now⟩ := race.finding h a r (fair.calm phase) found
      have raised' := beats.mem h.orderly raised
      have now' := (now_move w (w.runOf v).host).trans now
      have polls : w.Polls v := ⟨turn, phase⟩
      rcases h.departs polls found with departs | ⟨panics, ended, left⟩
      · refine ⟨.leaving departs state' raised' now', fun _ left => ?_⟩
        exact absurd left (h'.not_left (congrArg Phase.visit? departs.phase))
      · have past := (polls.ends h.sound found).marks.subset
          (show .concluded v (.decided first.2.decision) ∈ _ by rw [marks_mark]; simp)
        exact ⟨.gone left past raised', fun _ _ => ⟨now', .panics (.inl panics) ended⟩⟩
  | leaving departs state raised now =>
    have own := h.sound.waits _ v (congrArg Phase.visit? departs.phase)
    have state' : (w'.visit v).state = s := (beats.lasting.state v own.known).trans state
    have raised' := beats.mem h.orderly raised
    have now' := (departs.now_eq fair.next fair.prompt).trans now
    rcases departs.step h fair.next fair.keeps with departs' | ⟨turn, rfl, gone⟩
    · refine ⟨.leaving departs' state' raised' now', fun _ left => ?_⟩
      exact absurd left (h'.not_left (congrArg Phase.visit? departs'.phase))
    · obtain ⟨left, led⟩ := departs.led h turn gone (state ▸ goes)
      have past := beats.mem h.orderly (h.concluded departs.phase)
      exact ⟨.gone left past raised', fun _ _ => ⟨now', led⟩⟩
  | gone left past raised =>
    refine ⟨.gone (beats.mem h.orderly left) (beats.mem h.orderly past)
      (beats.mem h.orderly raised), fun new => absurd left new⟩

/-- A contest goes on as long as its moves are fair. -/
theorem path (c : w.Contest v s τ racers first) (h : scn.Reaches w) (r : Racers s v racers first)
    (goes : s.resolve first.2.decision = .move target)
    (path : Relation.ReflTransGen (World.Fair v (racers.map Prod.fst)) w w') :
    scn.Reaches w' ∧ w'.Contest v s τ racers first := by
  induction path with
  | refl => exact ⟨h, c⟩
  | tail _ fair ih => exact ⟨ih.1.tail fair.next, (ih.2.step ih.1 r goes fair).1⟩

/-- A contest is not over before the visit has been left. -/
theorem goesOn (c : w.Contest v s τ racers first) (h : scn.Reaches w) (r : Racers s v racers first)
    (new : .left v ∉ w.marks) : w.now ≤ τ + first.2.delay ∧
      ((w.task (w.runOf v).host).aborted = false → ∃ w', w.step? = some w') := by
  cases c with
  | racing phase state race => exact ⟨race.now_le, fun whole => race.ticks h phase whole r⟩
  | leaving departs state raised now =>
    refine ⟨Nat.le_of_eq now, fun _ => ?_⟩
    obtain ⟨t, turn | ready⟩ := departs.exists_isUp
    · exact ⟨w.move t, by rw [step?, turn]⟩
    · cases turn : w.running with
      | some u => exact ⟨w.move u, by rw [step?, turn]⟩
      | none =>
        obtain ⟨u, rest, queue⟩ := List.exists_cons_of_ne_nil (List.ne_nil_of_mem ready)
        exact ⟨w.beginTurn u, by rw [step?, turn, queue]⟩
  | gone left => exact absurd left new

/-- A timer that loses says nothing until the visit has been left. -/
theorem quiet (c : w.Contest v s τ racers first) (h : scn.Reaches w) (r : Racers s v racers first)
    (mem : y ∈ racers) (other : y ≠ first) (home : (w.task y.1).home = some v)
    (fair : w.Fair v (racers.map Prod.fst) w') (new : .left v ∉ w.marks)
    (turn : w.running = some y.1) : w'.marks = w.marks := by
  cases c with
  | racing phase state race =>
    exact race.quiet h ⟨phase, fair.free phase, fair.keeps.whole⟩ r mem other turn fair
  | leaving departs state raised now => exact absurd turn (departs.off h home)
  | gone left => exact absurd left new

/-- Once the wait of the visit is over, the event of the first timer has been accepted on it. -/
theorem raised (c : w.Contest v s τ racers first) (h : scn.Reaches w)
    (past : .concluded v e ∈ w.marks) : .raised v first.2.decision true ∈ w.marks := by
  cases c with
  | racing phase state race => exact absurd past (h.raced.2.unconcluded phase e)
  | leaving departs state raised now => exact raised
  | gone left past raised => exact raised

end Contest

end World

namespace Scenario.Reaches

/-- Once the wait of a visit is over, none of its tasks has a turn. -/
theorem off_turn (h : scn.Reaches w) (past : .concluded v e ∈ w.marks) {t : TaskId}
    (home : (w.task t).home = some v) : w.running ≠ some t := fun turn =>
  h.raced.2.unconcluded (h.orderly.loyal.turn t v turn home) e past

/-- One event at most is accepted on a visit. -/
theorem raised_unique (h : scn.Reaches w) {d d' : Decision} (raised : .raised v d true ∈ w.marks)
    (raised' : .raised v d' true ∈ w.marks) : d = d' := by
  rw [← World.mem_accepted, h.raced.1.accepted, Option.mem_toList] at raised raised'
  exact Option.some.inj (raised.symm.trans raised')

end Scenario.Reaches

/-- Time that goes on, but not past a moment, stands still some time. -/
theorem exists_still {time : Nat → Nat} {b : Nat} (goesOn : ∀ n, time n ≤ time (n + 1))
    (early : ∀ n, time n ≤ b) : ∃ n, ∀ m ≥ n, time m = time n := by
  have mono : Monotone time := monotone_nat_of_le_succ goesOn
  obtain ⟨n, -, least⟩ := WellFounded.has_min (measure fun n => b - time n).wf Set.univ ⟨0, trivial⟩
  refine ⟨n, fun m later => Nat.le_antisymm ?_ (mono later)⟩
  have closest : ¬ b - time m < b - time n := least m trivial
  have here := early n
  have there := early m
  omega

/-- However a visit on which timers race goes on, it is left at the moment of the first timer, or
time stands still for good. -/
theorem World.Contest.ends {target : String} (c : w.Contest v s τ racers first)
    (h : scn.Reaches w) (r : Racers s v racers first)
    (goes : s.resolve first.2.decision = .move target) (new : .left v ∉ w.marks) (x : Nat → World)
    (start : x 0 = w)
    (fair : ∀ n, .left v ∉ (x n).marks → (x n).Fair v (racers.map Prod.fst) (x (n + 1))) :
    (∃ n, .left v ∈ (x n).marks ∧ (x n).now = τ + first.2.delay) ∨
      ∃ n, ∀ m ≥ n, (x m).now = (x n).now := by
  -- As long as the visit is not left, the contest goes on.
  have here (n : Nat) (never : ∀ m < n, .left v ∉ (x m).marks) :
      scn.Reaches (x n) ∧ (x n).Contest v s τ racers first := by
    induction n with
    | zero => exact start ▸ ⟨h, c⟩
    | succ n ih =>
      obtain ⟨h', c'⟩ := ih fun m few => never m (Nat.lt_succ_of_lt few)
      have next := fair n (never n (Nat.lt_succ_self n))
      exact ⟨h'.tail next.next, (c'.step h' r goes next).1⟩
  by_cases left : ∃ n, .left v ∈ (x n).marks
  -- The first move after which the visit has been left is made in a contest.
  · obtain ⟨n, past, least⟩ : ∃ n, .left v ∈ (x n).marks ∧ ∀ m < n, .left v ∉ (x m).marks := by
      classical
      exact ⟨Nat.find left, Nat.find_spec left, fun m few => Nat.find_min left few⟩
    cases n with
    | zero => exact absurd (start ▸ past) new
    | succ n =>
      obtain ⟨h', c'⟩ := here n fun m few => least m (Nat.lt_succ_of_lt few)
      have new := least n (Nat.lt_succ_self n)
      exact .inl ⟨n + 1, past, ((c'.step h' r goes (fair n new)).2 new past).1⟩
  -- If it is never left, the clock does not pass the moment of the first timer, so it comes to a
  -- stand.
  · have never (n : Nat) : .left v ∉ (x n).marks := fun here => left ⟨n, here⟩
    refine .inr (exists_still (b := τ + first.2.delay) (fun n => (fair n (never n)).next.now_le)
      fun n => ?_)
    obtain ⟨h', c'⟩ := here n fun m _ => never m
    exact (c'.goesOn h' r (never n)).1

/-- A visit that timers race on from its entry is won by the first of them. -/
theorem World.Race.wonBy {rivals : List Rival} {x : Rival} {target : String}
    (race : w.Race v w.now racers first) (h : scn.Reaches w) (r : Racers s v racers first)
    (phase : (w.runOf v).phase = .waiting v) (state : (w.visit v).state = s)
    (leads : s.targetOf x.event = some target) (goes : s.resolve x.decision = .move target)
    (tasks : w.tasksOf v rivals = racers.map Prod.fst)
    (decision : first.2.decision = x.decision) (delay : first.2.delay = x.delay)
    (others : ∀ y ∈ rivals, y ≠ x → ∀ t, (w.visit v).working[y.position]? = some t →
      ∃ z ∈ racers, z ≠ first ∧ z.1 = t) : w.WonBy v rivals x := by
  rw [← decision] at goes
  -- Every world on the way is in the contest.
  have c : w.Contest v s w.now racers first := .racing phase state race
  have new : .left v ∉ w.marks := h.not_left (congrArg Phase.visit? phase)
  have path {w' : World} (p : Relation.ReflTransGen (World.Fair v (w.tasksOf v rivals)) w w') :
      scn.Reaches w' ∧ w'.Contest v s w.now racers first := c.path h r goes (tasks ▸ p)
  constructor
  case goesOn =>
    intro w' p new
    obtain ⟨h', c'⟩ := path p
    exact delay ▸ c'.goesOn h' r new
  case leaves =>
    intro w' w'' p fair new left
    obtain ⟨h', c'⟩ := path p
    obtain ⟨now, led⟩ := (c'.step h' r goes (tasks ▸ fair)).2 new left
    exact ⟨delay ▸ now, target, state ▸ leads, decision ▸ led⟩
  case ends =>
    intro x start fair
    exact delay ▸ c.ends h r goes new x start fun n new => tasks ▸ fair n new
  case losers =>
    intro y mem other t listed w' p
    obtain ⟨h', c'⟩ := path p
    have later : Relation.ReflTransGen World.Next w w' :=
      Relation.ReflTransGen.mono (fun _ _ => World.Fair.next) _ _ p
    have beats := (h.later later).2
    have home : (w'.task t).home = some v :=
      (Beats.lasting beats).homes (h.staffed.listed t v (List.mem_of_getElem? listed))
    refine ⟨fun w'' fair new turn => ?_, fun e past w'' later => ?_⟩
    · obtain ⟨z, mem', other', rfl⟩ := others y mem other t listed
      exact c'.quiet h' r mem' other' home (tasks ▸ fair) new turn
    · obtain ⟨h'', beats⟩ := h'.later later
      exact h''.off_turn (Beats.mem beats h'.orderly past) ((Beats.lasting beats).homes home)
  case accepted =>
    intro w' p e past w'' later d raised
    obtain ⟨h', c'⟩ := path p
    obtain ⟨h'', beats⟩ := h'.later later
    rw [← decision]
    exact h''.raised_unique raised (Beats.mem beats h'.orderly (c'.raised h' past))

/-- Of rivals with different delays, one has less delay than all others. -/
theorem exists_first {rivals : List Rival} (any : rivals ≠ [])
    (apart : (rivals.map Rival.delay).Nodup) :
    ∃ first ∈ rivals, ∀ x ∈ rivals, x ≠ first → first.delay < x.delay := by
  obtain ⟨least, found⟩ : ∃ least, (rivals.map Rival.delay).min? = some least := by
    cases found : (rivals.map Rival.delay).min? with
    | none => exact absurd (List.map_eq_nil_iff.1 (List.min?_eq_none_iff.1 found)) any
    | some least => exact ⟨least, rfl⟩
  obtain ⟨listed, least⟩ := List.min?_eq_some_iff.1 found
  obtain ⟨first, mem, rfl⟩ := List.mem_map.1 listed
  refine ⟨first, mem, fun x mem' other => ?_⟩
  refine Nat.lt_of_le_of_ne (least _ (List.mem_map_of_mem mem')) fun same => ?_
  exact other (List.inj_on_of_nodup_map apart mem' mem same.symm)

/-- When a state has just been entered, each rival has the task of a timer, which has not had a
turn yet. -/
theorem Scenario.Reaches.hired_rivals {t : TaskId} {r : RunId} {p : Option String}
    {c : Option Decision} {rivals : List Rival} (h : scn.Reaches w) (d : w.Drives t r)
    (phase : (w.run r).phase = .arriving s p c) (waits : ((w.move t).run r).phase = .waiting v)
    (normal : s.mode = .normal) (competes : ∀ x ∈ rivals, s.Competes x) :
    ∃ racer : Rival → TaskId × Timer, ∀ x ∈ rivals,
      ((w.move t).visit v).working[x.position]? = some (racer x).1 ∧
        (w.move t).Hired (racer x).1 (racer x).2.task ∧ (racer x).2.delay = x.delay ∧
        (racer x).2.decision = x.decision ∧ (racer x).2.Works v := by
  obtain ⟨-, hired⟩ := h.hired d phase (by simp [normal]) waits
  have each (x : Rival) : ∃ z : TaskId × Timer, x ∈ rivals →
      ((w.move t).visit v).working[x.position]? = some z.1 ∧
        (w.move t).Hired z.1 z.2.task ∧ z.2.delay = x.delay ∧ z.2.decision = x.decision ∧
        z.2.Works v := by
    by_cases competing : x ∈ rivals
    · obtain ⟨service, timer, part, hire, delay, decision, works⟩ := (competes x competing).timer v
      obtain ⟨u, listed, -, ready⟩ := hired x.position service part
      exact ⟨⟨u, timer⟩, fun _ => ⟨listed, ready timer.task hire, delay, decision, works⟩⟩
    · exact ⟨⟨0, Timer.ofTimeout v 0 0⟩, fun mem => absurd mem competing⟩
  exact Classical.skolem.1 each

/-- In a normal state, some services are timers of different delays: timeouts, or services that
sleep and then raise an event, each of which leads somewhere. No other event is accepted in the
state, nothing panics, and the run is neither stopped nor dropped. Then the state is left at the
moment of the timer with the least delay, to where its event leads, and no other of the timers has
an event accepted then or ever after. -/
theorem Scenario.earliest_timer_wins {t : TaskId} {r : RunId} {p : Option String}
    {c : Option Decision} {rivals : List Rival} (h : scn.Reaches w) (d : w.Drives t r)
    (phase : (w.run r).phase = .arriving s p c) (waits : ((w.move t).run r).phase = .waiting v)
    (normal : s.mode = .normal) (any : rivals ≠ []) (competes : ∀ x ∈ rivals, s.Competes x)
    (apart : (rivals.map Rival.delay).Nodup)
    (silent : ∀ d, .raised v d true ∉ (w.move t).marks) :
    ∃ first ∈ rivals, (∀ x ∈ rivals, x ≠ first → first.delay < x.delay) ∧
      (w.move t).now = w.now ∧ (w.move t).WonBy v rivals first := by
  obtain ⟨first, mem, least⟩ := exists_first any apart
  refine ⟨first, mem, least, World.now_move .., ?_⟩
  have h' : scn.Reaches (w.move t) := h.tail (.move d.turn)
  obtain ⟨state, -⟩ := h.hired d phase (by simp [normal]) waits
  have here : ((w.move t).runOf v).phase = .waiting v := by
    unfold World.runOf
    rw [(h'.sound.waits r v (congrArg Phase.visit? waits)).run]
    exact waits
  obtain ⟨racer, spec⟩ := h.hired_rivals d phase waits normal competes
  have timing (x : Rival) (mem : x ∈ rivals) :
      (w.move t).Timing (racer x).1 (racer x).2 (w.move t).now := by
    obtain ⟨-, ready, -⟩ := spec x mem
    exact .fresh ready.minds (.inr ready.ready) rfl
  have distinct (x : Rival) (mem' : x ∈ rivals) (other : x ≠ first) :
      (racer first).2.delay < (racer x).2.delay := by
    rw [(spec first mem).2.2.1, (spec x mem').2.2.1]
    exact least x mem' other
  obtain ⟨target, leads⟩ := (competes first mem).targetOf
  have goes : s.resolve first.decision = .move target := by
    simp [State.resolve, normal, Rival.decision, leads]
  have racers : Racers s v (rivals.map racer) (racer first) := by
    refine ⟨fun y listed => ?_, List.mem_map_of_mem mem, fun y listed other => ?_, ?_⟩
    · obtain ⟨x, mem, rfl⟩ := List.mem_map.1 listed
      exact (spec x mem).2.2.2.2
    · obtain ⟨x, mem', rfl⟩ := List.mem_map.1 listed
      exact distinct x mem' fun same => other (same ▸ rfl)
    · rw [(spec first mem).2.2.2.1]
      simp [State.admits, normal, Rival.decision, leads]
  have race : (w.move t).Race v (w.move t).now (rivals.map racer) (racer first) := by
    refine .undecided silent (Nat.le_add_right ..) fun y listed => ?_
    obtain ⟨x, mem, rfl⟩ := List.mem_map.1 listed
    exact timing x mem
  refine race.wonBy h' racers here state leads goes ?_ (spec first mem).2.2.2.1
    (spec first mem).2.2.1 fun x mem' other u listed => ?_
  · have listed (x : Rival) (mem : x ∈ rivals) :
        ((w.move t).visit v).working[x.position]? = some (racer x).1 := (spec x mem).1
    rw [World.tasksOf, List.filterMap_congr listed, List.map_map]
    exact congrFun List.filterMap_eq_map rivals
  · refine ⟨racer x, List.mem_map_of_mem mem', fun same => ?_, ?_⟩
    · have late := distinct x mem' other
      rw [same] at late
      exact absurd late (Nat.lt_irrefl _)
    · exact Option.some.inj ((spec x mem').1.symm.trans listed)

end

/-- Two timeouts and a service that sleeps and then raises an event race beside a loop. -/
def sprint : Scenario where
  machine := ⟨"m", "M", "a", some [
    { State.new "a" with
      routes := [(.succeeded 0, "c"), (.named "go", "b"), (.succeeded 2, "c")]
      services := [.routed (State.timer 30),
        .free { body := [.pause (.sleep 10), .act (.raise "go")] },
        .routed (State.timer 20)]
      activities := [{ body := [.loop 3 [.pause (.sleep 4)]] }] },
    State.new "b", State.new "c"]⟩
  interpreters := 1
  limit := none
  observers := []
  steps := [.run 0 100]

/-- The timers of the first state. -/
def sprinters : List Rival :=
  [⟨0, 30, .succeeded 0⟩, ⟨1, 10, .named "go"⟩, ⟨2, 20, .succeeded 2⟩]

/-- The service wins, at its moment. -/
theorem sprint_won :
    ((sprint.play 3).move 0).WonBy 0 sprinters ⟨1, 10, .named "go"⟩ ∧
    ((sprint.play 3).move 0).now = 0 ∧ .left 0 ∉ (sprint.play 40).marks ∧
    .left 0 ∈ (sprint.play 41).marks ∧ (sprint.play 41).now = 10 := by
  have drives : (sprint.play 3).Drives 0 0 := ⟨by decide +kernel, by decide +kernel⟩
  have silent (d : Decision) : .raised 0 d true ∉ ((sprint.play 3).move 0).marks := by
    have none : ((sprint.play 3).move 0).accepted 0 = [] := by decide +kernel
    rw [← World.mem_accepted, none]
    exact List.not_mem_nil
  obtain ⟨first, mem, least, -, won⟩ := Scenario.earliest_timer_wins (sprint.reaches_play 3) drives
    (by rfl) (by rfl) (by rfl) (show sprinters ≠ [] by decide) (by
      simp only [sprinters, List.forall_mem_cons, List.not_mem_nil, false_imp_iff, implies_true,
        and_true]
      exact ⟨.timeout rfl rfl, .sleeper rfl rfl, .timeout rfl rfl⟩) (by decide) silent
  have quickest : first = ⟨1, 10, .named "go"⟩ := by
    refine Classical.byContradiction fun other => ?_
    have late := least ⟨1, 10, .named "go"⟩ (by simp [sprinters]) (Ne.symm other)
    simp only [sprinters, List.mem_cons, List.not_mem_nil, or_false] at mem
    rcases mem with rfl | rfl | rfl
    · exact absurd late (by decide)
    · exact other rfl
    · exact absurd late (by decide)
  exact ⟨quickest ▸ won, by decide +kernel, by decide +kernel, by decide +kernel,
    by decide +kernel⟩

end Statechart
