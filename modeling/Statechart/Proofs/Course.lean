import Statechart.Proofs.Records

/-!
# The course of a run

In which order the marks of a run may come: as a walk from standing to standing, each leg of which
leaves some marks behind. What a walk has left so far is accounted for by the stays that are over
and the one that is under way, each of which leads to the next.

## Main definitions

- `Standing`: where a run stands in its course.
- `Leg`, `Course`: the steps from standing to standing with the marks that they leave, and walks.
- `Stay`, `Stay.marks`: one stay in a state, and the marks that it leaves from the notification to
  the end.
- `Leads`, `Comes`: how stays lead to the next state, and what the last one comes to.

## Main statements

- `Course.mono`: courses go on when the world does.
- `Course.account`: the marks of a run are those of stays that lead to each other.
- `Course.stays`: the marks of a run that has returned are those of whole stays.
-/

namespace Statechart

/-! ## Courses -/

/-- Where a run stands in its course. -/
inductive Standing where
  /-- The next state is known, and nobody has been told. -/
  | arriving (state : State) (previous : Option String) (cause : Option Decision)
  | told (state : State) (previous : Option String) (cause : Option Decision)
  /-- So many actions of one kind have begun; the ending is known once the wait is over. -/
  | acting (visit : VisitId) (phrase : Phrase) (ending : Option Ending) (count : Nat)
  | arrived (visit : VisitId)
  | launching (visit : VisitId) (count : Nat)
  | waiting (visit : VisitId)
  | draining (visit : VisitId) (ending : Ending)
  /-- A stay is over, and nothing has come of it yet. -/
  | left (visit : VisitId) (ending : Ending)
  | announced (visit : VisitId) (ending : Ending)
  | finished (result : RunResult)
  /-- The run was dropped, or something has panicked on its way. -/
  | lost

namespace Standing

/-- The visit of the stay that is under way. -/
def visit? : Standing → Option VisitId
  | .acting v _ _ _ | .arrived v | .launching v _ | .waiting v | .draining v _ => some v
  | _ => none

/-- The visit whose tasks may be there. -/
def home? : Standing → Option VisitId
  | .acting v .cleanup _ _ | .launching v _ | .waiting v | .draining v _ => some v
  | _ => none

/-- How the wait that is over ended. -/
def ending? : Standing → Option Ending
  | .acting _ _ e _ => e
  | .draining _ e | .left _ e | .announced _ e => some e
  | _ => none

/-- Whether the work of the visit is being set up or goes on. -/
def isStaying : Standing → Bool
  | .launching _ _ | .waiting _ => true
  | _ => false

/-- Whether the run has returned. -/
def isOver : Standing → Bool
  | .finished _ => true
  | _ => false

end Standing

/-- Marks that a run may leave when it is lost: those of a cleanup, and of tasks that go. -/
def Mark.isFall : Mark → Bool
  | .acted _ .cleanup _ | .left _ | .ended _ _ | .released _ _ => true
  | _ => false

/-- One leg of the course of a run that has left the marks `ms` so far. -/
inductive Leg (w : World) (r : RunId) (ms : List Mark) :
    Standing → List Mark → Standing → Prop where
  /-- The run stays where it is. -/
  | rest {st : Standing} : Leg w r ms st [] st
  | ask {st : Standing} : Leg w r ms st [.stopAsked r] st
  | fall {st : Standing} {news : List Mark} (going : st.isOver = false)
      (falls : ∀ m ∈ news, m.isFall = true) : Leg w r ms st news .lost
  | tell {s : State} {p : Option String} {c : Option Decision} (free : .stopAsked r ∉ ms) :
      Leg w r ms (.arriving s p c) [.notified r ⟨s.id, p, c⟩] (.told s p c)
  | enter {s : State} {p : Option String} {c : Option Decision} {v : VisitId}
      (own : w.Owns r v) (state : (w.visit v).state = s) (new : ∀ u, .entered r u ∈ ms → u < v) :
      Leg w r ms (.told s p c) [.entered r v] (.acting v .enter none 0)
  | act {v : VisitId} {phrase : Phrase} {e : Option Ending} {k : Nat}
      (more : k < ((w.visit v).state.chain phrase).actions.length) :
      Leg w r ms (.acting v phrase e k) [.acted v phrase k] (.acting v phrase e (k + 1))
  | arrive {v : VisitId} {k : Nat} (all : k = (w.visit v).state.enterActions.actions.length) :
      Leg w r ms (.acting v .enter none k) [.arrived v] (.arrived v)
  | pass {v : VisitId} (transient : (w.visit v).state.mode = .transient) :
      Leg w r ms (.arrived v) [.concluded v (.decided ⟨.transient, none⟩)]
        (.acting v .cleanup (some (.decided ⟨.transient, none⟩)) 0)
  | ready {v : VisitId} (stays : (w.visit v).state.mode ≠ .transient) :
      Leg w r ms (.arrived v) [] (.launching v 0)
  | launch {v : VisitId} {k : Nat} {part : Part}
      (next : (w.visit v).state.parts[k]? = some part) :
      Leg w r ms (.launching v k) [.launched v part] (.launching v (k + 1))
  | wait {v : VisitId} {k : Nat} (all : k = (w.visit v).state.parts.length) :
      Leg w r ms (.launching v k) [] (.waiting v)
  | turn {v : VisitId} {t : TaskId} (home : (w.task t).home = some v) :
      Leg w r ms (.waiting v) [.turn t] (.waiting v)
  | finish {v : VisitId} {t : TaskId} {fate : Fate} (home : (w.task t).home = some v) :
      Leg w r ms (.waiting v) [.ended t fate] (.waiting v)
  | conclude {v : VisitId} {e : Ending} (stop : e = .stopped ↔ .stopAsked r ∈ ms) :
      Leg w r ms (.waiting v) [.concluded v e] (.acting v .cleanup (some e) 0)
  | relax {v : VisitId} {e : Ending} {k : Nat}
      (all : k = (w.visit v).state.cleanup.actions.length) :
      Leg w r ms (.acting v .cleanup (some e) k) [] (.draining v e)
  | drop {v : VisitId} {e : Ending} {t : TaskId} {fate : Fate}
      (home : (w.task t).home = some v) (dropped : fate = .dropped ∨ fate = .panicked) :
      Leg w r ms (.draining v e) [.ended t fate] (.draining v e)
  | exit {v : VisitId} {e : Ending} (exits : e.exits (w.visit v).state) :
      Leg w r ms (.draining v e) [] (.acting v .exit (some e) 0)
  | close {v : VisitId} {e : Ending} {k : Nat}
      (all : k = (w.visit v).state.exitActions.actions.length) :
      Leg w r ms (.acting v .exit (some e) k) [.left v] (.left v e)
  | quit {v : VisitId} {e : Ending} (stays : ¬ e.exits (w.visit v).state) :
      Leg w r ms (.draining v e) [.left v] (.left v e)
  | go {v : VisitId} {e : Ending} {next : State} {d : Decision}
      (after : (w.machineOf r).aftermath (w.visit v).state e = .move next d) :
      Leg w r ms (.left v e) [.moved r ⟨(w.visit v).state.id, d.event, next.id⟩]
        (.arriving next (some (w.visit v).state.id) (some d))
  | announce {v : VisitId} {e : Ending}
      (after : (w.machineOf r).aftermath (w.visit v).state e = .announce) :
      Leg w r ms (.left v e) [.announced r] (.announced v e)
  | halt {s : State} {p : Option String} {c : Option Decision} (asked : .stopAsked r ∈ ms) :
      Leg w r ms (.arriving s p c) [.returned r (.ok .stopped), .released r .stopped]
        (.finished (.ok .stopped))
  | back {v : VisitId} {e : Ending} {result : RunResult}
      (after : (w.machineOf r).aftermath (w.visit v).state e = .back result) :
      Leg w r ms (.left v e) [.returned r result, .released r result.status] (.finished result)
  | done {v : VisitId} {e : Ending} :
      Leg w r ms (.announced v e) [.returned r (.ok .done), .released r .done]
        (.finished (.ok .done))

/-- A walk of a run from its beginning, with the marks that it has left. -/
inductive Course (w : World) (r : RunId) : Standing → List Mark → Prop where
  | start {s : State} (first : (w.machineOf r).startState = .ok s) :
      Course w r (.arriving s none none) [.began r]
  | leg {st st' : Standing} {ms news : List Mark} (course : Course w r st ms)
      (leg : Leg w r ms st news st') : Course w r st' (ms ++ news)

/-- A leg stays one in a world that still has the machine, the visits and the tasks that it is
about. -/
theorem Leg.mono {w w' : World} {r : RunId} {ms news : List Mark} {st st' : Standing}
    (leg : Leg w r ms st news st') (machine : w'.machineOf r = w.machineOf r)
    (owns : ∀ v, w.Owns r v → w'.Owns r v)
    (state : ∀ v, w.Owns r v → (w'.visit v).state = (w.visit v).state)
    (home : ∀ t v, (w.task t).home = some v → (w'.task t).home = some v)
    (own : ∀ v, (st.visit? = some v ∨ ∃ e, st = .left v e ∨ st = .announced v e) → w.Owns r v) :
    Leg w' r ms st news st' := by
  -- A leg looks at the state of the visit that the run stands at, which is one of its own.
  have same {v : VisitId} (h : st.visit? = some v) :
      (w'.visit v).state = (w.visit v).state := state v (own v (.inl h))
  have after {v : VisitId} {e : Ending} (h : st = .left v e) :
      (w'.visit v).state = (w.visit v).state := state v (own v (.inr ⟨e, .inl h⟩))
  cases leg with
  | rest => exact .rest
  | ask => exact .ask
  | fall going falls => exact .fall going falls
  | tell free => exact .tell free
  | enter mine here new => exact .enter (owns _ mine) ((state _ mine).trans here) new
  | act more => exact .act (same rfl ▸ more)
  | arrive all => exact .arrive (same rfl ▸ all)
  | pass transient => exact .pass (same rfl ▸ transient)
  | ready stays => exact .ready (same rfl ▸ stays)
  | launch next => exact .launch (same rfl ▸ next)
  | wait all => exact .wait (same rfl ▸ all)
  | turn here => exact .turn (home _ _ here)
  | finish here => exact .finish (home _ _ here)
  | conclude stop => exact .conclude stop
  | relax all => exact .relax (same rfl ▸ all)
  | drop here dropped => exact .drop (home _ _ here) dropped
  | exit exits => exact .exit (same rfl ▸ exits)
  | close all => exact .close (same rfl ▸ all)
  | quit stays => exact .quit (same rfl ▸ stays)
  | go next =>
    rw [← after rfl]
    exact .go (by rwa [machine, after rfl])
  | announce next => exact .announce (by rwa [machine, after rfl])
  | halt asked => exact .halt asked
  | back next => exact .back (by rwa [machine, after rfl])
  | done => exact .done

namespace Course

variable {w w' : World} {r : RunId} {st : Standing} {ms : List Mark}

/-- The visit that a run stands at is one of the run's. -/
theorem owns (c : Course w r st ms) {v : VisitId}
    (h : st.visit? = some v ∨ ∃ e, st = .left v e ∨ st = .announced v e) : w.Owns r v := by
  induction c with
  | start => simp [Standing.visit?] at h
  | leg course leg ih =>
    cases leg with
    | enter own =>
      cases Option.some.inj (h.resolve_right (by simp))
      exact own
    | fall | tell | go | halt | back | done => simp [Standing.visit?] at h
    | close | quit =>
      refine ih (.inl ?_)
      obtain ⟨e, he⟩ := h.resolve_left (by simp [Standing.visit?])
      cases he.resolve_right (by simp)
      rfl
    | announce =>
      refine ih (.inr ?_)
      obtain ⟨e, he⟩ := h.resolve_left (by simp [Standing.visit?])
      cases he.resolve_left (by simp)
      exact ⟨_, .inl rfl⟩
    | rest | ask => exact ih h
    | act | arrive | pass | ready | launch | wait | turn | finish | conclude | relax | drop
    | exit =>
      refine ih (.inl ?_)
      exact h.resolve_right (by simp)

/-- A course stays one in a world that still has the machine, the visits and the tasks that it is
about. -/
theorem mono (c : Course w r st ms) (machine : w'.machineOf r = w.machineOf r)
    (owns : ∀ v, w.Owns r v → w'.Owns r v)
    (state : ∀ v, w.Owns r v → (w'.visit v).state = (w.visit v).state)
    (home : ∀ t v, (w.task t).home = some v → (w'.task t).home = some v) : Course w' r st ms := by
  induction c with
  | start first => exact .start (machine ▸ first)
  | leg course leg ih =>
    exact .leg ih (leg.mono machine owns state home fun v hv => course.owns hv)

end Course

/-! ## Stays -/

instance (e : Ending) (s : State) : Decidable (e.exits s) := by
  cases e <;> unfold Ending.exits <;> infer_instance

/-- One stay of a run in a state: where it came from, with the marks that depend on the schedule,
what its tasks do while the run waits and what becomes of those that are left. -/
structure Stay where
  visit : VisitId
  previous : Option String
  cause : Option Decision
  work : List Mark
  ending : Ending
  drops : List Mark

/-- So many actions of one kind, in order. -/
def actsOf (v : VisitId) (phrase : Phrase) (k : Nat) : List Mark :=
  (List.range k).map (.acted v phrase)

namespace World

/-- Every action of a visit of one kind, in order. -/
def chainMarks (w : World) (v : VisitId) (phrase : Phrase) : List Mark :=
  actsOf v phrase ((w.visit v).state.chain phrase).actions.length

/-- Services and then activities are set up, unless the state is transient. -/
def launchMarks (w : World) (v : VisitId) : List Mark :=
  if (w.visit v).state.mode = .transient then []
  else (w.visit v).state.parts.map (.launched v)

/-- The exit actions run if the ending calls for them. -/
def exitMarks (w : World) (v : VisitId) (e : Ending) : List Mark :=
  if e.exits (w.visit v).state then w.chainMarks v .exit else []

end World

namespace Stay

/-- The state of a stay. -/
def state (w : World) (x : Stay) : State :=
  (w.visit x.visit).state

/-- What the observers are told of a stay. -/
def change (w : World) (x : Stay) : Change :=
  ⟨(x.state w).id, x.previous, x.cause⟩

/-- The observers are told, and the enter actions run. -/
def opening (w : World) (r : RunId) (x : Stay) : List Mark :=
  [.notified r (x.change w), .entered r x.visit] ++ w.chainMarks x.visit .enter ++
    [.arrived x.visit]

/-- The wait is over, the cleanup runs, and the tasks that are left are dropped. -/
def closing (w : World) (x : Stay) : List Mark :=
  .concluded x.visit x.ending :: w.chainMarks x.visit .cleanup ++ x.drops

/-- All marks of a stay. -/
def marks (w : World) (r : RunId) (x : Stay) : List Mark :=
  x.opening w r ++ w.launchMarks x.visit ++ x.work ++ x.closing w ++
    w.exitMarks x.visit x.ending ++ [.left x.visit]

/-- A stay is one of the run's, and its tasks are its own. -/
structure Fits (w : World) (r : RunId) (x : Stay) : Prop where
  owns : w.Owns r x.visit
  work : ∀ m ∈ x.work, ∃ t, (w.task t).home = some x.visit ∧
    (m = .turn t ∨ ∃ fate, m = .ended t fate)
  transient : (w.visit x.visit).state.mode = .transient →
    x.work = [] ∧ x.ending = .decided ⟨.transient, none⟩
  drops : ∀ m ∈ x.drops, ∃ t, (w.task t).home = some x.visit ∧
    (m = .ended t .dropped ∨ m = .ended t .panicked)

/-- The marks of a stay that is under way. -/
def upTo (w : World) (r : RunId) (x : Stay) : Standing → List Mark
  | .told s p c => [.notified r ⟨s.id, p, c⟩]
  | .acting v .enter _ k =>
    [.notified r (x.change w), .entered r v] ++ actsOf v .enter k
  | .arrived _ => x.opening w r
  | .launching v k => x.opening w r ++ ((w.visit x.visit).state.parts.take k).map (.launched v)
  | .waiting _ => x.opening w r ++ w.launchMarks x.visit ++ x.work
  | .acting v .cleanup _ k =>
    x.opening w r ++ w.launchMarks x.visit ++ x.work ++ .concluded v x.ending :: actsOf v .cleanup k
  | .draining _ _ => x.opening w r ++ w.launchMarks x.visit ++ x.work ++ x.closing w
  | .acting v .exit _ k =>
    x.opening w r ++ w.launchMarks x.visit ++ x.work ++ x.closing w ++ actsOf v .exit k
  | .arriving .. | .left .. | .announced .. | .finished _ | .lost => []

/-- What is known of a stay that is under way. -/
structure Suits (w : World) (r : RunId) (x : Stay) (st : Standing) : Prop where
  visit : ∀ v, st.visit? = some v → x.visit = v ∧ x.Fits w r
  stays : st.isStaying = true → (w.visit x.visit).state.mode ≠ .transient
  ending : ∀ e, st.ending? = some e → x.ending = e
  exits : ∀ v e k, st = .acting v .exit e k → x.ending.exits (w.visit x.visit).state

end Stay

/-! ## How stays lead to each other -/

/-- What comes of the end of a stay in a state, case by case. -/
inductive Machine.Outlook (m : Machine) (s : State) : Ending → Aftermath → Prop where
  | move {d : Decision} {target : String} {next : State} (going : s.mode ≠ .final)
      (route : s.targetOf d.event = some target) (found : m.find? target = some next) :
      Outlook m s (.decided d) (.move next d)
  | dangle {d : Decision} {target : String} (going : s.mode ≠ .final)
      (route : s.targetOf d.event = some target) (missing : m.find? target = none) :
      Outlook m s (.decided d) (.back (.error (.danglingTransition s.id d.event target)))
  | fail {d : Decision} {fault : Fault} (raised : d.fault = some fault)
      (lost : s.mode = .final ∨ s.targetOf d.event = none) :
      Outlook m s (.decided d) (.back (.error (.serviceFailed s.id fault)))
  | done {d : Decision} (final : s.mode = .final) (fair : d.fault = none) :
      Outlook m s (.decided d) .announce
  | stay {d : Decision} (going : s.mode ≠ .final) (aimless : s.targetOf d.event = none)
      (fair : d.fault = none) : Outlook m s (.decided d) (.back (.ok (.settled s.id)))
  | finish (final : s.mode = .final) : Outlook m s .settled .announce
  | settle (going : s.mode ≠ .final) : Outlook m s .settled (.back (.ok (.settled s.id)))
  | stop : Outlook m s .stopped (.back (.ok .stopped))
  | panic : Outlook m s .panicked (.back (.error (.taskPanicked s.id)))

theorem Machine.outlook (m : Machine) (s : State) (e : Ending) :
    m.Outlook s e (m.aftermath s e) := by
  cases e with
  | stopped => exact .stop
  | panicked => exact .panic
  | settled =>
    by_cases final : s.mode = .final
    · simpa [aftermath, final] using .finish final
    · simpa [aftermath, final] using .settle final
  -- What comes of an event depends on the mode, the target and the fault, in this order.
  | decided d =>
    by_cases final : s.mode = .final
    · cases fault : d.fault with
      | none =>
        simpa [aftermath, afterDecision, State.resolve, final, fault] using .done final fault
      | some f =>
        simpa [aftermath, afterDecision, State.resolve, final, fault] using
          .fail fault (.inl final)
    · cases route : s.targetOf d.event with
      | some target =>
        cases found : m.find? target with
        | some next =>
          simpa [aftermath, afterDecision, State.resolve, final, route, found] using
            .move final route found
        | none =>
          simpa [aftermath, afterDecision, State.resolve, final, route, found] using
            .dangle final route found
      | none =>
        cases fault : d.fault with
        | none =>
          simpa [aftermath, afterDecision, State.resolve, final, route, fault] using
            .stay final route fault
        | some f =>
          simpa [aftermath, afterDecision, State.resolve, final, route, fault] using
            .fail fault (.inr route)

/-- Stays lead to a state: the first to the initial one, and each other to the state that comes of
its ending, with the state it was and its decision. -/
inductive Leads (w : World) (m : Machine) :
    List Stay → State → Option String → Option Decision → Prop where
  | start {s : State} (first : m.startState = .ok s) : Leads w m [] s none none
  | next {past : List Stay} {x : Stay} {s : State} {d : Decision}
      (here : Leads w m past (x.state w) x.previous x.cause)
      (after : m.aftermath (x.state w) x.ending = .move s d) :
      Leads w m (past ++ [x]) s (some (x.state w).id) (some d)

/-- What stays come to: a stop on the way to the next state, or what comes of the last of them. -/
inductive Comes (w : World) (m : Machine) : List Stay → RunResult → Prop where
  | stopped {past : List Stay} {s : State} {p : Option String} {c : Option Decision}
      (here : Leads w m past s p c) : Comes w m past (.ok .stopped)
  | back {past : List Stay} {x : Stay} {result : RunResult}
      (here : Leads w m past (x.state w) x.previous x.cause)
      (after : m.aftermath (x.state w) x.ending = .back result) : Comes w m (past ++ [x]) result
  | done {past : List Stay} {x : Stay}
      (here : Leads w m past (x.state w) x.previous x.cause)
      (after : m.aftermath (x.state w) x.ending = .announce) : Comes w m (past ++ [x]) (.ok .done)

/-- How the stays that are over have led to where a run stands. -/
def Standing.Linked (w : World) (m : Machine) (past : List Stay) (x : Stay) : Standing → Prop
  | .arriving s p c | .told s p c => Leads w m past s p c
  | .acting .. | .arrived _ | .launching .. | .waiting _ | .draining .. =>
    Leads w m past (x.state w) x.previous x.cause
  | .left v e =>
    ∃ before, past = before ++ [x] ∧ x.visit = v ∧ x.ending = e ∧
      Leads w m before (x.state w) x.previous x.cause
  | .announced v e =>
    ∃ before, past = before ++ [x] ∧ x.visit = v ∧ x.ending = e ∧
      Leads w m before (x.state w) x.previous x.cause ∧
      m.aftermath (x.state w) x.ending = .announce
  | .finished result => Comes w m past result
  | .lost => True

/-- The marks of a run after its last stay. -/
def Standing.coda (r : RunId) : Standing → List Mark
  | .announced .. => [.announced r]
  | .finished result =>
    (if result = .ok .done then [.announced r] else []) ++
      [.returned r result, .released r result.status]
  | _ => []

/-- Marks of stops that are asked for, and of the history, come besides the others. -/
def Mark.isSteady : Mark → Bool
  | .stopAsked _ | .moved _ _ | .limited _ _ _ => false
  | .began _ | .notified _ _ | .entered _ _ | .acted _ _ _ | .arrived _ | .launched _ _ | .turn _
  | .ended _ _ | .raised _ _ _ | .concluded _ _ | .left _ | .announced _ | .returned _ _
  | .released _ _ => true

/-- The marks of a run are those of stays that are over and of one under way, and visits come in
their order. -/
structure Account (w : World) (r : RunId) (st : Standing) (ms : List Mark) (past : List Stay)
    (x : Stay) : Prop where
  fits : ∀ y ∈ past, y.Fits w r
  order : (past.map Stay.visit).Pairwise (· < ·)
  later : ∀ v, st.visit? = some v → ∀ y ∈ past, y.visit < v
  suits : x.Suits w r st
  linked : st.Linked w (w.machineOf r) past x
  marks : ms.filter Mark.isSteady =
    .began r :: past.flatMap (Stay.marks w r) ++ x.upTo w r st ++ st.coda r

/-- The observers are told that a machine is done before its run returns so. -/
theorem Machine.back_ne_done {m : Machine} {s : State} {e : Ending} {result : RunResult}
    (after : m.aftermath s e = .back result) : result ≠ .ok .done := by
  rintro rfl
  have outlook := m.outlook s e
  rw [after] at outlook
  cases outlook

/-- A stay comes to a stop only if that is how it ended. -/
theorem Machine.stopped_of_back {m : Machine} {s : State} {e : Ending}
    (after : m.aftermath s e = .back (.ok .stopped)) : e = .stopped := by
  have outlook := m.outlook s e
  rw [after] at outlook
  cases outlook
  rfl

theorem actsOf_succ (v : VisitId) (phrase : Phrase) (k : Nat) :
    actsOf v phrase (k + 1) = actsOf v phrase k ++ [.acted v phrase k] := by
  simp [actsOf, List.range_succ]

/-- A stay that nothing is known of suits a standing outside stays. -/
theorem Stay.Suits.outside {w : World} {r : RunId} {x : Stay} {st : Standing}
    (visit : st.visit? = none) (ending : ∀ e, st.ending? = some e → x.ending = e) :
    x.Suits w r st := by
  refine ⟨fun v hv => ?_, fun stays => ?_, ending, fun v e k hs => ?_⟩
  · cases visit.symm.trans hv
  · unfold Standing.isStaying at stays
    split at stays
    · cases visit
    · cases visit
    · cases stays
  · cases hs
    cases visit

/-- A stay speaks of no visit but its own. -/
theorem Stay.Fits.own {w : World} {r : RunId} {x : Stay} (fits : x.Fits w r) {m : Mark}
    (hm : m ∈ x.marks w r) {v : VisitId} (here : m.visit? = some v) : v = x.visit := by
  have acts (phrase : Phrase) (k : Nat) (hm : m ∈ actsOf x.visit phrase k) : v = x.visit := by
    obtain ⟨j, -, rfl⟩ := List.mem_map.1 hm
    exact (Option.some.inj here).symm
  simp only [marks, opening, closing, List.mem_append, List.mem_cons, List.not_mem_nil,
    or_false, or_assoc] at hm
  -- The parts of a stay, in their order.
  rcases hm with rfl | rfl | entered | rfl | launched | work | rfl | cleaned | drop | exited | rfl
  · cases here
  · exact (Option.some.inj here).symm
  · exact acts _ _ entered
  · exact (Option.some.inj here).symm
  · unfold World.launchMarks at launched
    split at launched
    · cases launched
    · obtain ⟨part, -, rfl⟩ := List.mem_map.1 launched
      exact (Option.some.inj here).symm
  · obtain ⟨t, -, rfl | ⟨fate, rfl⟩⟩ := fits.work m work <;> cases here
  · exact (Option.some.inj here).symm
  · exact acts _ _ cleaned
  · obtain ⟨t, -, rfl | rfl⟩ := fits.drops m drop <;> cases here
  · unfold World.exitMarks at exited
    split at exited
    · exact acts _ _ exited
    · cases exited
  · exact (Option.some.inj here).symm

namespace Account

variable {w : World} {r : RunId} {st st' : Standing} {ms news : List Mark} {past : List Stay}
  {x : Stay}

/-- What is said of the visit under way is said by the stay under way. -/
theorem upTo (h : Account w r st ms past x) {v : VisitId} (here : st.visit? = some v) {m : Mark}
    (hm : m ∈ ms) (visit : m.visit? = some v) : m ∈ x.upTo w r st := by
  have steady : m ∈ ms.filter Mark.isSteady := by
    refine List.mem_filter.2 ⟨hm, ?_⟩
    cases m <;> first | rfl | cases visit
  rw [h.marks] at steady
  simp only [List.cons_append, List.mem_cons, List.mem_append, List.mem_flatMap] at steady
  rcases steady with rfl | (⟨y, hy, past⟩ | now) | coda
  · cases visit
  · -- The stays that are over are in visits that came before.
    cases (h.fits y hy).own past visit
    exact absurd (h.later _ here y hy) (Nat.lt_irrefl _)
  · exact now
  · unfold Standing.coda at coda
    split at coda
    · cases here
    · cases here
    · cases coda

/-- The stay under way goes on. -/
theorem goOn (h : Account w r st ms past x) (x' : Stay)
    (visit : ∀ v, st'.visit? = some v → st.visit? = some v) (suits : x'.Suits w r st')
    (linked : st'.Linked w (w.machineOf r) past x')
    (marks : x.upTo w r st ++ st.coda r ++ news.filter Mark.isSteady =
      x'.upTo w r st' ++ st'.coda r) :
    ∃ past x, Account w r st' (ms ++ news) past x := by
  refine ⟨past, x', h.fits, h.order, fun v hv => h.later v (visit v hv), suits, linked, ?_⟩
  rw [List.filter_append, h.marks]
  simp only [List.cons_append, List.append_assoc] at marks ⊢
  rw [marks]

/-- The stay under way is over. -/
theorem complete (h : Account w r st ms past x) {v : VisitId} {e : Ending}
    (visit : st.visit? = some v) (ending : x.ending = e)
    (here : Leads w (w.machineOf r) past (x.state w) x.previous x.cause)
    (marks : x.upTo w r st ++ st.coda r ++ news.filter Mark.isSteady = x.marks w r) :
    ∃ past x, Account w r (.left v e) (ms ++ news) past x := by
  obtain ⟨rfl, fits⟩ := h.suits.visit v visit
  refine ⟨past ++ [x], x, ?_, ?_, fun v hv => (by cases hv), ?_, ?_, ?_⟩
  · intro y hy
    rcases List.mem_append.1 hy with old | new
    · exact h.fits y old
    · exact List.mem_singleton.1 new ▸ fits
  · rw [List.map_append, List.pairwise_append]
    refine ⟨h.order, List.pairwise_singleton _ _, fun u hu u' hu' => ?_⟩
    obtain ⟨y, hy, rfl⟩ := List.mem_map.1 hu
    cases List.mem_singleton.1 hu'
    exact h.later _ visit y hy
  · exact .outside rfl fun e' he => ending.trans (Option.some.inj he)
  · exact ⟨past, rfl, rfl, ending, here⟩
  · rw [List.filter_append, h.marks]
    simp only [List.cons_append, List.append_assoc, List.flatMap_append] at marks ⊢
    rw [marks]
    simp [Stay.upTo, Standing.coda]

/-- A task of the stay under way does something while the run waits. -/
theorem works {v : VisitId} {t : TaskId} {m : Mark} (h : Account w r (.waiting v) ms past x)
    (home : (w.task t).home = some v) (does : m = .turn t ∨ ∃ fate, m = .ended t fate) :
    ∃ past x, Account w r (.waiting v) (ms ++ [m]) past x := by
  obtain ⟨rfl, fits⟩ := h.suits.visit v rfl
  have steady : m.isSteady = true := by
    rcases does with rfl | ⟨fate, rfl⟩ <;> rfl
  refine h.goOn { x with work := x.work ++ [m] } (fun _ => id)
    ⟨fun u hu => ?_, h.suits.stays, by simp [Standing.ending?], by simp⟩ h.linked ?_
  · refine ⟨Option.some.inj hu, fits.owns, fun m' hm' => ?_, fun transient => ?_, fits.drops⟩
    · rcases List.mem_append.1 hm' with old | new
      · exact fits.work m' old
      · cases List.mem_singleton.1 new
        exact ⟨t, home, does⟩
    · exact absurd transient (h.suits.stays rfl)
  · simp [Stay.upTo, Stay.opening, Stay.change, Stay.state, Standing.coda, steady]

/-- The stay under way goes on with a leg of the course, or is over after it, or a new one
begins. -/
theorem leg (h : Account w r st ms past x) (leg : Leg w r ms st news st') (going : st' ≠ .lost) :
    ∃ past x, Account w r st' (ms ++ news) past x := by
  obtain ⟨visit, stays, ending, exits⟩ := h.suits
  have linked := h.linked
  -- The stay takes up the mark of the leg. A leg that settles what was open so far (the work, the
  -- ending, what is dropped) changes the stay to what is known now.
  cases leg with
  | rest => exact h.goOn x (fun _ => id) h.suits h.linked (by simp)
  | ask => exact h.goOn x (fun _ => id) h.suits h.linked (by simp [Mark.isSteady])
  | fall => exact absurd rfl going
  | @tell s p c free =>
    refine h.goOn x (by simp [Standing.visit?]) (.outside rfl (by simp [Standing.ending?]))
      linked ?_
    simp [Stay.upTo, Standing.coda, Mark.isSteady]
  | @enter s p c v own state new =>
    refine ⟨past, ⟨v, p, c, [], .decided ⟨.transient, none⟩, []⟩, h.fits, h.order,
      fun u hu y hy => ?_, ⟨fun u hu => ?_, ?_, ?_, ?_⟩, ?_, ?_⟩
    · -- A stay that is over has entered its visit, so the new visit comes after it.
      cases hu
      apply new
      have here : .entered r y.visit ∈ ms.filter Mark.isSteady := by
        rw [h.marks]
        refine List.mem_append_left _ (List.mem_append_left _ (List.mem_cons_of_mem _ ?_))
        refine List.mem_flatMap.2 ⟨y, hy, ?_⟩
        simp [Stay.marks, Stay.opening]
      exact (List.mem_filter.1 here).1
    · cases hu
      exact ⟨rfl, own, by simp, fun _ => ⟨rfl, rfl⟩, by simp⟩
    · simp [Standing.isStaying]
    · simp [Standing.ending?]
    · simp
    · exact (congrArg (Leads w (w.machineOf r) past · p c) state).mpr linked
    · rw [List.filter_append, h.marks]
      simp [Stay.upTo, Stay.change, Stay.state, state, actsOf, Standing.coda, Mark.isSteady]
  -- The run enters the state, carries out an action of it, or has carried out all enter actions.
  | @act v phrase e k more =>
    have suits : x.Suits w r (.acting v phrase e (k + 1)) := by
      refine ⟨visit, by simp [Standing.isStaying], ending, fun v' e' k' hs => ?_⟩
      cases hs
      exact exits v e k rfl
    refine h.goOn x (fun _ => id) suits linked ?_
    cases phrase <;> simp [Stay.upTo, actsOf_succ, Standing.coda, Mark.isSteady]
  | @arrive v k all =>
    obtain ⟨rfl, fits⟩ := visit v rfl
    refine h.goOn x (fun _ => id)
      ⟨visit, by simp [Standing.isStaying], by simp [Standing.ending?], by simp⟩ linked ?_
    simp [Stay.upTo, Stay.opening, World.chainMarks, State.chain, all, Standing.coda,
      Mark.isSteady]
  | @pass v transient =>
    obtain ⟨rfl, fits⟩ := visit v rfl
    refine h.goOn { x with work := [], ending := .decided ⟨.transient, none⟩, drops := [] }
      (fun _ => id)
      ⟨fun u hu => ?_, by simp [Standing.isStaying], by simp [Standing.ending?], by simp⟩
      linked ?_
    · exact ⟨Option.some.inj hu, fits.owns, by simp, fun _ => ⟨rfl, rfl⟩, by simp⟩
    · simp [Stay.upTo, Stay.opening, Stay.change, Stay.state, World.launchMarks, transient, actsOf,
        Standing.coda, Mark.isSteady]
  -- The work is set up, part by part, and the run begins to wait.
  | @ready v here =>
    obtain ⟨rfl, fits⟩ := visit v rfl
    refine h.goOn x (fun _ => id)
      ⟨visit, fun _ => here, by simp [Standing.ending?], by simp⟩ linked ?_
    simp [Stay.upTo, Standing.coda]
  | @launch v k part next =>
    refine h.goOn x (fun _ => id)
      ⟨visit, fun _ => stays rfl, by simp [Standing.ending?], by simp⟩ linked ?_
    obtain ⟨rfl, fits⟩ := visit v rfl
    simp [Stay.upTo, List.take_add_one, next, Standing.coda, Mark.isSteady]
  | @wait v k all =>
    obtain ⟨rfl, fits⟩ := visit v rfl
    refine h.goOn { x with work := [] } (fun _ => id)
      ⟨fun u hu => ?_, fun _ => stays rfl, by simp [Standing.ending?], by simp⟩ linked ?_
    · exact ⟨Option.some.inj hu, fits.owns, by simp, fun transient =>
        absurd transient (stays rfl), fits.drops⟩
    · have here : (w.visit x.visit).state.mode ≠ .transient := stays rfl
      simp [Stay.upTo, Stay.opening, Stay.change, Stay.state, World.launchMarks, here, all,
        Standing.coda]
  | turn home => exact h.works home (.inl rfl)
  | finish home => exact h.works home (.inr ⟨_, rfl⟩)
  -- The wait ends, the tasks are told to go, and those that had work left are dropped.
  | @conclude v e stop =>
    obtain ⟨rfl, fits⟩ := visit v rfl
    have here : (w.visit x.visit).state.mode ≠ .transient := stays rfl
    refine h.goOn { x with ending := e, drops := [] } (fun _ => id)
      ⟨fun u hu => ?_, by simp [Standing.isStaying], by simp [Standing.ending?], by simp⟩
      linked ?_
    · exact ⟨Option.some.inj hu, fits.owns, fits.work,
        fun transient => absurd transient here, by simp⟩
    · simp [Stay.upTo, Stay.opening, Stay.change, Stay.state, actsOf, Standing.coda,
        Mark.isSteady]
  | @relax v e k all =>
    obtain ⟨rfl, fits⟩ := visit v rfl
    refine h.goOn { x with drops := [] } (fun _ => id)
      ⟨fun u hu => ?_, by simp [Standing.isStaying], ending, by simp⟩ linked ?_
    · exact ⟨Option.some.inj hu, fits.owns, fits.work, fits.transient, by simp⟩
    · simp [Stay.upTo, Stay.closing, Stay.opening, Stay.change, Stay.state, World.chainMarks,
        State.chain, all, Standing.coda]
  | @drop v e t fate home dropped =>
    obtain ⟨rfl, fits⟩ := visit v rfl
    refine h.goOn { x with drops := x.drops ++ [.ended t fate] } (fun _ => id)
      ⟨fun u hu => ?_, by simp [Standing.isStaying], ending, by simp⟩ linked ?_
    · refine ⟨Option.some.inj hu, fits.owns, fits.work, fits.transient, fun m hm => ?_⟩
      rcases List.mem_append.1 hm with old | new
      · exact fits.drops m old
      · cases List.mem_singleton.1 new
        refine ⟨t, home, ?_⟩
        rcases dropped with rfl | rfl
        · exact .inl rfl
        · exact .inr rfl
    · simp [Stay.upTo, Stay.closing, Stay.opening, Stay.change, Stay.state, Standing.coda,
        Mark.isSteady]
  -- The exit actions begin, or are over, or there are none to be carried out.
  | @exit v e here =>
    obtain ⟨rfl, fits⟩ := visit v rfl
    refine h.goOn x (fun _ => id)
      ⟨visit, by simp [Standing.isStaying], ending, fun _ _ _ _ => ?_⟩ linked ?_
    · exact ending e rfl ▸ here
    · simp [Stay.upTo, actsOf, Standing.coda]
  | @close v e k all =>
    obtain ⟨rfl, fits⟩ := visit v rfl
    apply h.complete rfl (ending e rfl) linked
    simp [Stay.marks, Stay.upTo, World.exitMarks, exits _ _ _ rfl, World.chainMarks,
      State.chain, all, Standing.coda, Mark.isSteady]
  | @quit v e here =>
    obtain ⟨rfl, fits⟩ := visit v rfl
    apply h.complete rfl (ending e rfl) linked
    have none : ¬ x.ending.exits (w.visit x.visit).state := ending e rfl ▸ here
    simp [Stay.marks, Stay.upTo, World.exitMarks, none, Standing.coda, Mark.isSteady]
  -- The stay is over, so the run goes on to another, or comes to its end.
  | @go v e next d after =>
    obtain ⟨before, rfl, rfl, rfl, here⟩ := linked
    refine h.goOn x (by simp [Standing.visit?]) (.outside rfl (by simp [Standing.ending?]))
      (.next here after) ?_
    simp [Stay.upTo, Standing.coda, Mark.isSteady]
  | @announce v e after =>
    obtain ⟨before, rfl, rfl, rfl, here⟩ := linked
    refine h.goOn x (by simp [Standing.visit?]) (.outside rfl ending)
      ⟨before, rfl, rfl, rfl, here, after⟩ ?_
    simp [Stay.upTo, Standing.coda, Mark.isSteady]
  | halt asked =>
    refine h.goOn x (by simp [Standing.visit?]) (.outside rfl (by simp [Standing.ending?]))
      (.stopped linked) ?_
    simp [Stay.upTo, Standing.coda, Mark.isSteady, RunResult.status]
  | @back v e result after =>
    obtain ⟨before, rfl, rfl, rfl, here⟩ := linked
    refine h.goOn x (by simp [Standing.visit?]) (.outside rfl (by simp [Standing.ending?]))
      (.back here after) ?_
    have other : result ≠ .ok .done := Machine.back_ne_done after
    simp [Stay.upTo, Standing.coda, Mark.isSteady, other]
  | @done v e =>
    obtain ⟨before, rfl, rfl, rfl, here, after⟩ := linked
    refine h.goOn x (by simp [Standing.visit?]) (.outside rfl (by simp [Standing.ending?]))
      (.done here after) ?_
    simp [Stay.upTo, Standing.coda, Mark.isSteady, RunResult.status]

end Account

namespace Course

variable {w : World} {r : RunId} {st : Standing} {ms : List Mark} {result : RunResult}

/-- The marks of a run are those of stays that are over, and of one under way. -/
theorem account (c : Course w r st ms) (going : st ≠ .lost) :
    ∃ past x, Account w r st ms past x := by
  induction c with
  | start first =>
    refine ⟨[], ⟨0, none, none, [], .settled, []⟩, by simp, by simp, by simp,
      .outside rfl (by simp [Standing.ending?]), .start first, ?_⟩
    simp [Stay.upTo, Standing.coda, Mark.isSteady]
  | @leg st st' ms news course leg ih =>
    have going' : st ≠ .lost := by
      -- Whoever is lost stays lost.
      rintro rfl
      cases leg <;> exact going rfl
    obtain ⟨past, x, account⟩ := ih going'
    exact account.leg leg going

/-- A run that has returned has left the marks of whole stays, one after the other, that come to
its result. -/
theorem stays (c : Course w r (.finished result) ms) :
    ∃ stays : List Stay, Comes w (w.machineOf r) stays result ∧
      ms.filter Mark.isSteady = .began r :: stays.flatMap (Stay.marks w r) ++
        Standing.coda r (.finished result) ∧
      (stays.map Stay.visit).Pairwise (· < ·) ∧ ∀ x ∈ stays, x.Fits w r := by
  obtain ⟨past, x, account⟩ := c.account (by simp)
  exact ⟨past, account.linked, by simpa [Stay.upTo] using account.marks, account.order,
    account.fits⟩

/-- A mark of the end of a run is left when the run returns. -/
theorem finished_of_returned (c : Course w r st ms) (returned : .returned r result ∈ ms) :
    st = .finished result := by
  induction c with
  | start => simp at returned
  | leg course leg ih =>
    rcases List.mem_append.1 returned with old | new
    · cases ih old
      cases leg with
      | rest | ask => rfl
      | fall going => cases going
    · cases leg with
      | fall going falls => cases falls _ new
      | halt | back | done => simp_all
      | _ => simp at new

/-- A run that returns because it was stopped was asked to. -/
theorem asked (c : Course w r st ms)
    (stopped : st.ending? = some .stopped ∨ st = .finished (.ok .stopped)) : .stopAsked r ∈ ms := by
  induction c with
  | start => simp [Standing.ending?] at stopped
  | leg course leg ih =>
    cases leg with
    | halt asked => exact List.mem_append_left _ asked
    | conclude stop =>
      cases stopped.resolve_right (by simp)
      exact List.mem_append_left _ (stop.1 rfl)
    | back after =>
      cases stopped.resolve_left (by simp [Standing.ending?])
      exact List.mem_append_left _ (ih (.inl (congrArg some (Machine.stopped_of_back after))))
    | rest | ask => exact List.mem_append_left _ (ih stopped)
    | fall | tell | enter | arrive | pass | ready | launch | wait | turn | finish | go | done =>
      simp [Standing.ending?] at stopped
    | act | relax | drop | exit | close | quit | announce =>
      refine List.mem_append_left _ (ih (.inl ?_))
      simpa [Standing.ending?] using stopped

end Course

end Statechart
