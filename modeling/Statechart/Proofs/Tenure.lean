import Statechart.Proofs.GraphErrors

/-!
# The tenure of a run

A run holds the slot of its interpreter from its beginning until it gives the slot up, and no other
run begins there in between. What a run leaves behind is its status, until the next one begins.

## Architecture

- `World.Spares` says of a function that it leaves interpreters and runs alone.
- `Turnover` lists once what a beat can do to slots, statuses and histories, and `Beat.turnover`
  reads every beat as one of these.
- `Tenured` is the invariant: which run holds a slot shows in the marks.

## Main definitions

- `World.Spares`: interpreters and runs are as they were.
- `Turnover`: what a beat does to interpreters, with the marks that tell of it.
- `World.IsLatest`: no run of the same interpreter began later.
- `Tenured`: slots and statuses agree with the marks.
- `World.Attempt`, `World.Refuses`: ways to start an interpreter, and what comes of all of them if
  it cannot be started.

## Main statements

- `Beat.turnover`: every beat is one of the turnovers.
- `Tenured.beat`: every beat keeps slots and statuses in agreement with the marks.
- `Scenario.one_run_at_a_time`: an interpreter has one run at a time, and whatever else would start
  it fails and changes nothing.
-/

namespace Statechart

/-! ## What leaves interpreters and runs alone -/

/-- Interpreters and runs are as they were. -/
structure World.Spares (w w' : World) : Prop where
  interpreters : w'.interpreters = w.interpreters
  runs : w'.runs = w.runs

namespace World

namespace Spares

variable {w w' w'' : World}

theorem refl (w : World) : w.Spares w :=
  ⟨rfl, rfl⟩

theorem trans (h : w.Spares w') (h' : w'.Spares w'') : w.Spares w'' :=
  ⟨h'.interpreters.trans h.interpreters, h'.runs.trans h.runs⟩

theorem wake (w : World) (t : TaskId) : w.Spares (w.wake t) := by
  unfold World.wake World.enqueue
  split
  · exact .refl w
  · split
    · exact ⟨rfl, rfl⟩
    · split <;> exact ⟨rfl, rfl⟩

theorem abort (w : World) (t : TaskId) : w.Spares (w.abort t) := by
  unfold World.abort World.enqueue
  split
  · exact .refl w
  · split <;> exact ⟨rfl, rfl⟩

theorem notifyInbox (w : World) (v : VisitId) : w.Spares (w.notifyInbox v) := by
  unfold World.notifyInbox
  split
  · apply Spares.trans _ (wake _ _)
    exact ⟨rfl, rfl⟩
  · exact .refl w

theorem letGoAll (w : World) (vs : List VisitId) : w.Spares (w.letGoAll vs) := by
  induction vs generalizing w with
  | nil => exact .refl w
  | cons v vs ih =>
    apply Spares.trans _ (ih _)
    unfold World.letGo
    split
    · exact .refl w
    · exact notifyInbox w v

theorem logDrops (w : World) (guards : List String) : w.Spares (w.logDrops guards) := by
  induction guards generalizing w with
  | nil => exact .refl w
  | cons label guards ih =>
    apply Spares.trans _ (ih _)
    exact ⟨rfl, rfl⟩

theorem accept (w : World) (v : VisitId) (d : Decision) : w.Spares (w.accept v d) := by
  have told := notifyInbox (w.commit v d) v
  unfold World.accept
  -- What comes after the wake-up only writes to the journal.
  generalize (w.commit v d).notifyInbox v = told' at told ⊢
  exact ⟨told.interpreters, told.runs⟩

theorem raise (w : World) (v : VisitId) (d : Decision) : w.Spares (w.raise v d).1 := by
  unfold World.raise
  simp only
  split
  · exact ⟨rfl, rfl⟩
  · split
    · exact ⟨rfl, rfl⟩
    · split
      · exact ⟨rfl, rfl⟩
      · exact accept w v d

theorem raiseOutcome (w : World) (route : Route) (failure : Option Fault) :
    w.Spares (w.raiseOutcome route failure) := by
  unfold World.raiseOutcome
  cases failure with
  | none =>
    simp only
    split
    · exact .refl w
    · exact raise ..
  | some fault =>
    simp only
    split
    · exact ⟨rfl, rfl⟩
    · apply Spares.trans _ (raise ..)
      exact ⟨rfl, rfl⟩

theorem endTask (w : World) (t : TaskId) (fate : Fate) : w.Spares (w.endTask t fate) := by
  have dropped : w.Spares (if fate = .panicked ∨ fate = .dropped
      then w.logDrops (w.task t).guards else w) := by
    split
    · exact logDrops ..
    · exact .refl w
  have withdrawn (w : World) (home : Option VisitId) : w.Spares (w.withdraw t home) := by
    cases home <;> exact ⟨rfl, rfl⟩
  have told (w : World) (home : Option VisitId) : w.Spares (w.tellHome home) := by
    unfold World.tellHome
    split
    · split
      · exact .refl w
      · exact wake ..
    · exact .refl w
  have joined (w : World) (joiner : Option TaskId) : w.Spares (w.tellJoiner joiner) := by
    cases joiner with
    | none => exact .refl w
    | some j => exact wake w j
  rw [World.endTask_eq]
  apply Spares.trans _ (joined ..)
  apply Spares.trans _ (told ..)
  apply Spares.trans _ (withdrawn ..)
  apply Spares.trans _ (letGoAll ..)
  exact dropped.trans ⟨rfl, rfl⟩

theorem finish (w : World) (t : TaskId) (failure : Option Fault) :
    w.Spares (w.finish t failure) := by
  unfold World.finish
  simp only
  apply Spares.trans _ (endTask ..)
  split
  · exact raiseOutcome ..
  · exact .refl w

theorem answer (w : World) (t : TaskId) (steps : List Step) (a : Answer) :
    w.Spares (w.answer t steps a) := by
  have waited (w : World) : w.Spares (w.endWait t) := by
    unfold World.endWait World.deregister
    simp only
    split
    · split <;> exact ⟨rfl, rfl⟩
    · split <;> exact ⟨rfl, rfl⟩
    · exact ⟨rfl, rfl⟩
  have ended := waited { w with reports := w.reports.push ⟨a, w.now, w.statuses, w.journal.size⟩ }
  exact ⟨ended.interpreters, ended.runs⟩

end Spares

end World

/-! ## What becomes of slots, statuses and histories -/

/-- Marks of how runs take slots and give them up, and of what is written to histories. -/
def Mark.isTurnover : Mark → Bool
  | .began _ | .moved _ _ | .returned _ _ | .released _ _ | .limited _ _ _ => true
  | _ => false

/-- What a beat does to slots, statuses and histories, with the marks that tell of it. -/
inductive Turnover (w : World) (σ : Stage) (w' : World) : Prop where
  /-- All of them stay, and nothing is told of them. -/
  | stay (news : List Mark) (marks : w'.marks = w.marks ++ news)
      (quiet : ∀ m ∈ news, m.isTurnover = false)
      (akin : ∀ i, (w.interpreter i).Akin (w'.interpreter i))
      (history : ∀ i, (w'.interpreter i).history = (w.interpreter i).history)
  /-- A new run takes a slot that is free. -/
  | take (i : InterpreterId) (free : (w.interpreter i).slot = none)
      (marks : w'.marks = w.marks ++ [.began w.runs.size])
      (own : (w'.run w.runs.size).interpreter = i)
      (row : ∀ j, w'.interpreter j = if j = i then
        { w.interpreter j with
          slot := some w.runs.size
          status := .running
          history := (w.interpreter j).history.clear } else w.interpreter j)
  /-- A run in progress gives up its slot; it may have returned just before. -/
  | give (r : RunId) (status : Status) (news : List Mark) (marks : w'.marks = w.marks ++ news)
      (told : news = [.released r status] ∨
        ∃ result, status = result.status ∧ news = [.returned r result, .released r status])
      (progress : w.InProgress σ r)
      (row : ∀ j, w'.interpreter j = if j = (w.run r).interpreter then
        { w.interpreter j with slot := none, status } else w.interpreter j)
  /-- A run in progress goes on to another state. -/
  | record (r : RunId) (hop : Hop) (marks : w'.marks = w.marks ++ [.moved r hop])
      (progress : w.InProgress σ r)
      (row : ∀ j, w'.interpreter j = if j = (w.run r).interpreter then
        { w.interpreter j with history := (w.interpreter j).history.push hop }
        else w.interpreter j)
  /-- A script limits a history. -/
  | limit (i : InterpreterId) (n : Nat)
      (marks : w'.marks = w.marks ++ [.limited i (w.interpreter i).history.limit n])
      (row : ∀ j, w'.interpreter j = if j = i then
        { w.interpreter j with history := (w.interpreter j).history.setLimit n }
        else w.interpreter j)

section

variable {w w' : World} {σ σ' : Stage} {t : TaskId} {r : RunId}

/-- Whatever leaves all interpreters alone is no turnover. -/
theorem Turnover.of_eq {news : List Mark} (same : ∀ i, w'.interpreter i = w.interpreter i)
    (marks : w'.marks = w.marks ++ news) (quiet : ∀ m ∈ news, m.isTurnover = false) :
    Turnover w σ w' := by
  apply Turnover.stay news marks quiet
  · exact fun i => same i ▸ .refl _
  · exact fun i => congrArg Interpreter.history (same i)

/-- A new run takes the slot of its interpreter, in whatever has its interpreters and runs. -/
theorem Turnover.takeSlot {i : InterpreterId} {s : State}
    (free : (w.interpreter i).slot = none)
    (interpreters : w'.interpreters = (w.takeSlot i t s).interpreters)
    (runs : w'.runs = (w.takeSlot i t s).runs)
    (marks : w'.marks = w.marks ++ [.began w.runs.size]) : Turnover w σ w' := by
  apply Turnover.take i free marks
  · unfold World.run
    rw [runs]
    simp [World.takeSlot, World.modifyInterpreter, World.mark, World.log]
  · intro j
    unfold World.interpreter
    rw [interpreters]
    exact World.interpreter_modifyInterpreter ..

theorem Stir.turnover (b : Stir σ w w') : Turnover w σ w' := by
  cases b with
  | chore c =>
    have frame := c.frame
    exact .stay [] (by simp [frame.marks]) (by simp) frame.interpreter frame.history
  | refuse | ask =>
    exact .of_eq (fun _ => rfl) (World.marks_mark ..) (by simp [Mark.isTurnover])
  | cancel i q =>
    exact .of_eq (fun _ => rfl) (w.marks_stopRun q) (by simp [Mark.isTurnover])
  | miss | keep | spawn =>
    exact .of_eq (fun _ => rfl) (List.append_nil _).symm (by simp)
  | accept v d =>
    obtain ⟨-, -, -, -, marks⟩ := w.accept_eq v d
    apply Turnover.of_eq _ marks (by simp [Mark.isTurnover])
    intro i
    unfold World.interpreter
    rw [(World.Spares.accept w v d).interpreters]
  | limit i n =>
    exact .limit i n (w.marks_limitHistory i n) fun j => World.interpreter_modifyInterpreter ..
  | start i s free => exact .takeSlot free rfl rfl (w.marks_startNew i s)

theorem Shift.turnover (b : Shift (w, σ) w') : Turnover w σ w' := by
  cases b with
  | turn => exact .of_eq (fun _ => rfl) (w.marks_mark _) (by simp [Mark.isTurnover])
  | unqueue | resume => exact .of_eq (fun _ => rfl) (List.append_nil _).symm (by simp)
  | @park _ _ t =>
    obtain ⟨queue, -, parked⟩ := w.park_eq t
    rw [parked]
    exact .of_eq (fun _ => rfl) (List.append_nil _).symm (by simp)
  | retire alive ease late chores =>
    have retired := Retired.of_chores chores
    exact .stay _ retired.marks (by simp [Mark.isTurnover]) retired.interpreter retired.history
  | @begin _ t job i s turn ease free =>
    exact .takeSlot free rfl rfl (w.marks_takeSlot i t s)

theorem Stride.turnover (b : Stride t r (w, σ) (w', σ')) : Turnover w σ w' := by
  have progress := b.inProgress
  -- A slot that is given up belongs to the interpreter of the run.
  have row (m : Mark) (status : Status) (j : InterpreterId) :
      (((w.mark m).release r status).interpreter j) = if j = (w.run r).interpreter then
        { w.interpreter j with slot := none, status } else w.interpreter j :=
    World.interpreter_modifyInterpreter ..
  cases b with
  | depart | ready | wait | look | idle | tear | exit | tended | dropBegun | dropArriving
  | crew => exact .of_eq (fun _ => rfl) (List.append_nil _).symm (by simp)
  | hear | toll => exact .of_eq (fun _ => rfl) (World.marks_log ..) (by simp [Entry.mark?])
  | visit =>
    exact .of_eq (fun _ => rfl) (World.marks_pushVisit ..) (by simp [Mark.isTurnover])
  | tell | act | arrive | launch | announce | tend | pass | conclude =>
    exact .of_eq (fun _ => rfl) (World.marks_mark ..) (by simp [Mark.isTurnover])
  | forsake | close | shut | quit =>
    exact .of_eq (fun _ => rfl) (World.marks_closeVisit ..) (by simp [Mark.isTurnover])
  | @relax _ v =>
    have aborted := Frame.abortWork w v
    exact .stay [] (by simp) (by simp) aborted.interpreter aborted.history
  | @dropWaiting _ _ v =>
    have aborted := Frame.abortWork (w.setPhase r .ended) v
    apply Turnover.stay [.left v] (by simp) (by simp [Mark.isTurnover])
    · exact aborted.interpreter
    · exact aborted.history
  | @dropDraining _ _ v =>
    exact .of_eq (fun _ => rfl) (World.marks_closeVisit ..) (by simp [Mark.isTurnover])
  | go =>
    exact .record r _ (World.marks_goTo ..) progress fun j =>
      World.interpreter_modifyInterpreter ..
  | halt | back | done =>
    exact .give r _ _ (World.marks_endRun ..) (.inr ⟨_, rfl, rfl⟩) progress (row _ _)
  | unwind =>
    exact .give r .stopped _ (World.marks_release ..) (.inl rfl) progress (row (.began r) _)

/-- Every beat leaves slots, statuses and histories alone, or does one thing to them. -/
theorem Beat.turnover (b : Beat (w, σ) (w', σ')) : Turnover w σ w' := by
  cases b with
  | stir b => exact b.turnover
  | shift b => exact b.turnover
  | stride b => exact b.turnover

end

/-! ## Who holds a slot -/

/-- No run of the same interpreter began later. -/
def World.IsLatest (w : World) (r : RunId) : Prop :=
  ∀ q, .began q ∈ w.marks → (w.run q).interpreter = (w.run r).interpreter → q ≤ r

/-- The run that was begun last is the latest of its interpreter. -/
theorem Orderly.isLatest {w : World} {σ : Stage} (o : Orderly w σ) {r : RunId}
    (last : w.runs.size = r + 1) : w.IsLatest r := by
  intro q began _
  have known := o.rooted.run q began
  rw [last] at known
  exact Nat.le_of_lt_succ known

/-- A run holds the slot of its interpreter from its beginning until it gives it up, and leaves its
status behind. -/
structure Tenured (w : World) : Prop where
  begun : ∀ r status, .released r status ∈ w.marks → .began r ∈ w.marks
  kept : ∀ r, .began r ∈ w.marks → (∃ status, .released r status ∈ w.marks) ∨
    (w.interpreter (w.run r).interpreter).slot = some r
  given : ∀ r status, .released r status ∈ w.marks →
    (w.interpreter (w.run r).interpreter).slot ≠ some r
  latest : ∀ i r, (w.interpreter i).slot = some r → w.IsLatest r
  status : ∀ r status, .released r status ∈ w.marks → w.IsLatest r →
    (w.interpreter (w.run r).interpreter).status = status
  returned : ∀ r result, .returned r result ∈ w.marks → .released r result.status ∈ w.marks

namespace Tenured

variable {w w' : World} {σ σ' : Stage}

/-- Whoever is the latest run of an interpreter was so before. -/
theorem latest_of_beat (o : Orderly w σ) (b : Beat (w, σ) (w', σ')) {r : RunId}
    (known : r < w.runs.size) (h : w'.IsLatest r) : w.IsLatest r := by
  intro q began own
  apply h q
  · exact b.mem_marks o.toStaged began
  · rw [b.interpreter (o.rooted.run q began), b.interpreter known]
    exact own

/-- Once a new run has begun on an interpreter, no other run is its latest. -/
theorem apart_of_latest (b : Beat (w, σ) (w', σ')) {r : RunId} {i : InterpreterId}
    (known : r < w.runs.size) (latest : w'.IsLatest r) (began : .began w.runs.size ∈ w'.marks)
    (own : (w'.run w.runs.size).interpreter = i) : (w.run r).interpreter ≠ i := by
  intro here
  have later := latest w.runs.size began (own.trans ((b.interpreter known).trans here).symm)
  exact Nat.lt_irrefl _ (Nat.lt_of_lt_of_le known later)

/-- A run that gave up its slot is there. -/
theorem known (h : Tenured w) (o : Orderly w σ) {r : RunId} {status : Status}
    (given : .released r status ∈ w.marks) : r < w.runs.size :=
  o.rooted.run r (h.begun r status given)

/-- Whoever holds a slot is still the latest of the runs that had begun by then. -/
theorem latest_of_slot (h : Tenured w) (o : Orderly w σ) (b : Beat (w, σ) (w', σ'))
    {i : InterpreterId} {q r : RunId} (slot : (w.interpreter i).slot = some r)
    (began : .began q ∈ w.marks) (own : (w'.run q).interpreter = (w'.run r).interpreter) :
    q ≤ r := by
  have holder := o.slotted.owner i r slot
  apply h.latest i r slot q began
  rw [← b.interpreter (o.rooted.run q began), own, b.interpreter (o.rooted.run r holder.2)]

/-- While no slot changes hands, slots and statuses agree with the marks as before. -/
theorem stay (h : Tenured w) (o : Orderly w σ) (b : Beat (w, σ) (w', σ')) {news : List Mark}
    (marks : w'.marks = w.marks ++ news)
    (quiet : ∀ m ∈ news, ∀ r, m ≠ .began r ∧ (∀ result, m ≠ .returned r result) ∧
      ∀ status, m ≠ .released r status)
    (akin : ∀ i, (w.interpreter i).Akin (w'.interpreter i)) : Tenured w' := by
  have old {m : Mark} (hm : m ∈ w'.marks) (telling : m ∉ news) : m ∈ w.marks := by
    rw [marks] at hm
    exact (List.mem_append.1 hm).resolve_right telling
  have began (r : RunId) (hr : .began r ∈ w'.marks) : .began r ∈ w.marks :=
    old hr fun new => (quiet _ new r).1 rfl
  have released (r : RunId) (status : Status) (hr : .released r status ∈ w'.marks) :
      .released r status ∈ w.marks := old hr fun new => (quiet _ new r).2.2 status rfl
  constructor
  case begun =>
    exact fun r status hr => b.mem_marks o.toStaged (h.begun r status (released r status hr))
  case kept =>
    intro r hr
    rw [b.interpreter (o.rooted.run r (began r hr)), (akin _).slot]
    apply (h.kept r (began r hr)).imp_left
    rintro ⟨status, given⟩
    exact ⟨status, b.mem_marks o.toStaged given⟩
  case given =>
    intro r status hr
    rw [b.interpreter (h.known o (released r status hr)), (akin _).slot]
    exact h.given r status (released r status hr)
  case latest =>
    intro i r hr q hq own
    rw [(akin i).slot] at hr
    exact h.latest_of_slot o b hr (began q hq) own
  case status =>
    intro r status hr last
    have hr := released r status hr
    rw [b.interpreter (h.known o hr), (akin _).status]
    exact h.status r status hr (latest_of_beat o b (h.known o hr) last)
  case returned =>
    intro r result hr
    have hr := old hr fun new => (quiet _ new r).2.1 result rfl
    exact b.mem_marks o.toStaged (h.returned r result hr)

/-- A new run is the latest of its interpreter, whose slot was free. -/
theorem take (h : Tenured w) (o : Orderly w σ) (b : Beat (w, σ) (w', σ')) {i : InterpreterId}
    (free : (w.interpreter i).slot = none) (marks : w'.marks = w.marks ++ [.began w.runs.size])
    (own : (w'.run w.runs.size).interpreter = i)
    (slot : (w'.interpreter i).slot = some w.runs.size)
    (other : ∀ j, j ≠ i → w'.interpreter j = w.interpreter j) : Tenured w' := by
  have began (r : RunId) : .began r ∈ w'.marks ↔ .began r ∈ w.marks ∨ r = w.runs.size := by
    simp [marks]
  have released (r : RunId) (status : Status) :
      .released r status ∈ w'.marks ↔ .released r status ∈ w.marks := by
    simp [marks]
  constructor
  case begun =>
    exact fun r status hr => (began r).2 (.inl (h.begun r status ((released r status).1 hr)))
  case kept =>
    intro r hr
    rcases (began r).1 hr with old | rfl
    · -- Whoever holds a slot holds another one, as that of the new run was free.
      rw [b.interpreter (o.rooted.run r old)]
      rcases h.kept r old with ⟨status, given⟩ | holds
      · exact .inl ⟨status, (released r status).2 given⟩
      · have ne : (w.run r).interpreter ≠ i := by
          intro here
          rw [here, free] at holds
          cases holds
        rw [other _ ne]
        exact .inr holds
    · rw [own]
      exact .inr slot
  case given =>
    intro r status hr
    have old := (released r status).1 hr
    rw [b.interpreter (h.known o old)]
    by_cases here : (w.run r).interpreter = i
    · rw [here, slot]
      intro same
      cases same
      exact Nat.lt_irrefl _ (h.known o old)
    · rw [other _ here]
      exact h.given r status old
  case latest =>
    intro j r hr q hq same
    by_cases here : j = i
    · -- The new run comes after every other one.
      subst here
      cases slot.symm.trans hr
      rcases (began q).1 hq with old | rfl
      · exact Nat.le_of_lt (o.rooted.run q old)
      · exact Nat.le_refl _
    · rw [other j here] at hr
      rcases (began q).1 hq with old | rfl
      · exact h.latest_of_slot o b hr old same
      · have holder := o.slotted.owner j r hr
        have mine := b.interpreter (o.rooted.run r holder.2)
        exact absurd (holder.1.symm.trans (mine.symm.trans (same.symm.trans own))) here
  case status =>
    intro r status hr last
    have old := (released r status).1 hr
    have ne := apart_of_latest b (h.known o old) last ((began _).2 (.inr rfl)) own
    rw [b.interpreter (h.known o old), other _ ne]
    exact h.status r status old (latest_of_beat o b (h.known o old) last)
  case returned =>
    intro r result hr
    rw [marks] at hr
    have old : .returned r result ∈ w.marks := by simpa using hr
    exact (released r _).2 (h.returned r result old)

/-- A run that gives up its slot leaves its status behind. -/
theorem give (h : Tenured w) (o : Orderly w σ) (b : Beat (w, σ) (w', σ')) {r : RunId}
    {status : Status} {news : List Mark} (marks : w'.marks = w.marks ++ news)
    (told : news = [.released r status] ∨
      ∃ result, status = result.status ∧ news = [.returned r result, .released r status])
    (progress : w.InProgress σ r)
    (row : ∀ j, w'.interpreter j = if j = (w.run r).interpreter then
      { w.interpreter j with slot := none, status } else w.interpreter j) : Tenured w' := by
  have holds := o.slotted.holder r progress
  have mine := (o.slotted.owner _ r holds).2
  have began (q : RunId) : .began q ∈ w'.marks ↔ .began q ∈ w.marks := by
    rcases told with rfl | ⟨result, -, rfl⟩ <;> simp [marks]
  have released (q : RunId) (st : Status) : .released q st ∈ w'.marks ↔
      .released q st ∈ w.marks ∨ q = r ∧ st = status := by
    rcases told with rfl | ⟨result, -, rfl⟩ <;> simp [marks]
  -- Only the interpreter of the run changes.
  have here : (w'.interpreter (w.run r).interpreter).slot = none ∧
      (w'.interpreter (w.run r).interpreter).status = status := by
    rw [row, if_pos rfl]
    exact ⟨rfl, rfl⟩
  have other (j : InterpreterId) (ne : j ≠ (w.run r).interpreter) :
      w'.interpreter j = w.interpreter j := by
    rw [row, if_neg ne]
  have begun (q : RunId) (st : Status) (hq : .released q st ∈ w'.marks) :
      .began q ∈ w.marks := by
    rcases (released q st).1 hq with old | ⟨rfl, -⟩
    · exact h.begun q st old
    · exact mine
  have same (q : RunId) (st : Status) (hq : .released q st ∈ w'.marks) :
      (w'.run q).interpreter = (w.run q).interpreter :=
    b.interpreter (o.rooted.run q (begun q st hq))
  constructor
  case begun => exact fun q st hq => (began q).2 (begun q st hq)
  case kept =>
    intro q hq
    have hq := (began q).1 hq
    rw [b.interpreter (o.rooted.run q hq)]
    rcases h.kept q hq with ⟨st, given⟩ | slot
    · exact .inl ⟨st, (released q st).2 (.inl given)⟩
    · by_cases ne : (w.run q).interpreter = (w.run r).interpreter
      · rw [ne, holds] at slot
        cases slot
        exact .inl ⟨status, (released r status).2 (.inr ⟨rfl, rfl⟩)⟩
      · rw [other _ ne]
        exact .inr slot
  case given =>
    intro q st hq
    rw [same q st hq]
    by_cases ne : (w.run q).interpreter = (w.run r).interpreter
    · -- The slot that is given up is empty, so it is nobody's.
      rw [ne, here.1]
      simp
    · rw [other _ ne]
      rcases (released q st).1 hq with old | ⟨rfl, -⟩
      · exact h.given q st old
      · exact absurd rfl ne
  case latest =>
    intro j q hq p hp own
    by_cases ne : j = (w.run r).interpreter
    · rw [ne, here.1] at hq
      cases hq
    · rw [other j ne] at hq
      exact h.latest_of_slot o b hq ((began p).1 hp) own
  case status =>
    intro q st hq last
    have last' := latest_of_beat o b (o.rooted.run q (begun q st hq)) last
    rw [same q st hq]
    by_cases ne : (w.run q).interpreter = (w.run r).interpreter
    · -- The run that holds the slot is the latest, so the other one is the same.
      have first := h.latest _ r holds
      rw [ne, here.2]
      rcases (released q st).1 hq with old | ⟨-, rfl⟩
      · have eq : q = r := Nat.le_antisymm (first q (h.begun q st old) ne) (last' r mine ne.symm)
        subst eq
        exact absurd holds (h.given q st old)
      · rfl
    · rw [other _ ne]
      rcases (released q st).1 hq with old | ⟨rfl, -⟩
      · exact h.status q st old last'
      · exact absurd rfl ne
  case returned =>
    intro q result hq
    rcases told with rfl | ⟨back, hstatus, rfl⟩
    · have old : .returned q result ∈ w.marks := by simpa [marks] using hq
      exact (released q _).2 (.inl (h.returned q result old))
    · have either : .returned q result ∈ w.marks ∨ q = r ∧ result = back := by
        simpa [marks] using hq
      rcases either with old | ⟨rfl, rfl⟩
      · exact (released q _).2 (.inl (h.returned q result old))
      · exact (released q _).2 (.inr ⟨rfl, hstatus.symm⟩)

/-- Every beat keeps slots and statuses in agreement with the marks. -/
theorem beat (h : Tenured w) (o : Orderly w σ) (b : Beat (w, σ) (w', σ')) : Tenured w' := by
  -- Only a run that begins and one that gives up its slot matter.
  cases b.turnover with
  | stay news marks quiet akin =>
    apply h.stay o b marks _ akin
    intro m hm r
    have quiet := quiet m hm
    refine ⟨?_, fun result => ?_, fun status => ?_⟩
    all_goals
      rintro rfl
      cases quiet
  | take i free marks own row =>
    apply h.take o b free marks own
    · rw [row, if_pos rfl]
    · intro j ne
      rw [row, if_neg ne]
  | give r status news marks told progress row => exact h.give o b marks told progress row
  | record r hop marks progress row =>
    apply h.stay o b marks (by simp)
    intro j
    rw [row]
    split
    · exact ⟨rfl, rfl⟩
    · exact .refl _
  | limit i n marks row =>
    apply h.stay o b marks (by simp)
    intro j
    rw [row]
    split
    · exact ⟨rfl, rfl⟩
    · exact .refl _

/-- At the opening no run has begun. -/
theorem opening (s : Scenario) : Tenured s.opening where
  begun r status hr := by cases hr
  kept r hr := by cases hr
  given r status hr := by cases hr
  latest i r hr := by
    have owner := ((Slotted.opening s).owner i r hr).2
    cases owner
  status r status hr := by cases hr
  returned r result hr := by cases hr

end Tenured

/-! ## Starts that fail -/

namespace World

/-- The ways to start an interpreter, each with the world that it leads to. -/
inductive Attempt (w : World) (i : InterpreterId) : World → Prop where
  /-- A script starts it in the background. -/
  | script : Attempt w i (w.startAndLog i)
  /-- The controller starts it in the background. -/
  | start (t : TaskId) (rest : List Step) (n : Nat) :
      Attempt w i (w.beginNamed t rest i (.start n))
  /-- The controller runs it. -/
  | run (t : TaskId) (rest : List Step) (n ms : Nat) :
      Attempt w i (w.beginNamed t rest i (.run n ms))

/-- Whoever runs or starts an interpreter is told of an error, and nothing comes of it. -/
structure Refuses (w : World) (i : InterpreterId) (e : RunError) : Prop where
  run : ∀ t, w.begin i t = .error e
  start : w.startInBackground i = .error e
  spares : ∀ w', w.Attempt i w' → w.Spares w'

/-- A nested machine that cannot start leaves its interpreter as new as it came, and every other
interpreter and every run alone. -/
structure RefusesNested (w : World) (t : TaskId) (m : Machine) : Prop where
  interpreters : (w.beginNested t m).interpreters = w.interpreters.push { machine := m }
  runs : (w.beginNested t m).runs = w.runs

/-- Whoever would start an interpreter that cannot be started is refused. -/
theorem refuses_of_error {w : World} {i : InterpreterId} {e : RunError}
    (failed : (w.interpreter i).startState = .error e) : w.Refuses i e := by
  have run (t : TaskId) : w.begin i t = .error e := World.begin_eq_error.2 failed
  have start : w.startInBackground i = .error e := by
    simp [startInBackground, run, Except.map]
  refine ⟨run, start, fun w' attempt => ?_⟩
  -- Each way looks at the error first, and does no more than report it.
  cases attempt with
  | script =>
    unfold startAndLog
    rw [start]
    exact ⟨rfl, rfl⟩
  | start t rest n =>
    unfold beginNamed
    rw [start]
    exact .answer ..
  | run t rest n ms =>
    unfold beginNamed
    rw [run]
    exact .answer ..

/-- A nested machine that cannot start changes nothing but that it has an interpreter. -/
theorem refusesNested_of_error {m : Machine} {e : RunError} (failed : m.startState = .error e)
    (w : World) (t : TaskId) : w.RefusesNested t m := by
  have row : (w.withNested t m).interpreter w.interpreters.size = { machine := m } := by
    simp [withNested, spawn]
  have refused : (w.withNested t m).begin w.interpreters.size t = .error e := by
    apply World.begin_eq_error.2
    rw [row]
    exact failed
  have spared := (Spares.abort (w.withNested t m) w.tasks.size).trans
    (.finish _ t (some (.run e)))
  have ended : w.beginNested t m =
      ((w.withNested t m).abort w.tasks.size).finish t (some (.run e)) := by
    rw [beginNested_eq, refused]
  have interpreters : (w.withNested t m).interpreters = w.interpreters.push { machine := m } := rfl
  have runs : (w.withNested t m).runs = w.runs := rfl
  constructor
  · rw [ended, spared.interpreters, interpreters]
  · rw [ended, spared.runs, runs]

end World

/-! ## One run at a time -/

/-- A status tells how a run has returned. -/
structure Status.Tells (status : Status) (result : RunResult) : Prop where
  done : status = .done ↔ result = .ok .done
  stopped : status = .stopped ↔ result = .ok .stopped
  settled : status = .settled ↔ ∃ id, result = .ok (.settled id)
  faulted : status = .faulted ↔ ∃ e, result = .error e

theorem RunResult.tells_status (result : RunResult) : result.status.Tells result := by
  rcases result with e | o
  · constructor <;> simp [RunResult.status]
  · cases o <;> constructor <;> simp [RunResult.status]

/-- An interpreter has one run at a time. It shows that it runs exactly while its slot is taken,
and a run holds the slot from its beginning until it gives the slot up, whatever other runs do; so
at most one run is in progress. As long as one holds the slot, whoever would run or start the
interpreter is told that it is running already, and whoever is refused for this or another reason
leaves every interpreter and every run as they were. A run that has returned has left the status
that tells of its result, and no slot, until another begins. -/
theorem Scenario.one_run_at_a_time {s : Scenario} {w : World} {σ : Stage} (h : s.Moment w σ) :
    (∀ i, (w.interpreter i).slot.isSome = true ↔ (w.interpreter i).status = .running) ∧
    (∀ i r, (w.interpreter i).slot = some r ↔
      .began r ∈ w.marks ∧ (w.run r).interpreter = i ∧ ∀ status, .released r status ∉ w.marks) ∧
    (∀ q r, w.InProgress σ q → w.InProgress σ r →
      (w.run q).interpreter = (w.run r).interpreter → q = r) ∧
    (∀ r, .began r ∈ w.marks → (∀ status, .released r status ∉ w.marks) →
      w.Refuses (w.run r).interpreter (.alreadyRunning (w.machineOf r).id)) ∧
    (∀ i e, (w.interpreter i).startState = .error e → w.Refuses i e) ∧
    (∀ t m e, m.startState = .error e → w.RefusesNested t m) ∧
    ∀ r result, .returned r result ∈ w.marks → w.IsLatest r →
      (w.interpreter (w.run r).interpreter).slot = none ∧
        (w.interpreter (w.run r).interpreter).status.Tells result := by
  have o := h.orderly
  have tenured : Tenured w :=
    h.invariant (I := fun w _ => Tenured w) (.opening s) fun o tenured beat => tenured.beat o beat
  have holds (r : RunId) (began : .began r ∈ w.marks)
      (kept : ∀ status, .released r status ∉ w.marks) :
      (w.interpreter (w.run r).interpreter).slot = some r := by
    rcases tenured.kept r began with ⟨status, given⟩ | slot
    · exact absurd given (kept status)
    · exact slot
  refine ⟨fun i => (o.slotted.status i).symm, fun i r => ⟨fun slot => ?_, ?_⟩,
    fun q r going going' same => ?_, fun r began kept => ?_, fun i e => World.refuses_of_error,
    fun t m e failed => World.refusesNested_of_error failed w t,
    fun r result returned latest => ?_⟩
  · obtain ⟨own, began⟩ := o.slotted.owner i r slot
    refine ⟨began, own, fun status given => ?_⟩
    apply tenured.given r status given
    rw [own]
    exact slot
  · rintro ⟨began, rfl, kept⟩
    exact holds r began kept
  · -- Both hold the one slot.
    have slot := o.slotted.holder q going
    rw [same, o.slotted.holder r going'] at slot
    exact (Option.some.inj slot).symm
  · apply World.refuses_of_error
    unfold Interpreter.startState
    rw [holds r began kept]
    rfl
  · have given := tenured.returned r result returned
    have status := tenured.status r _ given latest
    constructor
    · -- A slot that is taken is taken by the latest run, which is this one.
      cases slot : (w.interpreter (w.run r).interpreter).slot with
      | none => rfl
      | some q =>
        obtain ⟨own, began⟩ := o.slotted.owner _ q slot
        have later := latest q began own
        have sooner := tenured.latest _ q slot r (tenured.begun r _ given) own.symm
        cases Nat.le_antisymm later sooner
        exact absurd slot (tenured.given _ _ given)
    · rw [status]
      exact result.tells_status

/-- An interpreter is run while it runs in the background. -/
def Scenario.rivals : Scenario where
  machine := ⟨"m", "M", "a", some [
    { State.new "a" with services := [.free { body := [.pause .yield] }] }]⟩
  interpreters := 1
  limit := none
  observers := []
  steps := [.start 0, .run 0 100, .join 0 100]

/-- The second run is refused while the first is in progress, which settles. -/
theorem Scenario.rivals_refused :
    (rivals.play 4).Refuses 0 (.alreadyRunning "m") ∧
      ((rivals.play 20).interpreter 0).status.Tells (.ok (.settled "a")) := by
  obtain ⟨-, -, -, -, refuses, -⟩ := one_run_at_a_time (rivals.reaches_play 4).moment
  obtain ⟨-, -, -, -, -, -, tells⟩ := one_run_at_a_time (rivals.reaches_play 20).moment
  constructor
  · apply refuses
    rfl
  · apply (tells 0 (.ok (.settled "a")) (by decide +kernel) _).2
    exact (rivals.reaches_play 20).orderly.isLatest (by decide +kernel)

end Statechart
