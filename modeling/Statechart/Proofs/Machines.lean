import Statechart.Proofs.Records

/-!
# The machines of runs

An interpreter keeps its machine, and a run its interpreter, so what a run goes by is the same from
its beginning to its end.

## Main definitions

- `Begins`: a run begins with the initial state of its machine.
- `Rooted`: the interpreters of runs are there.

## Main statements

- `Beat.fixed`: no beat changes a machine.
- `Rooted.beat`: every beat keeps runs rooted.
- `Beat.machineOf`: the machine of a run stays.
- `Scenario.Reaches.machine`: the interpreters of a scenario are over its machine.
-/

namespace Statechart

section

variable {w w' : World} {σ σ' : Stage} {t : TaskId} {r : RunId}

/-! ## Machines stay -/

theorem Fixed.takeSlot (w : World) (i : InterpreterId) (t : TaskId) (s : State) :
    Fixed w (w.takeSlot i t s) := by
  have taken : Fixed { w with runs := w.runs.push ⟨i, t, false, .begun s⟩ } _ :=
    Fixed.modifyInterpreter (i := i) (f := fun x =>
      { x with slot := some w.runs.size, status := .running, history := x.history.clear }) rfl
  exact { taken with }

theorem Fixed.release (w : World) (r : RunId) (status : Status) : Fixed w (w.release r status) := by
  have released : Fixed (w.setPhase r .ended) _ :=
    Fixed.modifyInterpreter (i := (w.run r).interpreter) (f := fun x =>
      { x with slot := none, status }) rfl
  exact { released with }

theorem Stir.fixed (b : Stir σ w w') : Fixed w w' := by
  rcases b.hushed with hushed | ⟨x, -, rfl⟩ | ⟨i, s, -, rfl⟩
  · exact hushed.toFixed
  · exact { Fixed.refl w with }
  · exact { Fixed.takeSlot w i w.tasks.size s with }

theorem Shift.fixed (b : Shift (w, σ) w') : Fixed w w' := by
  cases b with
  | turn | unqueue | resume => exact { Fixed.refl w with }
  | @park _ _ t =>
    obtain ⟨queue, -, parked⟩ := w.park_eq t
    rw [parked]
    exact { Fixed.refl w with }
  | @retire _ w₁ _ t fate alive ease late chores =>
    have buried : Fixed w w₁ := { (Frame.of_chores chores).toFixed with }
    refine buried.trans ?_
    unfold World.withdraw
    split <;> exact { Fixed.refl w₁ with }
  | @begin _ t job i s => exact { Fixed.takeSlot w i t s with }

theorem Stride.fixed (b : Stride t r (w, σ) (w', σ')) : Fixed w w' := by
  cases b with
  | halt | back | done => exact { Fixed.release (w.mark _) r _ with }
  | unwind => exact .release ..
  | go => exact { (Still.record w r _).toFixed with }
  | @relax _ v => exact (Frame.abortWork w v).toFixed
  | @dropWaiting _ _ v => exact { (Frame.abortWork (w.setPhase r .ended) v).toFixed with }
  | _ => exact { Fixed.refl w with }

theorem Beat.fixed (b : Beat (w, σ) (w', σ')) : Fixed w w' := by
  cases b with
  | stir b => exact b.fixed
  | shift b => exact b.fixed
  | stride b => exact b.fixed

/-! ## Runs keep their interpreters -/

/-- An interpreter that a run can start on is there. -/
theorem World.known_of_startState {i : InterpreterId} {s : State}
    (first : (w.interpreter i).machine.startState = .ok s) : i < w.interpreters.size := by
  refine Nat.lt_of_not_le fun new => ?_
  -- An interpreter that is not there reads as one whose machine has no states.
  have blank : w.interpreter i = default := Table.get_of_size_le new
  rw [blank] at first
  cases first

/-- A run begins with the initial state of its machine. -/
structure Begins (w w' : World) (r : RunId) (s : State) : Prop where
  new : r = w.runs.size
  known : r < w'.runs.size
  phase : (w'.run r).phase = .begun s
  host : (w'.run r).host = w.tasks.size ∨ w.running = some (w'.run r).host
  interpreter : (w'.run r).interpreter < w.interpreters.size
  first : (w.interpreter (w'.run r).interpreter).machine.startState = .ok s
  marks : w'.marks = w.marks ++ [.began r]

theorem Begins.takeSlot {i : InterpreterId} {s : State}
    (first : (w.interpreter i).machine.startState = .ok s) {t : TaskId}
    (host : t = w.tasks.size ∨ w.running = some t) :
    Begins w (w.takeSlot i t s) w.runs.size s := by
  have run : (w.takeSlot i t s).run w.runs.size = ⟨i, t, false, .begun s⟩ := by
    simp [World.takeSlot, World.mark, World.log, World.modifyInterpreter]
  refine ⟨rfl, ?_, by rw [run], by rwa [run], ?_, by rwa [run], w.marks_takeSlot i t s⟩
  · simp [World.takeSlot, World.mark, World.log, World.modifyInterpreter]
  · rw [run]
    exact World.known_of_startState first

/-- A run begins in whatever has the same runs and marks. -/
theorem Begins.congr {w₁ : World} {s : State} (h : Begins w w₁ r s) (runs : w'.runs = w₁.runs)
    (marks : w'.marks = w₁.marks) : Begins w w' r s := by
  have run : w'.run r = w₁.run r := by
    unfold World.run
    rw [runs]
  refine ⟨h.new, runs ▸ h.known, ?_, ?_, ?_, ?_, marks.trans h.marks⟩
  · exact run ▸ h.phase
  · exact run ▸ h.host
  · exact run ▸ h.interpreter
  · exact run ▸ h.first

/-- The marks tell of the beginning of a run when it begins. -/
theorem Beat.begins (b : Beat (w, σ) (w', σ')) (staged : Staged w σ)
    (began : .began r ∈ w'.marks) : .began r ∈ w.marks ∨ σ' = σ ∧ ∃ s, Begins w w' r s := by
  -- A beat that begins a run leaves one mark, that of its beginning.
  have new {w₁ : World} {s : State} (begins : Begins w w₁ w.runs.size s)
      (began : .began r ∈ w₁.marks) : .began r ∈ w.marks ∨ ∃ s, Begins w w₁ r s := by
    rw [begins.marks] at began
    refine (List.mem_append.1 began).imp_right fun here => ?_
    cases List.mem_singleton.1 here
    exact ⟨s, begins⟩
  -- Whatever else happens leaves other marks.
  have old {news : List Mark} (marks : w'.marks = w.marks ++ news)
      (other : ∀ m ∈ news, m ≠ .began r) : .began r ∈ w.marks := by
    rw [marks] at began
    exact (List.mem_append.1 began).resolve_right fun here => other _ here rfl
  cases b with
  | stir b =>
    cases b with
    -- Runs begin in the background, by a script.
    | start i s free first =>
      have begins : Begins w (w.startNew i s) w.runs.size s :=
        (Begins.takeSlot first (.inl rfl)).congr rfl rfl
      exact (new begins began).imp_right fun begins => ⟨rfl, begins⟩
    | spawn => exact .inl began
    | chore c => exact .inl (old (by simp [c.frame.marks]) (List.forall_mem_nil _))
    | refuse | ask | limit => exact .inl (old (World.marks_mark ..) (by simp))
    | cancel i q => exact .inl (old (w.marks_stopRun q) (by simp))
    | accept v d => exact .inl (old (w.accept_eq v d).2.2.2.2 (by simp))
    | miss | keep => exact .inl began
  | shift b =>
    cases b with
    -- Or they begin in a turn of the task that is to drive them.
    | @begin _ t job i s turn _ _ _ first =>
      have begins : Begins w ((w.takeSlot i t s).setJob t job) w.runs.size s :=
        (Begins.takeSlot first (.inr turn)).congr rfl rfl
      exact (new begins began).imp_right fun begins => ⟨rfl, begins⟩
    | @turn _ t =>
      have marks : ({ { w with queue := w.queue.erase t }.mark (.turn t) with
          running := some t } : World).marks = w.marks ++ [.turn t] := by simp
      exact .inl (old marks (by simp))
    | unqueue | resume => exact .inl began
    | @park _ _ t =>
      obtain ⟨queue, -, parked⟩ := w.park_eq t
      rw [parked] at began
      exact .inl began
    | retire alive ease late chores =>
      exact .inl (old (Retired.of_chores chores).marks (by simp))
  | stride b =>
    obtain ⟨news, marks, speaks⟩ := b.speaks staged
    refine .inl (old marks fun m hm => ?_)
    rintro rfl
    cases (speaks _ hm).way

/-- Every run that was begun is there, and one of an interpreter that is there. -/
structure Rooted (w : World) : Prop where
  run : ∀ r, .began r ∈ w.marks → r < w.runs.size
  interpreter : ∀ r, .began r ∈ w.marks → (w.run r).interpreter < w.interpreters.size

/-- A run that is there keeps its interpreter. -/
theorem Beat.interpreter (b : Beat (w, σ) (w', σ')) (known : r < w.runs.size) :
    (w'.run r).interpreter = (w.run r).interpreter := by
  cases b with
  | stir b => exact (b.steady.run r known).interpreter
  | shift b => exact (b.steady.run r known).interpreter
  | @stride t q _ _ b =>
    by_cases hq : r = q
    · exact hq ▸ b.onward.interpreter
    · rw [b.onward.run r hq]

/-- No run is forgotten. -/
theorem Beat.runs (b : Beat (w, σ) (w', σ')) : w.runs.size ≤ w'.runs.size := by
  cases b with
  | stir b => exact b.steady.runs
  | shift b => exact b.steady.runs
  | stride b => exact b.onward.runs

theorem Rooted.beat (h : Rooted w) (sound : Sound w σ) (b : Beat (w, σ) (w', σ')) :
    Rooted w' := by
  constructor
  · intro r began
    rcases b.begins sound.toStaged began with old | ⟨-, s, begins⟩
    · exact Nat.lt_of_lt_of_le (h.run r old) b.runs
    · exact begins.known
  · intro r began
    rcases b.begins sound.toStaged began with old | ⟨-, s, begins⟩
    · rw [b.interpreter (h.run r old)]
      exact Nat.lt_of_lt_of_le (h.interpreter r old) b.fixed.interpreters
    · exact Nat.lt_of_lt_of_le begins.interpreter b.fixed.interpreters

/-- A run that was begun keeps its machine. -/
theorem Beat.machineOf (b : Beat (w, σ) (w', σ')) (h : Rooted w) (began : .began r ∈ w.marks) :
    w'.machineOf r = w.machineOf r := by
  unfold World.machineOf
  rw [b.interpreter (h.run r began), b.fixed.machine _ (h.interpreter r began)]

/-- The interpreters that a scenario begins with stay over its machine. -/
theorem Scenario.Reaches.machine {s : Scenario} {i : InterpreterId} (h : s.Reaches w)
    (known : i < s.interpreters) : (w.interpreter i).machine = s.machine := by
  have size : s.opening.interpreters.size = s.interpreters := Array.size_replicate
  have blank : (s.opening.interpreter i).machine = s.machine := by
    simp [opening, World.interpreter, Table.get, Array.getD, known]
  refine (h.invariant (I := fun w _ => i < w.interpreters.size ∧
    (w.interpreter i).machine = s.machine) ⟨size ▸ known, blank⟩ fun _ ih beat => ?_).2
  exact ⟨Nat.lt_of_lt_of_le ih.1 beat.fixed.interpreters, (beat.fixed.machine i ih.1).trans ih.2⟩

end

end Statechart
