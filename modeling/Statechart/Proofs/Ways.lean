import Statechart.Proofs.Crew
import Statechart.Proofs.Machines
import Statechart.Proofs.SlotRelease

/-!
# The ways of runs

The marks tell of all runs at once. What they tell of one run is its way: the marks that speak of
the run, of one of its visits, or of a task that works for one of these.

## Main definitions

- `World.subject?`: the run that a mark is about.
- `World.way`: the marks that are about a run, in order.
- `Lasting`: visits and tasks that are there stay what they are.
- `Listed`: marks are about runs that are there.
- `Heeded`: runs that were asked to stop are cancelled.

## Main statements

- `World.way_append`: the way of a run goes on when the marks do.
- `Stride.way`: a stride adds marks to the way of its own run, and to no other.
- `Listed.beat`, `Heeded.beat`: every beat keeps both.
-/

namespace Statechart

/-! ## Definitions -/

namespace World

/-- The run that a mark is about. -/
def subject? (w : World) : Mark → Option RunId
  | .began r | .stopAsked r | .notified r _ | .entered r _ | .moved r _ | .announced r
  | .returned r _ | .released r _ => some r
  | .acted v _ _ | .arrived v | .launched v _ | .concluded v _ | .left v => some (w.visit v).run
  | .turn t | .ended t _ => (w.task t).home.map fun v => (w.visit v).run
  | .raised _ _ _ | .limited _ _ _ => none

/-- The marks that are about a run, in order. -/
def way (w : World) (r : RunId) : List Mark :=
  w.marks.filter fun m => w.subject? m = some r

theorem mem_way {w : World} {r : RunId} {m : Mark} :
    m ∈ w.way r ↔ m ∈ w.marks ∧ w.subject? m = some r := by
  simp [way]

end World

/-- Visits and tasks that are there stay what they are. -/
structure Lasting (w w' : World) : Prop where
  visits : w.visits.size ≤ w'.visits.size
  state : ∀ v, v < w.visits.size → (w'.visit v).state = (w.visit v).state
  owner : ∀ v, v < w.visits.size → (w'.visit v).run = (w.visit v).run
  tasks : w.tasks.size ≤ w'.tasks.size
  home : ∀ t, t < w.tasks.size → (w'.task t).home = (w.task t).home

/-- Marks are about runs that are there. -/
def Listed (w : World) : Prop :=
  ∀ m ∈ w.marks, ∀ r, w.subject? m = some r → r < w.runs.size

/-- Runs that were asked to stop are cancelled. -/
def Heeded (w : World) : Prop :=
  ∀ r, .stopAsked r ∈ w.marks → (w.run r).cancelled = true

/-! ## What lasts -/

namespace Lasting

variable {w w' w'' : World} {r : RunId} {v : VisitId} {t : TaskId}

@[refl]
theorem refl (w : World) : Lasting w w :=
  ⟨Nat.le_refl _, fun _ _ => rfl, fun _ _ => rfl, Nat.le_refl _, fun _ _ => rfl⟩

theorem trans (h : Lasting w w') (h' : Lasting w' w'') : Lasting w w'' where
  visits := Nat.le_trans h.visits h'.visits
  state v hv := (h'.state v (Nat.lt_of_lt_of_le hv h.visits)).trans (h.state v hv)
  owner v hv := (h'.owner v (Nat.lt_of_lt_of_le hv h.visits)).trans (h.owner v hv)
  tasks := Nat.le_trans h.tasks h'.tasks
  home t ht := (h'.home t (Nat.lt_of_lt_of_le ht h.tasks)).trans (h.home t ht)

theorem owns (h : Lasting w w') (own : w.Owns r v) : w'.Owns r v :=
  ⟨(h.owner v own.known).trans own.run, Nat.lt_of_lt_of_le own.known h.visits⟩

/-- A task that works for a visit goes on to belong to it. -/
theorem homes (h : Lasting w w') (home : (w.task t).home = some v) :
    (w'.task t).home = some v := by
  refine (h.home t (Nat.lt_of_not_le fun new => ?_)).trans home
  cases (World.home_of_size_le new).symm.trans home

end Lasting

section

variable {w w' : World} {σ σ' : Stage} {t u : TaskId} {r q : RunId} {v : VisitId}

theorem Steady.lasting (h : Steady w w') : Lasting w w' :=
  ⟨h.visits, fun v _ => h.state v, fun v _ => h.owner v, h.tasks, h.home⟩

theorem Stride.lasting (b : Stride t r (w, σ) (w', σ')) : Lasting w w' := by
  have o := b.onward
  refine ⟨o.visits, o.state, o.owner, b.tasks, fun u hu => ?_⟩
  rcases b.calm with calm | ⟨v, k, x, -, -, rfl, -⟩
  · exact (calm.task u).home
  · rw [World.task_spawnFor_of_lt hu]

theorem Beat.lasting (b : Beat (w, σ) (w', σ')) : Lasting w w' := by
  cases b with
  | stir b => exact b.steady.lasting
  | shift b => exact b.steady.lasting
  | stride b => exact b.lasting

theorem Beats.lasting {x y : World × Stage} (b : Beats x y) : Lasting x.1 y.1 := by
  induction b with
  | refl => rfl
  | tail _ beat ih => exact ih.trans beat.lasting

/-- Who works for a visit did so before, unless the visit is getting its tasks. -/
theorem Beat.servant (b : Beat (w, σ) (w', σ')) (home : (w'.task u).home = some v)
    (alive : (w'.task u).isAlive = true) :
    ((w.task u).home = some v ∧ (w.task u).isAlive = true) ∨
      ∃ t r k, σ = .busy t r (.launching v k) ∧ σ' = σ := by
  rcases b.came home with old | new
  · exact .inl ⟨old, b.alive old alive⟩
  · exact .inr new

/-! ## What marks are about -/

/-- Marks go on to be about the same runs. -/
theorem Lasting.subject? (h : Lasting w w') (recorded : Recorded w) (crewed : Crewed w σ)
    {m : Mark} (hm : m ∈ w.marks) : w'.subject? m = w.subject? m := by
  -- A mark names its run, or it names a visit or a task; these keep the run that they belong to.
  have ofVisit (v : VisitId) (hv : m.visit? = some v) : (w'.visit v).run = (w.visit v).run :=
    h.owner v (recorded.visit m hm v hv)
  have ofTask (t : TaskId) (ht : m.task? = some t) :
      ((w'.task t).home.map fun v => (w'.visit v).run) =
        (w.task t).home.map fun v => (w.visit v).run := by
    rw [h.home t (recorded.task m hm t ht)]
    cases home : (w.task t).home with
    | none => rfl
    | some v => exact congrArg some (h.owner v (crewed.home t v home).1)
  cases m with
  | acted v | arrived v | launched v | concluded v | left v =>
    exact congrArg some (ofVisit v rfl)
  | turn t | ended t => exact ofTask t rfl
  | _ => rfl

/-- The way of a run goes on when the marks do. -/
theorem World.way_append (lasting : Lasting w w') (recorded : Recorded w) (crewed : Crewed w σ)
    {news : List Mark} (marks : w'.marks = w.marks ++ news) (r : RunId) :
    w'.way r = w.way r ++ news.filter fun m => w'.subject? m = some r := by
  unfold World.way
  rw [marks, List.filter_append]
  congr 1
  refine List.filter_congr fun m hm => ?_
  rw [lasting.subject? recorded crewed hm]

/-- A mark of the own way of a run is about the run. -/
theorem World.Speaks.subject? {m : Mark} (h : w.Speaks r w' m) : w'.subject? m = some r := by
  cases m with
  | began q | stopAsked q | turn | ended | raised | limited => cases h.way
  | notified q | entered q | moved q | announced q | returned q | released q =>
    exact congrArg some (h.run q rfl)
  | acted v | arrived v | launched v | concluded v | left v =>
    exact congrArg some (h.visit v rfl).1.run

/-- A stride adds its marks to the way of its own run, and to no other. -/
theorem Stride.way (b : Stride t q (w, σ) (w', σ')) (staged : Staged w σ)
    (recorded : Recorded w) (crewed : Crewed w σ) {news : List Mark}
    (marks : w'.marks = w.marks ++ news) (r : RunId) :
    w'.way r = w.way r ++ if r = q then news else [] := by
  rw [World.way_append b.lasting recorded crewed marks r]
  congr 1
  -- All marks of a stride are about the run that goes further.
  obtain ⟨news', marks', speaks⟩ := b.speaks staged
  cases List.append_cancel_left (marks.symm.trans marks')
  split
  · next mine =>
    refine List.filter_eq_self.2 fun m hm => ?_
    simp [(speaks m hm).subject?, mine]
  · next other =>
    refine List.filter_eq_nil_iff.2 fun m hm => ?_
    simp [(speaks m hm).subject?, Ne.symm other]

/-- Whoever was cancelled stays so. -/
theorem Beat.cancelled (b : Beat (w, σ) (w', σ')) (known : r < w.runs.size)
    (h : (w.run r).cancelled = true) : (w'.run r).cancelled = true := by
  cases b with
  | stir b => exact (b.steady.run r known).cancelled h
  | shift b => exact (b.steady.run r known).cancelled h
  | @stride t q _ _ b =>
    by_cases hq : r = q
    · exact hq ▸ b.onward.cancelled.trans (hq ▸ h)
    · exact b.onward.run r hq ▸ h

/-- A stop is asked for of a run that holds a slot, and it is heeded at once. -/
theorem Beat.asks (b : Beat (w, σ) (w', σ')) (staged : Staged w σ)
    (asked : .stopAsked r ∈ w'.marks) : .stopAsked r ∈ w.marks ∨
      (∃ i, (w.interpreter i).slot = some r) ∧ (w'.run r).cancelled = true := by
  -- Whatever else happens leaves other marks.
  have old {news : List Mark} (marks : w'.marks = w.marks ++ news)
      (other : ∀ m ∈ news, m ≠ .stopAsked r) : .stopAsked r ∈ w.marks := by
    rw [marks] at asked
    exact (List.mem_append.1 asked).resolve_right fun here => other _ here rfl
  cases b with
  | stir b =>
    cases b with
    -- A stop is asked for of the run that holds a slot, whether it is cancelled already or now.
    | ask i q slot stopped =>
      refine (List.mem_append.1 (World.marks_mark w _ ▸ asked)).imp_right fun here => ?_
      cases List.mem_singleton.1 here
      exact ⟨⟨i, slot⟩, stopped⟩
    | cancel i q slot =>
      refine (List.mem_append.1 (w.marks_stopRun q ▸ asked)).imp_right fun here => ?_
      cases List.mem_singleton.1 here
      refine ⟨⟨i, slot⟩, ?_⟩
      rw [World.stopRun, World.run_modifyRun, if_pos rfl]
    | start i s => exact .inl (old (w.marks_startNew i s) (by simp))
    | chore c => exact .inl (old (by simp [c.frame.marks]) (List.forall_mem_nil _))
    | refuse | limit => exact .inl (old (World.marks_mark ..) (by simp))
    | accept v d => exact .inl (old (w.accept_eq v d).2.2.2.2 (by simp))
    | miss | keep | spawn => exact .inl asked
  | shift b =>
    cases b with
    | @begin _ t job i s => exact .inl (old (w.marks_takeSlot i t s) (by simp))
    | @turn _ t => exact .inl (old (w.marks_mark (.turn t)) (by simp))
    | unqueue | resume => exact .inl asked
    | @park _ _ t =>
      obtain ⟨queue, -, parked⟩ := w.park_eq t
      rw [parked] at asked
      exact .inl asked
    | retire alive ease late chores =>
      exact .inl (old (Retired.of_chores chores).marks (by simp))
  | stride b =>
    obtain ⟨news, marks, speaks⟩ := b.speaks staged
    refine .inl (old marks fun m hm => ?_)
    rintro rfl
    cases (speaks _ hm).way

theorem Heeded.beat (h : Heeded w) (staged : Staged w σ) (listed : Listed w)
    (b : Beat (w, σ) (w', σ')) : Heeded w' := by
  intro r asked
  rcases b.asks staged asked with old | ⟨-, cancelled⟩
  · exact b.cancelled (listed _ old r rfl) (h r old)
  · exact cancelled

/-- The tasks that new marks speak of were alive. -/
theorem Beat.tells (b : Beat (w, σ) (w', σ')) (sound : Sound w σ) :
    ∃ news, w'.marks = w.marks ++ news ∧
      ∀ m ∈ news, ∀ t, m.task? = some t → (w.task t).isAlive = true := by
  have silent (marks : w'.marks = w.marks) : ∃ news, w'.marks = w.marks ++ news ∧
      ∀ m ∈ news, ∀ t, m.task? = some t → (w.task t).isAlive = true :=
    ⟨[], by simp [marks], List.forall_mem_nil _⟩
  cases b with
  | stir b =>
    obtain ⟨news, marks, talk⟩ := b.marks
    refine ⟨news, marks, fun m hm t ht => ?_⟩
    cases (talk m hm).2.symm.trans ht
  -- Tasks are spoken of only when one gets the turn and when one ends, and it is alive then.
  | shift b =>
    cases b with
    | @turn _ u free ready =>
      refine ⟨[.turn u], by simp, List.forall_mem_singleton.2 fun t ht => ?_⟩
      cases ht
      exact sound.ready _ ready
    | unqueue | resume => exact silent rfl
    | @park _ _ u =>
      obtain ⟨queue, -, parked⟩ := w.park_eq u
      exact silent (by simp [parked])
    | retire alive ease late chores =>
      refine ⟨_, (Retired.of_chores chores).marks, List.forall_mem_singleton.2 fun t ht => ?_⟩
      cases ht
      exact alive
    | @begin _ u job i s =>
      refine ⟨[.began w.runs.size], by simp, List.forall_mem_singleton.2 fun t ht => ?_⟩
      cases ht
  | stride b =>
    obtain ⟨news, marks, speaks⟩ := b.speaks sound.toStaged
    refine ⟨news, marks, fun m hm t ht => ?_⟩
    rw [Mark.task?_of_isAside (speaks m hm).way] at ht
    cases ht

/-- Marks are about runs that are there, whatever a beat adds to them. -/
theorem Listed.beat (h : Listed w) (sound : Sound w σ) (recorded : Recorded w)
    (crewed : Crewed w σ) (slotted : Slotted w σ) (b : Beat (w, σ) (w', σ')) : Listed w' := by
  have lasting := b.lasting
  intro m hm r subject
  by_cases old : m ∈ w.marks
  · rw [lasting.subject? recorded crewed old] at subject
    exact Nat.lt_of_lt_of_le (h m old r subject) b.runs
  -- A task that a new mark is about was there before, and so was the run that it works for.
  have ofTask {t : TaskId} (ht : m.task? = some t)
      (subject : ((w'.task t).home.map fun v => (w'.visit v).run) = some r) :
      r < w'.runs.size := by
    obtain ⟨news, marks, alive⟩ := b.tells sound
    have alive := alive m ((List.mem_append.1 (marks ▸ hm)).resolve_left old) t ht
    rw [lasting.home t (World.lt_size_of_isAlive alive)] at subject
    obtain ⟨v, home, rfl⟩ := Option.map_eq_some_iff.1 subject
    obtain ⟨known, begun, -⟩ := crewed.home t v home
    rw [lasting.owner v known]
    exact Nat.lt_of_lt_of_le begun b.runs
  have ofRun {t : TaskId} {q : RunId} {w₁ : World} {σ₁ : Stage}
      (b : Stride t q (w, σ) (w₁, σ₁)) (hm : m ∈ w₁.marks) (subject : w₁.subject? m = some r) :
      r < w₁.runs.size := by
    obtain ⟨news, marks, speaks⟩ := b.speaks sound.toStaged
    have new := (List.mem_append.1 (marks ▸ hm)).resolve_left old
    cases (speaks m new).subject?.symm.trans subject
    exact Nat.lt_of_lt_of_le (b.hosts sound.toQueued sound.toHosted).known b.onward.runs
  -- Beginnings and stops are not told of by the run that they are about.
  cases m with
  | began q =>
    cases subject
    rcases b.begins sound.toStaged hm with before | ⟨-, s, begins⟩
    · exact absurd before old
    · exact begins.known
  | stopAsked q =>
    cases subject
    rcases b.asks sound.toStaged hm with before | ⟨⟨i, slot⟩, -⟩
    · exact absurd before old
    · exact Nat.lt_of_lt_of_le (slotted.known r (slotted.owner i r slot).2).1 b.runs
  | raised | limited => cases subject
  | turn t | ended t => exact ofTask rfl subject
  | _ =>
    -- Any other mark is one of a run that goes further.
    cases b with
    | stride b => exact ofRun b hm subject
    | stir b =>
      obtain ⟨news, marks, aside⟩ := b.steady.marks
      cases aside _ ((List.mem_append.1 (marks ▸ hm)).resolve_left old)
    | shift b =>
      obtain ⟨news, marks, aside⟩ := b.steady.marks
      cases aside _ ((List.mem_append.1 (marks ▸ hm)).resolve_left old)

end

end Statechart
