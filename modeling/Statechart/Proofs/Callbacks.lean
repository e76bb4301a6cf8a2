import Statechart.Proofs.Records

/-!
# Callbacks

Who can raise events on a visit, and what becomes of the events that are accepted. Callbacks come
into the world while the work of a visit is set up, and from then on there are only clones of
clones; and a visit accepts one event at most.

## Main definitions

- `World.accepted`: the events that a visit has accepted.
- `Deaf`: nothing is accepted.
- `Counted`: what a visit has accepted is what is in its inbox.
- `Asked`: only runs that were asked to stop are cancelled.

## Main statements

- `World.marks_raise`: marks tell whether a call raised an event.
- `Stir.usable`, `Shift.isHeld`, `Stride.isHeld`: where clones of a callback come from.
- `Stir.hears`, `Shift.deaf`, `Stride.deaf`: only scripts make a visit accept an event.
-/

namespace Statechart

/-! ## Clones of a callback -/

theorem Table.mem_toList {α : Type} [Inhabited α] {t : Table α} {a : α} :
    a ∈ t.toList ↔ ∃ i, i < t.size ∧ t.get i = a := by
  simp only [toList, size, get, Array.mem_toList_iff, Array.mem_iff_getElem]
  constructor
  · rintro ⟨i, hi, rfl⟩
    exact ⟨i, hi, by simp [Array.getD, hi]⟩
  · rintro ⟨i, hi, rfl⟩
    exact ⟨i, hi, by simp [Array.getD, hi]⟩

namespace World

variable {w w' : World} {σ : Stage} {v : VisitId}

theorem isHeld_iff : w.isHeld v = true ↔
    (∃ t, (w.task t).holds v = true) ∨ ∃ k ∈ w.kept, k.2 = v := by
  simp only [isHeld, Bool.or_eq_true, List.any_eq_true, decide_eq_true_eq, Table.mem_toList]
  refine or_congr_left ?_
  constructor
  · rintro ⟨x, ⟨t, ht, rfl⟩, holds⟩
    exact ⟨t, holds⟩
  · rintro ⟨t, holds⟩
    have alive : (w.task t).isAlive = true := by
      simp only [Task.holds, Bool.and_eq_true] at holds
      exact holds.1
    exact ⟨_, ⟨t, lt_size_of_isAlive alive, rfl⟩, holds⟩

theorem isHeld_congr (tasks : w'.tasks = w.tasks) (kept : w'.kept = w.kept) :
    w'.isHeld v = w.isHeld v := by
  unfold isHeld
  rw [tasks, kept]

/-- No clones come when tasks get none and none are kept. -/
theorem isHeld_mono (h : w'.isHeld v = true)
    (tasks : ∀ t, (w'.task t).holds v = true → (w.task t).holds v = true)
    (kept : ∀ k ∈ w'.kept, k ∈ w.kept) : w.isHeld v = true := by
  rw [isHeld_iff] at h ⊢
  rcases h with ⟨t, ht⟩ | ⟨k, hk, hv⟩
  · exact .inl ⟨t, tasks t ht⟩
  · exact .inr ⟨k, kept k hk, hv⟩

/-- A new task may come with clones. -/
theorem isHeld_spawn {x : Task} (h : (w.spawn x).isHeld v = true) :
    x.holds v = true ∨ w.isHeld v = true := by
  rw [isHeld_iff] at h
  rcases h with ⟨t, ht⟩ | kept
  · simp only [spawn, task_mk, Table.get_push] at ht
    split at ht
    · exact .inl ht
    · exact .inr (isHeld_iff.2 (.inl ⟨t, ht⟩))
  · exact .inr (isHeld_iff.2 (.inr kept))

end World

section

variable {w w' : World} {σ σ' : Stage} {t : TaskId} {r : RunId} {v : VisitId}

/-- Scripts make clones of what they have. -/
theorem Stir.isHeld (b : Stir σ w w') (h : w'.isHeld v = true) : w.Usable σ v := by
  cases b with
  | chore c =>
    have frame := c.frame
    apply Or.inl
    apply World.isHeld_mono h
    · exact fun t => (frame.task t).holds v
    · exact fun k hk => frame.kept ▸ hk
  | refuse | miss | ask | cancel | limit => exact .inl (World.isHeld_congr rfl rfl ▸ h)
  -- Whoever hears of the event holds no more than before.
  | accept u d =>
    obtain ⟨tasks, -, -, kept, -⟩ := w.accept_eq u d
    have told := Frame.notify (w.commit u d) u
    refine .inl (World.isHeld_mono h (fun t ht => ?_) fun k hk => kept ▸ hk)
    unfold World.task at ht
    rw [tasks] at ht
    exact (told.task t).holds v ht
  | keep kept use =>
    rcases World.isHeld_iff.1 h with tasks | ⟨k, hk, rfl⟩
    · exact .inl (World.isHeld_iff.2 (.inl tasks))
    -- A callback is kept by whoever has it.
    · rcases use k hk with old | usable
      · exact .inl (World.isHeld_iff.2 (.inr ⟨k, old, rfl⟩))
      · exact usable
  | spawn x plain use =>
    rcases World.isHeld_spawn h with new | old
    · exact use v new
    · exact .inl old
  | start i s =>
    rcases World.isHeld_spawn h with new | old
    · simp [Task.holds] at new
    · exact .inl old

theorem Stir.usable (b : Stir σ w w') (h : w'.Usable σ v) : w.Usable σ v :=
  h.elim b.isHeld .inr

/-- A task keeps what it holds when it turns to another job. -/
theorem World.holds_setJob (t u : TaskId) (job : Job) :
    ((w.setJob t job).task u).holds v = (w.task u).holds v := by
  simp only [setJob, task_modifyTask]
  split <;> rfl

/-- What becomes of tasks makes no clones. -/
theorem Shift.isHeld (b : Shift (w, σ) w') (h : w'.isHeld v = true) : w.isHeld v = true := by
  cases b with
  | turn | unqueue => exact World.isHeld_congr rfl rfl ▸ h
  | @park _ _ t =>
    obtain ⟨queue, -, parked⟩ := w.park_eq t
    rw [parked] at h
    refine World.isHeld_mono h (fun u hu => ?_) fun k hk => hk
    simp only [World.task_mk, World.modifyTask, Table.get_modify] at hu
    split at hu
    · exact hu
    · exact hu
  | @retire _ w₁ _ t fate alive ease late chores =>
    have retired := Retired.of_chores chores
    refine World.isHeld_mono h (fun u hu => ?_) fun k hk => retired.kept ▸ hk
    by_cases hut : u = t
    · -- A task that is gone holds nothing.
      have ended := retired.ended
      rw [hut] at hu
      unfold Task.holds Task.isAlive at hu
      rw [ended] at hu
      cases hu
    · exact (retired.task u hut).holds v hu
  -- Another job is no reason to hold anything.
  | begin i s =>
    refine World.isHeld_mono h (fun u hu => ?_) fun k hk => hk
    rw [World.holds_setJob] at hu
    exact hu
  | resume =>
    refine World.isHeld_mono h (fun u hu => ?_) fun k hk => hk
    rw [World.holds_setJob] at hu
    exact hu

theorem Stride.slots (b : Stride t r (w, σ) (w', σ')) : w'.kept = w.kept := by
  cases b with
  | @relax _ v => exact (Frame.abortWork w v).kept
  | @dropWaiting _ _ v => exact (Frame.abortWork (w.setPhase r .ended) v).kept
  | _ => rfl

/-- A callback is lent to the set-up of a visit that is no transient one, for the first time once
the visit has arrived. -/
theorem Stride.lent (b : Stride t r (w, σ) (w', σ')) (h : σ'.lent? = some v) :
    σ.lent? = some v ∨ σ = .busy t r (.arrived v) ∧ (w.visit v).state.mode ≠ .transient := by
  cases b with
  | ready stays =>
    cases h
    exact .inr ⟨rfl, stays⟩
  | launch | crew => exact .inl h
  | tear early =>
    rcases early with rfl | rfl <;> cases h
  | _ => cases h

/-- Clones of a callback are made while the work of its visit is set up. -/
theorem Stride.isHeld (b : Stride t r (w, σ) (w', σ')) (h : w'.isHeld v = true) :
    w.isHeld v = true ∨ ∃ k, σ = .busy t r (.launching v k) := by
  have kept := b.slots
  cases b with
  | @crew _ u k x plain use =>
    rcases World.isHeld_spawn h with new | old
    · exact .inr ⟨k, use v new ▸ rfl⟩
    · exact .inl old
  | @relax _ u =>
    have frame := Frame.abortWork w u
    exact .inl (World.isHeld_mono h (fun t => (frame.task t).holds v) fun k hk => kept ▸ hk)
  | @dropWaiting _ _ u =>
    have frame := Frame.abortWork (w.setPhase r .ended) u
    exact .inl (World.isHeld_mono h (fun t => (frame.task t).holds v) fun k hk => kept ▸ hk)
  | _ => exact .inl (World.isHeld_congr rfl rfl ▸ h)

end

/-! ## Events that are accepted -/

/-- The event that a mark says a visit accepts. -/
def Mark.accepted? (v : VisitId) : Mark → Option Decision
  | .raised u d true => if u = v then some d else none
  | _ => none

namespace World

/-- The events that a visit has accepted, in order. -/
def accepted (w : World) (v : VisitId) : List Decision :=
  w.marks.filterMap (Mark.accepted? v)

theorem mem_accepted {w : World} {v : VisitId} {d : Decision} :
    d ∈ w.accepted v ↔ .raised v d true ∈ w.marks := by
  simp only [accepted, List.mem_filterMap]
  constructor
  · rintro ⟨m, hm, hd⟩
    unfold Mark.accepted? at hd
    split at hd
    · split at hd
      · next u d' hu =>
        cases hd
        exact hu ▸ hm
      · cases hd
    · cases hd
  · exact fun hm => ⟨_, hm, if_pos rfl⟩

theorem accepted_append {w w' : World} {v : VisitId} {news : List Mark}
    (marks : w'.marks = w.marks ++ news) (h : ∀ m ∈ news, m.accepted? v = none) :
    w'.accepted v = w.accepted v := by
  have none : news.filterMap (Mark.accepted? v) = [] := List.filterMap_eq_nil_iff.2 h
  simp [accepted, marks, none]

theorem accepted_accept (w : World) (u v : VisitId) (d : Decision) :
    (w.accept u d).accepted v = if u = v then w.accepted v ++ [d] else w.accepted v := by
  obtain ⟨-, -, -, -, marks⟩ := w.accept_eq u d
  simp only [accepted, marks, List.filterMap_append, Mark.accepted?, List.filterMap_cons,
    List.filterMap_nil]
  split <;> split <;> simp_all

theorem inbox_accept (w : World) (u v : VisitId) (d : Decision) :
    ((w.accept u d).visit v).inbox = if v = u then some d else (w.visit v).inbox := by
  obtain ⟨-, visits, -, -, -⟩ := w.accept_eq u d
  have told := (Frame.notify (w.commit u d) u).inbox v
  unfold visit at told ⊢
  rw [visits, told]
  simp only [commit, modifyVisit, Table.get_modify]
  split <;> rfl

theorem fired_accept (w : World) (u v : VisitId) (d : Decision) :
    ((w.accept u d).visit v).fired = if v = u then true else (w.visit v).fired := by
  obtain ⟨-, visits, -, -, -⟩ := w.accept_eq u d
  have told := (Frame.notify (w.commit u d) u).fired v
  unfold visit at told ⊢
  rw [visits, told]
  simp only [commit, modifyVisit, Table.get_modify]
  split <;> rfl

/-- Marks tell whether a call raised an event. -/
theorem marks_raise (w : World) (v : VisitId) (d : Decision) :
    (w.raise v d).1.marks = w.marks ++ [.raised v d (w.raise v d).2] := by
  unfold raise
  simp only
  split
  · simp [trace, Entry.mark?]
  · split
    · simp [trace, Entry.mark?]
    · split
      · simp [trace, Entry.mark?]
      · exact (w.accept_eq v d).2.2.2.2

end World

/-- Nothing is accepted. -/
structure Deaf (w w' : World) : Prop where
  inbox : ∀ v, (w'.visit v).inbox = (w.visit v).inbox
  fired : ∀ v, (w.visit v).fired = true → (w'.visit v).fired = true
  accepted : ∀ v, w'.accepted v = w.accepted v

namespace Deaf

variable {w w' : World}

theorem of_eq (visits : w'.visits = w.visits) {news : List Mark}
    (marks : w'.marks = w.marks ++ news) (h : ∀ v, ∀ m ∈ news, m.accepted? v = none) :
    Deaf w w' := by
  have same (v : VisitId) : w'.visit v = w.visit v := by
    unfold World.visit
    rw [visits]
  refine ⟨fun v => ?_, fun v => ?_, fun v => World.accepted_append marks (h v)⟩
  · rw [same]
  · rw [same]
    exact id

theorem frame (h : Frame w w') : Deaf w w' := by
  refine ⟨h.inbox, fun v hv => (h.fired v).trans hv, fun v => ?_⟩
  unfold World.accepted
  rw [h.marks]

end Deaf

section

variable {w w' : World} {σ σ' : Stage} {t : TaskId} {r : RunId} {v : VisitId}

/-- Scripts make visits accept events through callbacks that they have, the first event each and
while the visit is there. -/
theorem Stir.hears (b : Stir σ w w') : Deaf w w' ∨ ∃ v d, w.Usable σ v ∧ σ.isIdle = false ∧
    (w.visit v).fired = false ∧ (w.visit v).closed = false ∧ w' = w.accept v d := by
  cases b with
  | chore c => exact .inl (.frame c.frame)
  | refuse u d =>
    refine .inl (.of_eq rfl (World.marks_mark ..) ?_)
    simp [Mark.accepted?]
  | miss u =>
    refine .inl ⟨fun v => ?_, fun v hv => ?_, fun v => rfl⟩
    · rw [World.visit_modifyVisit]
      split <;> rfl
    · rw [World.visit_modifyVisit]
      split
      · rfl
      · exact hv
  | accept u d use eyes first opened => exact .inr ⟨u, d, use, eyes, first, opened, rfl⟩
  | ask i q | cancel i q | limit i q =>
    refine .inl (.of_eq rfl (World.marks_mark ..) ?_)
    simp [Mark.accepted?]
  | keep | spawn =>
    exact .inl (.of_eq rfl (List.append_nil _).symm fun v => List.forall_mem_nil _)
  | start i s =>
    refine .inl (.of_eq rfl (w.marks_startNew i s) ?_)
    simp [Mark.accepted?]

theorem Shift.deaf (b : Shift (w, σ) w') : Deaf w w' := by
  cases b with
  | @turn _ t =>
    have marks : ({ { w with queue := w.queue.erase t }.mark (.turn t) with
        running := some t } : World).marks = w.marks ++ [.turn t] := by simp
    refine .of_eq rfl marks ?_
    simp [Mark.accepted?]
  | @begin _ t job i s =>
    refine .of_eq rfl (w.marks_takeSlot i t s) ?_
    simp [Mark.accepted?]
  | unqueue | resume =>
    exact .of_eq rfl (List.append_nil _).symm fun v => List.forall_mem_nil _
  | @park _ _ t =>
    obtain ⟨queue, -, parked⟩ := w.park_eq t
    rw [parked]
    exact .of_eq rfl (List.append_nil _).symm fun v => List.forall_mem_nil _
  | retire alive ease late chores =>
    have retired := Retired.of_chores chores
    refine ⟨retired.inbox, fun v hv => (retired.fired v).trans hv, fun v => ?_⟩
    apply World.accepted_append retired.marks
    simp [Mark.accepted?]

theorem Mark.accepted?_of_isAside {m : Mark} (h : m.isAside = false) : m.accepted? v = none := by
  cases m <;> first | rfl | cases h

/-- A run that goes further commits no visit. -/
theorem Stride.commits (b : Stride t r (w, σ) (w', σ')) (v : VisitId) :
    (w'.visit v).inbox = (w.visit v).inbox ∧ (w'.visit v).fired = (w.visit v).fired := by
  have closed (w : World) (u : VisitId) :
      ((w.closeVisit u).visit v).inbox = (w.visit v).inbox ∧
        ((w.closeVisit u).visit v).fired = (w.visit v).fired :=
    ⟨World.data_modifyVisit Visit.inbox rfl v, World.data_modifyVisit Visit.fired rfl v⟩
  cases b with
  | @visit _ s =>
    -- A new visit has accepted nothing yet.
    exact ⟨w.data_pushVisit { state := s, run := r } Visit.inbox rfl v,
      w.data_pushVisit { state := s, run := r } Visit.fired rfl v⟩
  | crew | look | tear =>
    exact ⟨World.data_modifyVisit Visit.inbox rfl v, World.data_modifyVisit Visit.fired rfl v⟩
  | forsake | close | quit | shut => exact closed w _
  | @relax _ u =>
    have frame := Frame.abortWork w u
    exact ⟨frame.inbox v, frame.fired v⟩
  | @dropWaiting _ _ u =>
    have frame := Frame.abortWork (w.setPhase r .ended) u
    obtain ⟨inbox, fired⟩ := closed ((w.setPhase r .ended).abortWork u) u
    exact ⟨inbox.trans (frame.inbox v), fired.trans (frame.fired v)⟩
  | dropDraining => exact closed (w.setPhase r .ended) _
  | _ => exact ⟨rfl, rfl⟩

/-- A run that goes further accepts nothing. -/
theorem Stride.deaf (b : Stride t r (w, σ) (w', σ')) (staged : Staged w σ) : Deaf w w' where
  inbox v := (b.commits v).1
  fired v hv := (b.commits v).2.trans hv
  accepted v := by
    obtain ⟨news, marks, speaks⟩ := b.speaks staged
    exact World.accepted_append marks fun m hm => Mark.accepted?_of_isAside (speaks m hm).way

end

/-! ## What visits have accepted, and which runs are cancelled -/

/-- What a visit has accepted is what is in its inbox, and then it is committed. -/
structure Counted (w : World) : Prop where
  accepted : ∀ v, w.accepted v = (w.visit v).inbox.toList
  fired : ∀ v d, (w.visit v).inbox = some d → (w.visit v).fired = true

/-- Only runs that were asked to stop are cancelled. -/
def Asked (w : World) : Prop :=
  ∀ r, (w.run r).cancelled = true → .stopAsked r ∈ w.marks

namespace Counted

variable {w w' : World} {σ σ' : Stage}

theorem deaf (h : Counted w) (d : Deaf w w') : Counted w' := by
  constructor
  · intro v
    rw [d.accepted, d.inbox]
    exact h.accepted v
  · intro v e he
    rw [d.inbox] at he
    exact d.fired v (h.fired v e he)

/-- A visit that is not committed has an empty inbox. -/
theorem empty (h : Counted w) {v : VisitId} (first : (w.visit v).fired = false) :
    (w.visit v).inbox = none := by
  refine Option.eq_none_iff_forall_ne_some.2 fun e he => ?_
  rw [h.fired v e he] at first
  cases first

/-- A visit that is not committed accepts one event. -/
theorem accept (h : Counted w) {v : VisitId} (d : Decision) (first : (w.visit v).fired = false) :
    Counted (w.accept v d) := by
  have empty := h.empty first
  constructor
  · intro u
    rw [World.accepted_accept, World.inbox_accept]
    by_cases hu : u = v
    · subst hu
      simp [h.accepted, empty]
    · rw [if_neg (Ne.symm hu), if_neg hu]
      exact h.accepted u
  · intro u e he
    rw [World.inbox_accept] at he
    rw [World.fired_accept]
    split
    · rfl
    · next hu =>
      rw [if_neg hu] at he
      exact h.fired u e he

theorem beat (h : Counted w) (staged : Staged w σ) (b : Beat (w, σ) (w', σ')) : Counted w' := by
  cases b with
  | stir b =>
    rcases b.hears with deaf | ⟨v, d, -, -, first, -, rfl⟩
    · exact h.deaf deaf
    · exact h.accept d first
  | shift b => exact h.deaf b.deaf
  | stride b => exact h.deaf (b.deaf staged)

end Counted

namespace Asked

variable {w w' : World} {σ σ' : Stage}

/-- Nobody is cancelled, and the marks become more. -/
theorem mono (h : Asked w)
    (cancelled : ∀ r, (w'.run r).cancelled = true → (w.run r).cancelled = true)
    {news : List Mark} (marks : w'.marks = w.marks ++ news) : Asked w' := by
  intro r hr
  rw [marks]
  exact List.mem_append_left _ (h r (cancelled r hr))

theorem takeSlot (h : Asked w) (i : InterpreterId) (t : TaskId) (s : State) :
    Asked (w.takeSlot i t s) := by
  refine h.mono (fun r hr => ?_) (w.marks_takeSlot i t s)
  simp only [World.takeSlot, World.mark, World.log, World.modifyInterpreter, World.run_mk,
    Table.get_push] at hr
  split at hr
  · cases hr
  · exact hr

theorem stir (h : Asked w) (b : Stir σ w w') : Asked w' := by
  obtain ⟨news, marks, -⟩ := b.steady.marks
  cases b with
  | chore c => exact h.mono (fun r hr => (c.frame.cancelled r).symm.trans hr) marks
  | refuse | miss | ask | limit | keep | spawn => exact h.mono (fun r hr => hr) marks
  | accept v d =>
    obtain ⟨-, -, runs, -, -⟩ := w.accept_eq v d
    have told := Frame.notify (w.commit v d) v
    refine h.mono (fun r hr => ?_) marks
    unfold World.run at hr
    rw [runs] at hr
    exact (told.cancelled r).symm.trans hr
  | cancel i q =>
    intro r hr
    rw [w.marks_stopRun, List.mem_append]
    rw [World.stopRun, World.run_modifyRun] at hr
    split at hr
    · next hq => exact .inr (hq ▸ List.mem_singleton_self _)
    · exact .inl (h r hr)
  | start i s => exact h.takeSlot i w.tasks.size s

theorem shift (h : Asked w) (b : Shift (w, σ) w') : Asked w' := by
  obtain ⟨news, marks, -⟩ := b.steady.marks
  cases b with
  | turn | unqueue | resume => exact h.mono (fun r hr => hr) marks
  | @park _ _ t =>
    obtain ⟨queue, -, parked⟩ := w.park_eq t
    refine h.mono (fun r hr => ?_) marks
    rw [parked] at hr
    exact hr
  | retire alive ease late chores =>
    exact h.mono (fun r hr => (Retired.of_chores chores).run r ▸ hr) marks
  | begin i s => exact h.takeSlot i _ s

theorem stride {t : TaskId} {r : RunId} (h : Asked w) (staged : Staged w σ)
    (b : Stride t r (w, σ) (w', σ')) : Asked w' := by
  obtain ⟨news, marks, -⟩ := b.speaks staged
  refine h.mono (fun q hq => ?_) marks
  by_cases mine : q = r
  · rw [mine, ← b.onward.cancelled]
    exact mine ▸ hq
  · exact b.onward.run q mine ▸ hq

theorem beat (h : Asked w) (staged : Staged w σ) (b : Beat (w, σ) (w', σ')) : Asked w' := by
  cases b with
  | stir b => exact h.stir b
  | shift b => exact h.shift b
  | stride b => exact h.stride staged b

end Asked

end Statechart
