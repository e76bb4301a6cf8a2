import Statechart.Proofs.MoveMirrors

/-!
# Steps of worlds that mirror each other

Where no task has the turn that is kept out of the comparison, the next move of a world is the next
move of its mirror image. Time goes on in both to the same moment, as long as the tasks without
counterpart do not want to be woken by then.

From step to step the comparison may begin anew, and what is kept out of it may then have changed.

## Main definitions

- `Timely`: two worlds agree on whom to wake by some time.
- `Twins`: two worlds mirror each other, and what they have shown since two others is the same.
- `Alongside`: two worlds go on alike, without those that are kept out of the comparison.

## Main statements

- `Mirrors.advanceClock?`: time goes on alike.
- `Mirrors.step?`: the next moves are alike.
- `Mirrors.twins`: the comparison begins anew.
- `Twins.step?`: worlds that mirror each other go on alike.
-/

namespace Statechart

/-! ## Time -/

/-- Lists in ascending order correspond if all of their members do, in the order in which they
come. -/
theorem forall₂_of_ascending {R : Nat → Nat → Prop}
    (order : ∀ {a a' b b'}, R a a' → R b b' → (a < b ↔ a' < b')) {xs ys : List Nat}
    (ascending : xs.Pairwise (· < ·)) (ascending' : ys.Pairwise (· < ·))
    (left : ∀ x ∈ xs, ∃ y ∈ ys, R x y) (right : ∀ y ∈ ys, ∃ x ∈ xs, R x y) :
    List.Forall₂ R xs ys := by
  induction xs generalizing ys with
  | nil =>
    cases ys with
    | nil => exact .nil
    | cons y ys =>
      obtain ⟨x, hx, -⟩ := right y List.mem_cons_self
      cases hx
  | cons x xs ih =>
    cases ys with
    | nil =>
      obtain ⟨y, hy, -⟩ := left x List.mem_cons_self
      cases hy
    | cons y ys =>
      obtain ⟨above, ascending⟩ := List.pairwise_cons.1 ascending
      obtain ⟨above', ascending'⟩ := List.pairwise_cons.1 ascending'
      -- The counterpart of the least member is least.
      have least : R x y := by
        obtain ⟨y₀, hy₀, here⟩ := left x List.mem_cons_self
        obtain ⟨x₀, hx₀, there⟩ := right y List.mem_cons_self
        rcases List.mem_cons.1 hy₀ with rfl | late
        · exact here
        · have early := (order there here).2 (above' y₀ late)
          rcases List.mem_cons.1 hx₀ with rfl | late
          · exact absurd early (Nat.lt_irrefl _)
          · exact absurd early (Nat.lt_asymm (above x₀ late))
      refine .cons least (ih ascending ascending' (fun x₁ hx₁ => ?_) fun y₁ hy₁ => ?_)
      · obtain ⟨y₁, hy₁, h⟩ := left x₁ (List.mem_cons_of_mem x hx₁)
        rcases List.mem_cons.1 hy₁ with rfl | late
        · exact absurd ((order least h).1 (above x₁ hx₁)) (Nat.lt_irrefl _)
        · exact ⟨y₁, late, h⟩
      · obtain ⟨x₁, hx₁, h⟩ := right y₁ (List.mem_cons_of_mem y hy₁)
        rcases List.mem_cons.1 hx₁ with rfl | late
        · exact absurd ((order least h).2 (above' y₁ hy₁)) (Nat.lt_irrefl _)
        · exact ⟨x₁, late, h⟩

namespace World

variable {w : World} {t : TaskId} {τ : Nat}

theorem isAlive_of_deadline? {d : Nat} (h : (w.task t).deadline? = some d) :
    (w.task t).isAlive = true := by
  unfold Task.deadline? at h
  split at h
  · assumption
  · cases h

/-- The next moment is the earliest that some task waits for. -/
theorem nextDeadline?_eq_some : w.nextDeadline? = some τ ↔
    (∃ t, (w.task t).deadline? = some τ) ∧ ∀ t d, (w.task t).deadline? = some d → τ ≤ d := by
  simp only [nextDeadline?, List.min?_eq_some_iff, List.mem_filterMap, Table.mem_toList]
  refine and_congr ⟨?_, ?_⟩ ⟨?_, ?_⟩
  · rintro ⟨x, ⟨t, -, rfl⟩, h⟩
    exact ⟨t, h⟩
  · rintro ⟨t, h⟩
    exact ⟨_, ⟨t, lt_size_of_isAlive (isAlive_of_deadline? h), rfl⟩, h⟩
  · intro least t d h
    exact least d ⟨_, ⟨t, lt_size_of_isAlive (isAlive_of_deadline? h), rfl⟩, h⟩
  · rintro least d ⟨x, ⟨t, -, rfl⟩, h⟩
    exact least t d h

theorem mem_dueTasks : t ∈ w.dueTasks τ ↔ ∃ d ≤ τ, (w.task t).deadline? = some d := by
  simp only [dueTasks, List.mem_filter, List.mem_range, Option.any_eq_true, decide_eq_true_eq]
  constructor
  · rintro ⟨-, d, h, le⟩
    exact ⟨d, le, h⟩
  · rintro ⟨d, le, h⟩
    exact ⟨lt_size_of_isAlive (isAlive_of_deadline? h), d, h, le⟩

theorem pairwise_dueTasks (w : World) (τ : Nat) : (w.dueTasks τ).Pairwise (· < ·) :=
  List.pairwise_lt_range.filter _

end World

/-- Whoever wants to be woken by a time has a counterpart that wants to be woken with it. -/
structure Timely (P : Pairing) (τ : Nat) (w w' : World) : Prop where
  pairs : ∀ t t', P.task t t' → ∀ d, d ≤ τ →
    ((w.task t).deadline? = some d ↔ (w'.task t').deadline? = some d)
  left : ∀ t d, d ≤ τ → (w.task t).deadline? = some d → ∃ t', P.task t t'
  right : ∀ t' d, d ≤ τ → (w'.task t').deadline? = some d → ∃ t, P.task t t'

namespace Mirrors

variable {P : Pairing} {b b' w w' : World} {t t' : TaskId} {τ : Nat}

/-- Tasks that correspond wait for the same time. -/
theorem deadline? (h : Mirrors P b b' w w') (ht : P.known t t') :
    (w'.task t').deadline? = (w.task t).deadline? := by
  have wait := (h.task ht).wait
  simp only [Task.deadline?, h.isAlive ht.1]
  generalize (w.task t).wait = x, (w'.task t').wait = x' at wait
  cases wait with
  | none => rfl
  | some hx => cases hx <;> rfl

theorem nextDeadline? (timely : Timely P τ w w') (next : w.nextDeadline? = some τ) :
    w'.nextDeadline? = some τ := by
  obtain ⟨⟨t, due⟩, least⟩ := World.nextDeadline?_eq_some.1 next
  obtain ⟨t', ht⟩ := timely.left t τ (Nat.le_refl τ) due
  refine World.nextDeadline?_eq_some.2
    ⟨⟨t', (timely.pairs t t' ht τ (Nat.le_refl τ)).1 due⟩, fun u' d hd => ?_⟩
  by_cases early : d ≤ τ
  · obtain ⟨u, hu⟩ := timely.right u' d early hd
    exact least u d ((timely.pairs u u' hu d early).2 hd)
  · omega

theorem dueTasks (timely : Timely P τ w w') :
    List.Forall₂ P.task (w.dueTasks τ) (w'.dueTasks τ) := by
  refine forall₂_of_ascending P.order_task (w.pairwise_dueTasks τ) (w'.pairwise_dueTasks τ)
    (fun t due => ?_) fun t' due => ?_
  · obtain ⟨d, le, hd⟩ := World.mem_dueTasks.1 due
    obtain ⟨t', ht⟩ := timely.left t d le hd
    exact ⟨t', World.mem_dueTasks.2 ⟨d, le, (timely.pairs t t' ht d le).1 hd⟩, ht⟩
  · obtain ⟨d, le, hd⟩ := World.mem_dueTasks.1 due
    obtain ⟨t, ht⟩ := timely.right t' d le hd
    exact ⟨t, World.mem_dueTasks.2 ⟨d, le, (timely.pairs t t' ht d le).2 hd⟩, ht⟩

theorem setNow (h : Mirrors P b b' w w') (now : Nat) :
    Mirrors P { b with now } { b' with now } { w with now } { w' with now } :=
  { h with
    now := rfl
    still := rfl
    left := ⟨h.left.task, h.left.visit, h.left.holds⟩
    right := ⟨h.right.task, h.right.visit, h.right.holds⟩ }

/-- Time goes on alike. -/
theorem advanceClock? (h : Mirrors P b b' w w') (next : w.nextDeadline? = some τ)
    (timely : Timely P τ w w') :
    ∃ w₁ w₁' now, w.advanceClock? = some w₁ ∧ w'.advanceClock? = some w₁' ∧
      Mirrors P { b with now } { b' with now } w₁ w₁' := by
  refine ⟨_, _, max w.now τ, by rw [World.advanceClock?, next]; rfl,
    by rw [World.advanceClock?, nextDeadline? timely next]; rfl, ?_⟩
  rw [h.now]
  exact (h.setNow _).wakeAll (dueTasks timely)

end Mirrors

/-! ## Steps -/

namespace Mirrors

variable {P : Pairing} {b b' w w' : World} {t t' : TaskId} {τ : Nat}

/-- The next moves are alike, as long as nobody has the turn who is kept out of the comparison. -/
theorem step? (h : Mirrors P b b' w w') (unveiled : ∀ r, ¬ P.veiled r)
    (turn : ∀ t t', w.running = some t → P.task t t' → P.known t t')
    (drop : ∀ t t', w.running = none → t ∈ w.queue → (w.task t).aborted = true → P.task t t' →
      P.known t t')
    (clock : w.running = none → w.queue = [] →
      ∃ τ, w.nextDeadline? = some τ ∧ Timely P τ w w') :
    ∃ w₁ w₁' now queue, w.step? = some w₁ ∧ w'.step? = some w₁' ∧
      (w.queue ≠ [] → now = w.now) ∧
      (∀ t ∈ b.queue, (w.running = none → w.queue.head? ≠ some t) → t ∈ queue) ∧
      P.Grows fun Q => Mirrors Q { b with now, queue } { b' with now } w₁ w₁' := by
  have running := h.running
  have queue := h.queue
  -- A move takes no time.
  have here (queue : List TaskId) (less : ∀ t ∈ queue, t ∈ b.queue) :
      Mirrors P { b with now := w.now, queue } { b' with now := w.now } w w' :=
    h.anew { h.toSince with
      still := rfl
      ready := fun t lone ht => h.ready t lone (less t ht)
      left := ⟨h.left.task, h.left.visit, h.left.holds⟩
      right := ⟨h.right.task, h.right.visit, h.right.holds⟩ }
  unfold World.step?
  cases hr : w.running with
  | some t =>
    rw [hr] at running
    cases hr' : w'.running with
    | none => rw [hr'] at running; cases running
    | some t' =>
      rw [hr'] at running
      cases running with
      | some ht =>
        exact ⟨_, _, _, b.queue, rfl, rfl, fun _ => rfl, fun _ ht _ => ht,
          (here b.queue fun _ => id).move (turn t t' hr ht) fun r _ => unveiled r⟩
  | none =>
    have free : w'.running = none := by
      rw [hr] at running
      cases hr' : w'.running with
      | none => rfl
      | some t' => rw [hr'] at running; cases running
    rw [free]
    cases hq : w.queue with
    | nil =>
      have empty : w'.queue = [] := List.forall₂_nil_left_iff.1 (hq ▸ queue)
      obtain ⟨τ, next, timely⟩ := clock hr hq
      obtain ⟨w₁, w₁', now, later, later', h₁⟩ := h.advanceClock? next timely
      simp only [empty]
      exact ⟨w₁, w₁', now, b.queue, later, later', fun ready => absurd rfl ready,
        fun _ ht _ => ht, .pure h₁⟩
    | cons t rest =>
      rw [hq] at queue
      cases hq' : w'.queue with
      | nil => rw [hq'] at queue; cases queue
      | cons t' rest' =>
        rw [hq'] at queue
        cases queue with
        | cons ht _ =>
          refine ⟨_, _, _, b.queue.filter (· ≠ t), rfl, rfl, fun _ => rfl, fun u hu other => ?_,
            (here _ fun _ => List.mem_of_mem_filter).beginTurn ht (fun u _ hu => ?_)
              fun aborted => ⟨?_, fun r _ => unveiled r⟩⟩
          · have apart : u ≠ t := fun same => other rfl (same ▸ rfl)
            simpa [hu] using apart
          · simpa using List.of_mem_filter hu
          · exact drop t t' hr (hq ▸ List.mem_cons_self) aborted ht

end Mirrors

/-! ## Beginning anew -/

/-- A world with the journal that another one had. -/
def World.dated (w b : World) : World :=
  { w with journal := b.journal }

/-- Two worlds mirror each other, and what they have shown since two others is the same. What is
kept out of the comparison may have changed since then. -/
def Twins (P : Pairing) (b b' w w' : World) : Prop :=
  Mirrors P (w.dated b) (w'.dated b') w w'

/-- Since a world that differs in its journal alone, nothing has happened to any row. -/
theorem Since.dated {P : Pairing} {b b' w w' : World} (told : Told b b' w w')
    (holds : ∀ t, P.Lone t → ∀ v, (w.task t).holds v = true → v < w.visits.size ∧ P.Far v)
    (holds' : ∀ t, P.Lone' t → ∀ v, (w'.task t).holds v = true →
      v < w'.visits.size ∧ P.Far' v) :
    Since P (w.dated b) (w'.dated b') w w' where
  told
  still := rfl
  reports := .inr ⟨rfl, rfl⟩
  ready _ _ := id
  joiner _ _ _ := rfl
  left := ⟨fun _ _ => rfl, fun _ _ => rfl, holds⟩
  right := ⟨fun _ _ => rfl, fun _ _ => rfl, holds'⟩

theorem Apart.holds_modifyTask {T V : Nat → Prop} {b w : World} (h : Apart T V b w) {t : TaskId}
    {f : Task → Task}
    (holds : T t → ∀ v, (f (w.task t)).holds v = true → (w.task t).holds v = true) (u : TaskId)
    (hu : T u) (v : VisitId) (held : ((w.modifyTask t f).task u).holds v = true) :
    v < w.visits.size ∧ V v := by
  rw [World.task_modifyTask] at held
  split at held
  · next same =>
    subst same
    exact h.holds u hu v (holds hu v held)
  · exact h.holds u hu v held

theorem Mirrors.twins {P : Pairing} {b b' w w' : World} (h : Mirrors P b b' w w') :
    Twins P b b' w w' :=
  h.anew (.dated h.told h.left.holds h.right.holds)

namespace Twins

variable {P Q : Pairing} {b b' w w' w₁ w₁' : World} {t t' : TaskId}

theorem mirrors (h : Twins P b b' w w') : Mirrors P (w.dated b) (w'.dated b') w w' := h

/-- What mirrors each other since the last beginning does so since the first one. -/
theorem next (h : Mirrors Q (w.dated b) (w'.dated b') w₁ w₁') : Twins Q b b' w₁ w₁' :=
  h.twins

/-- A pair of tasks changes, and what nobody else knows of them may come to differ. -/
theorem modifyTasks (h : Twins P b b' w w') (ht : P.task t t') {f g : Task → Task}
    (like : (f (w.task t)).Like (g (w'.task t')))
    (pairs : P.known t t' → (f (w.task t)).Pairs P (g (w'.task t')))
    (holds : P.Lone t → ∀ v, (f (w.task t)).holds v = true → (w.task t).holds v = true)
    (holds' : P.Lone' t' → ∀ v, (g (w'.task t')).holds v = true → (w'.task t').holds v = true) :
    Twins P b b' (w.modifyTask t f) (w'.modifyTask t' g) :=
  h.mirrors.modifyTasksFrom ht like pairs
    (.dated h.told (h.left.holds_modifyTask holds) (h.right.holds_modifyTask holds'))

/-- What a task that is kept from the others has left to do, and what it waits for, is no part of
the comparison. -/
theorem modifySecret (h : Twins P b b' w w') (ht : P.task t t') (secret : P.secret t)
    {f g : Task → Task} (left : ∀ x, x.Like (f x) ∧ ∀ v, (f x).holds v = x.holds v)
    (right : ∀ x, x.Like (g x) ∧ ∀ v, (g x).holds v = x.holds v) :
    Twins P b b' (w.modifyTask t f) (w'.modifyTask t' g) := by
  have like := h.mirrors.like ht
  have like₁ := (left (w.task t)).1
  have like₁' := (right (w'.task t')).1
  refine h.modifyTasks ht ⟨?_, ?_, ?_⟩ (fun known => absurd secret known.2) (fun _ v held => ?_)
    fun _ v held => ?_
  · exact like₁'.fate.trans (like.fate.trans like₁.fate.symm)
  · exact like₁'.aborted.trans (like.aborted.trans like₁.aborted.symm)
  · exact like₁'.rewoken.trans (like.rewoken.trans like₁.rewoken.symm)
  · exact (left (w.task t)).2 v ▸ held
  · exact (right (w'.task t')).2 v ▸ held

theorem setJob (h : Twins P b b' w w') (ht : P.task t t') (secret : P.secret t) (job job' : Job) :
    Twins P b b' (w.setJob t job) (w'.setJob t' job') :=
  h.modifySecret ht secret (fun _ => ⟨⟨rfl, rfl, rfl⟩, fun _ => rfl⟩)
    fun _ => ⟨⟨rfl, rfl, rfl⟩, fun _ => rfl⟩

theorem parkUntil (h : Twins P b b' w w') (ht : P.task t t') (secret : P.secret t)
    (deadline deadline' : Nat) :
    Twins P b b' (w.parkUntil t deadline) (w'.parkUntil t' deadline') :=
  next ((h.modifySecret ht secret (f := fun x => { x with wait := some (.time deadline) })
    (g := fun x => { x with wait := some (.time deadline') })
    (fun _ => ⟨⟨rfl, rfl, rfl⟩, fun _ => rfl⟩)
    fun _ => ⟨⟨rfl, rfl, rfl⟩, fun _ => rfl⟩).mirrors.park ht)

theorem report (h : Twins P b b' w w') (reports reports' : Array Report) :
    Twins P b b' { w with reports } { w' with reports := reports' } :=
  { h.mirrors with
    toSince := .dated h.told h.left.holds h.right.holds }

end Twins

/-! ## Steps of all others -/

/-- Whoever has no counterpart does not want to be woken by a time. -/
structure Quiet (P : Pairing) (τ : Nat) (w w' : World) : Prop where
  left : ∀ t, (∀ t', ¬ P.task t t') → ∀ d, (w.task t).deadline? = some d → τ < d
  right : ∀ t', (∀ t, ¬ P.task t t') → ∀ d, (w'.task t').deadline? = some d → τ < d

/-- Two worlds that mirror each other go on to two others that do, and those that are kept out of
the comparison have no part in it. -/
structure Alongside (P Q : Pairing) (b b' w w' w₁ w₁' : World) : Prop where
  le : P.Le Q
  twins : Twins Q b b' w₁ w₁'
  left : ∀ t, Q.Lone t → (w₁.task t).core = (w.task t).core
  right : ∀ t, Q.Lone' t → (w₁'.task t).core = (w'.task t).core
  joiner : ∀ t, Q.Lone t → ¬ Q.stale t → (w₁.task t).joiner = (w.task t).joiner
  reports : P.Strict ∨ w₁.reports = w.reports ∧ w₁'.reports = w'.reports

theorem Task.deadline?_core (x : Task) : x.core.deadline? = x.deadline? := rfl

section

variable {P Q : Pairing} {b b' w w' w₁ w₁' : World} {τ : Nat}

theorem Quiet.timely (h : Quiet P τ w w') {c c' : World} (m : Mirrors P c c' w w') {σ : Nat}
    (le : σ ≤ τ)
    (secret : ∀ t t', P.secret t → P.task t t' → ∀ d, d ≤ σ →
      ((w.task t).deadline? = some d ↔ (w'.task t').deadline? = some d)) : Timely P σ w w' where
  pairs t t' ht d hd := by
    by_cases hidden : P.secret t
    · exact secret t t' hidden ht d hd
    · rw [m.deadline? ⟨ht, hidden⟩]
  left t d hd due := by
    by_contra alone
    have := h.left t (not_exists.1 alone) d due
    omega
  right t' d hd due := by
    by_contra alone
    have := h.right t' (not_exists.1 alone) d due
    omega

theorem Quiet.of_core (h : Quiet P τ w w') {t t' : TaskId} (pair : P.task t t')
    (left : ∀ u, u ≠ t → (w₁.task u).core = (w.task u).core)
    (right : ∀ u, u ≠ t' → (w₁'.task u).core = (w'.task u).core) : Quiet P τ w₁ w₁' where
  left u alone d due := by
    have other : u ≠ t := fun same => alone t' (same ▸ pair)
    rw [← Task.deadline?_core, left u other, Task.deadline?_core] at due
    exact h.left u alone d due
  right u alone d due := by
    have other : u ≠ t' := fun same => alone t (same ▸ pair)
    rw [← Task.deadline?_core, right u other, Task.deadline?_core] at due
    exact h.right u alone d due

theorem Quiet.alongside (h : Quiet P τ w w') (a : Alongside P Q b b' w w' w₁ w₁') :
    Quiet Q τ w₁ w₁' where
  left t alone d due := by
    rw [← Task.deadline?_core, a.left t fun t' ht => alone t' ht.1, Task.deadline?_core] at due
    exact h.left t (fun t' ht => alone t' (a.le.task ht)) d due
  right t' alone d due := by
    rw [← Task.deadline?_core, a.right t' fun t ht => alone t ht.1, Task.deadline?_core] at due
    exact h.right t' (fun t ht => alone t (a.le.task ht)) d due

theorem Alongside.of_clock {n : Nat} {q : List TaskId} (le : P.Le Q)
    (h : Mirrors Q { w.dated b with now := n, queue := q } { w'.dated b' with now := n } w₁ w₁') :
    Alongside P Q b b' w w' w₁ w₁' where
  le
  twins := h.twins
  left := h.left.task
  right := h.right.task
  joiner := h.joiner
  reports := h.reports.imp_left fun strict =>
    ⟨by rw [← le.stale]; exact strict.left, by rw [← le.stale']; exact strict.right⟩

theorem Alongside.of_mirrors (le : P.Le Q) (h : Mirrors Q (w.dated b) (w'.dated b') w₁ w₁') :
    Alongside P Q b b' w w' w₁ w₁' :=
  .of_clock (n := w.now) (q := w.queue) le (h.anew { h.toSince with
    left := ⟨h.left.task, h.left.visit, h.left.holds⟩
    right := ⟨h.right.task, h.right.visit, h.right.holds⟩ })

theorem Alongside.trans {S : Pairing} {w₂ w₂' : World} (a : Alongside P Q b b' w w' w₁ w₁')
    (a' : Alongside Q S b b' w₁ w₁' w₂ w₂') : Alongside P S b b' w w' w₂ w₂' where
  le := a.le.trans a'.le
  twins := a'.twins
  left t lone := (a'.left t lone).trans (a.left t fun t' known => lone t' (a'.le.known known))
  right t lone := (a'.right t lone).trans (a.right t fun t' known => lone t' (a'.le.known known))
  joiner t lone fresh := (a'.joiner t lone fresh).trans
    (a.joiner t (fun t' known => lone t' (a'.le.known known)) fun stale =>
      fresh (a'.le.stale ▸ stale))
  reports := by
    rcases a.reports with strict | ⟨reports, reports'⟩
    · exact .inl strict
    · rcases a'.reports with strict | ⟨reports₁, reports₁'⟩
      · exact .inl ⟨by rw [← a.le.stale]; exact strict.left,
          by rw [← a.le.stale']; exact strict.right⟩
      · exact .inr ⟨reports₁.trans reports, reports₁'.trans reports'⟩

/-- Two worlds that mirror each other go on alike while nobody has the turn who is kept out of the
comparison. -/
theorem Twins.step? (h : Twins P b b' w w') (unveiled : ∀ r, ¬ P.veiled r)
    (turn : ∀ t t', w.running = some t → P.task t t' → P.known t t')
    (drop : ∀ t t', w.running = none → t ∈ w.queue → (w.task t).aborted = true → P.task t t' →
      P.known t t')
    (clock : w.running = none → w.queue = [] →
      ∃ τ, w.nextDeadline? = some τ ∧ Timely P τ w w') :
    ∃ Q w₁ w₁', w.step? = some w₁ ∧ w'.step? = some w₁' ∧ Alongside P Q b b' w w' w₁ w₁' ∧
      (w.queue ≠ [] → w₁.now = w.now) ∧
      ∀ t, Q.Lone t → t ∈ w.queue → (w.running = none → w.queue.head? ≠ some t) →
        t ∈ w₁.queue := by
  obtain ⟨w₁, w₁', now, queue, step, step', still, ready, Q, le, h₁⟩ :=
    h.mirrors.step? unveiled turn drop clock
  exact ⟨Q, w₁, w₁', step, step', .of_clock le h₁, fun busy => h₁.still.trans (still busy),
    fun t lone ht other => h₁.ready t lone (ready t ht other)⟩

end

end Statechart
