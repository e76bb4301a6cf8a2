import Mathlib.Data.List.Forall2
import Statechart.Proofs.Hosting

/-!
# Pairings of rows

Two worlds in which the same things happen need not have the same numbers for them: runs, visits
and tasks that are over keep theirs. A *pairing* says which rows of the two worlds correspond. It
has only rows that are there, and grows when rows are added.

Not everything need correspond. A pairing can keep things from the others: a task that only its own
runs and visits know of, and a visit whose callback nobody has.

## Main definitions

- `Discretion`, `Pairing`: which rows of two worlds correspond, and what is kept from the others.
- `Pairing.Le`, `Pairing.Grows`: larger pairings.
- `Task.Pairs` and its like for runs, visits and interpreters: rows that correspond.

## Main statements

- `Task.Pairs.mono` and the like: rows that correspond do so in every larger pairing.
-/

namespace Statechart

/-! ## Tables -/

namespace Table

variable {α : Type} [Inhabited α] {t t' : Table α} {R R₀ : Nat → Nat → Prop} {S : α → α → Prop}

theorem ext_get (size : t.size = t'.size) (get : ∀ i, t.get i = t'.get i) : t = t' := by
  suffices t.rows = t'.rows by
    cases t
    cases t'
    exact congrArg Table.mk this
  refine Array.ext size fun i hi hi' => ?_
  have := get i
  simpa [Table.get, Array.getD, hi, hi'] using this

theorem size_modify (t : Table α) (i : Nat) (f : α → α) :
    (t.modify i f).size = max t.size (i + 1) := by
  unfold modify size
  split
  · simp
    omega
  · simp
    omega

/-- Changing a row twice is one change. -/
theorem modify_modify (t : Table α) (i : Nat) (f g : α → α) :
    (t.modify i f).modify i g = t.modify i fun x => g (f x) := by
  refine ext_get ?_ fun j => ?_
  · rw [size_modify, size_modify, size_modify]
    omega
  · rw [get_modify, get_modify, get_modify]
    split <;> rfl

theorem rel_modify (unique : Relator.BiUnique R₀) (le : ∀ i i', R i i' → R₀ i i')
    (rows : ∀ i i', R i i' → S (t.get i) (t'.get i')) {i i' : Nat} {f g : α → α} (hi : R₀ i i')
    (row : R i i' → S (f (t.get i)) (g (t'.get i'))) (j j' : Nat) (hj : R j j') :
    S ((t.modify i f).get j) ((t'.modify i' g).get j') := by
  rw [get_modify, get_modify]
  have same : j = i ↔ j' = i' := Relator.rel_eq unique (le _ _ hj) hi
  by_cases h : j = i
  · obtain rfl := h
    obtain rfl := same.1 rfl
    rw [if_pos rfl, if_pos rfl]
    exact row hj
  · rw [if_neg h, if_neg (same.not.1 h)]
    exact rows j j' hj

theorem rel_push (size : ∀ i i', R i i' → i < t.size ∧ i' < t'.size)
    (rows : ∀ i i', R i i' → S (t.get i) (t'.get i')) {a a' : α} (row : S a a') (j j' : Nat)
    (hj : R j j' ∨ j = t.size ∧ j' = t'.size) :
    S ((t.push a).get j) ((t'.push a').get j') := by
  rw [get_push, get_push]
  rcases hj with hj | ⟨rfl, rfl⟩
  · obtain ⟨lt, lt'⟩ := size j j' hj
    rw [if_neg (Nat.ne_of_lt lt), if_neg (Nat.ne_of_lt lt')]
    exact rows j j' hj
  · rw [if_pos rfl, if_pos rfl]
    exact row

end Table

/-- Erasing members that correspond leaves lists that do. -/
theorem forall₂_erase {R : Nat → Nat → Prop} (unique : Relator.BiUnique R) {a a' : Nat}
    (ha : R a a') {xs xs' : List Nat} (h : List.Forall₂ R xs xs') :
    List.Forall₂ R (xs.erase a) (xs'.erase a') := by
  induction h with
  | nil => exact .nil
  | @cons x x' xs xs' hx h ih =>
    have same : x = a ↔ x' = a' := Relator.rel_eq unique hx ha
    by_cases eq : x = a
    · obtain rfl := eq
      obtain rfl := same.1 rfl
      rw [List.erase_cons_head, List.erase_cons_head]
      exact h
    · rw [List.erase_cons_tail (by simpa using eq),
        List.erase_cons_tail (by simpa using same.not.1 eq)]
      exact .cons hx ih

/-! ## Pairings -/

/-- What is kept out of a comparison of two worlds. -/
structure Discretion where
  /-- Tasks of the first world that no other task knows of, though runs and visits may. -/
  secret : TaskId → Prop
  /-- Visits of the first world whose callbacks nobody has. -/
  hidden : VisitId → Prop
  /-- Runs of the first world that may be in such a visit. -/
  veiled : RunId → Prop
  /-- Runs of the first world that are over for good, whoever drove them. -/
  lost : RunId → Prop
  /-- Tasks of the first world that are stored in the place of a run in the background, and that
  have no counterpart. -/
  stale : TaskId → Prop
  /-- The like of the second world. -/
  stale' : TaskId → Prop
  /-- Every row of the first world has a counterpart. -/
  total : Prop

/-- Which rows of two worlds correspond. The tasks were added in the same order. -/
structure Pairing extends Discretion where
  task : TaskId → TaskId → Prop
  run : RunId → RunId → Prop
  visit : VisitId → VisitId → Prop
  interpreter : InterpreterId → InterpreterId → Prop
  order_task : ∀ {t t' u u'}, task t t' → task u u' → (t < u ↔ t' < u')
  unique_run : Relator.BiUnique run
  unique_visit : Relator.BiUnique visit
  unique_interpreter : Relator.BiUnique interpreter

namespace Pairing

/-- Tasks that correspond, and that other tasks know of. -/
def known (P : Pairing) (t t' : TaskId) : Prop :=
  P.task t t' ∧ ¬ P.secret t

/-- Runs that correspond, and whose hosts do. -/
def live (P : Pairing) (r r' : RunId) : Prop :=
  P.run r r' ∧ ¬ P.lost r

/-- Visits that correspond, and whose callbacks somebody may have. -/
def shared (P : Pairing) (v v' : VisitId) : Prop :=
  P.visit v v' ∧ ¬ P.hidden v

/-- Nothing that is stored in the place of a run in the background is kept out of the
comparison. -/
structure Strict (P : Pairing) : Prop where
  left : ∀ t, ¬ P.stale t
  right : ∀ t, ¬ P.stale' t

/-- A pairing with all rows of another one, and the same discretion. -/
structure Le (P Q : Pairing) : Prop where
  same : Q.toDiscretion = P.toDiscretion
  task : ∀ {t t'}, P.task t t' → Q.task t t'
  run : ∀ {r r'}, P.run r r' → Q.run r r'
  visit : ∀ {v v'}, P.visit v v' → Q.visit v v'
  interpreter : ∀ {i i'}, P.interpreter i i' → Q.interpreter i i'

variable {P Q : Pairing} {t t' u u' : TaskId} {v v' x x' : VisitId}

@[refl]
theorem Le.refl (P : Pairing) : P.Le P :=
  ⟨rfl, id, id, id, id⟩

theorem Le.trans {S : Pairing} (h : P.Le Q) (h' : Q.Le S) : P.Le S :=
  ⟨h'.same.trans h.same, h'.task ∘ h.task, h'.run ∘ h.run, h'.visit ∘ h.visit,
    h'.interpreter ∘ h.interpreter⟩

theorem Le.secret (h : P.Le Q) : Q.secret = P.secret :=
  congrArg Discretion.secret h.same

theorem Le.hidden (h : P.Le Q) : Q.hidden = P.hidden :=
  congrArg Discretion.hidden h.same

theorem Le.veiled (h : P.Le Q) : Q.veiled = P.veiled :=
  congrArg Discretion.veiled h.same

theorem Le.lost (h : P.Le Q) : Q.lost = P.lost :=
  congrArg Discretion.lost h.same

theorem Le.total (h : P.Le Q) : Q.total = P.total :=
  congrArg Discretion.total h.same

theorem Le.stale (h : P.Le Q) : Q.stale = P.stale :=
  congrArg Discretion.stale h.same

theorem Le.stale' (h : P.Le Q) : Q.stale' = P.stale' :=
  congrArg Discretion.stale' h.same

theorem Le.strict (h : P.Le Q) (strict : P.Strict) : Q.Strict :=
  ⟨by rw [h.stale]; exact strict.left, by rw [h.stale']; exact strict.right⟩

theorem Le.known (h : P.Le Q) (ht : P.known t t') : Q.known t t' :=
  ⟨h.task ht.1, by rw [h.secret]; exact ht.2⟩

theorem Le.live (h : P.Le Q) {r r' : RunId} (hr : P.live r r') : Q.live r r' :=
  ⟨h.run hr.1, by rw [h.lost]; exact hr.2⟩

theorem Le.shared (h : P.Le Q) (hv : P.shared v v') : Q.shared v v' :=
  ⟨h.visit hv.1, by rw [h.hidden]; exact hv.2⟩

/-- Something holds of a pairing that is as large or larger. -/
def Grows (P : Pairing) (φ : Pairing → Prop) : Prop :=
  ∃ Q, P.Le Q ∧ φ Q

theorem Grows.pure {φ : Pairing → Prop} (h : φ P) : P.Grows φ :=
  ⟨P, .refl P, h⟩

theorem Grows.bind {φ ψ : Pairing → Prop} (h : P.Grows φ)
    (next : ∀ Q, P.Le Q → φ Q → Q.Grows ψ) : P.Grows ψ := by
  obtain ⟨Q, le, h⟩ := h
  obtain ⟨S, le', h⟩ := next Q le h
  exact ⟨S, le.trans le', h⟩

theorem Grows.map {φ ψ : Pairing → Prop} (h : P.Grows φ) (next : ∀ Q, P.Le Q → φ Q → ψ Q) :
    P.Grows ψ :=
  h.bind fun Q le h => .pure (next Q le h)

theorem unique_task (P : Pairing) : Relator.BiUnique P.task := by
  constructor
  · intro t u t' ht hu
    have before := P.order_task ht hu
    have after := P.order_task hu ht
    rcases Nat.lt_trichotomy t u with h | h | h
    · exact absurd (before.1 h) (Nat.lt_irrefl _)
    · exact h
    · exact absurd (after.1 h) (Nat.lt_irrefl _)
  · intro t t' u' ht hu
    have before := P.order_task ht hu
    have after := P.order_task hu ht
    rcases Nat.lt_trichotomy t' u' with h | h | h
    · exact absurd (before.2 h) (Nat.lt_irrefl _)
    · exact h
    · exact absurd (after.2 h) (Nat.lt_irrefl _)

theorem task_iff (ht : P.task t t') (hu : P.task u u') : t = u ↔ t' = u' :=
  Relator.rel_eq P.unique_task ht hu

theorem visit_iff (hv : P.visit v v') (hx : P.visit x x') : v = x ↔ v' = x' :=
  Relator.rel_eq P.unique_visit hv hx

/-! ### One more pair -/

/-- One more pair keeps a relation unique if its members are new. -/
theorem unique_insert {R : Nat → Nat → Prop} (unique : Relator.BiUnique R) {n n' : Nat}
    (size : ∀ i i', R i i' → i < n ∧ i' < n') :
    Relator.BiUnique fun i i' => R i i' ∨ i = n ∧ i' = n' := by
  constructor
  · rintro a b c (hab | ⟨rfl, rfl⟩) (hcb | ⟨rfl, e⟩)
    · exact unique.1 hab hcb
    · have := (size _ _ hab).2
      omega
    · have := (size _ _ hcb).2
      omega
    · rfl
  · rintro a b c (hab | ⟨rfl, rfl⟩) (hcb | ⟨e, rfl⟩)
    · exact unique.2 hab hcb
    · have := (size _ _ hab).1
      omega
    · have := (size _ _ hcb).1
      omega
    · rfl

/-- A pair of new members is within bounds that are larger by one. -/
theorem size_insert {R : Nat → Nat → Prop} {n n' : Nat}
    (size : ∀ i i', R i i' → i < n ∧ i' < n') (i i' : Nat) (h : R i i' ∨ i = n ∧ i' = n') :
    i < n + 1 ∧ i' < n' + 1 := by
  rcases h with h | ⟨rfl, rfl⟩
  · have := size i i' h
    omega
  · omega

/-- Whatever is within bounds that are larger by one is within the old ones or new. -/
theorem total_insert {R : Nat → Nat → Prop} {n n' : Nat} (total : ∀ i, i < n → ∃ i', R i i')
    (i : Nat) (hi : i < n + 1) : ∃ i', R i i' ∨ i = n ∧ i' = n' := by
  rcases Nat.lt_succ_iff_lt_or_eq.1 hi with old | new
  · obtain ⟨i', h⟩ := total i old
    exact ⟨i', .inl h⟩
  · exact ⟨n', .inr ⟨new, rfl⟩⟩

/-- The pairing with one more pair of tasks. -/
def addTask (P : Pairing) (n n' : TaskId) (size : ∀ t t', P.task t t' → t < n ∧ t' < n') :
    Pairing :=
  { P with
    task := fun t t' => P.task t t' ∨ t = n ∧ t' = n'
    order_task := by
      rintro t t' u u' (ht | ⟨rfl, rfl⟩) (hu | ⟨rfl, rfl⟩)
      · exact P.order_task ht hu
      · exact iff_of_true (size t t' ht).1 (size t t' ht).2
      · exact iff_of_false (Nat.lt_asymm (size u u' hu).1) (Nat.lt_asymm (size u u' hu).2)
      · exact iff_of_false (Nat.lt_irrefl _) (Nat.lt_irrefl _) }

/-- The pairing with one more pair of runs. -/
def addRun (P : Pairing) (n n' : RunId) (size : ∀ r r', P.run r r' → r < n ∧ r' < n') : Pairing :=
  { P with
    run := fun r r' => P.run r r' ∨ r = n ∧ r' = n'
    unique_run := unique_insert P.unique_run size }

/-- The pairing with one more pair of visits. -/
def addVisit (P : Pairing) (n n' : VisitId) (size : ∀ v v', P.visit v v' → v < n ∧ v' < n') :
    Pairing :=
  { P with
    visit := fun v v' => P.visit v v' ∨ v = n ∧ v' = n'
    unique_visit := unique_insert P.unique_visit size }

/-- The pairing with one more pair of interpreters. -/
def addInterpreter (P : Pairing) (n n' : InterpreterId)
    (size : ∀ i i', P.interpreter i i' → i < n ∧ i' < n') : Pairing :=
  { P with
    interpreter := fun i i' => P.interpreter i i' ∨ i = n ∧ i' = n'
    unique_interpreter := unique_insert P.unique_interpreter size }

theorem le_addTask {n n' : TaskId} (size : ∀ t t', P.task t t' → t < n ∧ t' < n') :
    P.Le (P.addTask n n' size) :=
  ⟨rfl, .inl, id, id, id⟩

theorem le_addRun {n n' : RunId} (size : ∀ r r', P.run r r' → r < n ∧ r' < n') :
    P.Le (P.addRun n n' size) :=
  ⟨rfl, id, .inl, id, id⟩

theorem le_addVisit {n n' : VisitId} (size : ∀ v v', P.visit v v' → v < n ∧ v' < n') :
    P.Le (P.addVisit n n' size) :=
  ⟨rfl, id, id, .inl, id⟩

theorem le_addInterpreter {n n' : InterpreterId}
    (size : ∀ i i', P.interpreter i i' → i < n ∧ i' < n') : P.Le (P.addInterpreter n n' size) :=
  ⟨rfl, id, id, id, .inl⟩

end Pairing

/-! ## Rows that correspond -/

/-- Tokens of visits that correspond. -/
inductive Token.Pairs (P : Pairing) : Token → Token → Prop where
  | scope {v v' : VisitId} (h : P.visit v v') : Pairs P (.scope v) (.scope v')
  | action {v v' : VisitId} (h : P.visit v v') : Pairs P (.action v) (.action v')

/-- Waits for the same time, and for tokens that correspond. -/
inductive Wait.Pairs (P : Pairing) : Wait → Wait → Prop where
  | time (deadline : Nat) : Pairs P (.time deadline) (.time deadline)
  | token {k k' : Token} (h : k.Pairs P k') : Pairs P (.token k) (.token k')
  | timeOrToken (deadline : Nat) {k k' : Token} (h : k.Pairs P k') :
      Pairs P (.timeOrToken deadline k) (.timeOrToken deadline k')
  | turn : Pairs P .turn .turn
  | forever : Pairs P .forever .forever

/-- The same step of a controller, on what corresponds. -/
inductive Doing.Pairs (P : Pairing) : Doing → Doing → Prop where
  | nothing : Pairs P .nothing .nothing
  | script (rest : Script) : Pairs P (.script rest) (.script rest)
  | running {r r' : RunId} (h : P.live r r') (deadline : Nat) :
      Pairs P (.running r deadline) (.running r' deadline)
  | joining {i i' : InterpreterId} {t t' : TaskId} (h : P.interpreter i i') (ht : P.known t t')
      (deadline : Nat) : Pairs P (.joining i t deadline) (.joining i' t' deadline)

/-- The same is left to do, on what corresponds. Controllers correspond only if nothing stored in
the place of a run in the background is kept out of the comparison. -/
inductive Job.Pairs (P : Pairing) : Job → Job → Prop where
  | script (rest : Script) : Pairs P (.script rest) (.script rest)
  | nested (machine : Machine) : Pairs P (.nested machine) (.nested machine)
  | drive {r r' : RunId} (h : P.live r r') {hook hook' : Option TaskId}
      (hh : Option.Rel P.known hook hook') : Pairs P (.drive r hook) (.drive r' hook')
  | stopHook {i i' : InterpreterId} (h : P.interpreter i i') :
      Pairs P (.stopHook i) (.stopHook i')
  | control (steps : List Step) {d d' : Doing} (h : d.Pairs P d') (strict : P.Strict) :
      Pairs P (.control steps d) (.control steps d')

/-- Scripts that reach the same. -/
structure Reach.Pairs (P : Pairing) (x x' : Reach) : Prop where
  callback : Option.Rel P.shared x.callback x'.callback
  action : Option.Rel P.visit x.action x'.action

/-- Outcomes are raised for the same service of visits that correspond. -/
structure Route.Pairs (P : Pairing) (x x' : Route) : Prop where
  visit : P.shared x.visit x'.visit
  service : x'.service = x.service

/-- Tasks that the queue cannot tell apart. -/
structure Task.Like (x x' : Task) : Prop where
  fate : x'.fate = x.fate
  aborted : x'.aborted = x.aborted
  rewoken : x'.rewoken = x.rewoken

theorem Task.Like.trans {x y z : Task} (h : x.Like y) (h' : y.Like z) : x.Like z :=
  ⟨h'.fate.trans h.fate, h'.aborted.trans h.aborted, h'.rewoken.trans h.rewoken⟩

/-- Tasks that correspond. -/
structure Task.Pairs (P : Pairing) (x x' : Task) : Prop extends Task.Like x x' where
  job : x.job.Pairs P x'.job
  reach : x.reach.Pairs P x'.reach
  home : Option.Rel P.shared x.home x'.home
  route : Option.Rel (Route.Pairs P) x.route x'.route
  wait : Option.Rel (Wait.Pairs P) x.wait x'.wait
  guards : x'.guards = x.guards
  joiner : Option.Rel P.task x.joiner x'.joiner

/-- Phases that correspond. -/
inductive Phase.Pairs (P : Pairing) : Phase → Phase → Prop where
  | begun (initial : State) : Pairs P (.begun initial) (.begun initial)
  | arriving (s : State) (previous : Option String) (cause : Option Decision) :
      Pairs P (.arriving s previous cause) (.arriving s previous cause)
  | waiting {v v' : VisitId} (h : P.visit v v') : Pairs P (.waiting v) (.waiting v')
  | draining {v v' : VisitId} (h : P.visit v v') (e : Ending) :
      Pairs P (.draining v e) (.draining v' e)
  | ended : Pairs P .ended .ended

/-- Runs that correspond. -/
structure Run.Pairs (P : Pairing) (x x' : Run) : Prop where
  interpreter : P.interpreter x.interpreter x'.interpreter
  cancelled : x'.cancelled = x.cancelled
  phase : x.phase.Pairs P x'.phase

/-- Visits that tokens cannot tell apart. -/
structure Visit.Like (P : Pairing) (x x' : Visit) : Prop where
  run : P.live x.run x'.run
  torn : x'.torn = x.torn
  scopeWaiters : List.Forall₂ P.task x.scopeWaiters x'.scopeWaiters
  actionWaiters : List.Forall₂ P.task x.actionWaiters x'.actionWaiters

/-- Visits that correspond. -/
structure Visit.Pairs (P : Pairing) (x x' : Visit) : Prop extends Visit.Like P x x' where
  state : x'.state = x.state
  fired : x'.fired = x.fired
  inbox : x'.inbox = x.inbox
  listening : x'.listening = x.listening
  closed : x'.closed = x.closed
  working : List.Forall₂ P.known x.working x'.working
  finished : List.Forall₂ P.known x.finished x'.finished

/-- The tasks in the place of a run in the background correspond, or are kept out of the
comparison. -/
def Pairing.Ties (P : Pairing) (h h' : Option TaskId) : Prop :=
  Option.Rel P.known h h' ∨ (∀ t, h = some t → P.stale t) ∧ ∀ t, h' = some t → P.stale' t

/-- Interpreters that correspond. -/
structure Interpreter.Pairs (P : Pairing) (x x' : Interpreter) : Prop where
  machine : x'.machine = x.machine
  slot : Option.Rel P.run x.slot x'.slot
  status : x'.status = x.status
  history : x'.history = x.history
  changeHandlers : x'.changeHandlers = x.changeHandlers
  doneHandlers : x'.doneHandlers = x.doneHandlers
  handle : P.Ties x.handle x'.handle

/-! ### Larger pairings -/

section

variable {P Q : Pairing}

theorem rel_mono {α β : Type} {R S : α → β → Prop} {x : Option α} {y : Option β}
    (h : Option.Rel R x y) (le : ∀ {a b}, R a b → S a b) : Option.Rel S x y := by
  cases h with
  | some h => exact .some (le h)
  | none => exact .none

theorem Token.Pairs.mono (le : P.Le Q) {k k' : Token} (h : k.Pairs P k') : k.Pairs Q k' := by
  cases h with
  | scope h => exact .scope (le.visit h)
  | action h => exact .action (le.visit h)

theorem Wait.Pairs.mono (le : P.Le Q) {x x' : Wait} (h : x.Pairs P x') : x.Pairs Q x' := by
  cases h with
  | time d => exact .time d
  | token h => exact .token (h.mono le)
  | timeOrToken d h => exact .timeOrToken d (h.mono le)
  | turn => exact .turn
  | forever => exact .forever

theorem Doing.Pairs.mono (le : P.Le Q) {d d' : Doing} (h : d.Pairs P d') : d.Pairs Q d' := by
  cases h with
  | nothing => exact .nothing
  | script rest => exact .script rest
  | running h d => exact .running (le.live h) d
  | joining h ht d => exact .joining (le.interpreter h) (le.known ht) d

theorem Job.Pairs.mono (le : P.Le Q) {j j' : Job} (h : j.Pairs P j') : j.Pairs Q j' := by
  cases h with
  | script rest => exact .script rest
  | nested m => exact .nested m
  | drive h hh => exact .drive (le.live h) (rel_mono hh le.known)
  | stopHook h => exact .stopHook (le.interpreter h)
  | control steps h strict => exact .control steps (h.mono le) (le.strict strict)

theorem Reach.Pairs.mono (le : P.Le Q) {x x' : Reach} (h : x.Pairs P x') : x.Pairs Q x' :=
  ⟨rel_mono h.callback le.shared, rel_mono h.action le.visit⟩

theorem Route.Pairs.mono (le : P.Le Q) {x x' : Route} (h : x.Pairs P x') : x.Pairs Q x' :=
  ⟨le.shared h.visit, h.service⟩

theorem Task.Pairs.mono (le : P.Le Q) {x x' : Task} (h : x.Pairs P x') : x.Pairs Q x' :=
  { h with
    job := h.job.mono le
    reach := h.reach.mono le
    home := rel_mono h.home le.shared
    route := rel_mono h.route (Route.Pairs.mono le)
    wait := rel_mono h.wait (Wait.Pairs.mono le)
    joiner := rel_mono h.joiner le.task }

theorem Phase.Pairs.mono (le : P.Le Q) {p p' : Phase} (h : p.Pairs P p') : p.Pairs Q p' := by
  cases h with
  | begun s => exact .begun s
  | arriving s previous cause => exact .arriving s previous cause
  | waiting h => exact .waiting (le.visit h)
  | draining h e => exact .draining (le.visit h) e
  | ended => exact .ended

theorem Run.Pairs.mono (le : P.Le Q) {x x' : Run} (h : x.Pairs P x') : x.Pairs Q x' :=
  ⟨le.interpreter h.interpreter, h.cancelled, h.phase.mono le⟩

theorem Visit.Like.mono (le : P.Le Q) {x x' : Visit} (h : x.Like P x') : x.Like Q x' :=
  ⟨le.live h.run, h.torn, h.scopeWaiters.imp fun _ _ => le.task,
    h.actionWaiters.imp fun _ _ => le.task⟩

theorem Visit.Pairs.mono (le : P.Le Q) {x x' : Visit} (h : x.Pairs P x') : x.Pairs Q x' :=
  { h.toLike.mono le, h with
    working := h.working.imp fun _ _ => le.known
    finished := h.finished.imp fun _ _ => le.known }

theorem Pairing.Ties.mono (le : P.Le Q) {h h' : Option TaskId} (ties : P.Ties h h') :
    Q.Ties h h' := by
  rcases ties with ties | ⟨stale, stale'⟩
  · exact .inl (rel_mono ties le.known)
  · exact .inr ⟨by rwa [le.stale], by rwa [le.stale']⟩

theorem Interpreter.Pairs.mono (le : P.Le Q) {x x' : Interpreter} (h : x.Pairs P x') :
    x.Pairs Q x' :=
  { h with slot := rel_mono h.slot le.run, handle := h.handle.mono le }

end

end Statechart
