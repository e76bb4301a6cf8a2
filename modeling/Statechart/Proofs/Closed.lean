import Statechart.Proofs.StepMirrors

/-!
# Worlds that mirror themselves

A world mirrors itself if whatever its rows name is there. Every world that a scenario comes to
does: what keeps worlds mirrored keeps each of them its own mirror image, so this needs no
induction of its own over what the engine does.

## Main definitions

- `Pairing.self`: every row of a world corresponds to itself.
- `World.Closed`: a world mirrors itself.

## Main statements

- `Mirrors.diagonal`: what is mirrored mirrors itself.
- `Mirrors.closed`: a world that is mirrored as a whole mirrors itself.
- `Scenario.Reaches.closed`: the worlds that a scenario comes to mirror themselves.
-/

namespace Statechart

/-! ## Pairs of a row with itself -/

/-- Nothing is kept out of the comparison. -/
def Discretion.none : Discretion where
  secret _ := False
  hidden _ := False
  veiled _ := False
  lost _ := False
  stale _ := False
  stale' _ := False
  total := True

theorem unique_self (n : Nat) : Relator.BiUnique fun i i' : Nat => i' = i ∧ i < n :=
  ⟨fun _ _ _ h h' => h.1.symm.trans h'.1, fun _ _ _ h h' => h.1.trans h'.1.symm⟩

/-- Every row of a world corresponds to itself. -/
def Pairing.self (w : World) : Pairing where
  toDiscretion := .none
  task t t' := t' = t ∧ t < w.tasks.size
  run r r' := r' = r ∧ r < w.runs.size
  visit v v' := v' = v ∧ v < w.visits.size
  interpreter i i' := i' = i ∧ i < w.interpreters.size
  order_task := by
    rintro t _ u _ ⟨rfl, -⟩ ⟨rfl, -⟩
    rfl
  unique_run := unique_self _
  unique_visit := unique_self _
  unique_interpreter := unique_self _

/-- A world mirrors itself. -/
def World.Closed (w : World) : Prop :=
  Mirrors (.self w) w w w w

/-- What comes first in a pair of one pairing makes a pair with itself in another. -/
structure Pairing.Reads (Q S : Pairing) : Prop where
  stale : ∀ {t}, Q.stale t → S.stale t ∧ S.stale' t
  strict : Q.Strict → S.Strict
  task : ∀ {t t'}, Q.task t t' → S.task t t
  known : ∀ {t t'}, Q.known t t' → S.known t t
  run : ∀ {r r'}, Q.run r r' → S.run r r
  live : ∀ {r r'}, Q.live r r' → S.live r r
  visit : ∀ {v v'}, Q.visit v v' → S.visit v v
  shared : ∀ {v v'}, Q.shared v v' → S.shared v v
  interpreter : ∀ {i i'}, Q.interpreter i i' → S.interpreter i i

/-- Rows of a world make pairs with themselves, if they come first in the pairs of another pairing;
only tasks that nobody knows of are added to them. -/
structure Pairing.Diagonal (Q S : Pairing) (w : World) : Prop extends Q.Reads S where
  eq_task : ∀ {t u}, S.task t u → u = t ∧ t < w.tasks.size
  eq_run : ∀ {r q}, S.run r q → q = r ∧ ∃ r', Q.run r r'
  eq_visit : ∀ {v u}, S.visit v u → u = v ∧ ∃ v', Q.visit v v'
  eq_interpreter : ∀ {i j}, S.interpreter i j → j = i ∧ ∃ i', Q.interpreter i i'
  of_known : ∀ {t u}, S.known t u → ∃ t', Q.known t t'
  of_live : ∀ {r q}, S.live r q → ∃ r', Q.live r r'
  of_shared : ∀ {v u}, S.shared v u → ∃ v', Q.shared v v'
  of_secret : ∀ {t}, S.secret t → t < w.tasks.size
  of_stale : ∀ {t}, S.stale t ∨ S.stale' t → Q.stale t
  hidden : ∀ {v}, S.hidden v → Q.hidden v
  lost : ∀ {r}, S.lost r → Q.lost r
  veiled : ∀ {r}, S.veiled r ↔ Q.veiled r
  total : S.total → Q.total

theorem rel_self {α β : Type} {R : α → β → Prop} {S : α → α → Prop} {x : Option α} {y : Option β}
    (h : Option.Rel R x y) (reads : ∀ {a b}, R a b → S a a) : Option.Rel S x x := by
  cases h with
  | some h => exact .some (reads h)
  | none => exact .none

theorem forall₂_self {α β : Type} {R : α → β → Prop} {S : α → α → Prop} {xs : List α}
    {ys : List β} (h : List.Forall₂ R xs ys) (reads : ∀ {a b}, R a b → S a a) :
    List.Forall₂ S xs xs := by
  induction h with
  | nil => exact .nil
  | cons h _ ih => exact .cons (reads h) ih

section

variable {Q S : Pairing}

theorem Token.Pairs.self (d : Q.Reads S) {k k' : Token} (h : k.Pairs Q k') : k.Pairs S k := by
  cases h with
  | scope h => exact .scope (d.visit h)
  | action h => exact .action (d.visit h)

theorem Wait.Pairs.self (d : Q.Reads S) {x x' : Wait} (h : x.Pairs Q x') : x.Pairs S x := by
  cases h with
  | time τ => exact .time τ
  | token h => exact .token (h.self d)
  | timeOrToken τ h => exact .timeOrToken τ (h.self d)
  | turn => exact .turn
  | forever => exact .forever

theorem Doing.Pairs.self (d : Q.Reads S) {x x' : Doing} (h : x.Pairs Q x') : x.Pairs S x := by
  cases h with
  | nothing => exact .nothing
  | script rest => exact .script rest
  | running h τ => exact .running (d.live h) τ
  | joining h ht τ => exact .joining (d.interpreter h) (d.known ht) τ

theorem Job.Pairs.self (d : Q.Reads S) {j j' : Job} (h : j.Pairs Q j') : j.Pairs S j := by
  cases h with
  | script rest => exact .script rest
  | nested m => exact .nested m
  | drive h hh => exact .drive (d.live h) (rel_self hh d.known)
  | stopHook h => exact .stopHook (d.interpreter h)
  | control steps h strict => exact .control steps (h.self d) (d.strict strict)

theorem Reach.Pairs.self (d : Q.Reads S) {x x' : Reach} (h : x.Pairs Q x') : x.Pairs S x :=
  ⟨rel_self h.callback d.shared, rel_self h.action d.visit⟩

theorem Route.Pairs.self (d : Q.Reads S) {x x' : Route} (h : x.Pairs Q x') : x.Pairs S x :=
  ⟨d.shared h.visit, rfl⟩

theorem Task.Pairs.self (d : Q.Reads S) {x x' : Task} (h : x.Pairs Q x') : x.Pairs S x where
  fate := rfl
  aborted := rfl
  rewoken := rfl
  guards := rfl
  job := h.job.self d
  reach := h.reach.self d
  home := rel_self h.home d.shared
  route := rel_self h.route (Route.Pairs.self d)
  wait := rel_self h.wait (Wait.Pairs.self d)
  joiner := rel_self h.joiner d.task

theorem Phase.Pairs.self (d : Q.Reads S) {p p' : Phase} (h : p.Pairs Q p') : p.Pairs S p := by
  cases h with
  | begun s => exact .begun s
  | arriving s previous cause => exact .arriving s previous cause
  | waiting h => exact .waiting (d.visit h)
  | draining h e => exact .draining (d.visit h) e
  | ended => exact .ended

theorem Run.Pairs.self (d : Q.Reads S) {x x' : Run} (h : x.Pairs Q x') : x.Pairs S x :=
  ⟨d.interpreter h.interpreter, rfl, h.phase.self d⟩

theorem Visit.Like.self (d : Q.Reads S) {x x' : Visit} (h : x.Like Q x') : x.Like S x :=
  ⟨d.live h.run, rfl, forall₂_self h.scopeWaiters d.task, forall₂_self h.actionWaiters d.task⟩

theorem Visit.Pairs.self (d : Q.Reads S) {x x' : Visit} (h : x.Pairs Q x') : x.Pairs S x :=
  { h.toLike.self d with
    state := rfl
    fired := rfl
    inbox := rfl
    listening := rfl
    closed := rfl
    working := forall₂_self h.working d.known
    finished := forall₂_self h.finished d.known }

theorem Pairing.Ties.self (d : Q.Reads S) {x x' : Option TaskId} (h : Q.Ties x x') :
    S.Ties x x := by
  rcases h with ties | ⟨stale, -⟩
  · exact .inl (rel_self ties d.known)
  · exact .inr ⟨fun t ht => (d.stale (stale t ht)).1, fun t ht => (d.stale (stale t ht)).2⟩

theorem Interpreter.Pairs.self (d : Q.Reads S) {x x' : Interpreter} (h : x.Pairs Q x') :
    x.Pairs S x where
  machine := rfl
  slot := rel_self h.slot d.run
  status := rfl
  history := rfl
  changeHandlers := rfl
  doneHandlers := rfl
  handle := h.handle.self d

end

/-- New controllers with the same steps correspond. -/
theorem Task.Pairs.controller {P : Pairing} (steps : List Step) (strict : P.Strict) :
    Task.Pairs P { job := .control steps .nothing } { job := .control steps .nothing } where
  fate := rfl
  aborted := rfl
  rewoken := rfl
  guards := rfl
  job := .control steps .nothing strict
  reach := ⟨.none, .none⟩
  home := .none
  route := .none
  wait := .none
  joiner := .none

/-! ## Closed worlds -/

namespace Mirrors

variable {Q : Pairing} {b b' w w' : World}

/-- What is mirrored mirrors itself. -/
theorem diagonal (h : Mirrors Q b b' w w') {S : Pairing} (d : Q.Diagonal S w) :
    Mirrors S w w w w := by
  -- Who has no counterpart on the diagonal has none in the other world.
  have lone {t : TaskId} (alone : S.Lone t) : Q.Lone t :=
    fun t' known => alone t (d.known known)
  have lone' {t : TaskId} (alone : S.Lone' t) : Q.Lone t :=
    fun t' known => alone t (d.known known)
  have far {v : VisitId} (far : Q.Far v) : S.Far v := fun u shared => by
    obtain ⟨v', hv⟩ := d.of_shared shared
    exact far v' hv
  have far' {v : VisitId} (far : Q.Far v) : S.Far' v := fun u shared => by
    obtain ⟨rfl, -⟩ := d.eq_visit shared.1
    obtain ⟨v', hv⟩ := d.of_shared shared
    exact far v' hv
  have stale {t : TaskId} (ht : S.stale t ∨ S.stale' t) :
      t < w.tasks.size ∧ S.Lone t ∧ S.Lone' t := by
    obtain ⟨lt, alone⟩ := h.tasks.stale t (d.of_stale ht)
    refine ⟨lt, fun u known => ?_, fun u known => ?_⟩
    · obtain ⟨t', ht'⟩ := d.of_known known
      exact alone t' ht'
    · obtain ⟨rfl, -⟩ := d.eq_task known.1
      obtain ⟨t', ht'⟩ := d.of_known known
      exact alone t' ht'
  -- Every relation between the two worlds is read off on its left side.
  exact {
    now := rfl
    values := rfl
    named := rfl
    names := fun i hi => d.interpreter (h.names i hi)
    kept := forall₂_self h.kept fun hk => ⟨rfl, d.shared hk.2⟩
    queue := forall₂_self h.queue d.task
    running := rel_self h.running d.task
    told := .refl w w
    still := rfl
    reports := .inr ⟨rfl, rfl⟩
    ready := fun _ _ => id
    joiner := fun _ _ _ => rfl
    tasks := {
      size := fun t u ht => by
        obtain ⟨rfl, lt⟩ := d.eq_task ht
        exact ⟨lt, lt⟩
      like := fun t u ht => by
        obtain ⟨rfl, -⟩ := d.eq_task ht
        exact ⟨rfl, rfl, rfl⟩
      pairs := fun t u ht => by
        obtain ⟨rfl, -⟩ := d.eq_task ht.1
        obtain ⟨t', ht'⟩ := d.of_known ht
        exact (h.task ht').self d.toReads
      secret := fun t ht => d.of_secret ht
      stale := fun t ht => (stale (.inl ht)).imp_right And.left
      stale' := fun t ht => (stale (.inr ht)).imp_right And.right
      total := fun total t lt => by
        obtain ⟨t', ht⟩ := h.tasks.total (d.total total) t lt
        exact ⟨t, d.task ht⟩ }
    runs := {
      size := fun r q hr => by
        obtain ⟨rfl, r', hr'⟩ := d.eq_run hr
        exact ⟨(h.runs.size _ _ hr').1, (h.runs.size _ _ hr').1⟩
      pairs := fun r q hr => by
        obtain ⟨rfl, r', hr'⟩ := d.eq_run hr
        exact (h.run hr').self d.toReads
      lost := fun r hr => h.runs.lost r (d.lost hr)
      veiled := fun r hr => h.runs.veiled r (d.veiled.1 hr)
      plain := fun r q hr unveiled v hv hidden => by
        obtain ⟨rfl, r', hr'⟩ := d.eq_run hr
        exact h.runs.plain _ _ hr' (mt d.veiled.2 unveiled) v hv (d.hidden hidden)
      total := fun total r lt => by
        obtain ⟨r', hr⟩ := h.runs.total (d.total total) r lt
        exact ⟨r, d.run hr⟩ }
    visits := {
      size := fun v u hv => by
        obtain ⟨rfl, v', hv'⟩ := d.eq_visit hv
        exact ⟨(h.visits.size _ _ hv').1, (h.visits.size _ _ hv').1⟩
      like := fun v u hv => by
        obtain ⟨rfl, v', hv'⟩ := d.eq_visit hv
        exact (h.visitLike hv').self d.toReads
      pairs := fun v u hv => by
        obtain ⟨rfl, -⟩ := d.eq_visit hv.1
        obtain ⟨v', hv'⟩ := d.of_shared hv
        exact (h.visit hv').self d.toReads
      hidden := fun v hv => h.visits.hidden v (d.hidden hv)
      total := fun total v lt => by
        obtain ⟨v', hv⟩ := h.visits.total (d.total total) v lt
        exact ⟨v, d.visit hv⟩ }
    interpreters := {
      size := fun i j hi => by
        obtain ⟨rfl, i', hi'⟩ := d.eq_interpreter hi
        exact ⟨(h.interpreters.size _ _ hi').1, (h.interpreters.size _ _ hi').1⟩
      pairs := fun i j hi => by
        obtain ⟨rfl, i', hi'⟩ := d.eq_interpreter hi
        exact (h.interpreter hi').self d.toReads
      total := fun total i lt => by
        obtain ⟨i', hi⟩ := h.interpreters.total (d.total total) i lt
        exact ⟨i, d.interpreter hi⟩ }
    host := fun r q hr => by
      obtain ⟨rfl, -⟩ := d.eq_run hr.1
      obtain ⟨r', hr'⟩ := d.of_live hr
      exact d.task (h.host _ _ hr')
    left := ⟨fun _ _ => rfl, fun _ _ => rfl, fun t alone v held =>
      (h.left.holds t (lone alone) v held).imp_right far⟩
    right := ⟨fun _ _ => rfl, fun _ _ => rfl, fun t alone v held =>
      (h.left.holds t (lone' alone) v held).imp_right far'⟩ }

/-- A world that is mirrored as a whole mirrors itself. -/
theorem closed (h : Mirrors Q b b' w w') (frank : Q.toDiscretion = .none) : w.Closed := by
  have total : Q.total := by
    rw [frank]
    trivial
  -- Nothing is kept secret, so whatever has a counterpart is known.
  have knows {t t' : TaskId} (ht : Q.task t t') : Q.known t t' :=
    ⟨ht, by rw [frank]; exact id⟩
  have shares {v v' : VisitId} (hv : Q.visit v v') : Q.shared v v' :=
    ⟨hv, by rw [frank]; exact id⟩
  have lives {r r' : RunId} (hr : Q.run r r') : Q.live r r' :=
    ⟨hr, by rw [frank]; exact id⟩
  exact h.diagonal {
    stale := by
      rw [frank]
      exact False.elim
    strict := fun _ => ⟨fun _ => id, fun _ => id⟩
    task := fun ht => ⟨rfl, (h.tasks.size _ _ ht).1⟩
    known := fun ht => ⟨⟨rfl, (h.tasks.size _ _ ht.1).1⟩, id⟩
    run := fun hr => ⟨rfl, (h.runs.size _ _ hr).1⟩
    live := fun hr => ⟨⟨rfl, (h.runs.size _ _ hr.1).1⟩, id⟩
    visit := fun hv => ⟨rfl, (h.visits.size _ _ hv).1⟩
    shared := fun hv => ⟨⟨rfl, (h.visits.size _ _ hv.1).1⟩, id⟩
    interpreter := fun hi => ⟨rfl, (h.interpreters.size _ _ hi).1⟩
    eq_task := id
    eq_run := fun hr => ⟨hr.1, h.runs.total total _ hr.2⟩
    eq_visit := fun hv => ⟨hv.1, h.visits.total total _ hv.2⟩
    eq_interpreter := fun hi => ⟨hi.1, h.interpreters.total total _ hi.2⟩
    of_known := fun ht => (h.tasks.total total _ ht.1.2).imp fun _ => knows
    of_live := fun hr => (h.runs.total total _ hr.1.2).imp fun _ => lives
    of_shared := fun hv => (h.visits.total total _ hv.1.2).imp fun _ => shares
    of_secret := False.elim
    of_stale := fun ht => (ht.elim id id).elim
    hidden := False.elim
    lost := False.elim
    veiled := by
      rw [frank]
      rfl
    total := fun _ => total }

end Mirrors

/-! ## The worlds that a scenario comes to -/

namespace World

variable {w w' : World}

theorem Closed.mirrors (h : w.Closed) : Mirrors (.self w) w w w w := h

theorem Closed.of_grows (h : (Pairing.self w).Grows fun Q => Mirrors Q w w w' w') : w'.Closed := by
  obtain ⟨Q, le, h⟩ := h
  exact h.closed le.same

theorem interpreter_self {i : InterpreterId} (lt : i < w.interpreters.size) :
    (Pairing.self w).interpreter i i :=
  ⟨rfl, lt⟩

theorem known_self {t : TaskId} (lt : t < w.tasks.size) : (Pairing.self w).known t t :=
  ⟨⟨rfl, lt⟩, id⟩

theorem strict_self : (Pairing.self w).Strict :=
  ⟨fun _ => id, fun _ => id⟩

/-- Nobody is kept out of the comparison of a world with itself. -/
theorem Timely.self (w : World) (τ : Nat) : Timely (.self w) τ w w where
  pairs := by
    rintro t _ ⟨rfl, -⟩ d -
    rfl
  left t d _ h := ⟨t, rfl, lt_size_of_isAlive (isAlive_of_deadline? h)⟩
  right t d _ h := ⟨t, rfl, lt_size_of_isAlive (isAlive_of_deadline? h)⟩

theorem Closed.running (h : w.Closed) {t : TaskId} (turn : w.running = some t) :
    t < w.tasks.size := by
  have running := Mirrors.running h
  rw [turn] at running
  cases running with
  | some ht => exact ht.2

theorem Closed.queue (h : w.Closed) {t : TaskId} (ready : t ∈ w.queue) : t < w.tasks.size :=
  (List.forall₂_same.1 (Mirrors.queue h) t ready).2

/-- The visits whose callbacks tasks hold are there. -/
theorem Closed.held (h : w.Closed) {t : TaskId} {v : VisitId}
    (held : (w.task t).holds v = true) : v < w.visits.size := by
  simp only [Task.holds, Bool.and_eq_true, Bool.or_eq_true, decide_eq_true_eq] at held
  obtain ⟨alive, callback | route⟩ := held
  · have reach := (h.mirrors.task (known_self (lt_size_of_isAlive alive))).reach.callback
    rw [callback] at reach
    cases reach with
    | some hv => exact hv.1.2
  · have routed := (h.mirrors.task (known_self (lt_size_of_isAlive alive))).route
    cases hx : (w.task t).route with
    | none => rw [hx] at route; cases route
    | some x =>
      rw [hx] at route routed
      have own : x.visit = v := by simpa using route
      cases routed with
      | some hv => exact own ▸ hv.visit.1.2

/-- The tasks of runs in the background are there. -/
theorem Closed.handled (h : w.Closed) {i : InterpreterId} {t : TaskId}
    (known : i < w.interpreters.size) (handle : (w.interpreter i).handle = some t) :
    t < w.tasks.size := by
  have ties := (h.mirrors.interpreter (interpreter_self known)).handle
  rw [handle] at ties
  rcases ties with ties | ⟨stale, -⟩
  · cases ties with
    | some ht => exact ht.1.2
  · exact (stale t rfl).elim

/-- A closed world stays closed. -/
theorem Closed.next (h : w.Closed) (next : w.Next w') : w'.Closed := by
  have unveiled (r : RunId) : ¬ (Pairing.self w).veiled r := id
  cases next with
  | @move t turn =>
    exact .of_grows (h.mirrors.move (known_self (h.running turn)) fun r _ => unveiled r)
  | @giveUp t rest r deadline turn job waits =>
    have known := known_self (h.running turn)
    have row := (h.mirrors.task known).job
    rw [job] at row
    cases row with
    | control _ hd strict =>
      cases hd with
      | running hr _ => exact .of_grows (h.mirrors.giveUp known strict rest hr (unveiled r))
  | @turn t free ready =>
    have known := known_self (h.queue ready)
    have others (u : TaskId) (lone : (Pairing.self w).Lone u) (hu : u ∈ w.queue) : u ≠ t :=
      absurd (known_self (h.queue hu)) (lone u)
    exact .of_grows (h.mirrors.beginTurn known.1 others fun _ => ⟨known, fun r _ => unveiled r⟩)
  -- The clock goes to the next deadline, which is the same on both sides.
  | tick free later =>
    cases hτ : w.nextDeadline? with
    | none =>
      rw [advanceClock?, hτ] at later
      cases later
    | some τ =>
      obtain ⟨w₁, w₁', now, first, second, h₁⟩ := h.mirrors.advanceClock? hτ (Timely.self w τ)
      obtain rfl := Option.some.inj (later.symm.trans first)
      obtain rfl := Option.some.inj (later.symm.trans second)
      exact h₁.closed rfl
  -- From outside, tasks and interpreters may be named that are not there; then nothing happens.
  | wake t free =>
    by_cases lt : t < w.tasks.size
    · exact .of_grows (.pure (h.mirrors.wake (known_self lt).1))
    · have dead : (w.task t).isAlive = false := by
        rw [← Bool.not_eq_true]
        exact fun alive => lt (lt_size_of_isAlive alive)
      have same : w.wake t = w := by simp [World.wake, dead]
      exact same.symm ▸ h
  | stop i free =>
    by_cases lt : i < w.interpreters.size
    · exact .of_grows (.pure (h.mirrors.forceStop ⟨rfl, lt⟩))
    · have blank : w.interpreter i = default := Table.get_of_size_le (Nat.not_lt.1 lt)
      have same : w.forceStop i = w := by
        rw [World.forceStop, blank]
        rfl
      exact same.symm ▸ h
  | start i free started =>
    have lt : i < w.interpreters.size := by
      refine Nat.lt_of_not_le fun new => ?_
      have blank : w.interpreter i = default := Table.get_of_size_le new
      rw [startInBackground, World.begin, blank] at started
      cases started
    rcases h.mirrors.startInBackground (interpreter_self lt) with
      ⟨e, failed, -⟩ | ⟨w₁, w₁', first, second, grown⟩
    · rw [failed] at started
      cases started
    · obtain rfl := Except.ok.inj (started.symm.trans first)
      obtain rfl := Except.ok.inj (started.symm.trans second)
      exact .of_grows grown
  | abort t free own reach =>
    by_cases lt : t < w.tasks.size
    · exact .of_grows (.pure (h.mirrors.abort (known_self lt)))
    · have dead : (w.task t).isAlive = false := by
        rw [← Bool.not_eq_true]
        exact fun alive => lt (lt_size_of_isAlive alive)
      have same : w.abort t = w := by simp [World.abort, dead]
      exact same.symm ▸ h
  | call steps free =>
    exact .of_grows ((h.mirrors.spawn (.controller steps strict_self)).map fun Q le new => new.2)

end World

namespace Scenario

variable {s : Scenario} {w : World}

theorem closed_opening (s : Scenario) : s.opening.Closed where
  now := rfl
  values := rfl
  named := rfl
  names i lt := ⟨rfl, by simpa [opening, Table.size] using lt⟩
  kept := .nil
  queue := .nil
  running := .none
  told := .refl _ _
  still := rfl
  reports := .inr ⟨rfl, rfl⟩
  tasks := {
    size := fun _ _ ht => (Nat.not_lt_zero _ ht.2).elim
    like := fun _ _ ht => (Nat.not_lt_zero _ ht.2).elim
    pairs := fun _ _ ht => (Nat.not_lt_zero _ ht.1.2).elim
    secret := fun _ ht => ht.elim
    stale := fun _ ht => ht.elim
    stale' := fun _ ht => ht.elim
    total := fun _ _ lt => (Nat.not_lt_zero _ lt).elim }
  runs := .of_none (fun _ _ hr => Nat.not_lt_zero _ hr.2) (fun _ => id) (fun _ => id) fun _ => rfl
  visits := .of_none (fun _ _ hv => Nat.not_lt_zero _ hv.2) (fun _ => id) fun _ => rfl
  -- The interpreters are there from the beginning, and nothing else is.
  interpreters := {
    size := by
      rintro i _ ⟨rfl, lt⟩
      exact ⟨lt, lt⟩
    pairs := by
      rintro i i' ⟨same, lt⟩
      subst same
      have blank : s.opening.interpreters.get i' =
          { machine := s.machine, history := .withLimit (s.limit.getD Window.defaultLimit) } := by
        simp only [opening, Table.size, Array.size_replicate] at lt
        simp [opening, Table.get, Array.getD, lt]
      rw [blank]
      exact ⟨rfl, .none, rfl, rfl, rfl, rfl, .inl .none⟩
    total := fun _ i lt => ⟨i, rfl, lt⟩ }
  host _ _ hr := (Nat.not_lt_zero _ hr.1.2).elim
  ready _ _ := id
  joiner _ _ _ := rfl
  left := ⟨fun _ _ => rfl, fun _ _ => rfl, fun _ _ _ held => by cases held⟩
  right := ⟨fun _ _ => rfl, fun _ _ => rfl, fun _ _ _ held => by cases held⟩

theorem closed_start (s : Scenario) : s.start.Closed := by
  have observed (observers : List (Nat × Observer Script)) {w : World} (h : w.Closed) :
      (observers.foldl (fun w o => w.observe o.1 o.2) w).Closed := by
    induction observers generalizing w with
    | nil => exact h
    | cons o os ih => exact ih (.of_grows (h.mirrors.observe o.1 o.2))
  have h := observed s.observers s.closed_opening
  exact .of_grows ((h.mirrors.spawn (.controller s.steps World.strict_self)).map
    fun Q le new => new.2)

/-- The worlds that a scenario comes to mirror themselves. -/
theorem Reaches.closed (h : s.Reaches w) : w.Closed := by
  induction h with
  | refl => exact s.closed_start
  | tail _ next ih => exact ih.next next

end Scenario

end Statechart
