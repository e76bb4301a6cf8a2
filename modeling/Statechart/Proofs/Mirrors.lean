import Statechart.Proofs.Pairing

/-!
# Worlds that mirror each other

Two worlds mirror each other if the rows of a pairing are alike, and the same was written to the
journal. Whatever rows have no counterpart stay as they are, so a world that mirrors itself shows
what a pairing keeps from the others.

Each elementary change of a world has one lemma here. What the engine does is put together of
these, function by function, in the modules that follow.

## Main definitions

- `Apart`: rows without counterpart stay as they are.
- `Mirrors`: two worlds mirror each other, and what they have done since two others is the same.

## Main statements

- `Mirrors.modifyTask` and the like: a pair of rows that changes alike.
- `Mirrors.spawn` and the like: rows that are added form a pair.
-/

namespace Statechart

/-! ## Rows without counterpart -/

/-- A task as it is but for being woken and being waited for. -/
def Task.core (x : Task) : Task :=
  { x with rewoken := false, joiner := none }

/-- A visit as it is but for who waits for its tokens. -/
def Visit.core (x : Visit) : Visit :=
  { x with scopeWaiters := [], actionWaiters := [] }

theorem Task.holds_core (x : Task) (v : VisitId) : x.core.holds v = x.holds v := rfl

/-- The tasks of a set and the visits of another stay as they are, and those tasks hold the
callbacks of no other visits. -/
structure Apart (T : TaskId → Prop) (V : VisitId → Prop) (b w : World) : Prop where
  task : ∀ t, T t → (w.task t).core = (b.task t).core
  visit : ∀ v, V v → (w.visit v).core = (b.visit v).core
  holds : ∀ t, T t → ∀ v, (w.task t).holds v = true → v < w.visits.size ∧ V v

namespace Apart

variable {T T' : TaskId → Prop} {V V' : VisitId → Prop} {b w w' : World} {t : TaskId}
  {v : VisitId}

theorem mono (h : Apart T V b w) (task : ∀ t, T' t → T t) (visit : ∀ v, V' v → V v)
    (old : ∀ v, v < w.visits.size → V v → V' v) : Apart T' V' b w where
  task t ht := h.task t (task t ht)
  visit v hv := h.visit v (visit v hv)
  holds t ht v hv :=
    have ⟨lt, out⟩ := h.holds t (task t ht) v hv
    ⟨lt, old v lt out⟩

theorem of_eq (h : Apart T V b w) (tasks : w'.tasks = w.tasks) (visits : w'.visits = w.visits) :
    Apart T V b w' where
  task t ht := by
    unfold World.task
    rw [tasks]
    exact h.task t ht
  visit v hv := by
    unfold World.visit
    rw [visits]
    exact h.visit v hv
  holds t ht v hv := by
    unfold World.task at hv
    rw [tasks] at hv
    rw [visits]
    exact h.holds t ht v hv

theorem modifyTask (h : Apart T V b w) {f : Task → Task}
    (free : T t → (f (w.task t)).core = (w.task t).core) : Apart T V b (w.modifyTask t f) := by
  have core (u : TaskId) (hu : T u) : ((w.modifyTask t f).task u).core = (w.task u).core := by
    rw [World.task_modifyTask]
    split
    · next same =>
      subst same
      exact free hu
    · rfl
  refine ⟨fun u hu => (core u hu).trans (h.task u hu), h.visit, fun u hu v hv => ?_⟩
  rw [← Task.holds_core, core u hu, Task.holds_core] at hv
  exact h.holds u hu v hv

theorem modifyVisit (h : Apart T V b w) {f : Visit → Visit}
    (free : V v → (f (w.visit v)).core = (w.visit v).core) : Apart T V b (w.modifyVisit v f) := by
  refine ⟨h.task, fun x hx => ?_, fun t ht x hx => ?_⟩
  · rw [World.visit_modifyVisit]
    split
    · next same =>
      subst same
      exact (free hx).trans (h.visit x hx)
    · exact h.visit x hx
  · obtain ⟨lt, out⟩ := h.holds t ht x hx
    exact ⟨Nat.lt_of_lt_of_le lt (Table.size_le_modify ..), out⟩

theorem spawn (h : Apart T V b w) (x : Task) (free : ¬ T w.tasks.size) :
    Apart T V b (w.spawn x) := by
  have same (t : TaskId) (ht : T t) : (w.spawn x).task t = w.task t := by
    have : t ≠ w.tasks.size := by
      rintro rfl
      exact free ht
    simp [World.spawn, this]
  refine ⟨fun t ht => ?_, h.visit, fun t ht v hv => ?_⟩
  · rw [same t ht]
    exact h.task t ht
  · rw [same t ht] at hv
    exact h.holds t ht v hv

theorem pushVisit (h : Apart T V b w) (x : Visit) (free : ¬ V w.visits.size) :
    Apart T V b { w with visits := w.visits.push x } := by
  refine ⟨h.task, fun v hv => ?_, fun t ht v hv => ?_⟩
  · have : v ≠ w.visits.size := by
      rintro rfl
      exact free hv
    simp only [World.visit_mk, Table.get_push, if_neg this]
    exact h.visit v hv
  · obtain ⟨lt, out⟩ := h.holds t ht v hv
    exact ⟨Nat.lt_of_lt_of_le lt (Table.size_push .. ▸ Nat.le_succ _), out⟩

end Apart

/-! ## Worlds that mirror each other -/

/-- What was written since two worlds is the same, but for marks. -/
def Told (b b' w w' : World) : Prop :=
  ∃ es es', w.journal.toList = b.journal.toList ++ es ∧
    w'.journal.toList = b'.journal.toList ++ es' ∧
    es.filter (·.isShown true) = es'.filter (·.isShown true)

namespace Pairing

/-- The tasks of the first world that others know of without knowing of a counterpart. -/
def Lone (P : Pairing) (t : TaskId) : Prop := ∀ t', ¬ P.known t t'

/-- The tasks of the second world without counterpart. -/
def Lone' (P : Pairing) (t' : TaskId) : Prop := ∀ t, ¬ P.known t t'

/-- The visits of the first world whose callbacks are out of reach. -/
def Far (P : Pairing) (v : VisitId) : Prop := ∀ v', ¬ P.shared v v'

/-- The visits of the second world whose callbacks are out of reach. -/
def Far' (P : Pairing) (v' : VisitId) : Prop := ∀ v, ¬ P.shared v v'

/-- The tasks of two worlds correspond. -/
structure Tasks (P : Pairing) (x x' : Table Task) : Prop where
  size : ∀ t t', P.task t t' → t < x.size ∧ t' < x'.size
  like : ∀ t t', P.task t t' → (x.get t).Like (x'.get t')
  pairs : ∀ t t', P.known t t' → (x.get t).Pairs P (x'.get t')
  secret : ∀ t, P.secret t → t < x.size
  stale : ∀ t, P.stale t → t < x.size ∧ P.Lone t
  stale' : ∀ t', P.stale' t' → t' < x'.size ∧ P.Lone' t'
  total : P.total → ∀ t, t < x.size → ∃ t', P.task t t'

/-- The runs of two worlds correspond. -/
structure Runs (P : Pairing) (x x' : Table Run) : Prop where
  size : ∀ r r', P.run r r' → r < x.size ∧ r' < x'.size
  pairs : ∀ r r', P.run r r' → (x.get r).Pairs P (x'.get r')
  lost : ∀ r, P.lost r → r < x.size ∧ (x.get r).phase = .ended
  veiled : ∀ r, P.veiled r → r < x.size
  plain : ∀ r r', P.run r r' → ¬ P.veiled r → ∀ v, (x.get r).phase.visit? = some v → ¬ P.hidden v
  total : P.total → ∀ r, r < x.size → ∃ r', P.run r r'

/-- The visits of two worlds correspond. -/
structure Visits (P : Pairing) (x x' : Table Visit) : Prop where
  size : ∀ v v', P.visit v v' → v < x.size ∧ v' < x'.size
  like : ∀ v v', P.visit v v' → (x.get v).Like P (x'.get v')
  pairs : ∀ v v', P.shared v v' → (x.get v).Pairs P (x'.get v')
  hidden : ∀ v, P.hidden v → v < x.size
  total : P.total → ∀ v, v < x.size → ∃ v', P.visit v v'

/-- The interpreters of two worlds correspond. -/
structure Interpreters (P : Pairing) (x x' : Table Interpreter) : Prop where
  size : ∀ i i', P.interpreter i i' → i < x.size ∧ i' < x'.size
  pairs : ∀ i i', P.interpreter i i' → (x.get i).Pairs P (x'.get i')
  total : P.total → ∀ i, i < x.size → ∃ i', P.interpreter i i'

end Pairing

/-- What has happened since two worlds is the same: the same was written, at one moment, and nobody
has answered whose answers may differ. Whoever has no counterpart has kept its place in the queue,
and whoever waits for it. -/
structure Since (P : Pairing) (b b' w w' : World) : Prop where
  told : Told b b' w w'
  still : w.now = b.now
  reports : P.Strict ∨ w.reports = b.reports ∧ w'.reports = b'.reports
  ready : ∀ t, P.Lone t → t ∈ b.queue → t ∈ w.queue
  joiner : ∀ t, P.Lone t → ¬ P.stale t → (w.task t).joiner = (b.task t).joiner
  left : Apart P.Lone P.Far b w
  right : Apart P.Lone' P.Far' b' w'

/-- Two worlds mirror each other, and what has happened in them since two other worlds is the
same. -/
structure Mirrors (P : Pairing) (b b' w w' : World) : Prop extends Since P b b' w w' where
  now : w'.now = w.now
  values : w'.values = w.values
  named : w'.named = w.named
  names : ∀ i, i < w.named → P.interpreter i i
  kept : List.Forall₂ (fun k k' => k'.1 = k.1 ∧ P.shared k.2 k'.2) w.kept w'.kept
  queue : List.Forall₂ P.task w.queue w'.queue
  running : Option.Rel P.task w.running w'.running
  tasks : P.Tasks w.tasks w'.tasks
  runs : P.Runs w.runs w'.runs
  visits : P.Visits w.visits w'.visits
  interpreters : P.Interpreters w.interpreters w'.interpreters
  host : ∀ r r', P.live r r' → P.task (w.run r).host (w'.run r').host

/-! ## Elementary changes -/

theorem Told.refl (b b' : World) : Told b b' b b' :=
  ⟨[], [], by simp⟩

theorem Told.log {b b' w w' : World} (h : Told b b' w w') {e e' : Entry}
    (same : [e].filter (·.isShown true) = [e'].filter (·.isShown true)) :
    Told b b' (w.log e) (w'.log e') := by
  obtain ⟨es, es', journal, journal', shown⟩ := h
  refine ⟨es ++ [e], es' ++ [e'], ?_, ?_, ?_⟩
  · rw [World.log, Array.toList_push, journal, List.append_assoc]
  · rw [World.log, Array.toList_push, journal', List.append_assoc]
  · rw [List.filter_append, List.filter_append, shown, same]

namespace Mirrors

variable {P : Pairing} {b b' w w' : World}

/-- The comparison may begin anew. -/
theorem anew (h : Mirrors P b b' w w') {c c' : World} (since : Since P c c' w w') :
    Mirrors P c c' w w' :=
  { h with toSince := since }

/-! ### Entries -/

theorem logs (h : Mirrors P b b' w w') {e e' : Entry}
    (same : [e].filter (·.isShown true) = [e'].filter (·.isShown true)) :
    Mirrors P b b' (w.log e) (w'.log e') :=
  { h with
    told := h.told.log same
    left := h.left.of_eq rfl rfl
    right := h.right.of_eq rfl rfl }

theorem log (h : Mirrors P b b' w w') (e : Entry) : Mirrors P b b' (w.log e) (w'.log e) :=
  h.logs rfl

theorem trace (h : Mirrors P b b' w w') (t : Trace) : Mirrors P b b' (w.trace t) (w'.trace t) :=
  h.log (.trace t)

theorem mark (h : Mirrors P b b' w w') (m m' : Mark) : Mirrors P b b' (w.mark m) (w'.mark m') :=
  h.logs rfl

theorem logDrops (h : Mirrors P b b' w w') (guards : List String) :
    Mirrors P b b' (w.logDrops guards) (w'.logDrops guards) := by
  unfold World.logDrops
  induction guards generalizing w w' with
  | nil => exact h
  | cons label guards ih => exact ih (h.log (.drop label))

/-! ### Rows -/

theorem running_iff (h : Mirrors P b b' w w') {t t' : TaskId} (ht : P.task t t') :
    w.running = some t ↔ w'.running = some t' := by
  have running := h.running
  generalize w.running = x, w'.running = x' at running
  cases running with
  | some hu => simpa using P.task_iff hu ht
  | none => simp

theorem mem_queue (h : Mirrors P b b' w w') {t t' : TaskId} (ht : P.task t t') :
    t ∈ w.queue ↔ t' ∈ w'.queue :=
  List.rel_mem P.unique_task ht h.queue

theorem like (h : Mirrors P b b' w w') {t t' : TaskId} (ht : P.task t t') :
    (w.task t).Like (w'.task t') :=
  h.tasks.like t t' ht

theorem task (h : Mirrors P b b' w w') {t t' : TaskId} (ht : P.known t t') :
    (w.task t).Pairs P (w'.task t') :=
  h.tasks.pairs t t' ht

theorem run (h : Mirrors P b b' w w') {r r' : RunId} (hr : P.run r r') :
    (w.run r).Pairs P (w'.run r') :=
  h.runs.pairs r r' hr

theorem visitLike (h : Mirrors P b b' w w') {v v' : VisitId} (hv : P.visit v v') :
    (w.visit v).Like P (w'.visit v') :=
  h.visits.like v v' hv

theorem visit (h : Mirrors P b b' w w') {v v' : VisitId} (hv : P.shared v v') :
    (w.visit v).Pairs P (w'.visit v') :=
  h.visits.pairs v v' hv

theorem interpreter (h : Mirrors P b b' w w') {i i' : InterpreterId} (hi : P.interpreter i i') :
    (w.interpreter i).Pairs P (w'.interpreter i') :=
  h.interpreters.pairs i i' hi

theorem runOf (h : Mirrors P b b' w w') {v v' : VisitId} (hv : P.visit v v') :
    (w.runOf v).Pairs P (w'.runOf v') :=
  h.run (h.visitLike hv).run.1

theorem hostOf (h : Mirrors P b b' w w') {v v' : VisitId} (hv : P.visit v v') :
    P.task (w.runOf v).host (w'.runOf v').host :=
  h.host _ _ (h.visitLike hv).run

theorem isAlive (h : Mirrors P b b' w w') {t t' : TaskId} (ht : P.task t t') :
    (w'.task t').isAlive = (w.task t).isAlive := by
  unfold Task.isAlive
  rw [(h.like ht).fate]

/-! ### Changes of one row -/

/-- A pair of tasks changes alike, and its rows are looked at from here on. -/
theorem modifyTasksFrom (h : Mirrors P b b' w w') {c c' : World} {t t' : TaskId} (ht : P.task t t')
    {f g : Task → Task} (like : (f (w.task t)).Like (g (w'.task t')))
    (pairs : P.known t t' → (f (w.task t)).Pairs P (g (w'.task t')))
    (since : Since P c c' (w.modifyTask t f) (w'.modifyTask t' g)) :
    Mirrors P c c' (w.modifyTask t f) (w'.modifyTask t' g) :=
  { h with
    toSince := since
    tasks := {
      size := fun u u' hu => by
        have ⟨lt, lt'⟩ := h.tasks.size u u' hu
        exact ⟨Nat.lt_of_lt_of_le lt (Table.size_le_modify ..),
          Nat.lt_of_lt_of_le lt' (Table.size_le_modify ..)⟩
      like := Table.rel_modify P.unique_task (fun _ _ => id) h.tasks.like ht fun _ => like
      pairs := Table.rel_modify P.unique_task (fun _ _ => And.left) h.tasks.pairs ht pairs
      secret := fun u hu => Nat.lt_of_lt_of_le (h.tasks.secret u hu) (Table.size_le_modify ..)
      stale := fun u hu => (h.tasks.stale u hu).imp_left fun lt =>
        Nat.lt_of_lt_of_le lt (Table.size_le_modify ..)
      stale' := fun u hu => (h.tasks.stale' u hu).imp_left fun lt =>
        Nat.lt_of_lt_of_le lt (Table.size_le_modify ..)
      total := fun total u hu => h.tasks.total total u
        (Table.size_modify_of_lt (h.tasks.size t t' ht).1 f ▸ hu) } }

/-- A pair of tasks changes alike. -/
theorem modifyTasks (h : Mirrors P b b' w w') {t t' : TaskId} (ht : P.task t t')
    {f g : Task → Task} (like : (f (w.task t)).Like (g (w'.task t')))
    (pairs : P.known t t' → (f (w.task t)).Pairs P (g (w'.task t')))
    (left : P.Lone t → (f (w.task t)).core = (w.task t).core ∧
      (f (w.task t)).joiner = (w.task t).joiner)
    (right : P.Lone' t' → (g (w'.task t')).core = (w'.task t').core) :
    Mirrors P b b' (w.modifyTask t f) (w'.modifyTask t' g) :=
  h.modifyTasksFrom ht like pairs { h.toSince with
    joiner := fun u lone fresh => by
      rw [World.task_modifyTask]
      split
      · next same =>
        subst same
        exact (left lone).2.trans (h.joiner u lone fresh)
      · exact h.joiner u lone fresh
    left := h.left.modifyTask fun lone => (left lone).1
    right := h.right.modifyTask right }

theorem modifyTask (h : Mirrors P b b' w w') {t t' : TaskId} (ht : P.known t t')
    {f g : Task → Task} (row : (f (w.task t)).Pairs P (g (w'.task t'))) :
    Mirrors P b b' (w.modifyTask t f) (w'.modifyTask t' g) :=
  h.modifyTasks ht.1 row.toLike (fun _ => row) (fun lone => absurd ht (lone t'))
    fun lone => absurd ht (lone t)

theorem rewake (h : Mirrors P b b' w w') {t t' : TaskId} (ht : P.task t t') (again : Bool) :
    Mirrors P b b' (w.modifyTask t fun x => { x with rewoken := again })
      (w'.modifyTask t' fun x => { x with rewoken := again }) :=
  h.modifyTasks ht { h.like ht with rewoken := rfl }
    (fun known => { h.task known with rewoken := rfl }) (fun _ => ⟨rfl, rfl⟩) fun _ => rfl

/-- A task of the first world that nobody else knows of changes, and the queue does not notice. -/
theorem modifyLeft (h : Mirrors P b b' w w') {c : World} {t : TaskId} (lt : t < w.tasks.size)
    (lone : P.Lone t) {f : Task → Task} (like : (f (w.task t)).Like (w.task t))
    (since : Since P c b' (w.modifyTask t f) w') : Mirrors P c b' (w.modifyTask t f) w' := by
  have grows : w.tasks.size ≤ (w.tasks.modify t f).size := Table.size_le_modify ..
  exact { h with
    toSince := since
    tasks := {
      size := fun u u' hu => (h.tasks.size u u' hu).imp_left fun lt => Nat.lt_of_lt_of_le lt grows
      like := fun u u' hu => by
        show ((w.modifyTask t f).task u).Like _
        rw [World.task_modifyTask]
        split
        · next same =>
          subst same
          exact like.trans (h.like hu)
        · exact h.like hu
      pairs := fun u u' hu => by
        show ((w.modifyTask t f).task u).Pairs P _
        rw [World.task_modifyTask, if_neg]
        · exact h.task hu
        · rintro rfl
          exact lone u' hu
      secret := fun u hu => Nat.lt_of_lt_of_le (h.tasks.secret u hu) grows
      stale := fun u hu => (h.tasks.stale u hu).imp_left fun lt => Nat.lt_of_lt_of_le lt grows
      stale' := h.tasks.stale'
      total := fun total u hu => h.tasks.total total u (Table.size_modify_of_lt lt _ ▸ hu) } }

/-- A task of the second world that nobody else knows of changes, and the queue does not
notice. -/
theorem modifyRight (h : Mirrors P b b' w w') {c' : World} {t' : TaskId}
    (lone : P.Lone' t') {f : Task → Task} (like : (w'.task t').Like (f (w'.task t')))
    (since : Since P b c' w (w'.modifyTask t' f)) : Mirrors P b c' w (w'.modifyTask t' f) := by
  have grows : w'.tasks.size ≤ (w'.tasks.modify t' f).size := Table.size_le_modify ..
  exact { h with
    toSince := since
    tasks := {
      size := fun u u' hu => (h.tasks.size u u' hu).imp_right fun lt => Nat.lt_of_lt_of_le lt grows
      like := fun u u' hu => by
        show (w.task u).Like ((w'.modifyTask t' f).task u')
        rw [World.task_modifyTask]
        split
        · next same =>
          subst same
          exact (h.like hu).trans like
        · exact h.like hu
      pairs := fun u u' hu => by
        show (w.task u).Pairs P ((w'.modifyTask t' f).task u')
        rw [World.task_modifyTask, if_neg]
        · exact h.task hu
        · rintro rfl
          exact lone u hu
      secret := h.tasks.secret
      stale := h.tasks.stale
      stale' := fun u hu => (h.tasks.stale' u hu).imp_left fun lt => Nat.lt_of_lt_of_le lt grows
      total := h.tasks.total } }

/-- Nobody waits any more for a task that is kept out of the comparison. -/
theorem unjoinLeft (h : Mirrors P b b' w w') {t : TaskId} (ht : P.stale t) :
    Mirrors P b b' (w.modifyTask t fun x => { x with joiner := none }) w' :=
  have ⟨lt, lone⟩ := h.tasks.stale t ht
  h.modifyLeft lt lone ⟨rfl, rfl, rfl⟩
    { h.toSince with
      joiner := fun u lone fresh => by
        rw [World.task_modifyTask, if_neg]
        · exact h.joiner u lone fresh
        · rintro rfl
          exact fresh ht
      left := h.left.modifyTask fun _ => rfl }

theorem unjoinRight (h : Mirrors P b b' w w') {t' : TaskId} (ht : P.stale' t') :
    Mirrors P b b' w (w'.modifyTask t' fun x => { x with joiner := none }) :=
  h.modifyRight (h.tasks.stale' t' ht).2 ⟨rfl, rfl, rfl⟩
    { h.toSince with right := h.right.modifyTask fun _ => rfl }

/-- A pair of runs changes alike, and keeps its hosts. -/
theorem modifyRun (h : Mirrors P b b' w w') {r r' : RunId} (hr : P.run r r') {f g : Run → Run}
    (row : (f (w.run r)).Pairs P (g (w'.run r'))) (host : (f (w.run r)).host = (w.run r).host)
    (host' : (g (w'.run r')).host = (w'.run r').host)
    (lost : P.lost r → (f (w.run r)).phase = .ended)
    (plain : ¬ P.veiled r → ∀ v, (f (w.run r)).phase.visit? = some v → ¬ P.hidden v) :
    Mirrors P b b' (w.modifyRun r f) (w'.modifyRun r' g) := by
  have hosts (w : World) (r s : RunId) (f : Run → Run) (host : (f (w.run r)).host = (w.run r).host) :
      ((w.modifyRun r f).run s).host = (w.run s).host := by
    rw [World.run_modifyRun]
    split
    · next same => exact same ▸ host
    · rfl
  -- All but the two rows is as it was, and these are a pair again.
  exact { h with
    runs := {
      size := fun s s' hs => by
        have ⟨lt, lt'⟩ := h.runs.size s s' hs
        exact ⟨Nat.lt_of_lt_of_le lt (Table.size_le_modify ..),
          Nat.lt_of_lt_of_le lt' (Table.size_le_modify ..)⟩
      pairs := Table.rel_modify P.unique_run (fun _ _ => id) h.runs.pairs hr fun _ => row
      lost := fun s hs => by
        obtain ⟨lt, ended⟩ := h.runs.lost s hs
        refine ⟨Nat.lt_of_lt_of_le lt (Table.size_le_modify ..), ?_⟩
        rw [World.get_runs, World.run_modifyRun]
        split
        · next same =>
          subst same
          exact lost hs
        · exact ended
      veiled := fun s hs => Nat.lt_of_lt_of_le (h.runs.veiled s hs) (Table.size_le_modify ..)
      plain := fun s s' hs unveiled v => by
        rw [World.get_runs, World.run_modifyRun]
        split
        · next same =>
          subst same
          exact plain unveiled v
        · exact h.runs.plain s s' hs unveiled v
      total := fun total s hs => h.runs.total total s
        (Table.size_modify_of_lt (h.runs.size r r' hr).1 f ▸ hs) }
    host := fun s s' hs => by
      rw [hosts w _ _ f host, hosts w' _ _ g host']
      exact h.host s s' hs
    left := h.left.of_eq rfl rfl
    right := h.right.of_eq rfl rfl }

/-- A pair of visits changes alike. -/
theorem modifyVisits (h : Mirrors P b b' w w') {v v' : VisitId} (hv : P.visit v v')
    {f g : Visit → Visit} (like : (f (w.visit v)).Like P (g (w'.visit v')))
    (pairs : P.shared v v' → (f (w.visit v)).Pairs P (g (w'.visit v')))
    (left : P.Far v → (f (w.visit v)).core = (w.visit v).core)
    (right : P.Far' v' → (g (w'.visit v')).core = (w'.visit v').core) :
    Mirrors P b b' (w.modifyVisit v f) (w'.modifyVisit v' g) :=
  { h with
    visits := {
      size := fun x x' hx => by
        have ⟨lt, lt'⟩ := h.visits.size x x' hx
        exact ⟨Nat.lt_of_lt_of_le lt (Table.size_le_modify ..),
          Nat.lt_of_lt_of_le lt' (Table.size_le_modify ..)⟩
      like := Table.rel_modify P.unique_visit (fun _ _ => id) h.visits.like hv fun _ => like
      pairs := Table.rel_modify P.unique_visit (fun _ _ => And.left) h.visits.pairs hv pairs
      hidden := fun x hx => Nat.lt_of_lt_of_le (h.visits.hidden x hx) (Table.size_le_modify ..)
      total := fun total x hx => h.visits.total total x
        (Table.size_modify_of_lt (h.visits.size v v' hv).1 f ▸ hx) }
    left := h.left.modifyVisit left
    right := h.right.modifyVisit right }

theorem modifyVisit (h : Mirrors P b b' w w') {v v' : VisitId} (hv : P.shared v v')
    {f g : Visit → Visit} (row : (f (w.visit v)).Pairs P (g (w'.visit v'))) :
    Mirrors P b b' (w.modifyVisit v f) (w'.modifyVisit v' g) :=
  h.modifyVisits hv.1 row.toLike (fun _ => row) (fun far => absurd hv (far v'))
    fun far => absurd hv (far v)

/-- A pair of interpreters changes alike. -/
theorem modifyInterpreter (h : Mirrors P b b' w w') {i i' : InterpreterId}
    (hi : P.interpreter i i') {f g : Interpreter → Interpreter}
    (row : (f (w.interpreter i)).Pairs P (g (w'.interpreter i'))) :
    Mirrors P b b' (w.modifyInterpreter i f) (w'.modifyInterpreter i' g) :=
  { h with
    interpreters := {
      size := fun j j' hj => by
        have ⟨lt, lt'⟩ := h.interpreters.size j j' hj
        exact ⟨Nat.lt_of_lt_of_le lt (Table.size_le_modify ..),
          Nat.lt_of_lt_of_le lt' (Table.size_le_modify ..)⟩
      pairs := Table.rel_modify P.unique_interpreter (fun _ _ => id) h.interpreters.pairs hi
        fun _ => row
      total := fun total j hj => h.interpreters.total total j
        (Table.size_modify_of_lt (h.interpreters.size i i' hi).1 f ▸ hj) }
    left := h.left.of_eq rfl rfl
    right := h.right.of_eq rfl rfl }

/-! ### The queue -/

theorem requeue (h : Mirrors P b b' w w') {queue queue' : List TaskId}
    (hq : List.Forall₂ P.task queue queue')
    (ready : ∀ t, P.Lone t → t ∈ b.queue → t ∈ queue) :
    Mirrors P b b' { w with queue } { w' with queue := queue' } :=
  { h with
    queue := hq
    ready
    left := h.left.of_eq rfl rfl
    right := h.right.of_eq rfl rfl }

theorem turn (h : Mirrors P b b' w w') {running running' : Option TaskId}
    (hr : Option.Rel P.task running running') :
    Mirrors P b b' { w with running } { w' with running := running' } :=
  { h with
    running := hr
    left := h.left.of_eq rfl rfl
    right := h.right.of_eq rfl rfl }

theorem enqueue (h : Mirrors P b b' w w') {t t' : TaskId} (ht : P.task t t') :
    Mirrors P b b' (w.enqueue t) (w'.enqueue t') := by
  unfold World.enqueue
  have same := h.mem_queue ht
  by_cases queued : t ∈ w.queue
  · rw [if_pos queued, if_pos (same.1 queued)]
    exact h
  · rw [if_neg queued, if_neg (same.not.1 queued)]
    exact h.requeue (List.rel_append h.queue (.cons ht .nil)) fun u lone hu =>
      List.mem_append_left _ (h.ready u lone hu)

/-! ### Scripts' variables -/

theorem setKept (h : Mirrors P b b' w w') {kept kept' : List (String × VisitId)}
    (hk : List.Forall₂ (fun k k' => k'.1 = k.1 ∧ P.shared k.2 k'.2) kept kept') :
    Mirrors P b b' { w with kept } { w' with kept := kept' } :=
  { h with
    kept := hk
    left := h.left.of_eq rfl rfl
    right := h.right.of_eq rfl rfl }

theorem setValues (h : Mirrors P b b' w w') (values : List (String × Int)) :
    Mirrors P b b' { w with values } { w' with values } :=
  { h with
    values := rfl
    left := h.left.of_eq rfl rfl
    right := h.right.of_eq rfl rfl }

end Mirrors

/-! ## New rows -/

namespace Pairing

variable {P Q : Pairing}

/-- Where no runs correspond and none is kept out of the comparison, there is nothing to compare. -/
theorem Runs.of_none {x x' : Table Run} (none : ∀ r r', ¬ P.run r r') (lost : ∀ r, ¬ P.lost r)
    (veiled : ∀ r, ¬ P.veiled r) (total : P.total → x.size = 0) : P.Runs x x' where
  size r r' hr := absurd hr (none r r')
  pairs r r' hr := absurd hr (none r r')
  lost r hr := absurd hr (lost r)
  veiled r hr := absurd hr (veiled r)
  plain r r' hr := absurd hr (none r r')
  total all _ lt := absurd (total all ▸ lt) (Nat.not_lt_zero _)

theorem Runs.mono {x x' : Table Run} (h : P.Runs x x') (le : P.Le Q) (same : Q.run = P.run) :
    Q.Runs x x' where
  size r r' hr := h.size r r' (same ▸ hr)
  pairs r r' hr := (h.pairs r r' (same ▸ hr)).mono le
  lost r hr := h.lost r (le.lost ▸ hr)
  veiled r hr := h.veiled r (le.veiled ▸ hr)
  plain r r' hr unveiled v hv := by
    rw [le.hidden]
    exact h.plain r r' (same ▸ hr) (le.veiled ▸ unveiled) v hv
  total total r hr := same ▸ h.total (le.total ▸ total) r hr

/-- Where no visits correspond and none is kept out of the comparison, there is nothing to
compare. -/
theorem Visits.of_none {x x' : Table Visit} (none : ∀ v v', ¬ P.visit v v')
    (hidden : ∀ v, ¬ P.hidden v) (total : P.total → x.size = 0) : P.Visits x x' where
  size v v' hv := absurd hv (none v v')
  like v v' hv := absurd hv (none v v')
  pairs v v' hv := absurd hv.1 (none v v')
  hidden v hv := absurd hv (hidden v)
  total all _ lt := absurd (total all ▸ lt) (Nat.not_lt_zero _)

theorem Visits.mono {x x' : Table Visit} (h : P.Visits x x') (le : P.Le Q)
    (same : Q.visit = P.visit) : Q.Visits x x' where
  size v v' hv := h.size v v' (same ▸ hv)
  like v v' hv := (h.like v v' (same ▸ hv)).mono le
  pairs v v' hv := (h.pairs v v' ⟨same ▸ hv.1, le.hidden ▸ hv.2⟩).mono le
  hidden v hv := h.hidden v (le.hidden ▸ hv)
  total total v hv := same ▸ h.total (le.total ▸ total) v hv

theorem Interpreters.mono {x x' : Table Interpreter} (h : P.Interpreters x x') (le : P.Le Q)
    (same : Q.interpreter = P.interpreter) : Q.Interpreters x x' where
  size i i' hi := h.size i i' (same ▸ hi)
  pairs i i' hi := (h.pairs i i' (same ▸ hi)).mono le
  total total i hi := same ▸ h.total (le.total ▸ total) i hi

theorem Tasks.mono {x x' : Table Task} (h : P.Tasks x x') (le : P.Le Q) (same : Q.task = P.task) :
    Q.Tasks x x' where
  size t t' ht := h.size t t' (same ▸ ht)
  like t t' ht := h.like t t' (same ▸ ht)
  pairs t t' ht := (h.pairs t t' ⟨same ▸ ht.1, le.secret ▸ ht.2⟩).mono le
  secret t ht := h.secret t (le.secret ▸ ht)
  stale t ht := by
    unfold Pairing.Lone Pairing.known
    rw [same, le.secret]
    exact h.stale t (le.stale ▸ ht)
  stale' t ht := by
    unfold Pairing.Lone' Pairing.known
    rw [same, le.secret]
    exact h.stale' t (le.stale' ▸ ht)
  total total t ht := same ▸ h.total (le.total ▸ total) t ht

end Pairing

namespace Mirrors

variable {P Q : Pairing} {b b' w w' : World}

theorem ready_mono (h : Mirrors P b b' w w') (le : P.Le Q) :
    ∀ t, Q.Lone t → t ∈ b.queue → t ∈ w.queue :=
  fun t lone => h.ready t fun t' known => lone t' (le.known known)

theorem joiner_mono (h : Mirrors P b b' w w') (le : P.Le Q) :
    ∀ t, Q.Lone t → ¬ Q.stale t → (w.task t).joiner = (b.task t).joiner :=
  fun t lone fresh =>
    h.joiner t (fun t' known => lone t' (le.known known)) fun stale => fresh (le.stale ▸ stale)

theorem left_mono (h : Mirrors P b b' w w') (le : P.Le Q)
    (new : ∀ v v', Q.visit v v' → P.visit v v' ∨ w.visits.size ≤ v) :
    Apart Q.Lone Q.Far b w := by
  refine h.left.mono (fun t ht t' known => ht t' (le.known known))
    (fun v hv v' shared => hv v' (le.shared shared)) fun v lt far v' shared => ?_
  rcases new v v' shared.1 with old | late
  · exact far v' ⟨old, le.hidden ▸ shared.2⟩
  · omega

theorem right_mono (h : Mirrors P b b' w w') (le : P.Le Q)
    (new : ∀ v v', Q.visit v v' → P.visit v v' ∨ w'.visits.size ≤ v') :
    Apart Q.Lone' Q.Far' b' w' := by
  refine h.right.mono (fun t ht t' known => ht t' (le.known known))
    (fun v hv v' shared => hv v' (le.shared shared)) fun v lt far v' shared => ?_
  rcases new v' v shared.1 with old | late
  · exact far v' ⟨old, le.hidden ▸ shared.2⟩
  · omega

/-- Tasks that correspond are added. -/
theorem spawn (h : Mirrors P b b' w w') {x y : Task} (row : x.Pairs P y) :
    P.Grows fun Q =>
      Q.known w.tasks.size w'.tasks.size ∧ Mirrors Q b b' (w.spawn x) (w'.spawn y) := by
  have size := h.tasks.size
  have le := P.le_addTask size
  have known : (P.addTask _ _ size).known w.tasks.size w'.tasks.size :=
    ⟨.inr ⟨rfl, rfl⟩, fun secret => Nat.lt_irrefl _ (h.tasks.secret _ secret)⟩
  -- The new tasks come last on both sides, and know each other from now on.
  have like := Table.rel_push size h.tasks.like row.toLike
  have pairs := Table.rel_push (fun t t' ht => size t t' ht.1)
    (fun t t' ht => (h.tasks.pairs t t' ht).mono le) (row.mono le)
  refine ⟨P.addTask _ _ size, le, known, ?_⟩
  exact { h with
    reports := h.reports.imp_left le.strict
    kept := h.kept
    queue := List.rel_append (h.queue.imp fun _ _ => le.task) (.cons known.1 .nil)
    running := rel_mono h.running le.task
    tasks := {
      size := by
        simp only [World.spawn, Table.size_push]
        exact Pairing.size_insert size
      like := like
      pairs := fun t t' ht => pairs t t' (ht.1.imp_left fun old => ⟨old, ht.2⟩)
      secret := fun t ht => Nat.lt_of_lt_of_le (h.tasks.secret t ht) (by simp [World.spawn])
      stale := fun t ht => by
        obtain ⟨lt, alone⟩ := h.tasks.stale t ht
        refine ⟨Nat.lt_of_lt_of_le lt (by simp [World.spawn]), fun t' ht' => ?_⟩
        rcases ht'.1 with old | new
        · exact alone t' ⟨old, ht'.2⟩
        · exact Nat.ne_of_lt lt new.1
      stale' := fun t ht => by
        obtain ⟨lt, alone⟩ := h.tasks.stale' t ht
        refine ⟨Nat.lt_of_lt_of_le lt (by simp [World.spawn]), fun t' ht' => ?_⟩
        rcases ht'.1 with old | new
        · exact alone t' ⟨old, ht'.2⟩
        · exact Nat.ne_of_lt lt new.2
      total := fun total => by
        simp only [World.spawn, Table.size_push]
        exact Pairing.total_insert (h.tasks.total total) }
    runs := h.runs.mono le rfl
    visits := h.visits.mono le rfl
    interpreters := h.interpreters.mono le rfl
    host := fun r r' hr => le.task (h.host r r' ⟨hr.1, hr.2⟩)
    ready := fun t lone ht => List.mem_append_left _ (h.ready_mono le t lone ht)
    joiner := fun t lone fresh => by
      have old : t ≠ w.tasks.size := by
        rintro rfl
        exact lone _ known
      simp only [World.spawn, World.task_mk, Table.get_push, if_neg old]
      exact h.joiner_mono le t lone fresh
    left := (h.left_mono le fun _ _ => .inl).spawn x fun lone => lone _ known
    right := (h.right_mono le fun _ _ => .inl).spawn y fun lone => lone _ known }

/-- Runs that correspond are added, with hosts that do. -/
theorem pushRun (h : Mirrors P b b' w w') {x y : Run} (row : x.Pairs P y)
    (host : P.task x.host y.host) (plain : x.phase.visit? = none) :
    P.Grows fun Q => Q.live w.runs.size w'.runs.size ∧
      Mirrors Q b b' { w with runs := w.runs.push x } { w' with runs := w'.runs.push y } := by
  have size := h.runs.size
  have le := P.le_addRun size
  have live : (P.addRun _ _ size).live w.runs.size w'.runs.size :=
    ⟨.inr ⟨rfl, rfl⟩, fun lost => Nat.lt_irrefl _ (h.runs.lost _ lost).1⟩
  refine ⟨P.addRun _ _ size, le, live, ?_⟩
  exact { h with
    reports := h.reports.imp_left le.strict
    kept := h.kept
    tasks := h.tasks.mono le rfl
    runs := {
      size := by
        simp only [Table.size_push]
        exact Pairing.size_insert size
      pairs := Table.rel_push size (fun r r' hr => (h.runs.pairs r r' hr).mono le) (row.mono le)
      lost := fun r hr => by
        obtain ⟨lt, ended⟩ := h.runs.lost r hr
        rw [Table.size_push, Table.get_push, if_neg (Nat.ne_of_lt lt)]
        exact ⟨Nat.lt_succ_of_lt lt, ended⟩
      veiled := fun r hr => Table.size_push .. ▸ Nat.lt_succ_of_lt (h.runs.veiled r hr)
      -- The new run is in no visit yet.
      plain := fun r r' hr unveiled v hv => by
        rw [Table.get_push] at hv
        split at hv
        · rw [plain] at hv
          cases hv
        · next old =>
          exact h.runs.plain r r' (hr.resolve_right fun new => old new.1) unveiled v hv
      total := fun total => by
        simp only [Table.size_push]
        exact Pairing.total_insert (h.runs.total total) }
    visits := h.visits.mono le rfl
    interpreters := h.interpreters.mono le rfl
    host := fun r r' hr => by
      have hosts := Table.rel_push (S := fun y y' : Run => P.task y.host y'.host)
        (fun r r' hr => size r r' hr.1) (fun r r' hr => h.host r r' hr) host r r'
        (hr.1.imp_left fun old => ⟨old, hr.2⟩)
      exact hosts
    ready := h.ready_mono le
    joiner := h.joiner_mono le
    left := (h.left_mono le fun _ _ => .inl).of_eq rfl rfl
    right := (h.right_mono le fun _ _ => .inl).of_eq rfl rfl }

/-- Interpreters that correspond are added. -/
theorem pushInterpreter (h : Mirrors P b b' w w') {x y : Interpreter} (row : x.Pairs P y) :
    P.Grows fun Q => Q.interpreter w.interpreters.size w'.interpreters.size ∧
      Mirrors Q b b' { w with interpreters := w.interpreters.push x }
        { w' with interpreters := w'.interpreters.push y } := by
  have size := h.interpreters.size
  have le := P.le_addInterpreter size
  refine ⟨P.addInterpreter _ _ size, le, .inr ⟨rfl, rfl⟩, ?_⟩
  exact { h with
    reports := h.reports.imp_left le.strict
    names := fun i hi => .inl (h.names i hi)
    kept := h.kept
    tasks := h.tasks.mono le rfl
    runs := h.runs.mono le rfl
    visits := h.visits.mono le rfl
    interpreters := {
      size := by
        simp only [Table.size_push]
        exact Pairing.size_insert size
      pairs := Table.rel_push size (fun i i' hi => (h.interpreters.pairs i i' hi).mono le)
        (row.mono le)
      total := fun total => by
        simp only [Table.size_push]
        exact Pairing.total_insert (h.interpreters.total total) }
    ready := h.ready_mono le
    joiner := h.joiner_mono le
    left := (h.left_mono le fun _ _ => .inl).of_eq rfl rfl
    right := (h.right_mono le fun _ _ => .inl).of_eq rfl rfl }

/-- Visits that correspond are added. -/
theorem pushVisit (h : Mirrors P b b' w w') {x y : Visit} (row : x.Pairs P y) :
    P.Grows fun Q => Q.shared w.visits.size w'.visits.size ∧
      Mirrors Q b b' { w with visits := w.visits.push x }
        { w' with visits := w'.visits.push y } := by
  have size := h.visits.size
  have le := P.le_addVisit size
  have shared : (P.addVisit _ _ size).shared w.visits.size w'.visits.size :=
    ⟨.inr ⟨rfl, rfl⟩, fun hidden => Nat.lt_irrefl _ (h.visits.hidden _ hidden)⟩
  -- Nobody held a callback of either visit before.
  have pairs := Table.rel_push (fun v v' hv => size v v' hv.1)
    (fun v v' hv => (h.visits.pairs v v' hv).mono le) (row.mono le)
  refine ⟨P.addVisit _ _ size, le, shared, ?_⟩
  exact { h with
    reports := h.reports.imp_left le.strict
    kept := h.kept.imp fun _ _ hk => ⟨hk.1, le.shared hk.2⟩
    tasks := h.tasks.mono le rfl
    runs := h.runs.mono le rfl
    visits := {
      size := by
        simp only [Table.size_push]
        exact Pairing.size_insert size
      like := Table.rel_push size (fun v v' hv => (h.visits.like v v' hv).mono le)
        (row.toLike.mono le)
      pairs := fun v v' hv => pairs v v' (hv.1.imp_left fun old => ⟨old, hv.2⟩)
      hidden := fun v hv => Nat.lt_of_lt_of_le (h.visits.hidden v hv) (by simp)
      total := fun total => by
        simp only [Table.size_push]
        exact Pairing.total_insert (h.visits.total total) }
    interpreters := h.interpreters.mono le rfl
    ready := h.ready_mono le
    joiner := h.joiner_mono le
    left := (h.left_mono le fun v v' hv => hv.imp_right fun new => Nat.le_of_eq new.1.symm).pushVisit
      x fun far => far _ shared
    right := (h.right_mono le fun v v' hv => hv.imp_right fun new =>
      Nat.le_of_eq new.2.symm).pushVisit y fun far => far _ shared }

end Mirrors

end Statechart
