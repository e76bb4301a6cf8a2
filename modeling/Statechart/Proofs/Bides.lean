import Statechart.Proofs.Abreast
import Statechart.Proofs.Queueing

/-!
# Callers that bide their turn

A task that drives a run has ended, and the caller that waits for it is ready. Nobody but the two
knows of them, so the world goes on as if they were not there, and when the turn of the caller
comes it is told how the task has ended. No time goes by until then, but others may have their
turns first, and if one of them never ends, that of the caller never comes.

That nobody knows of the two is read off a comparison of the world with another one in which the
caller has no counterpart, for the world then mirrors itself without the caller.

## Main definitions

- `Pairing.inner`: the rows of a world that have counterparts in another one.
- `Bides`: a caller is ready, and the task that it waits for has ended.
- `World.Informs`: a caller is told how a task has ended, unless somebody keeps the turn for good.

## Main statements

- `Twins.bides`: a caller bides its turn when the task that it waits for has ended.
- `Bides.informs`: it is told how.
-/

namespace Statechart

/-! ## Definitions -/

/-- The rows of a world that have counterparts in another one correspond to themselves, and so does
one more task, which nobody knows of. -/
def Pairing.inner (Q : Pairing) (c : TaskId) : Pairing where
  secret t := Q.secret t ∨ t = c
  hidden := Q.hidden
  veiled := Q.veiled
  lost := Q.lost
  stale := Q.stale
  stale' := Q.stale
  total := False
  task t u := u = t ∧ ((∃ t', Q.task t t') ∨ t = c)
  run r q := q = r ∧ ∃ r', Q.run r r'
  visit v u := u = v ∧ ∃ v', Q.visit v v'
  interpreter i j := j = i ∧ ∃ i', Q.interpreter i i'
  order_task := by
    rintro t _ u _ ⟨rfl, -⟩ ⟨rfl, -⟩
    rfl
  unique_run := ⟨fun _ _ _ h h' => h.1.symm.trans h'.1, fun _ _ _ h h' => h.1.trans h'.1.symm⟩
  unique_visit := ⟨fun _ _ _ h h' => h.1.symm.trans h'.1, fun _ _ _ h h' => h.1.trans h'.1.symm⟩
  unique_interpreter :=
    ⟨fun _ _ _ h h' => h.1.symm.trans h'.1, fun _ _ _ h h' => h.1.trans h'.1.symm⟩

/-- A caller is ready, the task that it waits for has ended, and nobody knows of the two. -/
structure Bides (S : Pairing) (b w : World) (c u : TaskId) (i : InterpreterId) (rest : List Step)
    (τ : Nat) (fate : Fate) : Prop where
  twins : Twins S b b w w
  pair : S.task c c
  secret : ∀ t, S.secret t → t = c ∨ t = u
  hushed : S.secret c ∧ S.secret u
  unveiled : ∀ r, ¬ S.veiled r
  caller : (w.task c).core =
    { job := .control rest (.joining i u τ), wait := some (.time τ) }
  gone : (w.task u).fate = some fate
  ready : c ∈ w.queue
  away : w.running ≠ some c

/-- Before time goes on, a caller is told how the task has ended that it waits for, unless somebody
else keeps the turn for good while it waits still. -/
inductive World.Informs (w : World) (c : TaskId) (rest : List Step) (fate : Fate) : Prop where
  | told {x : World} (path : Relation.ReflTransGen (fun a b => a.step? = some b) w x)
      (turn : x.running = some c) (now : x.now = w.now)
      (answers : x.step? = some (x.answer c rest (World.answerOfFate fate)))
  | kept {x : World} {u : TaskId} (path : Relation.ReflTransGen (fun a b => a.step? = some b) w x)
      (waits : (x.task c).job = (w.task c).job) (other : u ≠ c)
      (kept : ∀ y, Relation.ReflTransGen (fun a b => a.step? = some b) x y → y.running = some u)

section

variable {P Q S : Pairing} {s : Scenario} {b b' w w' w₁ : World} {t t' c u : TaskId}
  {i : InterpreterId} {rest : List Step} {τ : Nat} {fate : Fate}

theorem Task.fate_of_core {x y : Task} (same : x.core = y.core) : x.fate = y.fate := by
  show x.core.fate = y.core.fate
  rw [same]

/-! ## Worlds without a caller -/

theorem Pairing.inner_diagonal (h : Mirrors Q b b' w w') (lt : c < w.tasks.size)
    (alone : ∀ t', ¬ Q.task c t') : Q.Diagonal (Q.inner c) w where
  stale ht := ⟨ht, ht⟩
  strict strict := ⟨strict.left, strict.left⟩
  -- Besides the tasks of the left world that have a counterpart, the caller is paired with itself.
  task ht := ⟨rfl, .inl ⟨_, ht⟩⟩
  known {t t'} ht := by
    refine ⟨⟨rfl, .inl ⟨t', ht.1⟩⟩, fun secret => secret.elim ht.2 ?_⟩
    rintro rfl
    exact alone t' ht.1
  run hr := ⟨rfl, _, hr⟩
  live hr := ⟨⟨rfl, _, hr.1⟩, hr.2⟩
  visit hv := ⟨rfl, _, hv⟩
  shared hv := ⟨⟨rfl, _, hv.1⟩, hv.2⟩
  interpreter hi := ⟨rfl, _, hi⟩
  eq_task := by
    rintro t u ⟨same, ⟨t', ht⟩ | rfl⟩
    · exact ⟨same, (h.tasks.size t t' ht).1⟩
    · exact ⟨same, lt⟩
  eq_run := id
  eq_visit := id
  eq_interpreter := id
  -- The caller is kept secret, so it is never among the tasks that are known.
  of_known ht := by
    obtain ⟨⟨-, pair⟩, open'⟩ := ht
    obtain ⟨t', ht⟩ := pair.resolve_right fun same => open' (.inr same)
    exact ⟨t', ht, fun secret => open' (.inl secret)⟩
  of_live hr := hr.1.2.imp fun _ pair => ⟨pair, hr.2⟩
  of_shared hv := hv.1.2.imp fun _ pair => ⟨pair, hv.2⟩
  of_secret := by
    rintro t (secret | rfl)
    · exact h.tasks.secret t secret
    · exact lt
  of_stale ht := ht.elim id id
  hidden := id
  lost := id
  veiled := .rfl
  total := False.elim

/-! ## The end of a task -/

/-- Tasks that are kept from all others end alike. -/
theorem Twins.bury (h : Twins P b b' w w') (pair : P.task t t') (secret : P.secret t)
    (fate : Fate) : Twins P b b' (w.bury t fate) (w'.bury t' fate) := by
  have running : Option.Rel P.task (if w.running = some t then none else w.running)
      (if w'.running = some t' then none else w'.running) := by
    simp only [← h.mirrors.running_iff pair]
    split
    · exact .none
    · exact h.running
  -- Whether the two were ready before is of no account.
  have idle : Mirrors P { w.dated b with queue := [] } (w'.dated b') w w' :=
    h.mirrors.anew { h.toSince with
      ready := fun _ _ hu => by cases hu
      left := ⟨h.left.task, h.left.visit, h.left.holds⟩ }
  have released : Twins P b b'
      { w with
        running := if w.running = some t then none else w.running, queue := w.queue.erase t }
      { w' with
        running := if w'.running = some t' then none else w'.running
        queue := w'.queue.erase t' } :=
    ((idle.turn running).unqueue pair fun _ _ hu => by cases hu).twins
  have like := h.mirrors.like pair
  exact Twins.next ((released.modifyTasks pair
    (f := fun x => { x with job := .script [], wait := none, guards := [], fate := some fate })
    (g := fun x => { x with job := .script [], wait := none, guards := [], fate := some fate })
    ⟨rfl, like.aborted, like.rewoken⟩ (fun known => absurd secret known.2)
    (fun _ v held => by simp [Task.holds, Task.isAlive] at held)
    fun _ v held => by simp [Task.holds, Task.isAlive] at held).mirrors.mark (.ended t fate)
      (.ended t' fate))

/-- A task that drives a run and holds nothing leaves a mark, and whoever waits for it hears of its
end. -/
theorem World.endTask_driver {job : Job} (task : (w.task u).core = { job })
    (joiner : (w.task u).joiner = some c) (fate : Fate) :
    w.endTask u fate = (w.bury u fate).wake c := by
  have guards : (w.task u).guards = [] := congrArg Task.guards task
  have reach : (w.task u).reach = {} := congrArg Task.reach task
  have route : (w.task u).route = none := congrArg Task.route task
  have home : (w.task u).home = none := congrArg Task.home task
  rw [endTask_eq, guards, reach, route, home, joiner]
  simp [logDrops, letGoAll, withdraw, tellHome, tellJoiner]

/-- Once a task has ended that drives a run, the caller that waits for it bides its turn. -/
theorem Twins.bides {job : Job} (h : Twins Q b b' w w') (turn : w.running = some u)
    (pair : Q.task u t') (secret : ∀ t, Q.secret t ↔ t = u) (unveiled : ∀ r, ¬ Q.veiled r)
    (alone : ∀ t', ¬ Q.task c t') (task : (w.task u).core = { job })
    (joiner : (w.task u).joiner = some c)
    (caller : (w.task c).core =
      { job := .control rest (.joining i u τ), wait := some (.time τ) }) (fate : Fate) :
    ∃ S, Bides S w (w.endTask u fate) c u i rest τ fate := by
  have other : c ≠ u := by
    rintro rfl
    exact alone t' pair
  have alive : (w.task c).isAlive = true := by
    have none : (w.task c).fate = none := congrArg Task.fate caller
    rw [Task.isAlive, none]
    rfl
  have lt := World.lt_size_of_isAlive alive
  -- The left world mirrors itself, with the caller for a task that has no counterpart.
  have mirrored := (h.mirrors.diagonal (Pairing.inner_diagonal h.mirrors lt alone)).twins
  have mine : (Q.inner c).task c c := ⟨rfl, .inr rfl⟩
  have driven : (Q.inner c).task u u := ⟨rfl, .inl ⟨t', pair⟩⟩
  have hushed : (Q.inner c).secret u := .inl ((secret u).2 rfl)
  have buried := mirrored.bury driven hushed fate
  have free : (w.bury u fate).running = none := by simp [World.bury, turn, World.mark, World.log,
    World.modifyTask]
  have core : ((w.bury u fate).task c).core = (w.task c).core := by
    simp [World.bury, World.mark, World.log, World.modifyTask, Table.get_modify, other]
  have alive' : ((w.bury u fate).task c).isAlive = true := by
    rw [Task.isAlive, Task.fate_of_core core]
    exact alive
  have woken : (w.bury u fate).wake c = (w.bury u fate).enqueue c := by
    simp [World.wake, alive', free]
  -- The task ends, and whoever joined it is woken.
  rw [World.endTask_driver task joiner]
  refine ⟨Q.inner c, ?_⟩
  exact {
    twins := Twins.next (buried.mirrors.wake mine)
    pair := mine
    secret := fun t ht => ht.symm.imp id (secret t).1
    hushed := ⟨.inr rfl, hushed⟩
    unveiled
    caller := by rw [woken, World.task_enqueue, core, caller]
    gone := by
      rw [woken, World.task_enqueue]
      simp [World.bury, World.mark, World.log, World.modifyTask]
    ready := woken ▸ World.mem_enqueue _ c
    away := by
      have still : ((w.bury u fate).enqueue c).running = none := by
        rw [← free]
        unfold World.enqueue
        split <;> rfl
      rw [woken, still]
      simp }

/-! ## The turn of the caller -/

namespace Bides

/-- The caller is not told to go. -/
theorem whole (h : Bides S b w c u i rest τ fate) : (w.task c).aborted = false :=
  congrArg Task.aborted h.caller

/-- Its turn does not begin while it stays in line. -/
theorem away_of_passes (h : Bides S b w c u i rest τ fate) (queued : Queued w)
    (passes : World.Passes c w w₁) : w₁.running ≠ some c := by
  have step := passes.step
  unfold World.step? at step
  -- Either another task has the turn and moves, or the first in line gets it.
  cases turn : w.running with
  | some t =>
    rw [turn] at step
    obtain rfl := Option.some.inj step
    have other : t ≠ c := fun same => h.away (same ▸ turn)
    rcases (Strokes.move (t := t) w).running with none | mine | same
    · simp [none]
    · simp [mine, other]
    · simp [same, turn, other]
  | none =>
    rw [turn] at step
    cases queue : w.queue with
    | nil =>
      have here := h.ready
      rw [queue] at here
      cases here
    | cons t rest =>
      rw [queue] at step
      obtain rfl := Option.some.inj step
      by_cases same : t = c
      · -- It would have left the line.
        subst same
        have once := queued.nodup
        rw [queue, List.nodup_cons] at once
        have ready' := passes.ready'
        rw [World.beginTurn_of_whole h.whole] at ready'
        replace ready' : t ∈ w.queue.erase t := ready'
        rw [queue, List.erase_cons_head] at ready'
        exact absurd ready' once.1
      · rcases (Strokes.beginTurn (t := t) w).running with none | mine | still
        · simp [none]
        · simp [mine, same]
        · simp [still, turn]

/-- Others have their turns, and the caller bides its own. -/
theorem passes (h : Bides S b w c u i rest τ fate) (queued : Queued w)
    (passes : World.Passes c w w₁) :
    ∃ Q, Bides Q b w₁ c u i rest τ fate ∧ w₁.now = w.now := by
  -- The caller and the task that it waits for are the only secrets: the one does not have the turn,
  -- and the other is gone.
  have dead : (w.task u).isAlive = false := by
    rw [Task.isAlive, h.gone]
    rfl
  have known {t t' : TaskId} (pair : S.task t t') (caller : t ≠ c)
      (alive : (w.task t).isAlive = true) : S.known t t' := by
    refine ⟨pair, fun secret => (h.secret t secret).elim caller ?_⟩
    rintro rfl
    rw [dead] at alive
    cases alive
  obtain ⟨Q, x, x', step, step', a, still, -⟩ := h.twins.step? h.unveiled
    (fun t t' turn pair => known pair (fun same => h.away (same ▸ turn)) (queued.turn t turn))
    (fun t t' _ ready aborted pair =>
      known pair (fun same => by rw [same, h.whole] at aborted; cases aborted)
        (queued.ready t ready))
    fun _ queue => absurd h.ready (by simp [queue])
  obtain rfl := Option.some.inj (passes.step.symm.trans step)
  obtain rfl := Option.some.inj (passes.step.symm.trans step')
  -- Nobody else touches what is kept secret.
  have lone {t : TaskId} (secret : S.secret t) : Q.Lone t := fun _ known =>
    known.2 (a.le.secret ▸ secret)
  refine ⟨Q, ?_, still (List.ne_nil_of_mem h.ready)⟩
  exact {
    twins := a.twins
    pair := a.le.task h.pair
    secret := fun t ht => h.secret t (a.le.secret ▸ ht)
    hushed := a.le.secret ▸ h.hushed
    unveiled := a.le.veiled ▸ h.unveiled
    caller := (a.left c (lone h.hushed.1)).trans h.caller
    gone := (Task.fate_of_core (a.left u (lone h.hushed.2))).trans h.gone
    ready := passes.ready'
    away := h.away_of_passes queued passes }

/-- However many others have their turns first. -/
theorem path (h : Bides S b w c u i rest τ fate) (reached : s.Reaches w)
    (path : Relation.ReflTransGen (World.Passes c) w w₁) :
    (∃ Q, Bides Q b w₁ c u i rest τ fate) ∧ w₁.now = w.now ∧ s.Reaches w₁ ∧
      Relation.ReflTransGen (fun a b => a.step? = some b) w w₁ := by
  induction path with
  | refl => exact ⟨⟨S, h⟩, rfl, reached, .refl⟩
  | tail _ passes ih =>
    obtain ⟨⟨Q, h₁⟩, now, reached₁, steps⟩ := ih
    obtain ⟨Q', h₂, still⟩ := h₁.passes reached₁.sound.toQueued passes
    exact ⟨⟨Q', h₂⟩, still.trans now, reached₁.tail (.of_step? passes.step),
      steps.tail passes.step⟩

/-- When the turn of the caller comes, it is told how the task has ended. -/
theorem informs (h : Bides S b w c u i rest τ fate) (reached : s.Reaches w)
    (free : w.running = none) : w.Informs c rest fate := by
  obtain ⟨n, line⟩ := World.exists_inLine h.ready
  cases line.comes free with
  | kept path kept =>
    obtain ⟨⟨Q, h₁⟩, -, -, steps⟩ := h.path reached path
    have waits := (congrArg Task.job h₁.caller).trans (congrArg Task.job h.caller).symm
    refine .kept steps waits ?_ kept
    rintro rfl
    exact h₁.away (kept _ .refl)
  | @comes x others path free next =>
    obtain ⟨⟨Q, h₁⟩, now, -, steps⟩ := h.path reached path
    have begins : x.step? = some (x.beginTurn c) := by rw [World.step?, free, next]
    have taken := World.beginTurn_of_whole h₁.whole
    have job : ((x.beginTurn c).task c).job = .control rest (.joining i u τ) := by
      rw [taken]
      exact congrArg Task.job h₁.caller
    have gone : ((x.beginTurn c).task u).fate = some fate := by
      rw [taken]
      exact h₁.gone
    have turn : (x.beginTurn c).running = some c := by rw [taken]
    refine .told (steps.tail begins) turn ?_ ?_
    · rw [← now, taken]
      rfl
    · simp only [World.step?, turn, World.move, job, World.moveControl, World.moveJoining, gone]

end Bides

end

end Statechart
