import Statechart.Proofs.Callbacks
import Statechart.Proofs.Mirrors

/-!
# Scripts in worlds that mirror each other

What scripts do keeps worlds mirrored: waking and cancelling, raising events, starting and stopping
interpreters, and running to an end. New tasks and runs are added to the pairing.

## Main definitions

- `MirrorsWith`: worlds that mirror each other, with the same value.
- `MirrorsFrame`: how scripts that ran to their end leave mirrored worlds.

## Main statements

- `Mirrors.raise`: an event is accepted in both worlds or in neither.
- `Mirrors.perform`: what a command does.
- `Mirrors.runScript`: scripts run to the same end.
- `Mirrors.runPhrase`, `Mirrors.notifyChange`, `Mirrors.notifyDone`: so do chains and handlers.
-/

namespace Statechart

theorem Table.modify_push {α : Type} [Inhabited α] (t : Table α) (a : α) (f : α → α) :
    (t.push a).modify t.size f = t.push (f a) := by
  refine ext_get ?_ fun i => ?_
  · rw [size_modify, size_push, size_push]
    omega
  · rw [get_modify, get_push, get_push]
    split <;> rfl

/-- The task of a new run in the background can be added before the run. -/
theorem World.startNew_eq (w : World) (i : InterpreterId) (s : State) :
    w.startNew i s =
      (((w.spawn { job := .script [] }).takeSlot i w.tasks.size s).modifyTask w.tasks.size fun x =>
        { x with job := .drive w.runs.size none }) := by
  simp [startNew, takeSlot, spawn, modifyTask, modifyInterpreter, mark, log, Table.modify_push]

/-- Two worlds mirror each other, and the values that come with them are the same. -/
structure MirrorsWith {α : Type} (P : Pairing) (b b' : World) (x x' : World × α) : Prop where
  world : Mirrors P b b' x.1 x'.1
  value : x'.2 = x.2

/-- Results that mirror each other are worlds that do, with one value. -/
theorem MirrorsWith.exists_eq {α : Type} {P : Pairing} {b b' : World} {x x' : World × α}
    (h : MirrorsWith P b b' x x') :
    ∃ w w' a, x = (w, a) ∧ x' = (w', a) ∧ Mirrors P b b' w w' :=
  ⟨x.1, x'.1, x.2, rfl, by rw [← h.value], h.world⟩

/-! ## Options that correspond -/

theorem rel_eq_some {R R₀ : Nat → Nat → Prop} (unique : Relator.BiUnique R₀)
    (le : ∀ {a a'}, R a a' → R₀ a a') {x x' : Option Nat} (h : Option.Rel R x x') {a a' : Nat}
    (ha : R₀ a a') : x = some a ↔ x' = some a' := by
  cases h with
  | none => simp
  | some hx => simpa using Relator.rel_eq unique (le hx) ha

theorem rel_isSome {α β : Type} {R : α → β → Prop} {x : Option α} {x' : Option β}
    (h : Option.Rel R x x') : x'.isSome = x.isSome := by
  cases h <;> rfl

theorem rel_toList {α β : Type} {R : α → β → Prop} {x : Option α} {x' : Option β}
    (h : Option.Rel R x x') : List.Forall₂ R x.toList x'.toList := by
  cases h with
  | none => exact .nil
  | some h => exact .cons h .nil

theorem rel_map {α β γ : Type} {R : α → β → Prop} {x : Option α} {x' : Option β}
    (h : Option.Rel R x x') {f : α → γ} {g : β → γ} (same : ∀ {a a'}, R a a' → g a' = f a) :
    x'.map g = x.map f := by
  cases h with
  | none => rfl
  | some h => exact congrArg some (same h)

section

variable {P : Pairing} {v v' : VisitId}

/-- Tasks that correspond hold clones of callbacks that do. -/
theorem Task.Pairs.holds {x x' : Task} (h : x.Pairs P x') (hv : P.shared v v') :
    x'.holds v' = x.holds v := by
  have callback : x.reach.callback = some v ↔ x'.reach.callback = some v' :=
    rel_eq_some P.unique_visit And.left h.reach.callback hv.1
  have route : x'.route.any (fun r => r.visit = v') = x.route.any fun r => r.visit = v := by
    have := h.route
    generalize x.route = y, x'.route = y' at this
    cases this with
    | none => rfl
    | some hr => simp [P.visit_iff hr.visit.1 hv.1]
  simp only [Task.holds, Task.isAlive, h.fate, route, callback]

/-- The tokens of reaches that correspond do. -/
theorem Reach.Pairs.token? {x x' : Reach} (h : x.Pairs P x') :
    Option.Rel (Token.Pairs P) x.token? x'.token? := by
  have action := h.action
  have callback := h.callback
  unfold Reach.token?
  generalize x.action = y, x'.action = y' at action
  cases action with
  | some hv => exact .some (.action hv)
  | none =>
    generalize x.callback = y, x'.callback = y' at callback
    cases callback with
    | some hv => exact .some (.scope hv.1)
    | none => exact .none

theorem Token.Pairs.visit {k k' : Token} (h : k.Pairs P k') : P.visit k.visit k'.visit := by
  cases h with
  | scope h => exact h
  | action h => exact h

end

namespace Mirrors

variable {P : Pairing} {b b' w w' : World} {t t' : TaskId} {r r' : RunId} {v v' : VisitId}
  {i i' : InterpreterId}

/-! ## Waking tasks -/

theorem wake (h : Mirrors P b b' w w') (ht : P.task t t') :
    Mirrors P b b' (w.wake t) (w'.wake t') := by
  simp only [World.wake, h.isAlive ht, ← h.running_iff ht]
  split
  · exact h
  · split
    · exact h.rewake ht true
    · exact h.enqueue ht

theorem wakeAll (h : Mirrors P b b' w w') {ts ts' : List TaskId}
    (hts : List.Forall₂ P.task ts ts') : Mirrors P b b' (w.wakeAll ts) (w'.wakeAll ts') := by
  unfold World.wakeAll
  induction hts generalizing w w' with
  | nil => exact h
  | cons ht hts ih => exact ih (h.wake ht)

theorem park (h : Mirrors P b b' w w') (ht : P.task t t') :
    Mirrors P b b' (w.park t) (w'.park t') := by
  have parked := (h.rewake ht false).turn .none
  simp only [World.park, (h.like ht).rewoken]
  split
  · exact parked.enqueue ht
  · exact parked

theorem abort (h : Mirrors P b b' w w') (ht : P.known t t') :
    Mirrors P b b' (w.abort t) (w'.abort t') := by
  simp only [World.abort, h.isAlive ht.1, (h.like ht.1).aborted]
  split
  · exact h
  · exact (h.modifyTask ht { h.task ht with aborted := rfl }).enqueue ht.1

theorem abortAll (h : Mirrors P b b' w w') {ts ts' : List TaskId}
    (hts : List.Forall₂ P.known ts ts') :
    Mirrors P b b' (ts.foldl World.abort w) (ts'.foldl World.abort w') := by
  induction hts generalizing w w' with
  | nil => exact h
  | cons ht hts ih => exact ih (h.abort ht)

/-! ## Tokens -/

theorem isCancelled (h : Mirrors P b b' w w') (hv : P.visit v v') :
    w'.isCancelled v' = w.isCancelled v := by
  simp only [World.isCancelled, (h.visitLike hv).torn, (h.runOf hv).cancelled]

/-- Other tasks wait for the tokens of a visit. -/
theorem rewait (h : Mirrors P b b' w w') (hv : P.visit v v') (s s' a a' : Visit → List TaskId)
    (scope : List.Forall₂ P.task (s (w.visit v)) (s' (w'.visit v')))
    (action : List.Forall₂ P.task (a (w.visit v)) (a' (w'.visit v'))) :
    Mirrors P b b'
      (w.modifyVisit v fun x => { x with scopeWaiters := s x, actionWaiters := a x })
      (w'.modifyVisit v' fun x => { x with scopeWaiters := s' x, actionWaiters := a' x }) :=
  h.modifyVisits hv { h.visitLike hv with scopeWaiters := scope, actionWaiters := action }
    (fun shared => { h.visit shared with scopeWaiters := scope, actionWaiters := action })
    (fun _ => rfl) fun _ => rfl

theorem register (h : Mirrors P b b' w w') {k k' : Token} (hk : k.Pairs P k')
    (ht : P.task t t') : Mirrors P b b' (w.register k t) (w'.register k' t') := by
  cases hk with
  | scope hv =>
    have row := h.visitLike hv
    exact h.rewait hv (fun x => x.scopeWaiters ++ [t]) (fun x => x.scopeWaiters ++ [t'])
      Visit.actionWaiters Visit.actionWaiters (List.rel_append row.scopeWaiters (.cons ht .nil))
      row.actionWaiters
  | action hv =>
    have row := h.visitLike hv
    exact h.rewait hv Visit.scopeWaiters Visit.scopeWaiters (fun x => x.actionWaiters ++ [t])
      (fun x => x.actionWaiters ++ [t']) row.scopeWaiters
      (List.rel_append row.actionWaiters (.cons ht .nil))

theorem deregister (h : Mirrors P b b' w w') {k k' : Token} (hk : k.Pairs P k')
    (ht : P.task t t') : Mirrors P b b' (w.deregister k t) (w'.deregister k' t') := by
  cases hk with
  | scope hv =>
    have row := h.visitLike hv
    exact h.rewait hv (fun x => x.scopeWaiters.erase t) (fun x => x.scopeWaiters.erase t')
      Visit.actionWaiters Visit.actionWaiters (forall₂_erase P.unique_task ht row.scopeWaiters)
      row.actionWaiters
  | action hv =>
    have row := h.visitLike hv
    exact h.rewait hv Visit.scopeWaiters Visit.scopeWaiters (fun x => x.actionWaiters.erase t)
      (fun x => x.actionWaiters.erase t') row.scopeWaiters
      (forall₂_erase P.unique_task ht row.actionWaiters)

theorem clearWaiters (h : Mirrors P b b' w w') (hv : P.visit v v') :
    Mirrors P b b' (w.clearWaiters v) (w'.clearWaiters v') :=
  h.rewait hv (fun _ => []) (fun _ => []) (fun _ => []) (fun _ => []) .nil .nil

theorem tearScope (h : Mirrors P b b' w w') (hv : P.shared v v') :
    Mirrors P b b' (w.tearScope v) (w'.tearScope v') := by
  have row := h.visit hv
  have cleared := h.clearWaiters hv.1
  have torn := cleared.modifyVisit hv (f := fun x => { x with torn := true })
    (g := fun x => { x with torn := true }) { cleared.visit hv with torn := rfl }
  exact (torn.wakeAll row.actionWaiters).wakeAll row.scopeWaiters

theorem cancelRun (h : Mirrors P b b' w w') (hr : P.run r r') :
    Mirrors P b b' (w.cancelRun r) (w'.cancelRun r') := by
  have row := h.run hr
  have stopped := h.modifyRun hr (f := fun x => { x with cancelled := true })
    (g := fun x => { x with cancelled := true }) { row with cancelled := rfl } rfl rfl
    (fun lost => (h.runs.lost r lost).2) (h.runs.plain r r' hr)
  have same (w : World) (r : RunId) :
      ((w.modifyRun r fun x => { x with cancelled := true }).run r).phase = (w.run r).phase := by
    rw [World.run_modifyRun, if_pos rfl]
  have host (w : World) (r : RunId) :
      ((w.modifyRun r fun x => { x with cancelled := true }).run r).host = (w.run r).host := by
    rw [World.run_modifyRun, if_pos rfl]
  simp only [World.cancelRun, row.cancelled, same, host]
  split
  · exact h
  · have phase := row.phase
    have going : (w.run r).phase ≠ .ended → ¬ P.lost r := fun going lost =>
      going (h.runs.lost r lost).2
    generalize (w.run r).phase = p, (w'.run r').phase = p' at phase going
    cases phase with
    | waiting hv =>
      have visit := stopped.visitLike hv
      exact (((stopped.clearWaiters hv).wakeAll visit.scopeWaiters).wakeAll
        visit.actionWaiters).wake (h.host r r' ⟨hr, going (by simp)⟩)
    | begun | arriving | draining | ended => exact stopped

/-! ## Clones of callbacks -/

theorem isHeld (h : Mirrors P b b' w w') (hv : P.shared v v') : w'.isHeld v' = w.isHeld v := by
  have kept : (∃ k ∈ w'.kept, k.2 = v') ↔ ∃ k ∈ w.kept, k.2 = v := by
    have all := h.kept
    generalize w.kept = ks, w'.kept = ks' at all
    induction all with
    | nil => simp
    | cons hk _ ih => simp only [List.exists_mem_cons_iff, ih, P.visit_iff hk.2.1 hv.1]
  rw [Bool.eq_iff_iff, World.isHeld_iff, World.isHeld_iff, kept]
  refine or_congr_left ⟨?_, ?_⟩
  · rintro ⟨t', held⟩
    by_cases known : ∃ t, P.known t t'
    · obtain ⟨t, known⟩ := known
      exact ⟨t, (h.task known).holds hv ▸ held⟩
    · exact absurd hv ((h.right.holds t' (fun t ht => known ⟨t, ht⟩) v' held).2 v)
  · rintro ⟨t, held⟩
    by_cases known : ∃ t', P.known t t'
    · obtain ⟨t', known⟩ := known
      exact ⟨t', ((h.task known).holds hv).trans held⟩
    · exact absurd hv ((h.left.holds t (fun t' ht => known ⟨t', ht⟩) v held).2 v')

theorem notifyInbox (h : Mirrors P b b' w w') (hv : P.shared v v') :
    Mirrors P b b' (w.notifyInbox v) (w'.notifyInbox v') := by
  have row := h.visit hv
  simp only [World.notifyInbox, row.listening]
  split
  · exact (h.modifyVisit hv { row with listening := rfl }).wake (h.hostOf hv.1)
  · exact h

theorem letGo (h : Mirrors P b b' w w') (hv : P.shared v v') :
    Mirrors P b b' (w.letGo v) (w'.letGo v') := by
  simp only [World.letGo, h.isHeld hv]
  split
  · exact h
  · exact h.notifyInbox hv

theorem letGoAll (h : Mirrors P b b' w w') {vs vs' : List VisitId}
    (hvs : List.Forall₂ P.shared vs vs') : Mirrors P b b' (w.letGoAll vs) (w'.letGoAll vs') := by
  unfold World.letGoAll
  induction hvs generalizing w w' with
  | nil => exact h
  | cons hv hvs ih => exact ih (h.letGo hv)

/-! ## Raising events -/

theorem raise (h : Mirrors P b b' w w') (hv : P.shared v v') (d : Decision) :
    MirrorsWith P b b' (w.raise v d) (w'.raise v' d) := by
  have row := h.visit hv
  simp only [World.raise, row.state, row.fired, row.closed]
  split
  · exact ⟨(h.trace _).mark _ _, rfl⟩
  · split
    · exact ⟨(h.trace _).mark _ _, rfl⟩
    · split
      · exact ⟨((h.modifyVisit hv { row with fired := rfl }).trace _).mark _ _, rfl⟩
      · exact ⟨((((h.modifyVisit hv { row with fired := rfl, inbox := rfl }).notifyInbox
          hv).trace _).mark _ _), rfl⟩

theorem raiseThrough (h : Mirrors P b b' w w') {c c' : Option VisitId}
    (hc : Option.Rel P.shared c c') (d : Decision) :
    MirrorsWith P b b' (w.raiseThrough c d) (w'.raiseThrough c' d) := by
  cases hc with
  | none => exact ⟨h, rfl⟩
  | some hv =>
    have raised := h.raise hv d
    exact ⟨raised.world, congrArg some raised.value⟩

theorem raiseEvent (h : Mirrors P b b' w w') {c c' : Option VisitId}
    (hc : Option.Rel P.shared c c') (event : String) :
    Mirrors P b b' (w.raiseEvent c event) (w'.raiseEvent c' event) := by
  have raised := h.raiseThrough hc ⟨.named event, none⟩
  have logged := raised.world.log (.raise event (w.raiseThrough c ⟨.named event, none⟩).2)
  simp only [World.raiseEvent, raised.value]
  exact logged

theorem raiseFault (h : Mirrors P b b' w w') {c c' : Option VisitId}
    (hc : Option.Rel P.shared c c') (event : String) (fault : Fault) :
    Mirrors P b b' (w.raiseFault c event fault) (w'.raiseFault c' event fault) := by
  have raised := h.raiseThrough hc ⟨.named event, some fault⟩
  have logged := raised.world.log
    (.raiseFault event (w.raiseThrough c ⟨.named event, some fault⟩).2)
  simp only [World.raiseFault, raised.value]
  exact logged

theorem callbackDebug (h : Mirrors P b b' w w') (hv : P.shared v v') :
    w'.callbackDebug v' = w.callbackDebug v := by
  simp only [World.callbackDebug, (h.visit hv).state, (h.visit hv).fired]

/-! ## Slots of scripts -/

theorem keptIn (h : Mirrors P b b' w w') (slot : String) :
    Option.Rel P.shared (w.keptIn slot) (w'.keptIn slot) := by
  have kept := h.kept
  unfold World.keptIn
  generalize w.kept = ks, w'.kept = ks' at kept
  induction kept with
  | nil => exact .none
  | @cons k k' ks ks' hk _ ih =>
    obtain ⟨name, v⟩ := k
    obtain ⟨name', v'⟩ := k'
    obtain ⟨rfl, hv⟩ := hk
    simp only [List.lookup_cons]
    split
    · exact .some hv
    · exact ih

theorem erased (h : Mirrors P b b' w w') (slot : String) :
    List.Forall₂ (fun k k' => k'.1 = k.1 ∧ P.shared k.2 k'.2)
      (w.kept.eraseP (·.1 = slot)) (w'.kept.eraseP (·.1 = slot)) := by
  have kept := h.kept
  generalize w.kept = ks, w'.kept = ks' at kept
  induction kept with
  | nil => exact .nil
  | @cons k k' ks ks' hk rest ih =>
    simp only [List.eraseP_cons, hk.1]
    cases decide (k.1 = slot) with
    | true => exact rest
    | false => exact .cons hk ih

theorem emptySlot (h : Mirrors P b b' w w') (slot : String) :
    Mirrors P b b' (w.emptySlot slot) (w'.emptySlot slot) :=
  (h.setKept (h.erased slot)).letGoAll (rel_toList (h.keptIn slot))

theorem keep (h : Mirrors P b b' w w') (slot : String) (hv : P.shared v v') :
    Mirrors P b b' (w.keep slot v) (w'.keep slot v') :=
  (h.setKept (.cons (a := (slot, v)) (b := (slot, v')) ⟨rfl, hv⟩ (h.erased slot))).letGoAll
    (rel_toList (h.keptIn slot))

theorem valueOf (h : Mirrors P b b' w w') (name : String) : w'.valueOf name = w.valueOf name := by
  simp only [World.valueOf, h.values]

theorem setVariable (h : Mirrors P b b' w w') (name : String) (value : Int) :
    Mirrors P b b' (w.setVariable name value) (w'.setVariable name value) := by
  simp only [World.setVariable, h.values]
  exact h.setValues _

theorem shownKept (h : Mirrors P b b' w w') (hv : P.shared v v') :
    w'.shownKept v' = w.shownKept v := by
  simp only [World.shownKept, (h.visit hv).state, (h.visit hv).fired, h.isCancelled hv.1]

/-! ## Interpreters -/

theorem startState (h : Mirrors P b b' w w') (hi : P.interpreter i i') :
    (w'.interpreter i').startState = (w.interpreter i).startState := by
  have row := h.interpreter hi
  simp only [Interpreter.startState, row.machine, rel_isSome row.slot]

theorem machineOf (h : Mirrors P b b' w w') (hr : P.run r r') : w'.machineOf r' = w.machineOf r :=
  (h.interpreter (h.run hr).interpreter).machine

theorem forceStop (h : Mirrors P b b' w w') (hi : P.interpreter i i') :
    Mirrors P b b' (w.forceStop i) (w'.forceStop i') := by
  have row := h.interpreter hi
  have slot := row.slot
  simp only [World.forceStop, row.machine]
  generalize (w.interpreter i).slot = x, (w'.interpreter i').slot = x' at slot
  cases slot with
  | none => exact h
  | some hr => exact ((h.trace _).mark _ _).cancelRun hr

/-- The slot is taken for a run that is in the pairing already. -/
theorem fillSlot (h : Mirrors P b b' w w') (hi : P.interpreter i i') (hr : P.run r r') :
    Mirrors P b b'
      (w.modifyInterpreter i fun x =>
        { x with slot := some r, status := .running, history := x.history.clear })
      (w'.modifyInterpreter i' fun x =>
        { x with slot := some r', status := .running, history := x.history.clear }) :=
  have row := h.interpreter hi
  h.modifyInterpreter hi { row with
    slot := .some hr
    status := rfl
    history := congrArg Window.clear row.history }

/-- The slots of interpreters are taken for a new run that a task will drive. -/
theorem takeSlot (h : Mirrors P b b' w w') (hi : P.interpreter i i') (ht : P.task t t')
    (s : State) :
    P.Grows fun Q => Q.live w.runs.size w'.runs.size ∧
      Mirrors Q b b' (w.takeSlot i t s) (w'.takeSlot i' t' s) := by
  refine (h.pushRun (x := { interpreter := i, host := t, phase := .begun s })
    (y := { interpreter := i', host := t', phase := .begun s })
    ⟨hi, rfl, .begun s⟩ ht rfl).map fun Q le new => ?_
  obtain ⟨hr, pushed⟩ := new
  exact ⟨hr, (pushed.fillSlot (le.interpreter hi) hr.1).mark _ _⟩

theorem setHandle (h : Mirrors P b b' w w') (hi : P.interpreter i i') (ht : P.known t t') :
    Mirrors P b b' (w.setHandle i t) (w'.setHandle i' t') := by
  have store {w w' : World} (h : Mirrors P b b' w w') :
      Mirrors P b b' (w.modifyInterpreter i fun x => { x with handle := some t })
        (w'.modifyInterpreter i' fun x => { x with handle := some t' }) :=
    h.modifyInterpreter hi { h.interpreter hi with handle := .inl (.some ht) }
  have ties := (h.interpreter hi).handle
  unfold World.setHandle
  generalize (w.interpreter i).handle = x, (w'.interpreter i').handle = x' at ties
  rcases ties with ties | ⟨stale, stale'⟩
  · cases ties with
    | none => exact store h
    | some hu => exact store (h.modifyTask hu { h.task hu with joiner := .none })
  · -- Whoever was stored before has no counterpart, and nobody waits for it.
    cases x with
    | none =>
      cases x' with
      | none => exact store h
      | some old' => exact store (h.unjoinRight (stale' old' rfl))
    | some old =>
      have left := h.unjoinLeft (stale old rfl)
      cases x' with
      | none => exact store left
      | some old' => exact store (left.unjoinRight (stale' old' rfl))

/-- A run that is started in the background and the task that drives it are new, and refer to each
other. -/
theorem startNew (h : Mirrors P b b' w w') (hi : P.interpreter i i') (s : State) :
    P.Grows fun Q => Q.known w.tasks.size w'.tasks.size ∧
      Mirrors Q b b' (w.startNew i s) (w'.startNew i' s) := by
  refine (h.spawn (x := { job := .script [] }) (y := { job := .script [] })
    { fate := rfl, aborted := rfl, rewoken := rfl, guards := rfl, job := .script []
      reach := ⟨.none, .none⟩, home := .none, route := .none, wait := .none
      joiner := .none }).bind fun Q le new => ?_
  obtain ⟨ht, spawned⟩ := new
  refine (spawned.takeSlot (le.interpreter hi) ht.1 s).map fun Q' le' new' => ?_
  obtain ⟨hr, begun⟩ := new'
  have ht' := le'.known ht
  refine ⟨ht', ?_⟩
  rw [World.startNew_eq, World.startNew_eq]
  exact begun.modifyTask ht' { begun.task ht' with job := .drive hr .none }

theorem startInBackground (h : Mirrors P b b' w w') (hi : P.interpreter i i') :
    (∃ e, w.startInBackground i = .error e ∧ w'.startInBackground i' = .error e) ∨
    ∃ w₁ w₁', w.startInBackground i = .ok w₁ ∧ w'.startInBackground i' = .ok w₁' ∧
      P.Grows fun Q => Mirrors Q b b' w₁ w₁' := by
  have same := h.startState hi
  simp only [World.startInBackground, World.begin, same]
  cases (w.interpreter i).startState with
  | error e => exact .inl ⟨e, rfl, rfl⟩
  | ok s =>
    refine .inr ⟨_, _, rfl, rfl, (h.startNew hi s).map fun Q le new => ?_⟩
    exact new.2.setHandle (le.interpreter hi) new.1

theorem startAndLog (h : Mirrors P b b' w w') (hi : P.interpreter i i') :
    P.Grows fun Q => Mirrors Q b b' (w.startAndLog i) (w'.startAndLog i') := by
  unfold World.startAndLog
  rcases h.startInBackground hi with ⟨e, started, started'⟩ | ⟨w₁, w₁', started, started', grown⟩
  · rw [started, started']
    exact .pure (h.log _)
  · rw [started, started']
    exact grown.map fun Q _ h => h.log _

theorem withNamed (h : Mirrors P b b' w w') (n : Nat) {f g : InterpreterId → World}
    (each : ∀ i, P.interpreter i i → P.Grows fun Q => Mirrors Q b b' (f i) (g i)) :
    P.Grows fun Q => Mirrors Q b b' (w.withNamed n f) (w'.withNamed n g) := by
  simp only [World.withNamed, World.named?, h.named]
  split
  · next i named =>
    split at named
    · next known =>
      obtain rfl := Option.some.inj named
      exact each n (h.names n known)
    · cases named
  · exact .pure h

theorem observe (h : Mirrors P b b' w w') (n : Nat) (o : Observer Script) :
    P.Grows fun Q => Mirrors Q b b' (w.observe n o) (w'.observe n o) := by
  refine h.withNamed n fun i hi => .pure (h.modifyInterpreter hi ?_)
  have row := h.interpreter hi
  exact { row with
    changeHandlers := by simp only [Interpreter.observe, row.changeHandlers]
    doneHandlers := by simp only [Interpreter.observe, row.doneHandlers] }

theorem limitHistory (h : Mirrors P b b' w w') (hi : P.interpreter i i') (limit : Nat) :
    Mirrors P b b' (w.limitHistory i limit) (w'.limitHistory i' limit) := by
  have row := h.interpreter hi
  refine (h.modifyInterpreter hi ?_).mark _ _
  exact { row with history := congrArg (Window.setLimit · limit) row.history }

/-! ## Commands -/

theorem perform (h : Mirrors P b b' w w') {x x' : Reach} (reach : x.Pairs P x') (c : Command) :
    P.Grows fun Q => Mirrors Q b b' (w.perform x c) (w'.perform x' c) := by
  have callback := reach.callback
  cases c with
  | log label => exact .pure (h.log _)
  | add name amount =>
    simp only [World.perform, h.valueOf]
    exact .pure (h.setVariable ..)
  | assign name value => exact .pure (h.setVariable ..)
  | showVariable name =>
    simp only [World.perform, h.valueOf]
    exact .pure (h.log _)
  | stop i => exact h.withNamed i fun i hi => .pure (h.forceStop hi)
  | start i => exact h.withNamed i fun i hi => h.startAndLog hi
  | showStatus i =>
    refine h.withNamed i fun i hi => ?_
    have row := h.interpreter hi
    simp only [row.status, Interpreter.isRunning, rel_isSome row.slot]
    exact .pure (h.log _)
  | showPath i =>
    refine h.withNamed i fun i hi => ?_
    simp only [Interpreter.path, (h.interpreter hi).history]
    exact .pure (h.log _)
  | limitHistory i limit => exact h.withNamed i fun i hi => .pure (h.limitHistory hi limit)
  | raise event => exact .pure (h.raiseEvent callback event)
  | raiseFault event fault => exact .pure (h.raiseFault callback event fault)
  | showFired =>
    simp only [World.perform, rel_map callback fun hv => (h.visit hv).fired]
    exact .pure (h.log _)
  | showState =>
    simp only [World.perform, rel_map callback fun hv => congrArg State.id (h.visit hv).state]
    exact .pure (h.log _)
  | showCallback =>
    simp only [World.perform, rel_map callback h.callbackDebug]
    exact .pure (h.log _)
  | keep slot =>
    simp only [World.perform]
    generalize x.callback = y, x'.callback = y' at callback
    cases callback with
    | none => exact .pure h
    | some hv => exact .pure (h.keep slot hv)
  | showCancelled =>
    simp only [World.perform, rel_map reach.token? fun hk => h.isCancelled hk.visit]
    exact .pure (h.log _)
  | release slot =>
    simp only [World.perform, rel_isSome (h.keptIn slot)]
    exact .pure ((h.emptySlot slot).log _)
  | raiseKept slot event => exact .pure (h.raiseEvent (h.keptIn slot) event)
  | raiseKeptFault slot event fault => exact .pure (h.raiseFault (h.keptIn slot) event fault)
  | showKept slot =>
    simp only [World.perform, rel_map (h.keptIn slot) h.shownKept]
    exact .pure (h.log _)
  | unknown name => exact .pure (h.log _)

theorem detach (h : Mirrors P b b' w w') {x x' : Reach} (reach : x.Pairs P x') (body : Script) :
    P.Grows fun Q => Mirrors Q b b' (w.detach x body) (w'.detach x' body) :=
  (h.spawn (x := { job := .script body, reach := x }) (y := { job := .script body, reach := x' })
    { fate := rfl, aborted := rfl, rewoken := rfl, guards := rfl, job := .script body, reach,
      home := .none, route := .none, wait := .none, joiner := .none }).map fun _ _ new => new.2

end Mirrors

/-! ## Scripts -/

/-- Frames that correspond. -/
structure World.Frame.Pairs (P : Pairing) (f g : World.Frame) : Prop where
  reach : f.reach.Pairs P g.reach
  guards : g.guards = f.guards

theorem World.Frame.Pairs.mono {P Q : Pairing} (le : P.Le Q) {f g : World.Frame}
    (h : f.Pairs P g) : f.Pairs Q g :=
  ⟨h.reach.mono le, h.guards⟩

/-- Scripts have run in two worlds: these mirror each other, the scripts hold what corresponds, and
both or neither panicked. -/
structure MirrorsRan {ρ : Type} (same : Pairing → ρ → ρ → Prop) (P : Pairing) (b b' : World)
    (x x' : World × ρ × Bool) : Prop where
  world : Mirrors P b b' x.1 x'.1
  holds : same P x.2.1 x'.2.1
  panicked : x'.2.2 = x.2.2

/-- What scripts come to in two worlds are worlds that mirror each other, what the scripts hold, and
whether they panicked. -/
theorem MirrorsRan.exists_eq {ρ : Type} {same : Pairing → ρ → ρ → Prop} {P : Pairing}
    {b b' : World} {x x' : World × ρ × Bool} (h : MirrorsRan same P b b' x x') :
    ∃ w w' held held' panicked, x = (w, held, panicked) ∧ x' = (w', held', panicked) ∧
      Mirrors P b b' w w' ∧ same P held held' :=
  ⟨x.1, x'.1, x.2.1, x'.2.1, x.2.2, rfl, by rw [← h.panicked], h.world, h.holds⟩

namespace Mirrors

variable {P : Pairing} {b b' w w' : World} {r r' : RunId} {v v' : VisitId}

mutual

theorem runInstr {P : Pairing} {w w' : World} (h : Mirrors P b b' w w') {f g : World.Frame}
    (hf : f.Pairs P g) :
    ∀ i : Instr, P.Grows fun Q =>
      MirrorsRan World.Frame.Pairs Q b b' (w.runInstr f i) (w'.runInstr g i)
  | .act c => (h.perform hf.reach c).map fun Q le h => ⟨h, hf.mono le, rfl⟩
  | .branch name comparison value yes no => by
    unfold World.runInstr
    rw [h.valueOf]
    split
    · exact runScript h hf yes
    · exact runScript h hf no
  | .loop times body => by
    unfold World.runInstr
    have once := fun {Q : Pairing} {w₁ w₁' : World} (h : Mirrors Q b b' w₁ w₁')
      {f₁ f₁' : World.Frame} (hf : f₁.Pairs Q f₁') => runScript h hf body
    -- Each round runs the body from where the rounds before came to.
    induction times with
    | zero => exact .pure ⟨h, hf, rfl⟩
    | succ n ih =>
      refine ih.bind fun Q le ran => ?_
      simp only [Nat.repeat, ran.panicked]
      split
      · exact .pure ran
      · exact once ran.world ran.holds
  | .observe i o => (h.observe i o).map fun Q le h => ⟨h, hf.mono le, rfl⟩
  | .detach body => (h.detach hf.reach body).map fun Q le h => ⟨h, hf.mono le, rfl⟩
  | .dropCallback =>
    .pure ⟨h.letGoAll (rel_toList hf.reach.callback), ⟨⟨.none, hf.reach.action⟩, hf.guards⟩, rfl⟩
  | .guard label =>
    .pure ⟨h, ⟨hf.reach, congrArg (· ++ [label]) hf.guards⟩, rfl⟩
  | .panic => .pure ⟨h, hf, rfl⟩
  | .pause p => .pure ⟨h.log _, hf, rfl⟩
  | .finish failure => .pure ⟨h.log _, hf, rfl⟩

theorem runScript {P : Pairing} {w w' : World} (h : Mirrors P b b' w w') {f g : World.Frame}
    (hf : f.Pairs P g) :
    ∀ s : Script, P.Grows fun Q =>
      MirrorsRan World.Frame.Pairs Q b b' (w.runScript f s) (w'.runScript g s)
  | [] => .pure ⟨h, hf, rfl⟩
  | i :: rest => by
    refine (runInstr h hf i).bind fun Q le ran => ?_
    unfold World.runScript
    obtain ⟨w₁, w₁', f₁, f₁', panicked, hx, hx', h₁, hf₁⟩ := ran.exists_eq
    rw [hx, hx']
    cases panicked with
    | true => exact .pure ⟨h₁, hf₁, rfl⟩
    | false => exact runScript h₁ hf₁ rest

end

theorem runAction (h : Mirrors P b b' w w') {x x' : Reach} (reach : x.Pairs P x') (s : Script) :
    P.Grows fun Q => MirrorsRan Reach.Pairs Q b b' (w.runAction x s) (w'.runAction x' s) := by
  refine (h.runScript (f := { reach := x }) (g := { reach := x' }) ⟨reach, rfl⟩ s).map
    fun Q le ran => ?_
  unfold World.runAction
  obtain ⟨w₁, w₁', f₁, f₁', panicked, hx, hx', h₁, hf₁⟩ := ran.exists_eq
  rw [hx, hx']
  cases panicked with
  | true =>
    have guards : f₁'.guards = f₁.guards := hf₁.guards
    refine ⟨?_, hf₁.reach, rfl⟩
    simp only [guards]
    exact Mirrors.logDrops h₁ _
  | false => exact ⟨h₁, hf₁.reach, rfl⟩

/-- A script without a reach runs to the same end. -/
theorem runAlone (h : Mirrors P b b' w w') (s : Script) :
    P.Grows fun Q => MirrorsRan Reach.Pairs Q b b' (w.runAction {} s) (w'.runAction {} s) :=
  h.runAction ⟨.none, .none⟩ s

theorem runChain (h : Mirrors P b b' w w') (announce announce' : Nat → Mark) (k : Nat)
    (scripts : List Script) :
    P.Grows fun Q => MirrorsWith Q b b' (w.runChain announce k scripts)
      (w'.runChain announce' k scripts) := by
  induction scripts generalizing P w w' k with
  | nil => exact .pure ⟨h, rfl⟩
  | cons s rest ih =>
    refine ((h.mark (announce k) (announce' k)).runAlone s).bind fun Q le ran => ?_
    unfold World.runChain
    obtain ⟨w₁, w₁', reach, reach', panicked, hx, hx', h₁, -⟩ := ran.exists_eq
    rw [hx, hx']
    cases panicked with
    | true => exact .pure ⟨h₁, rfl⟩
    | false => exact ih h₁ (k + 1)

theorem runPhrase (h : Mirrors P b b' w w') (hv : P.shared v v') (phrase : Phrase) :
    P.Grows fun Q => MirrorsWith Q b b' (w.runPhrase v phrase) (w'.runPhrase v' phrase) := by
  simp only [World.runPhrase, (h.visit hv).state]
  exact h.runChain ..

theorem notifyChange (h : Mirrors P b b' w w') (change : Change) (handlers : List ChangeHandler) :
    P.Grows fun Q => MirrorsWith Q b b' (w.notifyChange change handlers)
      (w'.notifyChange change handlers) := by
  induction handlers generalizing P w w' with
  | nil => exact .pure ⟨h, rfl⟩
  | cons handler rest ih =>
    have heard := h.log (.changed handler.label change)
    have shown : Mirrors P b b'
        (if handler.verbose then
          (w.log (.changed handler.label change)).log (.debug (some change.debug))
          else w.log (.changed handler.label change))
        (if handler.verbose then
          (w'.log (.changed handler.label change)).log (.debug (some change.debug))
          else w'.log (.changed handler.label change)) := by
      split
      · exact heard.log _
      · exact heard
    refine (shown.runAlone handler.script).bind fun Q le ran => ?_
    unfold World.notifyChange
    simp only
    obtain ⟨w₁, w₁', reach, reach', panicked, hx, hx', h₁, -⟩ := ran.exists_eq
    rw [hx, hx']
    cases panicked with
    | true => exact .pure ⟨h₁, rfl⟩
    | false => exact ih h₁

theorem notifyDone (h : Mirrors P b b' w w') (handlers : List DoneHandler) :
    P.Grows fun Q => MirrorsWith Q b b' (w.notifyDone handlers) (w'.notifyDone handlers) := by
  induction handlers generalizing P w w' with
  | nil => exact .pure ⟨h, rfl⟩
  | cons handler rest ih =>
    refine ((h.log (.done handler.label)).runAlone handler.script).bind fun Q le ran => ?_
    unfold World.notifyDone
    obtain ⟨w₁, w₁', reach, reach', panicked, hx, hx', h₁, -⟩ := ran.exists_eq
    rw [hx, hx']
    cases panicked with
    | true => exact .pure ⟨h₁, rfl⟩
    | false => exact ih h₁

end Mirrors

end Statechart
