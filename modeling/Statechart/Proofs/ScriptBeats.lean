import Statechart.Proofs.Hosting

/-!
# Scripts in beats

Whatever a script does is a number of stirs, at the stage at which it runs. Scripts of actions and
handlers come to callbacks by way of slots alone; the set-up of a service may have one in its
hands, and its task holds one.

## Main definitions

- `Stirs`: any number of stirs.

## Main statements

- `Stirs.perform`: a command is a number of stirs.
- `Stirs.runAction`: so is a script that runs to its end.
- `Paces.runChain`: a chain of actions is a beat for each action, with stirs in between.
-/

namespace Statechart

/-- Where a list is cut, there is the head of what comes from there on. -/
theorem getElem?_of_drop {α : Type} {all rest : List α} {k : Nat} {a : α}
    (here : all.drop k = a :: rest) : all[k]? = some a ∧ all.drop (k + 1) = rest := by
  constructor
  · rw [← List.head?_drop, here]
    rfl
  · rw [← List.tail_drop, here]
    rfl

theorem World.begin_ok {w w' : World} {i : InterpreterId} {t : TaskId} {r : RunId}
    (h : w.begin i t = .ok (w', r)) :
    ∃ s, (w.interpreter i).slot = none ∧ (w.interpreter i).machine.startState = .ok s ∧
      w' = w.takeSlot i t s ∧ r = w.runs.size := by
  unfold World.begin at h
  cases start : (w.interpreter i).startState with
  | error e =>
    rw [start] at h
    cases h
  | ok s =>
    rw [start] at h
    cases h
    unfold Interpreter.startState at start
    split at start
    · cases start
    · next free => exact ⟨s, by simpa using free, start, rfl, rfl⟩

/-- Any number of stirs. -/
abbrev Stirs (σ : Stage) : World → World → Prop :=
  Relation.ReflTransGen (Stir σ)

namespace Stirs

variable {σ : Stage} {w w' : World}

theorem steady (h : Stirs σ w w') : Steady w w' := by
  induction h with
  | refl => exact .refl w
  | tail _ stir ih => exact ih.trans stir.steady

theorem beats (h : Stirs σ w w') : Beats (w, σ) (w', σ) := by
  induction h with
  | refl => exact .refl
  | tail _ stir ih => exact ih.tail (.stir stir)

theorem paces {t : TaskId} {r : RunId} (h : Stirs σ w w') : Paces t r (w, σ) (w', σ) := by
  induction h with
  | refl => exact .refl
  | tail _ stir ih => exact ih.tail (.stir stir)

theorem running (h : Stirs σ w w') : w'.running = w.running := by
  induction h with
  | refl => rfl
  | tail _ stir ih => exact stir.running.trans ih

/-! ## Chores -/

theorem chore (eyes : σ.isIdle = false) (h : Chore w w') : Stirs σ w w' :=
  .single (.chore h fun idle => by simp [eyes] at idle)

theorem log (eyes : σ.isIdle = false) (w : World) (e : Entry) (plain : e.isNotice = false) :
    Stirs σ w (w.log e) :=
  chore eyes (.note e plain)

theorem wakeAll (eyes : σ.isIdle = false) (w : World) (ts : List TaskId) :
    Stirs σ w (w.wakeAll ts) := by
  unfold World.wakeAll
  induction ts generalizing w with
  | nil => exact .refl
  | cons t ts ih => exact (chore eyes (.wake t)).trans (ih _)

theorem abortWork (eyes : σ.isIdle = false) (w : World) (v : VisitId) :
    Stirs σ w (w.abortWork v) := by
  unfold World.abortWork
  induction (w.visit v).working generalizing w with
  | nil => exact .refl
  | cons t ts ih => exact (chore eyes (.abort t)).trans (ih _)

theorem chores (eyes : σ.isIdle = false) (h : Relation.ReflTransGen Chore w w') :
    Stirs σ w w' := by
  induction h with
  | refl => exact .refl
  | tail _ done ih => exact ih.trans (chore eyes done)

theorem letGoAll (eyes : σ.isIdle = false) (w : World) (vs : List VisitId) :
    Stirs σ w (w.letGoAll vs) :=
  chores eyes (Chore.letGoAll w vs)

theorem logDrops (eyes : σ.isIdle = false) (w : World) (guards : List String) :
    Stirs σ w (w.logDrops guards) := by
  unfold World.logDrops
  induction guards generalizing w with
  | nil => exact .refl
  | cons g gs ih => exact (log eyes w (.drop g) rfl).trans (ih _)

theorem clearWaiters (eyes : σ.isIdle = false) (w : World) (v : VisitId) :
    Stirs σ w (w.clearWaiters v) :=
  chore eyes (.visit v _ ⟨rfl, rfl, rfl, rfl, rfl⟩ rfl rfl rfl)

theorem setVariable (eyes : σ.isIdle = false) (w : World) (name : String) (value : Int) :
    Stirs σ w (w.setVariable name value) :=
  chore eyes (.tally w.now _ w.reports)

theorem modifyTask (eyes : σ.isIdle = false) {t : TaskId} {f : Task → Task}
    (akin : (w.task t).Akin (f (w.task t))) : Stirs σ w (w.modifyTask t f) :=
  chore eyes (.task t f akin)

theorem modifyInterpreter (eyes : σ.isIdle = false) {i : InterpreterId}
    {f : Interpreter → Interpreter} (akin : (w.interpreter i).Akin (f (w.interpreter i)))
    (machine : (f (w.interpreter i)).machine = (w.interpreter i).machine)
    (history : (f (w.interpreter i)).history = (w.interpreter i).history) :
    Stirs σ w (w.modifyInterpreter i f) :=
  chore eyes (.interpreter i f akin machine history)

/-! ## Events -/

/-- Raising an event is a number of stirs, for whoever has the callback. -/
theorem raise (eyes : σ.isIdle = false) (w : World) (v : VisitId) (d : Decision)
    (use : w.Usable σ v) : Stirs σ w (w.raise v d).1 := by
  unfold World.raise
  simp only
  split
  · exact (log eyes w _ rfl).tail (.refuse v d)
  · split
    · exact (log eyes w _ rfl).tail (.refuse v d)
    · next fired =>
      split
      · next closed =>
        exact ((Relation.ReflTransGen.single (.miss v closed)).trans (log eyes _ _ rfl)).tail
          (.refuse v d)
      · next opened =>
        exact .single (.accept v d use eyes (by simpa using fired) (by simpa using opened))

theorem raiseThrough (eyes : σ.isIdle = false) (w : World) (callback : Option VisitId)
    (d : Decision) (use : ∀ v, callback = some v → w.Usable σ v) :
    Stirs σ w (w.raiseThrough callback d).1 := by
  cases callback with
  | none => exact .refl
  | some v => exact raise eyes w v d (use v rfl)

theorem raiseEvent (eyes : σ.isIdle = false) (w : World) (callback : Option VisitId)
    (event : String) (use : ∀ v, callback = some v → w.Usable σ v) :
    Stirs σ w (w.raiseEvent callback event) :=
  (raiseThrough eyes w callback _ use).trans (log eyes _ _ rfl)

theorem raiseFault (eyes : σ.isIdle = false) (w : World) (callback : Option VisitId)
    (event : String) (fault : Fault) (use : ∀ v, callback = some v → w.Usable σ v) :
    Stirs σ w (w.raiseFault callback event fault) :=
  (raiseThrough eyes w callback ⟨.named event, some fault⟩ use).trans (log eyes _ _ rfl)

/-! ## Interpreters -/

/-- A stop marks the run, and wakes those who wait for its tokens. -/
theorem forceStop (eyes : σ.isIdle = false) (w : World) (i : InterpreterId) :
    Stirs σ w (w.forceStop i) := by
  unfold World.forceStop
  simp only
  split
  · next r slot =>
    refine (log eyes w (.trace (.stopping (w.interpreter i).machine.id)) rfl).trans ?_
    unfold World.cancelRun
    split
    · next stopped => exact .single (.ask i r slot stopped)
    · refine .head (.cancel i r slot) ?_
      simp only
      split
      · next v phase =>
        exact (((clearWaiters eyes _ v).trans (wakeAll eyes _ _)).trans (wakeAll eyes _ _)).trans
          (chore eyes (.wake _))
      · exact .refl
  · exact .refl

theorem setHandle (eyes : σ.isIdle = false) (w : World) (i : InterpreterId) (t : TaskId) :
    Stirs σ w (w.setHandle i t) := by
  unfold World.setHandle
  simp only
  refine .trans ?_ (modifyInterpreter eyes ⟨rfl, rfl⟩ rfl rfl)
  split
  · exact modifyTask eyes ⟨rfl, rfl, rfl, id, fun _ => id⟩
  · exact .refl

/-- A start in the background finds the slot free. -/
theorem startInBackground (eyes : σ.isIdle = false) {i : InterpreterId}
    (h : w.startInBackground i = .ok w') : Stirs σ w w' := by
  simp only [World.startInBackground] at h
  cases begun : w.begin i w.tasks.size with
  | error e =>
    rw [begun] at h
    cases h
  | ok pair =>
    obtain ⟨w₁, r⟩ := pair
    rw [begun] at h
    obtain ⟨s, free, first, rfl, rfl⟩ := World.begin_ok begun
    cases h
    exact .head (.start i s free first) (setHandle eyes ..)

theorem startAndLog (eyes : σ.isIdle = false) (w : World) (i : InterpreterId) :
    Stirs σ w (w.startAndLog i) := by
  unfold World.startAndLog
  split
  · next started => exact (startInBackground eyes started).trans (log eyes _ _ rfl)
  · exact log eyes _ _ rfl

theorem withNamed (w : World) (i : Nat) (f : InterpreterId → World)
    (h : ∀ j, Stirs σ w (f j)) : Stirs σ w (w.withNamed i f) := by
  unfold World.withNamed
  split
  · exact h _
  · exact .refl

theorem observe (eyes : σ.isIdle = false) (w : World) (i : Nat) (o : Observer Script) :
    Stirs σ w (w.observe i o) :=
  withNamed w i _ fun _ => modifyInterpreter eyes ⟨rfl, rfl⟩ rfl rfl

/-! ## Slots of callbacks -/

/-- What a slot keeps is held. -/
theorem usable_keptIn {slot : String} {v : VisitId} (h : w.keptIn slot = some v) :
    w.Usable σ v := by
  refine .inl ?_
  obtain ⟨before, after, kept, -⟩ := List.lookup_eq_some_iff.1 h
  simp [World.isHeld, kept]

theorem keep (eyes : σ.isIdle = false) (w : World) (slot : String) (v : VisitId)
    (use : w.Usable σ v) : Stirs σ w (w.keep slot v) := by
  refine .head (.keep ((slot, v) :: w.kept.eraseP (·.1 = slot)) fun k hk => ?_)
    (letGoAll eyes _ _)
  rcases List.mem_cons.1 hk with rfl | hk
  · exact .inr use
  · exact .inl (List.mem_of_mem_eraseP hk)

theorem emptySlot (eyes : σ.isIdle = false) (w : World) (slot : String) :
    Stirs σ w (w.emptySlot slot) :=
  .head (.keep (w.kept.eraseP (·.1 = slot)) fun _ hk => .inl (List.mem_of_mem_eraseP hk))
    (letGoAll eyes _ _)

/-! ## Commands -/

/-- A command is a number of stirs, for a script that may use its callback. -/
theorem perform (eyes : σ.isIdle = false) (w : World) (reach : Reach) (c : Command)
    (use : ∀ v, reach.callback = some v → w.Usable σ v) : Stirs σ w (w.perform reach c) := by
  cases c with
  | log | showVariable | showFired | showState | showCallback | showCancelled | showKept
  | unknown => exact log eyes _ _ rfl
  | add | assign => exact setVariable eyes ..
  | stop i => exact withNamed w i _ fun j => forceStop eyes w j
  | start i => exact withNamed w i _ fun j => startAndLog eyes w j
  | showStatus i | showPath i => exact withNamed w i _ fun j => log eyes _ _ rfl
  | limitHistory i limit => exact withNamed w i _ fun j => .single (.limit j limit)
  | raise => exact raiseEvent eyes w _ _ use
  | raiseFault => exact raiseFault eyes w _ _ _ use
  | keep slot =>
    cases hc : reach.callback with
    | none =>
      simp only [World.perform, hc]
      exact .refl
    | some v =>
      simp only [World.perform, hc]
      exact keep eyes w slot v (use v hc)
  | release slot => exact (emptySlot eyes w slot).trans (log eyes _ _ rfl)
  | raiseKept => exact raiseEvent eyes w _ _ fun _ => usable_keptIn
  | raiseKeptFault => exact raiseFault eyes w _ _ _ fun _ => usable_keptIn

theorem detach (w : World) (reach : Reach) (body : Script)
    (use : ∀ v, reach.callback = some v → w.Usable σ v) : Stirs σ w (w.detach reach body) := by
  refine .single (.spawn _ ⟨rfl, rfl, rfl, rfl⟩ fun v holds => use v ?_)
  simpa [Task.holds, Task.isAlive] using holds

/-! ## Scripts -/

mutual

theorem runInstr (eyes : σ.isIdle = false) (w : World) (f : World.Frame)
    (lent : ∀ v, f.reach.callback = some v → σ.lent? = some v) :
    ∀ i : Instr, Stirs σ w (w.runInstr f i).1 ∧
      ∀ v, (w.runInstr f i).2.1.reach.callback = some v → σ.lent? = some v
  | .act c => ⟨perform eyes w _ c fun v hv => .inr (lent v hv), lent⟩
  | .branch name comparison value yes no => by
    unfold World.runInstr
    split
    · exact runScript eyes w f lent yes
    · exact runScript eyes w f lent no
  | .loop times body => by
    unfold World.runInstr
    have once := fun w₁ f₁ h => runScript eyes w₁ f₁ h body
    -- Each round runs the body from where the rounds before came to.
    induction times with
    | zero => exact ⟨.refl, lent⟩
    | succ n ih =>
      simp only [Nat.repeat]
      split
      · exact ih
      · obtain ⟨stirs, lent⟩ := once _ _ ih.2
        exact ⟨ih.1.trans stirs, lent⟩
  | .observe i o => ⟨observe eyes w i o, lent⟩
  | .detach body => ⟨detach w _ body fun v hv => .inr (lent v hv), lent⟩
  | .dropCallback => ⟨letGoAll eyes _ _, fun v hv => by cases hv⟩
  | .guard label => ⟨.refl, lent⟩
  | .panic => ⟨.refl, lent⟩
  | .pause p => ⟨log eyes _ _ rfl, lent⟩
  | .finish failure => ⟨log eyes _ _ rfl, lent⟩

theorem runScript (eyes : σ.isIdle = false) (w : World) (f : World.Frame)
    (lent : ∀ v, f.reach.callback = some v → σ.lent? = some v) :
    ∀ s : Script, Stirs σ w (w.runScript f s).1 ∧
      ∀ v, (w.runScript f s).2.1.reach.callback = some v → σ.lent? = some v
  | [] => ⟨.refl, lent⟩
  | i :: rest => by
    have first := runInstr eyes w f lent i
    unfold World.runScript
    split
    · next h => simpa [h] using first
    · next w₁ f₁ h =>
      simp only [h] at first
      have others := runScript eyes w₁ f₁ first.2 rest
      exact ⟨first.1.trans others.1, others.2⟩

end

/-- A script that runs to its end is a number of stirs, and hands on no callback but its own. -/
theorem runAction (eyes : σ.isIdle = false) (w : World) (reach : Reach) (s : Script)
    (lent : ∀ v, reach.callback = some v → σ.lent? = some v) :
    Stirs σ w (w.runAction reach s).1 ∧
      ∀ v, (w.runAction reach s).2.1.callback = some v → σ.lent? = some v := by
  have ran := runScript eyes w { reach } lent s
  unfold World.runAction
  split
  · next w₁ f h =>
    simp only [h] at ran
    exact ⟨ran.1.trans (logDrops eyes _ _), ran.2⟩
  · next w₁ f h =>
    simp only [h] at ran
    exact ran

theorem action (eyes : σ.isIdle = false) {s : Script} {x : Reach × Bool}
    (h : w.runAction {} s = (w', x)) : Stirs σ w w' := by
  have ran := (runAction eyes w {} s fun v hv => by cases hv).1
  rwa [h] at ran

end Stirs

/-! ## Observers -/

section Observers

variable {t : TaskId} {r : RunId} {w : World}

/-- The handlers of a change hear of it one after the other, unless one panics. -/
theorem Paces.notifyChange (w : World) (s : State) (change : Change)
    (handlers : List ChangeHandler) :
    ∃ rest, Paces t r (w, .busy t r (.told s change handlers))
        ((w.notifyChange change handlers).1, .busy t r (.told s change rest)) ∧
      ((w.notifyChange change handlers).2 = false → rest = []) := by
  induction handlers generalizing w with
  | nil => exact ⟨[], .refl, fun _ => rfl⟩
  | cons h rest ih =>
    have heard : Paces t r (w, .busy t r (.told s change (h :: rest)))
        (w.log (.changed h.label change), .busy t r (.told s change rest)) :=
      .single (.stride .hear)
    have shown : Paces t r (w, .busy t r (.told s change (h :: rest)))
        (if h.verbose then
          (w.log (.changed h.label change)).log (.debug (some change.debug))
          else w.log (.changed h.label change), .busy t r (.told s change rest)) := by
      split
      · exact heard.trans (Stirs.log rfl _ _ rfl).paces
      · exact heard
    unfold World.notifyChange
    simp only
    split
    · next ran =>
      exact ⟨rest, shown.trans (Stirs.action rfl ran).paces, fun h => (by cases h)⟩
    · next w₁ reach ran =>
      obtain ⟨rest', others, all⟩ := ih w₁
      exact ⟨rest', (shown.trans (Stirs.action rfl ran).paces).trans others, all⟩

/-- The handlers of the end of a machine hear of it one after the other, unless one panics. -/
theorem Paces.notifyDone (w : World) (handlers : List DoneHandler) :
    ∃ rest, Paces t r (w, .busy t r (.announced handlers))
        ((w.notifyDone handlers).1, .busy t r (.announced rest)) ∧
      ((w.notifyDone handlers).2 = false → rest = []) := by
  induction handlers generalizing w with
  | nil => exact ⟨[], .refl, fun _ => rfl⟩
  | cons h rest ih =>
    have heard : Paces t r (w, .busy t r (.announced (h :: rest)))
        (w.log (.done h.label), .busy t r (.announced rest)) := .single (.stride .toll)
    unfold World.notifyDone
    split
    · next ran =>
      exact ⟨rest, heard.trans (Stirs.action rfl ran).paces, fun h => (by cases h)⟩
    · next w₁ reach ran =>
      obtain ⟨rest', others, all⟩ := ih w₁
      exact ⟨rest', (heard.trans (Stirs.action rfl ran).paces).trans others, all⟩

end Observers

/-! ## Chains of actions -/

section Chain

variable {t : TaskId} {r : RunId} {s : State} {v : VisitId} {phrase : Phrase} {spot : Nat → Spot}

/-- A chain of actions is a beat for each action, with stirs in between. It comes to its end
unless an action panics. -/
theorem Paces.runChain {torn : Bool} (eyes : ∀ k, (Stage.busy t r (spot k)).isIdle = false)
    (step : ∀ w k, (World.visit w v).state = s → (World.visit w v).torn = torn →
      k < (s.chain phrase).actions.length →
      Stride t r (w, .busy t r (spot k)) (w.mark (.acted v phrase k), .busy t r (spot (k + 1))))
    (w : World) (state : (w.visit v).state = s) (scope : (w.visit v).torn = torn) (k : Nat)
    (rest : List Script) (here : (s.chain phrase).actions.drop k = rest) :
    ∃ n, Paces t r (w, .busy t r (spot k))
        ((w.runChain (.acted v phrase) k rest).1, .busy t r (spot n)) ∧
      ((w.runChain (.acted v phrase) k rest).1.visit v).state = s ∧
      ((w.run r).phase ≠ .ended →
        ((w.runChain (.acted v phrase) k rest).1.run r).phase = (w.run r).phase) ∧
      ((w.runChain (.acted v phrase) k rest).2 = true → (s.chain phrase).Panics) ∧
      ((w.runChain (.acted v phrase) k rest).2 = false → k ≤ (s.chain phrase).actions.length →
        n = (s.chain phrase).actions.length) := by
  induction rest generalizing w k with
  | nil =>
    refine ⟨k, .refl, state, fun _ => rfl, fun h => (by cases h), fun _ hk => ?_⟩
    have := congrArg List.length here
    simp only [List.length_drop, List.length_nil] at this
    omega
  | cons a rest ih =>
    obtain ⟨found, next⟩ := getElem?_of_drop here
    have more : k < (s.chain phrase).actions.length := (List.getElem?_eq_some_iff.1 found).1
    have mem : a ∈ (s.chain phrase).actions := List.mem_of_getElem? found
    have began := step w k state scope more
    unfold World.runChain
    split
    · next w₁ reach h =>
      have ran := Stirs.action (eyes (k + 1)) h
      refine ⟨k + 1, .head (.stride began) ran.paces, ?_, fun going => ?_, fun _ => ?_,
        fun h => (by cases h)⟩
      · exact (ran.steady.state v).trans state
      · exact ran.steady.phase going
      · exact ⟨a, mem, _, congrArg (·.2.2) h⟩
    · next w₁ reach h =>
      have ran := Stirs.action (eyes (k + 1)) h
      obtain ⟨n, beats, state', phase, panics, all⟩ :=
        ih w₁ ((ran.steady.state v).trans state) ((ran.steady.torn v).trans scope) (k + 1) next
      refine ⟨n, (Relation.ReflTransGen.head (.stride began) ran.paces).trans beats, state',
        fun going => ?_, panics, fun h _ => all h more⟩
      have same : (w₁.run r).phase = (w.run r).phase := ran.steady.phase going
      exact (phase (same ▸ going)).trans same

/-- The actions of a visit of one kind. -/
theorem Paces.runPhrase (w : World) (v : VisitId) (phrase : Phrase) (spot : Nat → Spot)
    (eyes : ∀ k, (Stage.busy t r (spot k)).isIdle = false)
    (step : ∀ w' k, (World.visit w' v).state = (w.visit v).state →
      (World.visit w' v).torn = (w.visit v).torn →
      k < ((w.visit v).state.chain phrase).actions.length →
      Stride t r (w', .busy t r (spot k))
        (w'.mark (.acted v phrase k), .busy t r (spot (k + 1)))) :
    ∃ n, Paces t r (w, .busy t r (spot 0)) ((w.runPhrase v phrase).1, .busy t r (spot n)) ∧
      ((w.runPhrase v phrase).1.visit v).state = (w.visit v).state ∧
      ((w.run r).phase ≠ .ended → ((w.runPhrase v phrase).1.run r).phase = (w.run r).phase) ∧
      ((w.runPhrase v phrase).2 = true → ((w.visit v).state.chain phrase).Panics) ∧
      ((w.runPhrase v phrase).2 = false →
        n = ((w.visit v).state.chain phrase).actions.length) := by
  obtain ⟨n, beats, state, phase, panics, all⟩ :=
    Paces.runChain eyes step w rfl rfl 0 _ rfl
  have same : w.runPhrase v phrase = w.runChain (.acted v phrase) 0
      (((w.visit v).state.chain phrase).actions.drop 0) := by
    cases phrase <;> rfl
  rw [same]
  exact ⟨n, beats, state, phase, panics, fun h => all h (Nat.zero_le _)⟩

end Chain

end Statechart
