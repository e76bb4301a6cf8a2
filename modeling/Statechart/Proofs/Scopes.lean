import Statechart.Proofs.LateRaises

/-!
# Cancellation scopes

The tokens of a visit live as long as its wait: only a stop of the run cancels them before, and
from the first cleanup action on they are cancelled for good. Visits are numbered in the order in
which they begin, so a new visit to a state has tokens of its own. A service whose token is
cancelled when its action returns raises nothing.

## Main definitions

- `Scoped`: the scopes of visits that are waited for are whole, and those of visits that are
  cleaned up are cancelled.
- `Numbered`: a visit has a number that no earlier visit had.
- `World.Returns`: the action of a service returns.

## Main statements

- `Scoped.beat`: every beat keeps scopes so.
- `World.isCancelled_forceStop`: a stop cancels every token of the run in progress.
- `World.marks_finish_of_isCancelled`: an action that returns with its token cancelled raises
  nothing.
- `Scenario.tokens_of_visits`: when the tokens of visits are cancelled, and what comes of it.
-/

namespace Statechart

/-! ## Definitions -/

/-- The scopes of visits that a run waits in, or has yet to wait in, are whole; those of visits that
are cleaned up are cancelled. -/
structure Scoped (w : World) (σ : Stage) : Prop where
  waits : ∀ r v, (w.run r).phase = .waiting v → (w.visit v).torn = false
  ahead : ∀ v, σ.ahead? = some v → (w.visit v).torn = false
  cleaned : ∀ v k, .acted v .cleanup k ∈ w.marks → (w.visit v).torn = true

/-- A visit has a number that no visit had that was entered before. -/
def Numbered (w : World) : Prop :=
  ∀ r v before after, w.marks = before ++ .entered r v :: after →
    ∀ q u, .entered q u ∈ before → u < v

/-- In its turn, the action of a service returns, with a failure or without: a script ends, a nested
machine cannot start, or its run returns. -/
inductive World.Returns (w : World) (t : TaskId) : World → Option Fault → Prop where
  | script {s : Script} {w' : World} {failure : Option String} (job : (w.task t).job = .script s)
      (ended : w.stepScript t s = (w', .finished failure)) :
      w.Returns t w' (failure.map .message)
  | unbegun {machine : Machine} {e : RunError} (job : (w.task t).job = .nested machine)
      (failed : (w.withNested t machine).begin w.interpreters.size t = .error e) :
      w.Returns t ((w.withNested t machine).abort w.tasks.size) (some (.run e))
  | nested {r : RunId} {hook : TaskId} {w' : World} {result : RunResult}
      (job : (w.task t).job = .drive r (some hook))
      (returned : w.advance r = (w', .returned result)) :
      w.Returns t (w'.abort hook) (nestedFailure (w.machineOf r).id result)

/-! ## What cancels scopes -/

section

variable {w w' : World} {σ σ' : Stage} {t : TaskId} {r : RunId} {v : VisitId} {k : Nat}

theorem World.torn_closeVisit (w : World) (v u : VisitId) :
    ((w.closeVisit v).visit u).torn = (w.visit u).torn := by
  show ((w.modifyVisit v _).visit u).torn = _
  exact data_modifyVisit Visit.torn rfl u

/-- A new visit has a whole scope, as has a visit that is not there yet. -/
theorem World.torn_pushVisit (w : World) (r : RunId) (s : State) (u : VisitId) :
    ((w.pushVisit r s).visit u).torn = (w.visit u).torn :=
  w.data_pushVisit { state := s, run := r } Visit.torn rfl u

/-- A run that goes further cancels the scope of the visit that it cleans up next, or none. -/
theorem Stride.tears (b : Stride t r (w, σ) (w', σ')) :
    (∀ v, (w'.visit v).torn = (w.visit v).torn) ∨
      ∃ v spot, (spot = .acting v .cleanup 0 ∨ spot = .forsaken v 0) ∧ σ = .busy t r spot ∧
        σ' = σ ∧ w' = w.modifyVisit v fun x => { x with torn := true } := by
  cases b with
  | @tear _ v spot early => exact .inr ⟨v, spot, early, rfl, rfl, rfl⟩
  | visit => exact .inl (w.torn_pushVisit r _)
  | look | crew => exact .inl ((World.data_modifyVisit Visit.torn rfl))
  | forsake | close | quit | shut | dropDraining => exact .inl (World.torn_closeVisit _ _)
  | @relax _ v => exact .inl fun u => ((Frame.abortWork w v).visit u).torn
  | @dropWaiting _ _ v =>
    have frame := Frame.abortWork (w.setPhase r .ended) v
    exact .inl fun u => (World.torn_closeVisit ..).trans (frame.visit u).torn
  | _ => exact .inl fun _ => rfl

/-- Only visits whose scope is cancelled are cleaned up. -/
theorem Stride.cleans (b : Stride t r (w, σ) (w', σ')) (acted : .acted v .cleanup k ∈ w'.marks) :
    .acted v .cleanup k ∈ w.marks ∨ (w.visit v).torn = true := by
  -- Whatever else is left are other marks.
  have old {news : List Mark} (marks : w'.marks = w.marks ++ news)
      (other : .acted v .cleanup k ∉ news) : .acted v .cleanup k ∈ w.marks := by
    rw [marks] at acted
    exact (List.mem_append.1 acted).resolve_right other
  cases b with
  | @act _ u phrase j more torn =>
    refine (List.mem_append.1 (World.marks_mark w _ ▸ acted)).imp_right fun here => ?_
    cases List.mem_singleton.1 here
    exact torn rfl
  | @tend _ u j more torn =>
    refine (List.mem_append.1 (World.marks_mark w _ ▸ acted)).imp_right fun here => ?_
    cases List.mem_singleton.1 here
    exact torn
  | depart | ready | crew | wait | look | idle | tear | exit | tended | dropBegun
  | dropArriving => exact .inl acted
  | hear | toll => exact .inl (old (World.marks_log ..) (by simp [Entry.mark?]))
  | relax => exact .inl (World.marks_abortWork .. ▸ acted)
  | visit => exact .inl (old (World.marks_pushVisit ..) (by simp))
  | tell | arrive | launch | pass | conclude | announce =>
    exact .inl (old (World.marks_mark ..) (by simp))
  | forsake | close | quit | shut => exact .inl (old (World.marks_closeVisit ..) (by simp))
  | go => exact .inl (old (World.marks_goTo ..) (by simp))
  | halt | back | done => exact .inl (old (World.marks_endRun ..) (by simp))
  | unwind => exact .inl (old (World.marks_release ..) (by simp))
  | @dropWaiting _ _ u | @dropDraining _ _ u => exact .inl (by simpa using acted)

end

/-! ## Scopes are kept -/

namespace Scoped

variable {w w' : World} {σ σ' : Stage}

theorem steady (h : Scoped w σ) (s : Steady w w')
    (ahead : ∀ v, σ'.ahead? = some v → σ.ahead? = some v) : Scoped w' σ' := by
  obtain ⟨news, marks, aside⟩ := s.marks
  constructor
  case waits =>
    intro r v phase
    rw [s.torn]
    exact h.waits r v (s.waiting phase).1
  case ahead =>
    intro v hv
    rw [s.torn]
    exact h.ahead v (ahead v hv)
  case cleaned =>
    intro v k acted
    rw [s.torn]
    rw [marks] at acted
    refine h.cleaned v k ((List.mem_append.1 acted).resolve_right fun new => ?_)
    cases aside _ new

/-- A scope that is cancelled is that of a visit that its run has ceased to wait in. -/
theorem stride {t : TaskId} {r : RunId} (h : Scoped w σ) (o : Orderly w σ)
    (b : Stride t r (w, σ) (w', σ')) : Scoped w' σ' := by
  have cleaned (keeps : ∀ v, (w.visit v).torn = true → (w'.visit v).torn = true) (v : VisitId)
      (k : Nat) (acted : .acted v .cleanup k ∈ w'.marks) : (w'.visit v).torn = true :=
    keeps v ((b.cleans acted).elim (h.cleaned v k) id)
  rcases b.tears with same | ⟨u, spot, early, busy, rfl, rfl⟩
  · refine ⟨fun q v phase => ?_, fun v hv => ?_, cleaned fun v torn => (same v).trans torn⟩
    · rw [same]
      by_cases mine : q = r
      · rcases b.waiting (mine ▸ phase) with before | ⟨k, launching⟩
        · exact h.waits r v before
        · exact h.ahead v (congrArg Stage.ahead? launching)
      · exact h.waits q v (b.onward.run q mine ▸ phase)
    · rw [same]
      rcases b.ahead hv with before | rfl
      · exact h.ahead v before
      · have new : w.visit w.visits.size = default := Table.get_of_size_le (Nat.le_refl _)
        rw [new]
        rfl
  · have placed := o.placed t r spot busy
    have own : w.Owns r u := by
      rcases early with rfl | rfl <;> exact placed.own u rfl
    have waits (q : RunId) (v : VisitId) (phase : (w.run q).phase = .waiting v) : v ≠ u := by
      -- The visit belongs to one run, and that one is cleaning it up.
      rintro rfl
      have own' := o.waits q v (congrArg Phase.visit? phase)
      cases own'.run.symm.trans own.run
      have suits := placed.suits
      rw [phase] at suits
      cases suits.eq_idle
      rcases early with early | early <;> cases early
    refine ⟨fun q v phase => ?_, fun v hv => ?_, cleaned fun v torn => ?_⟩
    · rw [World.visit_modifyVisit, if_neg (waits q v phase)]
      exact h.waits q v phase
    · rw [busy] at hv
      rcases early with rfl | rfl <;> cases hv
    · rw [World.visit_modifyVisit]
      split
      · rfl
      · exact torn

/-- Every beat keeps the scopes of visits that are waited for whole, and those of visits that are
cleaned up cancelled. -/
theorem beat (h : Scoped w σ) (o : Orderly w σ) (b : Beat (w, σ) (w', σ')) : Scoped w' σ' := by
  cases b with
  | stir b => exact h.steady b.steady fun _ => id
  | shift b => exact h.steady b.steady fun v hv => (by cases hv)
  | stride b => exact h.stride o b

theorem opening (s : Scenario) : Scoped s.opening .rest where
  waits r v phase := by cases phase
  ahead v hv := by cases hv
  cleaned v k acted := by cases acted

end Scoped

namespace Numbered

variable {w w' : World} {σ σ' : Stage}

/-- A visit is entered when it is new, so it has a greater number than every visit so far. -/
theorem beat (h : Numbered w) (o : Orderly w σ) (b : Beat (w, σ) (w', σ')) : Numbered w' := by
  intro r v before after split q u entered
  obtain ⟨news, marks⟩ : ∃ news, w'.marks = w.marks ++ news := b.marks o.toStaged
  rw [marks] at split
  rcases split_append split with ⟨mid, old, -⟩ | ⟨mid, rfl, added⟩
  · exact h r v before mid old q u entered
  · have here : .entered r v ∈ news := by simp [added]
    obtain ⟨t, p, stride⟩ := b.stride_of_way marks here rfl
    cases stride.passage o.toStaged with
    | stay marks' quiet =>
      cases List.append_cancel_left (marks.symm.trans marks')
      cases quiet _ here
    | enter marks' =>
      -- All marks so far speak of visits that are there.
      cases List.append_cancel_left (marks.symm.trans marks')
      cases List.mem_singleton.1 here
      cases mid with
      | nil => exact o.recorded.visit _ (by simpa using entered) u rfl
      | cons m mid => simp at added
    | leave u' marks' =>
      cases List.append_cancel_left (marks.symm.trans marks')
      cases List.mem_singleton.1 here

theorem opening (s : Scenario) : Numbered s.opening := by
  intro r v before after split
  have none : ([] : List Mark) = before ++ .entered r v :: after := split
  simp at none

end Numbered

/-! ## Stops -/

namespace World

variable {w w' : World} {t : TaskId} {r : RunId} {v : VisitId} {i : InterpreterId}
  {failure : Option Fault}

/-- A run that is cancelled has no token that is not. -/
theorem isCancelled_of_cancelled (own : (w.visit v).run = r) (stop : (w.run r).cancelled = true) :
    w.isCancelled v = true := by
  simp [isCancelled, runOf, own, stop]

/-- A stop cancels the run in progress, and with it every token of its visits. -/
theorem isCancelled_forceStop (slot : (w.interpreter i).slot = some r)
    (own : (w.visit v).run = r) : (w.forceStop i).isCancelled v = true := by
  have stirs : Stirs .rest w (w.forceStop i) := Stirs.forceStop rfl w i
  refine isCancelled_of_cancelled ((stirs.steady.owner v).trans own) ?_
  -- The run is marked first, and whoever is woken then leaves it so.
  have marked (w : World) : ((w.modifyRun r fun x => { x with cancelled := true }).run r).cancelled
      = true := by
    rw [run_modifyRun, if_pos rfl]
  unfold forceStop cancelRun
  simp only [slot]
  split
  · next stopped => exact stopped
  · split
    · next u phase =>
      rw [(Frame.wake _ _).1.cancelled, (Frame.wakeAll ..).cancelled, (Frame.wakeAll ..).cancelled]
      exact marked _
    · exact marked _

/-- The scope of a visit is its own. -/
theorem isCancelled_tearScope_of_ne {u : VisitId} (h : v ≠ u) :
    (w.tearScope u).isCancelled v = w.isCancelled v := by
  have woken (w : World) (ts : List TaskId) :
      (w.wakeAll ts).isCancelled v = w.isCancelled v := by
    have frame := Frame.wakeAll w ts
    unfold isCancelled runOf
    rw [(frame.visit v).torn, (frame.visit v).run, frame.cancelled]
  have apart (w : World) (f : Visit → Visit) : (w.modifyVisit u f).visit v = w.visit v := by
    rw [visit_modifyVisit, if_neg h]
  unfold tearScope
  simp only [woken]
  unfold isCancelled runOf clearWaiters
  simp only [apart]
  rfl

/-! ## Actions that return -/

theorem marks_logDrops (w : World) (guards : List String) :
    (w.logDrops guards).marks = w.marks := by
  unfold logDrops
  induction guards generalizing w with
  | nil => rfl
  | cons label guards ih => exact (ih _).trans ((marks_log ..).trans (List.append_nil _))

/-- A task that ends gives up what it holds, and all that is said of it is that it has ended. -/
theorem marks_endTask (w : World) (t : TaskId) (fate : Fate) :
    (w.endTask t fate).marks = w.marks ++ [.ended t fate] := by
  have dropped : (if fate = .panicked ∨ fate = .dropped
      then w.logDrops (w.task t).guards else w).marks = w.marks := by
    split
    · exact marks_logDrops ..
    · rfl
  have withdrawn (w : World) (home : Option VisitId) : (w.withdraw t home).marks = w.marks := by
    cases home <;> rfl
  have told (w : World) (home : Option VisitId) : (w.tellHome home).marks = w.marks := by
    unfold tellHome
    split
    · split
      · rfl
      · exact (Frame.wake ..).1.marks
    · rfl
  have joined (w : World) (joiner : Option TaskId) : (w.tellJoiner joiner).marks = w.marks := by
    cases joiner with
    | none => rfl
    | some j => exact (Frame.wake w j).1.marks
  rw [endTask_eq, joined, told, withdrawn, (Frame.of_chores (Chore.letGoAll ..)).marks, bury,
    marks_mark]
  exact congrArg (· ++ [_]) dropped

/-- A failure is traced even if nothing is raised. -/
theorem marks_raiseOutcome (route : Route) (cancelled : w.isCancelled route.visit = true)
    (failure : Option Fault) : (w.raiseOutcome route failure).marks = w.marks := by
  unfold raiseOutcome
  cases failure with
  | none => simp only [cancelled, if_true]
  | some fault =>
    have same : (w.trace (.actionFailed (w.visit route.visit).state.id fault)).isCancelled
        route.visit = true := cancelled
    simp only [same, if_true]
    exact (marks_log ..).trans (List.append_nil _)

/-- The action of a service returns in a move of its task, which then ends. -/
theorem Returns.move (h : w.Returns t w' failure) : w.move t = w'.finish t failure := by
  cases h with
  | script job ended => simp only [World.move, job, moveScript, ended]
  | unbegun job failed => simp only [World.move, job, beginNested_eq, failed]
  | nested job returned => simp only [World.move, job, moveDrive, returned]

/-- An action that returns with its token cancelled raises nothing, whatever it returns. -/
theorem marks_finish_of_isCancelled {route : Route} (routed : (w.task t).route = some route)
    (cancelled : w.isCancelled route.visit = true) (failure : Option Fault) :
    (w.finish t failure).marks = w.marks ++ [.ended t .returned] := by
  unfold finish
  simp only [routed]
  rw [marks_endTask, marks_raiseOutcome route cancelled]

end World

/-! ## When tokens are cancelled -/

namespace Scenario

/-- From its beginning until its wait is over, the tokens of a visit are cancelled only if its run
was asked to stop, and then all at once; from the first cleanup action on they are cancelled. Each
visit has a scope of its own, under a new number, so what becomes of the scope of another visit, to
the same state or not, is nothing to it. A service whose token is cancelled when its action returns
raises nothing, whatever the action returns. -/
theorem tokens_of_visits {s : Scenario} {w : World} {σ : Stage} (h : s.Moment w σ) :
    (∀ token : Token, (w.runOf token.visit).phase = .waiting token.visit ∨
        σ.ahead? = some token.visit →
      (w.isCancelled token.visit = true ↔ .stopAsked (w.visit token.visit).run ∈ w.marks)) ∧
    (∀ (token : Token) k, .acted token.visit .cleanup k ∈ w.marks →
      w.isCancelled token.visit = true) ∧
    Numbered w ∧
    (∀ (token : Token) u, token.visit ≠ u →
      (w.tearScope u).isCancelled token.visit = w.isCancelled token.visit) ∧
    (∀ i r (token : Token), (w.interpreter i).slot = some r → (w.visit token.visit).run = r →
      (w.forceStop i).isCancelled token.visit = true) ∧
    ∀ t w' failure route, w.Returns t w' failure → (w'.task t).route = some route →
      w'.isCancelled route.visit = true →
      (w.move t).marks = w'.marks ++ [.ended t .returned] := by
  have both : Scoped w σ ∧ Numbered w :=
    h.invariant (I := fun w σ => Scoped w σ ∧ Numbered w) ⟨.opening s, .opening s⟩
      fun o ⟨scopes, numbered⟩ beat => ⟨scopes.beat o beat, numbered.beat o beat⟩
  obtain ⟨scopes, numbered⟩ := both
  refine ⟨fun token going => ?_, fun token k acted => ?_, numbered, fun token u apart => ?_,
    fun i r token slot own => ?_, fun t w' failure route returns routed cancelled => ?_⟩
  · have whole : (w.visit token.visit).torn = false :=
      going.elim (scopes.waits _ _) (scopes.ahead _)
    rw [World.isCancelled, whole, Bool.false_or]
    exact ⟨h.orderly.asked _, h.orderly.heeded _⟩
  · rw [World.isCancelled, scopes.cleaned _ k acted, Bool.true_or]
  · exact World.isCancelled_tearScope_of_ne apart
  · exact World.isCancelled_forceStop slot own
  · rw [returns.move]
    exact World.marks_finish_of_isCancelled routed cancelled failure

/-- A state is entered twice, as one service takes it back to itself once, and another waits for
its token to be cancelled. -/
def twice : Scenario where
  machine := ⟨"m", "M", "a", some [
    { State.new "a" with
      routes := [(.named "again", "a")]
      services := [.free { body :=
          [.branch "entries" .lt 1 [.act (.add "entries" 1), .act (.raise "again")] []] },
        .routed { body := [.pause .untilCancelled] }]
      cleanup := ⟨[[.act .showFired]]⟩ }]⟩
  interpreters := 1
  limit := none
  observers := []
  steps := [.start 0, .script (.pause (.sleep 5)), .script (.act (.stop 0)), .join 0 100]

/-- The first visit is over and its tokens are cancelled, while those of the second are not; once
the run is stopped they are, and the service that waited for that returns and raises nothing. -/
theorem twice_tokens : (twice.play 33).isCancelled 0 = true ∧
    (twice.play 33).isCancelled 1 = false ∧ (twice.play 44).isCancelled 1 = true ∧
    ((twice.play 44).move 5).marks = (twice.play 44).marks ++ [.ended 5 .returned] := by
  obtain ⟨waits, cleaned, -⟩ := tokens_of_visits (twice.reaches_play 33).moment
  obtain ⟨-, -, -, -, -, returns⟩ := tokens_of_visits (twice.reaches_play 44).moment
  have whole : (twice.play 33).isCancelled 1 ≠ true :=
    mt (waits (.scope 1) (.inl (by rfl))).1 (by decide +kernel)
  have stopped : (twice.play 44).isCancelled 1 = true := by decide +kernel
  have ended : (twice.play 44).Returns 5 (twice.play 44) ((none : Option String).map .message) :=
    .script (s := []) (by rfl) (by rfl)
  refine ⟨cleaned (.scope 0) 0 (by decide +kernel), by simpa using whole, stopped, ?_⟩
  exact returns 5 _ none ⟨1, 1⟩ ended (by rfl) stopped

end Scenario

end Statechart
