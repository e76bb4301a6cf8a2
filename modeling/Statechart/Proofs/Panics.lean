import Statechart.Proofs.Settlement
import Statechart.Proofs.Stops

/-!
# Panics of tasks

A task of a visit that panics while nothing is decided ends the run of the visit. The host hears of
the panic when it is polled, and leaves the state without its exit actions; once the tasks that are
left are gone, the run returns that a task has panicked. An event that is accepted after the panic,
but before the host is polled, comes first all the same, since the inbox is looked at before the
tasks are.

## Main definitions

- `World.Bereaved`: a task of a visit has panicked.
- `World.Mourns`: a poll that ends a wait for a panic.
- `Mark.isMourning`: the marks that a run leaves after such a poll.

## Main statements

- `Scenario.Reaches.mourns`: a poll hears of a panic, if nothing was accepted and the run was not
  stopped.
- `Course.mourns`: what a run does after such a poll.
- `Scenario.panicked_of_ended`: runs whose tasks panic while nothing is decided.
-/

namespace Statechart

/-! ## Definitions -/

/-- A task of a visit has panicked. -/
def World.Bereaved (w : World) (v : VisitId) : Prop :=
  ∃ t, (w.task t).home = some v ∧ (w.task t).fate = some .panicked

/-- The poll of a visit goes on until it hears of a panic, which ends the wait. Then the host is
about to leave the visit, unless the cleanup has panicked. -/
structure World.Mourns (w : World) (v : VisitId) (n : Nat) : Prop where
  looks : ∀ k ≤ n, (w.moves (w.runOf v).host k).Polls v ∧
    (w.moves (w.runOf v).host k).marks = w.marks
  mourns : w.marks ++ [.concluded v .panicked] <+: (w.moves (w.runOf v).host (n + 1)).marks
  leaves : .released (w.visit v).run .stopped ∈ (w.moves (w.runOf v).host (n + 1)).marks ∨
    (w.moves (w.runOf v).host (n + 1)).Leaves (w.runOf v).host (w.visit v).run v .panicked

/-- The marks that a run leaves after a panic has ended the wait in a state: those of the cleanup,
of the tasks that go, and of the end of the run. -/
def Mark.isMourning (state : String) : Mark → Bool
  | .acted _ .cleanup _ | .ended _ _ | .left _ | .released _ _ | .stopAsked _ => true
  | .returned _ result => result = .error (.taskPanicked state)
  | _ => false

/-- Where a run may stand after a panic has ended the wait of a visit. -/
def Standing.Mourns (v : VisitId) (state : String) : Standing → Prop
  | .acting u phrase e _ => u = v ∧ phrase = .cleanup ∧ e = some .panicked
  | .draining u e | .left u e => u = v ∧ e = .panicked
  | .finished result => result = .error (.taskPanicked state)
  | .lost => True
  | .arriving .. | .told .. | .arrived _ | .launching .. | .waiting _ | .announced .. => False

section

variable {s : Scenario} {w w' : World} {t : TaskId} {r : RunId} {v : VisitId}

/-! ## Polls that hear of panics -/

/-- A visit that waits has yet to hear of the panic of a task, and of some that came first. -/
theorem World.Bereaved.split (h : w.Bereaved v) (staffed : Staffed w)
    (waits : ∀ e, .concluded v e ∉ w.marks) :
    ∃ calm t rest, (w.visit v).finished = calm ++ t :: rest ∧ (w.task t).fate = some .panicked ∧
      ∀ u ∈ calm, (w.task u).fate ≠ some .panicked := by
  obtain ⟨t, home, panicked⟩ := h
  have here : t ∈ (w.visit v).finished :=
    (staffed.mourned t v home panicked).resolve_right fun ⟨e, _, past⟩ => waits e past
  have found : ((w.visit v).finished.find? fun u => (w.task u).fate = some .panicked).isSome :=
    List.find?_isSome.2 ⟨t, here, by simpa using panicked⟩
  obtain ⟨u, hu⟩ := Option.isSome_iff_exists.1 found
  obtain ⟨fate, calm, rest, split, none⟩ := List.find?_eq_some_iff_append.1 hu
  exact ⟨calm, u, rest, split, by simpa using fate, fun x hx => by simpa using none x hx⟩

/-- The poll of a visit hears of a panic, if nothing was accepted and the run was not stopped. -/
theorem Scenario.Reaches.mourns (h : s.Reaches w) (p : w.Polls v)
    (free : (w.runOf v).cancelled = false) (silent : ∀ d, .raised v d true ∉ w.marks)
    (bereaved : w.Bereaved v) : ∃ n < (w.visit v).finished.length, w.Mourns v n := by
  have inbox := h.raced.1.inbox silent
  obtain ⟨calm, t, rest, split, panicked, none⟩ :=
    bereaved.split h.staffed (h.raced.2.unconcluded p.waits)
  obtain ⟨reach, heard⟩ := h.hears p free inbox split none
  have found : (w.moves (w.runOf v).host calm.length).finding? v = some .panicked := by
    simp [World.finding?, heard.runOf, free, heard.inbox, inbox, heard.finished, heard.task,
      panicked]
  obtain ⟨marks, leaves⟩ := reach.concludes (heard.polls p) found
  obtain ⟨listening, visit⟩ := heard.visit
  rw [heard.runOf, heard.marks, ← World.moves_succ] at marks
  rw [heard.runOf, visit, ← World.moves_succ] at leaves
  refine ⟨calm.length, by simp [split], fun k hk => ?_, marks, leaves.imp_right (·.1)⟩
  have part : (w.visit v).finished = calm.take k ++ (calm.drop k ++ t :: rest) := by
    rw [← List.append_assoc, List.take_append_drop, split]
  obtain ⟨-, heard⟩ := h.hears p free inbox part fun u hu => none u (List.mem_of_mem_take hu)
  rw [List.length_take, Nat.min_eq_left hk] at heard
  exact ⟨heard.polls p, heard.marks⟩

/-! ## What is left of the run -/

/-- A visit that a panic has ended is left for good. -/
theorem World.leave_panicked (w : World) (r : RunId) (v : VisitId) :
    .returned r (.error (.taskPanicked (w.visit v).state.id)) ∈
      (w.leave r v .panicked).1.marks := by
  simp [leave, conclude]

/-- What has become of a task that has ended. -/
theorem World.fate_endTask (w : World) (known : t < w.tasks.size) (fate : Fate) :
    ((w.endTask t fate).task t).fate = some fate := by
  obtain ⟨w₀, hw₀⟩ : ∃ w₀, w₀ = if fate = .panicked ∨ fate = .dropped
    then w.logDrops (w.task t).guards else w := ⟨_, rfl⟩
  have dropped : Spares none w w₀ := by
    rw [hw₀]
    split
    · exact .logDrops ..
    · exact .refl _ w
  have buried : t < (w₀.bury t fate).tasks.size :=
    Nat.lt_of_lt_of_le (Nat.lt_of_lt_of_le known dropped.tasks) (Table.size_le_modify ..)
  have released := Spares.letGoAll (c := none) (w₀.bury t fate)
    ((w.task t).reach.callback.toList ++ ((w.task t).route.map (·.visit)).toList)
  obtain ⟨w₁, hw₁⟩ : ∃ w₁, w₁ = (w₀.bury t fate).letGoAll
    ((w.task t).reach.callback.toList ++ ((w.task t).route.map (·.visit)).toList) := ⟨_, rfl⟩
  rw [← hw₁] at released
  have withdrawn : (w₁.withdraw t (w.task t).home).tasks = w₁.tasks := by
    unfold withdraw
    split <;> rfl
  have told := (Deeds.tellHome (w₁.withdraw t (w.task t).home) (w.task t).home).trans
    (Deeds.tellJoiner _ (w.task t).joiner)
  have size : t < (w₁.withdraw t (w.task t).home).tasks.size :=
    withdrawn ▸ Nat.lt_of_lt_of_le buried released.tasks
  rw [endTask_eq, ← hw₀, ← hw₁, (told.task t size).fate, task_withdraw,
    (released.task t buried).fate, fate_bury]

/-- A task that was aborted is gone when its turn comes. -/
theorem World.isAlive_beginTurn (alive : (w.task t).isAlive = true)
    (aborted : (w.task t).aborted = true) : ((w.beginTurn t).task t).isAlive = false := by
  have gone {x : World} (known : t < x.tasks.size) (fate : Fate) :
      ((x.endTask t fate).task t).isAlive = false := by
    rw [Task.isAlive, fate_endTask x known]
    rfl
  obtain ⟨w₀, hw₀⟩ : ∃ w₀, w₀ = { w with queue := w.queue.erase t } := ⟨_, rfl⟩
  have known : t < w₀.tasks.size := hw₀ ▸ lt_size_of_isAlive alive
  have aborted₀ : (w₀.task t).aborted = true := hw₀ ▸ aborted
  unfold beginTurn
  simp only
  rw [← hw₀, if_pos aborted₀]
  unfold dropTask
  split
  · next r job =>
    have dropped := Tends.dropRun w₀ r
    split
    · next eq =>
      rw [eq] at dropped
      exact gone (dropped.task known).1 _
    · next eq =>
      rw [eq] at dropped
      exact gone (dropped.task known).1 _
  · exact gone known _

/-- After a panic has ended the wait of a visit, a run goes on to return so, if it returns. -/
theorem Standing.Mourns.leg {st st' : Standing} {ms news : List Mark}
    (h : st.Mourns v (w.visit v).state.id) (leg : Leg w r ms st news st') :
    st'.Mourns v (w.visit v).state.id ∧ ∀ m ∈ news, m.isMourning (w.visit v).state.id = true := by
  cases leg with
  | rest => exact ⟨h, by simp⟩
  | ask => exact ⟨h, by simp [Mark.isMourning]⟩
  | fall going falls =>
    refine ⟨trivial, fun m hm => ?_⟩
    have fall := falls m hm
    cases m with
    | acted v phrase k => cases phrase <;> first | rfl | cases fall
    | left | ended | released => rfl
    | _ => cases fall
  | act =>
    obtain ⟨rfl, rfl, rfl⟩ := h
    exact ⟨⟨rfl, rfl, rfl⟩, by simp [Mark.isMourning]⟩
  | relax =>
    obtain ⟨rfl, -, same⟩ := h
    exact ⟨⟨rfl, Option.some.inj same⟩, by simp⟩
  | drop | quit => exact ⟨h, by simp [Mark.isMourning]⟩
  | exit exits =>
    obtain ⟨-, rfl⟩ := h
    exact exits.elim
  | close =>
    obtain ⟨-, phrase, -⟩ := h
    cases phrase
  | go after | announce after =>
    obtain ⟨-, rfl⟩ := h
    cases after
  | back after =>
    obtain ⟨rfl, rfl⟩ := h
    cases after
    exact ⟨rfl, by simp [Mark.isMourning]⟩
  | arrive =>
    obtain ⟨-, phrase, -⟩ := h
    cases phrase
  | tell | enter | pass | ready | launch | wait | turn | finish | conclude | halt | done =>
    exact h.elim

/-- While a run waits, it has not begun to leave. -/
theorem Course.unleft {ms : List Mark} (c : Course w r (.waiting v) ms) (k : Nat) :
    .acted v .exit k ∉ ms := by
  intro exited
  obtain ⟨past, x, account⟩ := c.account (by simp)
  obtain ⟨rfl, fits⟩ := account.suits.visit v rfl
  have here := account.upTo rfl exited rfl
  simp only [Stay.upTo, Stay.opening, List.mem_append, World.chainMarks, mem_actsOf] at here
  rcases here with ((here | here) | here) | here
  · simp at here
  · simp at here
  · unfold World.launchMarks at here
    split at here <;> simp at here
  · obtain ⟨t, -, other | ⟨fate, other⟩⟩ := fits.work _ here <;> cases other

/-- A run in which a panic has ended a wait leaves the state without its exit actions, and returns
that a task has panicked, if it returns. -/
theorem Course.mourns {st : Standing} {ms before after : List Mark} (c : Course w r st ms)
    (split : ms = before ++ .concluded v .panicked :: after) :
    st.Mourns v (w.visit v).state.id ∧ (∀ k, .acted v .exit k ∉ before) ∧
      ∀ m ∈ after, m.isMourning (w.visit v).state.id = true := by
  induction c generalizing after with
  | start =>
    have here : .concluded v .panicked ∈ [Mark.began r] := by simp [split]
    simp at here
  | @leg st st' ms news course leg ih =>
    rcases split_append split with ⟨mid, rfl, rfl⟩ | ⟨front, rfl, rest⟩
    · obtain ⟨mourns, exits, mourning⟩ := ih rfl
      obtain ⟨mourns', mourning'⟩ := mourns.leg leg
      refine ⟨mourns', exits, fun m hm => ?_⟩
      exact (List.mem_append.1 hm).elim (mourning m) (mourning' m)
    · have here : .concluded v .panicked ∈ news := by simp [rest]
      cases leg with
      | conclude =>
        cases List.mem_singleton.1 here
        cases front with
        | cons m front => simp at rest
        | nil =>
          cases rest
          refine ⟨⟨rfl, rfl, rfl⟩, fun k acted => ?_, by simp⟩
          exact course.unleft k (by simpa using acted)
      | pass => simp at here
      | fall _ falls => cases falls _ here
      | _ => simp at here

/-- A visit that was entered, and whose tasks go on, was not left in its run. -/
theorem World.Polls.began (p : w.Polls v) (orderly : Orderly w .rest) :
    .began (w.visit v).run ∈ w.marks := by
  have going : w.InProgress .rest (w.visit v).run := by
    have waits : (w.run (w.visit v).run).phase = .waiting v := p.waits
    exact .inl (by simp [waits])
  exact (orderly.slotted.owner _ _ (orderly.slotted.holder _ going)).2

end

namespace Scenario

/-- A task that panics while nothing is accepted ends its run, unless the run is stopped first. The
host hears of it in its poll, and the wait is over for the panic and for nothing else. From then on
nothing moves the machine, and no exit action runs: the tasks that are left were told to go, and are
gone when their turns come. Then the run returns that a task has panicked, and whenever it returns
it says so. -/
theorem panicked_of_ended {scn : Scenario} {w : World} (h : scn.Reaches w) (v : VisitId) :
    (w.Polls v → (w.runOf v).cancelled = false → (∀ d, .raised v d true ∉ w.marks) →
      w.Bereaved v → ∃ n < (w.visit v).finished.length, w.Mourns v n) ∧
    (∀ t e before after, w.marks = before ++ .concluded v e :: after →
      (w.task t).home = some v → .ended t .panicked ∈ before → (∀ d, .raised v d true ∉ before) →
      .stopAsked (w.visit v).run ∉ before → e = .panicked) ∧
    (∀ before after, w.marks = before ++ .concluded v .panicked :: after →
      (w.visit v).state.mode ≠ .transient → (∀ k, .acted v .exit k ∉ w.marks) ∧
      ∀ m ∈ after, w.subject? m = some (w.visit v).run →
        m.isMourning (w.visit v).state.id = true) ∧
    ∀ t, w.Leaves t (w.visit v).run v .panicked →
      (∀ u, (w.task u).home = some v → (w.task u).isAlive = true →
        (w.task u).aborted = true ∧ ((w.beginTurn u).task u).isAlive = false) ∧
      ((∀ u, (w.task u).home = some v → (w.task u).isAlive = false) →
        .returned (w.visit v).run (.error (.taskPanicked (w.visit v).state.id)) ∈
          (w.moves t ((w.visit v).finished.length + 1)).marks) := by
  refine ⟨fun polls free silent bereaved => h.mourns polls free silent bereaved,
    fun t e before after marks home ended silent free => ?_, fun before after marks going => ?_,
    fun t leaves => ⟨fun u home alive => ?_, fun gone => ?_⟩⟩
  · have going := (h.orderly.crewed.home t v home).2.2
    obtain ⟨w₀, reach, path, rfl, polls, found⟩ := h.polled marks going
    obtain ⟨-, beats⟩ := reach.later path
    obtain ⟨counted, raced⟩ := reach.raced
    have known := reach.orderly.recorded.task _ ended t rfl
    have home₀ : (w₀.task t).home = some v := (beats.lasting.home t known).symm.trans home
    cases e with
    | panicked => rfl
    | stopped =>
      refine absurd (reach.orderly.asked _ (World.cancelled_of_finding? found)) ?_
      have owner : (w.visit v).run = (w₀.visit v).run :=
        beats.lasting.owner v (reach.orderly.crewed.home t v home₀).1
      exact owner ▸ free
    | decided d => exact absurd ((h.raced.2.judged v _ _ _ marks).decided d rfl going) (silent d)
    | settled =>
      -- The panic is known from the moment that the task was gone.
      have told : Fate.panicked ∈ w₀.fates t :=
        List.mem_filterMap.2 ⟨_, ended, by simp [Mark.fate?]⟩
      rw [reach.orderly.fated t v home₀, Option.mem_toList] at told
      have quiet := World.quiescent_of_finding? reach.staffed counted
        (raced.unconcluded polls.waits) found
      exact absurd told (quiet.idle t home₀).2
  · obtain ⟨w₀, reach, path, rfl, polls, -⟩ := h.polled marks going
    obtain ⟨-, beats⟩ := reach.later path
    have owner : (w.visit v).run = (w₀.visit v).run :=
      beats.lasting.owner v (reach.sound.waits _ v (congrArg Phase.visit? polls.waits)).known
    have began : .began (w.visit v).run ∈ w.marks := by
      rw [marks, owner]
      exact List.mem_append_left _ (polls.began reach.orderly)
    obtain ⟨st, chart⟩ := h.orderly.charted _ began
    obtain ⟨-, exits, mourning⟩ := chart.course.mourns (World.way_of_marks marks rfl)
    refine ⟨fun k exited => ?_, fun m hm subject => ?_⟩
    · rw [marks, List.mem_append, List.mem_cons] at exited
      rcases exited with early | same | late
      · exact exits k (World.mem_filter_subject rfl early)
      · cases same
      · cases mourning _ (World.mem_filter_subject rfl late)
    · exact mourning m (World.mem_filter_subject subject hm)
  · have left : (w.task u).aborted = true := by
      rw [← Bool.not_eq_false]
      intro whole
      rcases h.orderly.loyal.whole u v ⟨home, alive, whole⟩ with waits | employs
      · cases waits.symm.trans leaves.phase
      · cases employs
    exact ⟨left, World.isAlive_beginTurn alive left⟩
  · have working : (w.visit v).working = [] := by
      refine List.eq_nil_iff_forall_not_mem.2 fun u hu => ?_
      cases (gone u (h.staffed.listed u v hu)).symm.trans ((h.staffed.busy v).2 u hu)
    obtain ⟨w', heard, rest⟩ := h.leaves leaves working
    obtain ⟨listening, visit⟩ := heard.visit
    have returned := w'.leave_panicked (w.visit v).run v
    rw [visit] at returned
    exact rest.subset returned

/-- A service panics beside an activity that never ends. -/
def mishap : Scenario where
  machine := ⟨"m", "M", "a", some [
    { State.new "a" with
      routes := [(.named "go", "b")]
      services := [.free { body := [.panic] }]
      activities := [{ body := [.pause .forever] }]
      cleanup := ⟨[[]]⟩
      exitActions := ⟨[[]]⟩ },
    { State.new "b" with mode := .final }]⟩
  interpreters := 1
  limit := none
  observers := []
  steps := [.run 0 100]

/-- The host hears of the panic, tells the activity to go, and returns once it is gone. -/
theorem mishap_panics :
    (∃ n < 1, (mishap.play 10).Mourns 0 n) ∧
      ((∀ e, (mishap.play 16).marks = (mishap.play 16).marks.take 11 ++
          .concluded 0 e :: (mishap.play 16).marks.drop 12 → e = .panicked) ∧
        ∀ k, .acted 0 .exit k ∉ (mishap.play 16).marks) ∧
      (((mishap.play 11).task 2).aborted = true ∧
        (((mishap.play 11).beginTurn 2).task 2).isAlive = false) ∧
      .returned 0 (.error (.taskPanicked "a")) ∈ ((mishap.play 14).moves 0 2).marks := by
  -- Nothing is ever accepted, so no earlier world has accepted anything either.
  have silent : (mishap.play 16).accepted 0 = [] := by decide +kernel
  have early : (mishap.play 10).marks = (mishap.play 16).marks.take 11 := by decide +kernel
  have quiet (d : Decision) : .raised 0 d true ∉ (mishap.play 16).marks := fun raised => by
    rw [← World.mem_accepted, silent] at raised
    cases raised
  refine ⟨?_, ?_, ?_, ?_⟩
  · obtain ⟨hears, -, -, -⟩ := panicked_of_ended (mishap.reaches_play 10) 0
    refine hears ⟨by decide +kernel, rfl⟩ (by decide +kernel)
      (fun d raised => ?_) ⟨1, by decide +kernel, by decide +kernel⟩
    rw [early] at raised
    exact quiet d (List.mem_of_mem_take raised)
  · obtain ⟨-, ends, past, -⟩ := panicked_of_ended (mishap.reaches_play 16) 0
    have marks : (mishap.play 16).marks = (mishap.play 16).marks.take 11 ++
        .concluded 0 .panicked :: (mishap.play 16).marks.drop 12 := by decide +kernel
    refine ⟨fun e split => ?_, (past _ _ marks (by decide +kernel)).1⟩
    exact ends 1 e _ _ split (by decide +kernel) (by decide +kernel)
      (fun d raised => quiet d (List.mem_of_mem_take raised)) (by decide +kernel)
  · obtain ⟨-, -, -, left⟩ := panicked_of_ended (mishap.reaches_play 11) 0
    exact (left 0 ⟨by decide +kernel, by decide +kernel, rfl⟩).1 2 (by decide +kernel)
      (by decide +kernel)
  · obtain ⟨-, -, -, left⟩ := panicked_of_ended (mishap.reaches_play 14) 0
    have gone : ∀ u < (mishap.play 14).tasks.size, ((mishap.play 14).task u).home = some 0 →
        ((mishap.play 14).task u).isAlive = false := by decide +kernel
    refine (left 0 ⟨by decide +kernel, by decide +kernel, rfl⟩).2 fun u home => gone u ?_ home
    refine Nat.lt_of_not_le fun new => ?_
    cases home.symm.trans (World.home_of_size_le new)

/-- A service panics, and another one returns before the host is polled. -/
def overtaken : Scenario where
  machine := ⟨"m", "M", "a", some [
    { State.new "a" with
      routes := [(.succeeded 1, "b")]
      services := [.free { body := [.panic] }, .routed {}] },
    { State.new "b" with mode := .final }]⟩
  interpreters := 1
  limit := none
  observers := []
  steps := [.run 0 100]

/-- A service panics, and so does the cleanup. -/
def collapse : Scenario where
  machine := ⟨"m", "M", "a", some [
    { State.new "a" with services := [.free { body := [.panic] }], cleanup := ⟨[[.panic]]⟩ }]⟩
  interpreters := 1
  limit := none
  observers := []
  steps := [.run 0 100]

/-- A panic that comes before anything is accepted does not end every run, although nothing stops
it; and a run whose cleanup panics in turn is over without a result, although its host is not
dropped. -/
theorem exists_panic_ignored :
    (¬ ∀ (scn : Scenario) (w : World) (v : VisitId) (t : TaskId) (before after : List Mark),
      scn.Reaches w → w.marks = before ++ .ended t .panicked :: after →
      (w.task t).home = some v → (∀ d, .raised v d true ∉ before) →
      .stopAsked (w.visit v).run ∉ w.marks →
      ∀ result, .returned (w.visit v).run result ∈ w.marks →
        result = .error (.taskPanicked (w.visit v).state.id)) ∧
    ¬ ∀ (scn : Scenario) (w : World) (v : VisitId) (t : TaskId), scn.Reaches w →
      .ended t .panicked ∈ w.marks → (w.task t).home = some v → (∀ d, .raised v d true ∉ w.marks) →
      .stopAsked (w.visit v).run ∉ w.marks → ((w.task (w.runOf v).host).isAlive = true ∧
        (w.task (w.runOf v).host).aborted = false ∧ w.now = 0) →
      ∀ status, .released (w.visit v).run status ∈ w.marks →
        .returned (w.visit v).run (.error (.taskPanicked (w.visit v).state.id)) ∈ w.marks := by
  constructor
  · intro all
    have silent : ((overtaken.play 17).marks.take 8).filterMap (Mark.accepted? 0) = [] := by
      decide +kernel
    have returned := all overtaken _ 0 1 ((overtaken.play 17).marks.take 8)
      ((overtaken.play 17).marks.drop 9) (overtaken.reaches_play 17) (by decide +kernel)
      (by decide +kernel) (fun d raised => by cases List.filterMap_eq_nil_iff.1 silent _ raised)
      (by decide +kernel) (.ok .done) (by decide +kernel)
    cases returned
  · intro all
    have silent : (collapse.play 20).accepted 0 = [] := by decide +kernel
    have returned := all collapse _ 0 1 (collapse.reaches_play 20) (by decide +kernel)
      (by decide +kernel) (fun d raised => by
        rw [← World.mem_accepted, silent] at raised
        cases raised) (by decide +kernel) (by decide +kernel) .stopped (by decide +kernel)
    have none : .returned 0 (.error (.taskPanicked "a")) ∉ (collapse.play 20).marks := by
      decide +kernel
    exact none returned

end Scenario

end Statechart
