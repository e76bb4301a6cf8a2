import Statechart.Proofs.Moments

/-!
# Teardown

What has become of the machines nested below a state when its exit actions begin. Those that the
state's own tasks drive are over by then: their cleanup is done, and nothing of theirs goes on.
Their own tasks were told to go and have no turn any more, so the machines that these drive go no
further either; but these need not have been dropped yet, and their cleanup may come later.

## Main definitions

- `World.Doomed`: a task has no turn any more.
- `World.Nests`, `World.Contains`: which task of a visit, and of a run, drives which run.
- `World.Clears`: what has become of the machines nested in a visit.
- `World.Dismisses`: whoever is left below a visit was told to go, or somebody above was.

## Main statements

- `Beats.doomed`: a task that was told to go has no turn any more.
- `Beats.falls`: a run whose host has no turn any more does nothing but fall.
- `Scenario.clears_of_exit`: before the exit actions of a state begin, its machines are over.
- `Scenario.exists_cleanup_late`: the machines that are nested deeper need not be.
-/

namespace Statechart

/-! ## Definitions -/

namespace World

/-- A task is gone, or it was told to go and does not have the turn. -/
def Doomed (w : World) (t : TaskId) : Prop :=
  (w.task t).isAlive = true → (w.task t).aborted = true ∧ w.running ≠ some t

/-- A run was begun that a task of the visit drives. -/
structure Nests (w : World) (v : VisitId) (r : RunId) : Prop where
  began : .began r ∈ w.marks
  host : (w.task (w.run r).host).home = some v

/-- A run was begun that a task of one of the visits of another run drives. -/
def Contains (w : World) (r q : RunId) : Prop :=
  ∃ v, (w.visit v).run = r ∧ w.Nests v q

/-- A run is nested in a visit, at any depth. -/
def Below (w : World) (v : VisitId) (r : RunId) : Prop :=
  ∃ q, w.Nests v q ∧ Relation.ReflTransGen w.Contains q r

/-- The cleanup of each visit of a run that has come to need one is done. -/
def Tended (w : World) (r : RunId) (before : List Mark) : Prop :=
  ∀ v, (w.visit v).run = r → w.HasArrived v → ¬ (w.visit v).state.cleanup.Panics →
    before.filterMap (Mark.cleanup? v) = List.range (w.visit v).state.cleanup.actions.length

/-- By a moment, the tasks of a visit have ended, and the runs that they drive are over: their
cleanup is done, and all that is left of them are tasks that go, without having another turn. The
runs that these drive do nothing any more but fall. -/
structure Clears (w : World) (v : VisitId) (before after : List Mark) : Prop where
  ended : ∀ t, (w.task t).home = some v →
    (∃ fate, .ended t fate ∈ before) ∧ .turn t ∉ after
  tended : ∀ r, w.Nests v r → w.Tended r before
  quiet : ∀ r, w.Nests v r → ∀ m ∈ after, w.subject? m = some r →
    m.isAside = true ∧ ∀ t, m ≠ .turn t
  falls : ∀ r q, w.Nests v r → w.Contains r q → ∀ m ∈ after, w.subject? m = some q →
    m.isFall = true ∨ m.isAside = true

/-- Whoever works below a visit, at any depth, was told to go, or there is a run above whose host
is still there and was told to go. -/
def Dismisses (w : World) (v : VisitId) : Prop :=
  ∀ r q u t, w.Nests v r → Relation.ReflTransGen w.Contains r q → (w.visit u).run = q →
    (w.task t).home = some u → (w.task t).isAlive = true → (w.task t).aborted = true ∨
      ∃ p, Relation.ReflTransGen w.Contains r p ∧ Relation.ReflTransGen w.Contains p q ∧
        (w.task (w.run p).host).isAlive = true ∧ (w.task (w.run p).host).aborted = true

end World

/-! ## Tasks that were told to go -/

section

variable {w w' : World} {σ σ' : Stage} {x y : World × Stage} {t : TaskId} {r q : RunId}
  {v : VisitId} {m : Mark}

/-- Who has a turn by a beat has it after the beat. -/
theorem Beat.turned (b : Beat (w, σ) (w', σ')) (staged : Staged w σ) :
    ∃ news, w'.marks = w.marks ++ news ∧ ∀ t, .turn t ∈ news → w'.running = some t := by
  cases b with
  | stir b =>
    obtain ⟨news, marks, talk⟩ := b.marks
    refine ⟨news, marks, fun t hm => ?_⟩
    cases (talk _ hm).2
  | stride b =>
    obtain ⟨news, marks, speaks⟩ := b.speaks staged
    refine ⟨news, marks, fun t hm => ?_⟩
    cases (speaks _ hm).way
  | shift b =>
    cases b with
    | @turn _ u => exact ⟨[.turn u], by simp, fun t ht => by simpa [eq_comm] using ht⟩
    | unqueue | resume => exact ⟨[], by simp, by simp⟩
    | @park _ _ u =>
      obtain ⟨queue, -, parked⟩ := w.park_eq u
      exact ⟨[], by simp [parked], by simp⟩
    | retire alive ease late chores =>
      exact ⟨_, (Retired.of_chores chores).marks, by simp⟩
    | begin i s => exact ⟨[.began w.runs.size], by simp, by simp⟩

theorem Beat.doomed (b : Beat (w, σ) (w', σ')) (home : (w.task t).home = some v)
    (doomed : w.Doomed t) : w'.Doomed t := by
  intro alive
  obtain ⟨aborted, still⟩ := doomed (b.alive home alive)
  refine ⟨b.aborted home alive aborted, fun turn => ?_⟩
  rcases b.turn turn with old | ⟨-, whole⟩
  · exact still old
  · cases aborted.symm.trans whole

/-- A task that was told to go has no turn any more. -/
theorem Beats.doomed (b : Beats x y) (o : Orderly x.1 x.2) (home : (x.1.task t).home = some v)
    (doomed : x.1.Doomed t) : y.1.Doomed t ∧
      ∃ news, y.1.marks = x.1.marks ++ news ∧ ∀ m ∈ news, m ≠ .turn t := by
  obtain ⟨⟨-, doomed'⟩, news⟩ := b.news o
    (I := fun x => (x.1.task t).home = some v ∧ x.1.Doomed t)
    (P := fun _ m => m ≠ .turn t) ⟨home, doomed⟩
    (fun o ⟨home, doomed⟩ beat => by
      -- Whoever has a turn by this beat has it afterwards, which the task does not.
      have doomed' := beat.doomed home doomed
      obtain ⟨news, marks, turns⟩ := beat.turned o.toStaged
      refine ⟨⟨beat.lasting.homes home, doomed'⟩, news, marks, ?_⟩
      rintro _ hm rfl
      have turn := turns t hm
      exact (doomed' ((o.beat beat).turn t turn)).2 turn)
    (fun _ _ _ => id)
  exact ⟨doomed', news⟩

/-! ## Runs whose hosts were told to go -/

/-- A run that is there keeps its host. -/
theorem Beat.host (b : Beat (w, σ) (w', σ')) (known : r < w.runs.size) :
    (w'.run r).host = (w.run r).host := by
  cases b with
  | stir b => exact (b.steady.run r known).host
  | shift b => exact (b.steady.run r known).host
  | @stride t q _ _ b =>
    by_cases hq : r = q
    · exact hq ▸ b.onward.host
    · rw [b.onward.run r hq]

/-- A task that works for a visit and has no turn any more begins no run. -/
theorem Beats.founded (b : Beats x y) (o : Orderly x.1 x.2) (home : (x.1.task t).home = some v)
    (doomed : x.1.Doomed t) (began : .began r ∈ y.1.marks) (host : (y.1.run r).host = t) :
    .began r ∈ x.1.marks ∧ (x.1.run r).host = t := by
  induction b with
  | refl => exact ⟨began, host⟩
  | @tail u y beats beat ih =>
    have ou := o.beats beats
    rcases beat.begins ou.toStaged began with old | ⟨-, s, begins⟩
    · exact ih old (beat.host (ou.rooted.run r old) ▸ host)
    · -- A run begins with a host that is new, or that has the turn.
      have there := (Beats.lasting beats).homes home
      rcases begins.host with new | turn
      · rw [host] at new
        cases (World.home_of_size_le (Nat.le_of_eq new.symm)).symm.trans there
      · rw [host] at turn
        obtain ⟨doomed', -⟩ := Beats.doomed beats o home doomed
        exact absurd turn (doomed' (ou.turn t turn)).2

/-- A run whose host does not have the turn does nothing but fall. -/
theorem Stride.falls (b : Stride t r (w, σ) (w', σ')) (staged : Staged w σ)
    (off : w.running ≠ some t) :
    ∃ news, w'.marks = w.marks ++ news ∧ ∀ m ∈ news, m.isFall = true := by
  have on {P : Prop} {s : Spot} (hσ : σ = .busy t r s) (hs : s.isOnTurn = true) : P :=
    absurd ((staged.placed t r s hσ).turn hs) off
  cases b with
  | depart drives | tell drives | look drives | idle drives | conclude drives | exit drives
  | quit drives | halt drives => exact absurd drives.turn off
  | hear | visit | act | arrive | pass | ready | launch | crew | wait | forsake | relax | close
  | go | announce | toll | back | done | shut => exact on rfl rfl
  | tear early =>
    rcases early with rfl | rfl
    · exact on rfl rfl
    · exact ⟨[], by simp, by simp⟩
  | tend => exact ⟨_, World.marks_mark .., by simp [Mark.isFall]⟩
  | tended | dropBegun | dropArriving => exact ⟨[], by simp, by simp⟩
  | unwind ease =>
    rcases ease with ⟨s, c, rest, rfl⟩ | ⟨rest, rfl⟩ | rfl
    · exact on rfl rfl
    · exact on rfl rfl
    · exact ⟨_, World.marks_release .., by simp [Mark.isFall]⟩
  | @dropWaiting _ _ v => exact ⟨[.left v], by simp, by simp [Mark.isFall]⟩
  | @dropDraining _ _ v => exact ⟨[.left v], by simp, by simp [Mark.isFall]⟩

/-- A run whose host was told to go does nothing any more but fall. -/
theorem Beats.falls (b : Beats x y) (o : Orderly x.1 x.2) (began : .began r ∈ x.1.marks)
    (host : (x.1.run r).host = t) (home : (x.1.task t).home = some v) (doomed : x.1.Doomed t) :
    ∃ news, y.1.marks = x.1.marks ++ news ∧ ∀ m ∈ news, y.1.subject? m = some r →
      m.isFall = true ∨ m.isAside = true := by
  refine (b.news o
    (I := fun x => .began r ∈ x.1.marks ∧ (x.1.run r).host = t ∧ (x.1.task t).home = some v ∧
      x.1.Doomed t)
    (P := fun w m => w.subject? m = some r → m.isFall = true ∨ m.isAside = true)
    ⟨began, host, home, doomed⟩ ?_
    fun o beat hm said subject => said (beat.subject? o hm ▸ subject)).2
  rintro w w' σ σ' o ⟨began, host, home, doomed⟩ beat
  refine ⟨⟨beat.mem_marks o.toStaged began, (beat.host (o.rooted.run r began)).trans host,
    beat.lasting.homes home, beat.doomed home doomed⟩, ?_⟩
  have steady (h : Steady w w') : ∃ news, w'.marks = w.marks ++ news ∧
      ∀ m ∈ news, w'.subject? m = some r → m.isFall = true ∨ m.isAside = true := by
    obtain ⟨news, marks, aside⟩ := h.marks
    exact ⟨news, marks, fun m hm _ => .inr (aside m hm)⟩
  cases beat with
  | stir b => exact steady b.steady
  | shift b => exact steady b.steady
  | @stride u q _ _ b =>
    obtain ⟨news, marks, speaks⟩ := b.speaks o.toStaged
    -- The run itself is taken further by its host, which does not have the turn; what other runs
    -- leave is not about it.
    by_cases mine : q = r
    · subst mine
      have hosts := b.hosts o.toQueued o.toHosted
      cases hosts.host.symm.trans host
      obtain ⟨news', marks', falls⟩ := b.falls o.toStaged (doomed hosts.alive).2
      exact ⟨news', marks', fun m hm _ => .inl (falls m hm)⟩
    · refine ⟨news, marks, fun m hm subject => ?_⟩
      exact absurd (Option.some.inj ((speaks m hm).subject?.symm.trans subject)) mine

/-! ## Tasks that come to a visit -/

/-- Nobody comes to work for a visit whose work is not set up any more. -/
theorem Beats.homes (b : Beats x y) (home : (y.1.task t).home = some v)
    (never : ∀ u, Beats x u → Beats u y → ∀ t r k, u.2 ≠ .busy t r (.launching v k)) :
    (x.1.task t).home = some v := by
  induction b with
  | refl => exact home
  | @tail u y beats beat ih =>
    rcases beat.came home with old | ⟨t, r, k, busy, -⟩
    · exact ih old fun u' early late => never u' early (late.tail beat)
    · exact absurd busy (never u beats (.single beat) t r k)

/-- Nobody comes to work for a visit of a run that is over. -/
theorem Beats.homes_of_over (b : Beats x y) (o : Orderly x.1 x.2) (known : r < x.1.runs.size)
    (finished : ¬ x.1.InProgress x.2 r) (own : (y.1.visit v).run = r)
    (home : (y.1.task t).home = some v) : (x.1.task t).home = some v := by
  refine b.homes home fun u early late t q k busy => ?_
  have mine := ((o.beats early).placed t q _ busy).own v rfl
  have same : q = r := mine.run.symm.trans ((Beats.lasting late).owner v mine.known ▸ own)
  exact (Beats.quiet early o known finished).1 (same ▸ .inr ⟨t, _, busy, by simp⟩)

/-- The work of a visit is set up before its exit actions begin. -/
theorem Course.launching {k j : Nat} {ms : List Mark} (c : Course w r (.launching v k) ms) :
    .acted v .exit j ∉ ms := by
  intro exited
  obtain ⟨past, x, account⟩ := c.account (by simp)
  have here := account.upTo rfl exited rfl
  simp only [Stay.upTo, Stay.opening, World.chainMarks, actsOf, List.mem_append] at here
  rcases here with ((here | here) | here) | here
  · simp at here
  · simp at here
  · simp at here
  · obtain ⟨part, -, launched⟩ := List.mem_map.1 here
    cases launched

/-- Nobody comes to work for a visit whose exit actions have begun. -/
theorem Beats.homes_of_exit {k : Nat} (b : Beats x y) (o : Orderly x.1 x.2)
    (exited : .acted v .exit k ∈ x.1.marks) (home : (y.1.task t).home = some v) :
    (x.1.task t).home = some v := by
  refine b.homes home fun u early _ t r k busy => ?_
  have ou := o.beats early
  have mine := (ou.placed t r _ busy).own v rfl
  rw [busy] at ou
  refine (ou.chart rfl).course.launching (World.mem_way.2 ⟨early.mem o exited, ?_⟩)
  exact congrArg some mine.run

/-! ## The moment at which an exit action begins -/

/-- An exit action begins when its run is to carry it out. -/
theorem Stride.exits {k : Nat} {news : List Mark} (b : Stride t r (w, σ) (w', σ'))
    (marks : w'.marks = w.marks ++ news) (hm : .acted v .exit k ∈ news) :
    σ = .busy t r (.acting v .exit k) ∧ w' = w.mark (.acted v .exit k) := by
  cases b.notes marks hm with
  | act => exact ⟨rfl, rfl⟩
  | other plain => cases plain

namespace Orderly

/-- The tasks of a visit are gone when its exit actions run. -/
theorem gone {k : Nat} (o : Orderly w (.busy t r (.acting v .exit k))) {u : TaskId}
    (home : (w.task u).home = some v) : (w.task u).isAlive = false := by
  rw [← Bool.not_eq_true]
  intro alive
  rcases (o.chart rfl).crew u v home ((o.placed t r _ rfl).own v rfl).run alive with lost | here
  · cases lost
  · cases here

/-- A run whose host is gone is over. -/
theorem finished (o : Orderly w σ) (gone : (w.task (w.run r).host).isAlive = false) :
    ¬ w.InProgress σ r := by
  rintro (going | ⟨t, s, busy, -⟩)
  · cases gone.symm.trans (o.host r going).alive
  · have hosts := o.busy t r s busy
    rw [hosts.host, hosts.alive] at gone
    cases gone

/-- The tasks of a run that is over were told to go. -/
theorem doomed {s : Spot} (o : Orderly w (.busy t q s)) (idle : s.employs? = none)
    (finished : ¬ w.InProgress (.busy t q s) r) (own : (w.visit v).run = r) {u : TaskId}
    (home : (w.task u).home = some v) : w.Doomed u := by
  have ended : (w.runOf v).phase = .ended := by
    rw [World.runOf, own]
    exact Classical.not_not.1 fun going => finished (.inl going)
  intro alive
  constructor
  · rw [← Bool.not_eq_false]
    intro whole
    rcases o.loyal.whole u v ⟨home, alive, whole⟩ with waits | employs
    · cases ended.symm.trans waits
    · cases idle.symm.trans employs
  · intro turn
    cases ended.symm.trans (o.loyal.turn u v turn home)

end Orderly

/-- Whoever is left below a visit when its exit actions run was told to go, or somebody above
was. -/
theorem Orderly.dismisses {k : Nat} (o : Orderly w (.busy t r (.acting v .exit k))) :
    w.Dismisses v := by
  -- The path from above to a run in progress passes a host that was told to go.
  have above {p q : RunId} (nests : w.Nests v p) (path : Relation.ReflTransGen w.Contains p q)
      (going : w.InProgress (.busy t r (.acting v .exit k)) q) :
      ∃ p', Relation.ReflTransGen w.Contains p p' ∧ Relation.ReflTransGen w.Contains p' q ∧
        (w.task (w.run p').host).isAlive = true ∧ (w.task (w.run p').host).aborted = true := by
    induction path with
    | refl => exact absurd going (o.finished (o.gone nests.host))
    | @tail q' q path step ih =>
      -- Either the run above is still in progress, and the path to it passes such a host, or it is
      -- over and this host is one of its tasks.
      by_cases going' : w.InProgress (.busy t r (.acting v .exit k)) q'
      · obtain ⟨p', early, late, host⟩ := ih going'
        exact ⟨p', early, late.tail step, host⟩
      · obtain ⟨u, own, nests⟩ := step
        have alive : (w.task (w.run q).host).isAlive = true := by
          rw [← Bool.not_eq_false]
          exact fun gone => o.finished gone going
        exact ⟨q, path.tail ⟨u, own, nests⟩, .refl, alive,
          (o.doomed rfl going' own nests.host alive).1⟩
  intro p q u x nests path own home alive
  by_cases going : w.InProgress (.busy t r (.acting v .exit k)) q
  · exact .inr (above nests path going)
  · exact .inl (o.doomed rfl going own home alive).1

/-- What is cleaned up of a run that is over stays so. -/
theorem Beats.tended (b : Beats x y) (o : Orderly x.1 x.2) (idle : x.2.tends? = none)
    (known : r < x.1.runs.size) (finished : ¬ x.1.InProgress x.2 r) : y.1.Tended r x.1.marks := by
  obtain ⟨-, news, marks, aside⟩ := b.quiet o known finished
  intro v own arrived calm
  have before : x.1.HasArrived v := by
    have here : .arrived v ∈ y.1.marks := arrived
    rw [marks] at here
    rcases List.mem_append.1 here with old | new
    · exact old
    · cases aside _ new (congrArg some own)
  -- The visit is not open any more, so nothing of its cleanup is outstanding.
  have there := o.recorded.visit _ before v rfl
  have l := b.lasting
  have closed : ¬ x.1.IsOpen v := by
    have ended := Classical.not_not.1 fun going => finished (.inl going)
    rw [World.isOpen_iff (l.owner v there ▸ own), ended]
    exact nofun
  rw [l.state v there] at calm ⊢
  have count := o.tidy.count v before calm
  rwa [World.due_of_ne (by simp [idle]), World.share_of_not_isOpen closed] at count

/-- The machines of a visit are over when its exit actions run. -/
theorem Orderly.clears {k : Nat} {after : List Mark}
    (o : Orderly w (.busy t r (.acting v .exit k)))
    (b : Beat (w, .busy t r (.acting v .exit k)) (w.mark (.acted v .exit k), σ'))
    (late : Beats (w.mark (.acted v .exit k), σ') y)
    (marks : y.1.marks = w.marks ++ .acted v .exit k :: after) : y.1.Clears v w.marks after := by
  have beats : Beats (w, .busy t r (.acting v .exit k)) y := .head b late
  -- What is said of all marks that come is said of those after the exit action.
  have later {P : Mark → Prop} (said : ∃ news, y.1.marks = w.marks ++ news ∧ ∀ m ∈ news, P m) :
      ∀ m ∈ after, P m := by
    obtain ⟨news, added, said⟩ := said
    cases List.append_cancel_left (added.symm.trans marks)
    exact fun m hm => said m (List.mem_cons_of_mem _ hm)
  have mine {u : TaskId} (home : (y.1.task u).home = some v) : (w.task u).home = some v := by
    have exited : .acted v .exit k ∈ (w.mark (.acted v .exit k)).marks := by simp
    exact late.homes_of_exit (o.beat b) exited home
  have direct {q : RunId} (nests : y.1.Nests v q) : .began q ∈ w.marks ∧
      ¬ w.InProgress (.busy t r (.acting v .exit k)) q := by
    have gone := o.gone (mine nests.host)
    have doomed : w.Doomed (y.1.run q).host := fun alive => by
      cases gone.symm.trans alive
    obtain ⟨began, host⟩ := beats.founded o (mine nests.host) doomed nests.began rfl
    exact ⟨began, o.finished (host ▸ gone)⟩
  -- The tasks of a run that is over were there before, and were told to go.
  have inner {q : RunId} {n : VisitId} {u : TaskId} (began : .began q ∈ w.marks)
      (finished : ¬ w.InProgress (.busy t r (.acting v .exit k)) q) (own : (y.1.visit n).run = q)
      (home : (y.1.task u).home = some n) : (w.task u).home = some n ∧ w.Doomed u := by
    have home := beats.homes_of_over o (o.rooted.run q began) finished own home
    rw [beats.lasting.owner n (o.crewed.home u n home).1] at own
    exact ⟨home, o.doomed rfl finished own home⟩
  refine ⟨fun u home => ⟨?_, fun turn => ?_⟩, fun q nests => ?_,
    fun q nests m hm subject => ?_, ?_⟩
  · exact Fated.ended o.fated (mine home) (o.gone (mine home))
  · obtain ⟨-, dead⟩ := beats.dead o (mine home) (o.gone (mine home))
    exact later dead _ turn rfl
  · obtain ⟨began, finished⟩ := direct nests
    exact beats.tended o rfl (o.rooted.run q began) finished
  · obtain ⟨began, finished⟩ := direct nests
    obtain ⟨-, quiet⟩ := beats.quiet o (o.rooted.run q began) finished
    refine ⟨later quiet m hm subject, ?_⟩
    rintro u rfl
    obtain ⟨n, home, own⟩ := Option.map_eq_some_iff.1 subject
    obtain ⟨home, doomed⟩ := inner began finished own home
    exact later (beats.doomed o home doomed).2 _ hm rfl
  · rintro q q' nests ⟨n, own, nests'⟩ m hm subject
    obtain ⟨began, finished⟩ := direct nests
    obtain ⟨home, doomed⟩ := inner began finished own nests'.host
    obtain ⟨began', host⟩ := beats.founded o home doomed nests'.began rfl
    exact later (beats.falls o began' host home doomed) m hm subject

end

/-- When the exit actions of a state begin, the machines that the tasks of the state drive are
over, under every schedule: their cleanup is done, and neither they nor their tasks take another
step. What is nested deeper was told to go, or hangs from what was. -/
theorem Scenario.clears_of_exit {s : Scenario} {w : World} (h : s.Reaches w) {v : VisitId} {k : Nat}
    {before after : List Mark} (marks : w.marks = before ++ .acted v .exit k :: after) :
    w.Clears v before after ∧
      ∃ w₀, w₀.marks = before ∧ s.Passes w₀ (.acted v .exit k) w ∧ w₀.Dismisses v := by
  obtain ⟨w₀, rfl, passes⟩ := h.passes marks rfl fun stride marks hm => (stride.exits marks hm).2
  obtain ⟨σ, σ', early, beat, late⟩ := passes
  have o := (Orderly.opening s).beats early
  have o' := o.beat beat
  obtain ⟨t, r, stride⟩ := beat.stride_of_way (World.marks_mark ..) (List.mem_singleton_self _) rfl
  obtain ⟨rfl, -⟩ := stride.exits (World.marks_mark ..) (List.mem_singleton_self _)
  exact ⟨o.clears beat late marks, w₀, rfl, ⟨_, _, early, beat, late⟩, o.dismisses⟩

namespace Scenario

/-- A machine in a state with a cleanup action that does something. -/
def layer (services : List Service) (activities : List Work) : Machine :=
  ⟨"n", "N", "a", some [
    { State.new "a" with services, activities, cleanup := ⟨[[]]⟩ }]⟩

/-- A service moves a machine on that runs another one, and so on, three deep. -/
def cascade : Scenario where
  machine := ⟨"m", "M", "a", some [
    { State.new "a" with
      routes := [(.named "go", "b")]
      services := [
        .nested (layer [.nested (layer [.nested
          (layer [] [{ body := [.pause .forever] }])] [])] []),
        .free { body := [.pause .yield, .pause .yield, .pause .yield, .act (.raise "go")] }]
      exitActions := ⟨[[]]⟩ },
    { State.new "b" with mode := .final }]⟩
  interpreters := 1
  limit := none
  observers := []
  steps := [.run 0 100]

theorem marks_cascade : (cascade.play 53).marks =
    (cascade.play 53).marks.take 52 ++ .acted 0 .exit 0 :: (cascade.play 53).marks.drop 53 := by
  decide +kernel

theorem cascade_clears : (cascade.play 53).Clears 0 ((cascade.play 53).marks.take 52)
    ((cascade.play 53).marks.drop 53) :=
  (clears_of_exit (cascade.reaches_play 53) marks_cascade).1

/-- The cleanup of what is nested deeper may come after the exit actions of a state that is left
by an event. -/
theorem exists_cleanup_late :
    ¬ ∀ (s : Scenario) (n : Nat) (v : VisitId) (k : Nat) (before after : List Mark),
      (s.play n).marks = before ++ .acted v .exit k :: after →
      (∃ d, .concluded v (.decided d) ∈ before) →
      ∀ r, (s.play n).Below v r → (s.play n).Tended r before := by
  intro all
  have nests (v r : Nat) (began : .began r ∈ (cascade.play 53).marks)
      (host : ((cascade.play 53).task ((cascade.play 53).run r).host).home = some v) :
      (cascade.play 53).Nests v r := ⟨began, host⟩
  have second : (cascade.play 53).Contains 1 2 :=
    ⟨1, by decide +kernel, nests 1 2 (by decide +kernel) (by decide +kernel)⟩
  have third : (cascade.play 53).Contains 2 3 :=
    ⟨2, by decide +kernel, nests 2 3 (by decide +kernel) (by decide +kernel)⟩
  have below : (cascade.play 53).Below 0 3 :=
    ⟨1, nests 0 1 (by decide +kernel) (by decide +kernel), .tail (.single second) third⟩
  have tended := all cascade 53 0 0 _ _ marks_cascade ⟨⟨.named "go", none⟩, by decide +kernel⟩ 3
    below 3 (by decide +kernel) (by decide +kernel)
  have chain : ((cascade.play 53).visit 3).state.cleanup = ⟨[[]]⟩ := by rfl
  have calm : ¬ ((cascade.play 53).visit 3).state.cleanup.Panics := by
    rw [chain]
    rintro ⟨a, ha, w, panics⟩
    cases List.mem_singleton.1 ha
    simp [World.runAction, World.runScript] at panics
  have none : ((cascade.play 53).marks.take 52).filterMap (Mark.cleanup? 3) = [] := by
    decide +kernel
  rw [none, chain] at tended
  cases tended calm

end Scenario

end Statechart
