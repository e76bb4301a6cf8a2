import Mathlib.Data.List.Nodup
import Statechart.Proofs.News
import Statechart.Proofs.Stays

/-!
# What comes after a stay

The stays of a run that has returned come one after the other, so whatever a stay comes to shows in
what follows it: in the next stay, or in the result of the run.

## Main definitions

- `World.Sequel`: what follows a stay agrees with what it came to.

## Main statements

- `Comes.sequel`: what follows a stay agrees with how it ended.
- `World.Unfolds.stay_of_concluded`: every wait that is over is that of a stay.
- `World.Unfolds.mem_acted`: which actions of its state are carried out in a stay.
- `Scenario.Reaches.sequels`: a run that has returned consists of stays, each followed by what it
  came to.
-/

namespace Statechart

/-- What follows a stay of a run that has returned agrees with what the stay came to: the next stay
comes from it, unless the run was stopped on the way, or the run has returned. -/
inductive World.Sequel (w : World) (result : RunResult) (x : Stay) :
    Aftermath → List Stay → Prop where
  | next {y : Stay} {rest : List Stay} {d : Decision} (previous : y.previous = some (x.state w).id)
      (cause : y.cause = some d) : Sequel w result x (.move (y.state w) d) (y :: rest)
  | halted {s : State} {d : Decision} (stopped : result = .ok .stopped) :
      Sequel w result x (.move s d) []
  | done (done : result = .ok .done) : Sequel w result x .announce []
  | back : Sequel w result x (.back result) []

section

variable {w : World} {m : Machine} {past before after : List Stay} {x : Stay} {s : State}
  {p : Option String} {c : Option Decision} {result : RunResult}

/-- One of the stays that end with a given one is that one, or comes before it. -/
theorem Stay.split_snoc {z : Stay} (here : past ++ [z] = before ++ x :: after) :
    (z = x ∧ after = []) ∨ ∃ after', after = after' ++ [z] ∧ past = before ++ x :: after' := by
  rcases List.eq_nil_or_concat after with rfl | ⟨after, z', rfl⟩
  · exact .inl ⟨List.singleton_inj.1 (List.append_inj' here rfl).2, rfl⟩
  · rw [List.concat_eq_append, ← List.cons_append, ← List.append_assoc] at here
    obtain ⟨split, last⟩ := List.append_inj' here rfl
    cases last
    exact .inr ⟨after, List.concat_eq_append, split⟩

/-- A stay leads to the next one. -/
def Stay.GoesOnTo (w : World) (m : Machine) (x y : Stay) : Prop :=
  ∃ d, m.aftermath (x.state w) x.ending = .move (y.state w) d ∧
    y.previous = some (x.state w).id ∧ y.cause = some d

/-- On the way to a state, every stay leads to the next one, and the last one to the state. -/
theorem Leads.sequel (h : Leads w m past s p c) (here : past = before ++ x :: after) :
    (∃ y rest, after = y :: rest ∧ x.GoesOnTo w m y) ∨
    ∃ d, after = [] ∧ m.aftermath (x.state w) x.ending = .move s d ∧ p = some (x.state w).id ∧
      c = some d := by
  induction h generalizing after with
  | start => exact absurd here (by simp)
  | @next past z s d before' onward ih =>
    rcases Stay.split_snoc here with ⟨rfl, rfl⟩ | ⟨after, rfl, split⟩
    · exact .inr ⟨d, rfl, onward, rfl, rfl⟩
    · rcases ih split with ⟨y, rest, rfl, goes⟩ | ⟨d', rfl, goes⟩
      · exact .inl ⟨y, rest ++ [z], rfl, goes⟩
      · exact .inl ⟨z, [], rfl, d', goes⟩

/-- Of the stays of a run, each leads to the next one. -/
theorem Leads.goesOn {z : Stay} (h : Leads w m past (z.state w) z.previous z.cause)
    (here : past ++ [z] = before ++ x :: after) :
    (z = x ∧ after = []) ∨ ∃ y rest, after = y :: rest ∧ x.GoesOnTo w m y := by
  refine (Stay.split_snoc here).imp_right fun ⟨after, rest, split⟩ => ?_
  rcases h.sequel split with ⟨y, rest', rfl, goes⟩ | ⟨d, rfl, goes⟩
  · exact ⟨y, rest' ++ [z], rest, goes⟩
  · exact ⟨z, [], rest, d, goes⟩

/-- What follows a stay agrees with how it ended. -/
theorem Comes.sequel (h : Comes w m past result) (here : past = before ++ x :: after) :
    w.Sequel result x (m.aftermath (x.state w) x.ending) after := by
  have next : (∃ y rest, after = y :: rest ∧ x.GoesOnTo w m y) →
      w.Sequel result x (m.aftermath (x.state w) x.ending) after := by
    rintro ⟨y, rest, rfl, d, goes, previous, cause⟩
    exact goes ▸ .next previous cause
  cases h with
  | stopped leads =>
    refine (leads.sequel here).elim next fun ⟨d, last, goes, _⟩ => ?_
    exact last ▸ goes ▸ .halted rfl
  | back leads onward =>
    refine (leads.goesOn here).elim (fun ⟨same, last⟩ => ?_) next
    cases same
    exact last ▸ onward ▸ .back
  | done leads onward =>
    refine (leads.goesOn here).elim (fun ⟨same, last⟩ => ?_) next
    cases same
    exact last ▸ onward ▸ .done rfl

end

/-! ## Runs that have returned -/

section

variable {s : Scenario} {w : World} {r : RunId} {result : RunResult} {stays : List Stay}

/-- Every wait of a run that is over is that of one of its stays. -/
theorem World.Unfolds.stay_of_concluded (h : w.Unfolds r result stays) {v : VisitId} {e : Ending}
    (own : w.Owns r v) (concluded : .concluded v e ∈ w.marks) :
    ∃ x ∈ stays, x.visit = v ∧ x.ending = e := by
  have steady : .concluded v e ∈ (w.way r).filter Mark.isSteady :=
    List.mem_filter.2 ⟨World.mem_way.2 ⟨concluded, congrArg some own.run⟩, rfl⟩
  have coda : .concluded v e ∉ Standing.coda r (.finished result) := by
    unfold Standing.coda
    split <;> simp
  rw [h.way, List.mem_append, List.mem_cons, List.mem_flatMap] at steady
  obtain ⟨x, hx, here⟩ := (steady.resolve_right coda).resolve_left (by simp)
  -- A stay tells of one end of a wait.
  have news : .concluded v e ∈ (x.marks w r).filter Mark.isNews := List.mem_filter.2 ⟨here, rfl⟩
  rw [(h.fits x hx).news] at news
  simp only [Stay.news, List.mem_cons, reduceCtorEq, Mark.concluded.injEq, List.not_mem_nil,
    or_false, false_or] at news
  exact ⟨x, hx, news.1.symm, news.2.symm⟩

/-- The wait of every stay is over. -/
theorem World.Unfolds.concluded (h : w.Unfolds r result stays) {x : Stay} (hx : x ∈ stays) :
    .concluded x.visit x.ending ∈ w.marks := by
  have steady : .concluded x.visit x.ending ∈ (w.way r).filter Mark.isSteady := by
    rw [h.way]
    refine List.mem_append_left _ (List.mem_cons_of_mem _ (List.mem_flatMap.2 ⟨x, hx, ?_⟩))
    simp [Stay.marks, Stay.closing]
  exact (World.mem_way.1 (List.mem_filter.1 steady).1).1

theorem mem_actsOf {v u : VisitId} {p q : Phrase} {k n : Nat} :
    .acted v p k ∈ actsOf u q n ↔ v = u ∧ p = q ∧ k < n := by
  simp only [actsOf, List.mem_map, List.mem_range, Mark.acted.injEq]
  constructor
  · rintro ⟨k, hk, rfl, rfl, rfl⟩
    exact ⟨rfl, rfl, hk⟩
  · rintro ⟨rfl, rfl, hk⟩
    exact ⟨k, hk, rfl, rfl, rfl⟩

/-- In a stay the actions of its state are carried out, and no others; those on exit are if the
ending calls for them. -/
theorem Stay.Fits.mem_acted {x : Stay} (h : x.Fits w r) {v : VisitId} {phrase : Phrase} {k : Nat} :
    .acted v phrase k ∈ x.marks w r ↔
      v = x.visit ∧ k < ((x.state w).chain phrase).actions.length ∧
        (phrase = .exit → x.ending.exits (x.state w)) := by
  have work : .acted v phrase k ∉ x.work := fun here => by
    obtain ⟨t, -, other | ⟨fate, other⟩⟩ := h.work _ here <;> cases other
  have drops : .acted v phrase k ∉ x.drops := fun here => by
    obtain ⟨t, -, other | other⟩ := h.drops _ here <;> cases other
  have launches : .acted v phrase k ∉ w.launchMarks x.visit := by
    unfold World.launchMarks
    split <;> simp
  have exits : .acted v phrase k ∈ w.exitMarks x.visit x.ending ↔
      x.ending.exits (x.state w) ∧ .acted v phrase k ∈ w.chainMarks x.visit .exit := by
    unfold World.exitMarks
    show _ ∈ ite (x.ending.exits (x.state w)) _ _ ↔ _
    split
    · next calls => simp [calls]
    · next calls => simp [calls]
  simp only [Stay.marks, Stay.opening, Stay.closing, List.mem_append, List.mem_cons, work, drops,
    launches, exits, World.chainMarks, mem_actsOf]
  cases phrase <;> simp [Stay.state, and_left_comm, and_comm]

/-- The actions of the state of a stay are carried out in the run; those on exit are if the ending
calls for them. -/
theorem World.Unfolds.mem_acted (h : w.Unfolds r result stays) {x : Stay} (hx : x ∈ stays)
    (phrase : Phrase) (k : Nat) :
    .acted x.visit phrase k ∈ w.marks ↔ k < ((x.state w).chain phrase).actions.length ∧
      (phrase = .exit → x.ending.exits (x.state w)) := by
  have coda : .acted x.visit phrase k ∉ Standing.coda r (.finished result) := by
    unfold Standing.coda
    split <;> simp
  have way : .acted x.visit phrase k ∈ w.marks ↔
      .acted x.visit phrase k ∈ (w.way r).filter Mark.isSteady := by
    rw [List.mem_filter, World.mem_way]
    exact ⟨fun here => ⟨⟨here, congrArg some (h.fits x hx).owns.run⟩, rfl⟩, fun here => here.1.1⟩
  rw [way, h.way, List.mem_append, or_iff_left coda, List.mem_cons, List.mem_flatMap]
  constructor
  · intro here
    obtain ⟨y, hy, here⟩ := here.resolve_left nofun
    obtain ⟨same, more⟩ := (h.fits y hy).mem_acted.1 here
    -- There is one stay for each visit.
    cases List.inj_on_of_nodup_map (h.order.imp Nat.ne_of_lt) hx hy same
    exact more
  · exact fun more => .inr ⟨x, hx, (h.fits x hx).mem_acted.2 ⟨rfl, more⟩⟩

/-- A run that returns because it was stopped was asked to. -/
theorem Scenario.Reaches.asked_of_stopped (h : s.Reaches w)
    (returned : .returned r (.ok .stopped) ∈ w.marks) : .stopAsked r ∈ w.marks :=
  World.mem_way_stopAsked.1 ((h.finished returned).course.asked (.inr rfl))

/-- A run that has returned consists of stays that come to its result. -/
theorem Scenario.Reaches.unfolds (h : s.Reaches w) (returned : .returned r result ∈ w.marks) :
    ∃ stays, w.Unfolds r result stays ∧ Comes w (w.machineOf r) stays result := by
  have chart := h.finished returned
  obtain ⟨stays, comes, way, order, fits⟩ := chart.course.stays
  refine ⟨stays, ⟨way, order, fits, fun x hx t home => ?_⟩, comes⟩
  exact Stay.ends h.orderly chart way order fits hx home

/-- A run that has returned consists of stays, each of which is followed by what it came to. -/
theorem Scenario.Reaches.sequels (h : s.Reaches w) (returned : .returned r result ∈ w.marks) :
    ∃ stays, w.Unfolds r result stays ∧ ∀ before x after, stays = before ++ x :: after →
      w.Sequel result x ((w.machineOf r).aftermath (x.state w) x.ending) after := by
  obtain ⟨stays, unfolds, comes⟩ := h.unfolds returned
  exact ⟨stays, unfolds, fun before x after here => comes.sequel here⟩

end

end Statechart
