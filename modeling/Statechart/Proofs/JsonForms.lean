import Mathlib.Data.List.Forall2
import Statechart.Codec
import Statechart.Proofs.Timestamps

/-!
# JSON forms are read back

Histories, transitions and outcomes are read back from what is written of them, so nothing is lost
in writing, and whatever can be read at all can be written and read again. Reading takes more than
what is written: the fields of an object in any order and among others, an array of their values,
and timestamps for any place.

## Main definitions

- `Transition.WrittenAs`, `History.WrittenAs`, `Outcome.WrittenAs`: the JSON forms of a value.
- `Json.RoundTrips`: values are read back from their JSON forms.

## Main statements

- `Transition.ofJson?_of_writtenAs`, `History.ofJson?_of_writtenAs`,
  `Outcome.ofJson?_of_writtenAs`: every form of a value is read as that value.
- `json_roundTrips`: histories, transitions and outcomes are read back.
-/

namespace Statechart

/-! ## Forms -/

/-- A JSON value is a form of a transition: an object with its fields, wherever they stand and
whatever else there is, or an array of their values. -/
inductive Transition.WrittenAs (t : Transition) : Json → Prop where
  | object {fields : List (String × Json)} {time : String}
      (source : fields.lookup "from" = some (.text t.source))
      (target : fields.lookup "to" = some (.text t.target))
      (event : fields.lookup "event" = some (.text t.event))
      (timestamp : fields.lookup "timestamp" = some (.text time))
      (written : t.time.WrittenAs time) : WrittenAs t (.object fields)
  | array {time : String} (written : t.time.WrittenAs time) :
      WrittenAs t (.array [.text t.source, .text t.target, .text t.event, .text time])

/-- A JSON value is a form of a history: an object or an array with an array of forms of its
transitions. -/
inductive History.WrittenAs (h : History) : Json → Prop where
  | object {fields : List (String × Json)} {items : List Json}
      (transitions : fields.lookup "transitions" = some (.array items))
      (written : List.Forall₂ Transition.WrittenAs h.transitions items) :
      WrittenAs h (.object fields)
  | array {items : List Json}
      (written : List.Forall₂ Transition.WrittenAs h.transitions items) :
      WrittenAs h (.array [.array items])

/-- A JSON value is a form of an outcome: its label, alone or without content, or the state that
the run settled in among the fields of an object. -/
inductive Outcome.WrittenAs : Outcome → Json → Prop where
  | done {v : Json} (label : v.label? = some "done") : WrittenAs .done v
  | stopped {v : Json} (label : v.label? = some "stopped") : WrittenAs .stopped v
  | settled {state : String} {fields : List (String × Json)}
      (found : fields.lookup "state_id" = some (.text state)) :
      WrittenAs (.settled state) (.object [("settled", .object fields)])

/-- Values are read back from what is written of them and from every other form that they have. -/
structure Json.RoundTrips {α : Type} (toJson : α → Json) (ofJson? : Json → Option α)
    (WrittenAs : α → Json → Prop) : Prop where
  /-- What is written is read back. -/
  back : ∀ a, ofJson? (toJson a) = some a
  /-- Nothing is lost in writing. -/
  faithful : ∀ a b, toJson a = toJson b → a = b
  /-- Every form of a value is read as that value. -/
  forms : ∀ a v, WrittenAs a v → ofJson? v = some a
  /-- What can be read can be written, and is then read again. -/
  again : ∀ v a, ofJson? v = some a → ofJson? (toJson a) = some a

/-! ## Reading -/

/-- Values of which all forms are read, what is written among them, are read back. -/
theorem Json.RoundTrips.of_forms {α : Type} {toJson : α → Json} {ofJson? : Json → Option α}
    {WrittenAs : α → Json → Prop} (written : ∀ a, WrittenAs a (toJson a))
    (forms : ∀ a v, WrittenAs a v → ofJson? v = some a) :
    Json.RoundTrips toJson ofJson? WrittenAs := by
  have back : ∀ a, ofJson? (toJson a) = some a := fun a => forms a _ (written a)
  refine ⟨back, fun a b same => ?_, forms, fun v a _ => back a⟩
  have read := back a
  rw [same, back b] at read
  exact (Option.some.inj read).symm

namespace Transition

theorem writtenAs_toJson (t : Transition) : t.WrittenAs t.toJson :=
  .object rfl rfl rfl rfl .universal

theorem ofJson?_of_writtenAs {t : Transition} {v : Json} (h : t.WrittenAs v) :
    ofJson? v = some t := by
  cases h with
  | object source target event timestamp written =>
    have time := Instant.ofTimestamp?_of_writtenAs written
    simp [ofJson?, Json.fields?, source, target, event, timestamp, Json.text?, time]
  | array written =>
    have time := Instant.ofTimestamp?_of_writtenAs written
    simp [ofJson?, Json.fields?, Json.text?, time]

end Transition

namespace History

theorem writtenAs_toJson (h : History) : h.WrittenAs h.toJson := by
  refine .object rfl ?_
  rw [List.forall₂_map_right_iff]
  exact List.forall₂_same.2 fun t _ => t.writtenAs_toJson

/-- Forms of transitions are read one after the other. -/
theorem mapM_ofJson? {ts : List Transition} {items : List Json}
    (h : List.Forall₂ Transition.WrittenAs ts items) :
    items.mapM Transition.ofJson? = some ts := by
  induction h with
  | nil => rfl
  | cons written _ ih =>
    rw [List.mapM_cons, Transition.ofJson?_of_writtenAs written, ih]
    rfl

theorem ofJson?_of_writtenAs {h : History} {v : Json} (written : h.WrittenAs v) :
    ofJson? v = some h := by
  cases written with
  | object transitions written =>
    simp [ofJson?, Json.fields?, transitions, Json.items?, mapM_ofJson? written]
  | array written =>
    simp [ofJson?, Json.fields?, Json.items?, mapM_ofJson? written]

end History

namespace Outcome

theorem writtenAs_toJson (o : Outcome) : o.WrittenAs o.toJson := by
  cases o with
  | done => exact .done rfl
  | stopped => exact .stopped rfl
  | settled state => exact .settled rfl

theorem ofJson?_of_label {v : Json} {label : String} (h : v.label? = some label) :
    ofJson? v = ofLabel? label := by
  unfold ofJson?
  split
  · cases h
  · rw [h]
    rfl

theorem ofJson?_of_writtenAs {o : Outcome} {v : Json} (h : o.WrittenAs v) :
    ofJson? v = some o := by
  cases h with
  | done label => exact ofJson?_of_label label
  | stopped label => exact ofJson?_of_label label
  | settled found => simp [ofJson?, found, Json.text?]

end Outcome

/-- Histories, transitions and outcomes are read back from what is written of them and from their
other forms: whatever the names of states and events, whatever the time, and whether the fields
stand in an object, in any order and among others, or their values in an array. -/
theorem json_roundTrips :
    Json.RoundTrips History.toJson History.ofJson? History.WrittenAs ∧
    Json.RoundTrips Transition.toJson Transition.ofJson? Transition.WrittenAs ∧
    Json.RoundTrips Outcome.toJson Outcome.ofJson? Outcome.WrittenAs :=
  ⟨.of_forms History.writtenAs_toJson fun _ _ => History.ofJson?_of_writtenAs,
    .of_forms Transition.writtenAs_toJson fun _ _ => Transition.ofJson?_of_writtenAs,
    .of_forms Outcome.writtenAs_toJson fun _ _ => Outcome.ofJson?_of_writtenAs⟩

end Statechart
