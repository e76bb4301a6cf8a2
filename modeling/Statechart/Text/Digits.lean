/-!
# Decimal digits

Numbers as decimal text of a least width, and the reading of a run of digits of bounded length.

## Main definitions

- `Text.padded`: a number with leading zeros up to a width.
- `Text.takeNumber`: the number at the head of a text, at most so many digits long.

## Main statements

- `Text.takeNumber_padded`, `Text.takePair_padded`: what is written is read back.
-/

namespace Statechart.Text

/-! ## Writing -/

/-- The decimal digits of `n`, with leading zeros up to `width`. -/
def padded (width n : Nat) : List Char :=
  (Nat.toDigits 10 n).leftpad width '0'

/-! ## Reading -/

/-- The value of a decimal digit. -/
def digitValue (c : Char) : Nat :=
  c.toNat - '0'.toNat

/-- The value of a run of decimal digits, most significant first. -/
def numberOf (ds : List Char) : Nat :=
  ds.foldl (fun n c => 10 * n + digitValue c) 0

/-- The digits at the head of a text, at most `most` of them, and the rest. -/
def takeDigits (most : Nat) (cs : List Char) : List Char × List Char :=
  let ds := (cs.take most).takeWhile Char.isDigit
  (ds, cs.drop ds.length)

/-- The number at the head of a text, from at least one and at most `most` digits. -/
def takeNumber (most : Nat) (cs : List Char) : Option (Nat × List Char) :=
  match takeDigits most cs with
  | ([], _) => none
  | (ds, rest) => some (numberOf ds, rest)

/-- The number at the head of a text, from exactly two digits. -/
def takePair : List Char → Option (Nat × List Char)
  | a :: b :: rest =>
    if a.isDigit && b.isDigit then some (numberOf [a, b], rest) else none
  | _ => none

/-! ## Reading what is written -/

/-- The character at the head of a text, if there is one, is no digit. -/
def EndsNumber (cs : List Char) : Prop :=
  ∀ c ∈ cs.head?, c.isDigit = false

theorem endsNumber_cons {c : Char} {cs : List Char} :
    EndsNumber (c :: cs) ↔ c.isDigit = false := by
  simp [EndsNumber]

theorem isDigit_of_mem_padded {width n : Nat} {c : Char} (h : c ∈ padded width n) :
    c.isDigit = true := by
  unfold padded List.leftpad at h
  rcases List.mem_append.1 h with zero | digit
  · rw [List.eq_of_mem_replicate zero]
    rfl
  · exact Nat.isDigit_of_mem_toDigits (by decide) (by decide) digit

theorem padded_ne_nil (width n : Nat) : padded width n ≠ [] := by
  unfold padded List.leftpad
  exact List.append_ne_nil_of_right_ne_nil _ Nat.toDigits_ne_nil

/-- The text of a number starts with a digit. -/
theorem exists_padded_eq_cons (width n : Nat) :
    ∃ c cs, padded width n = c :: cs ∧ c.isDigit = true := by
  obtain ⟨c, cs, shape⟩ := List.exists_cons_of_ne_nil (padded_ne_nil width n)
  exact ⟨c, cs, shape, isDigit_of_mem_padded (shape ▸ List.mem_cons_self)⟩

/-- A number that fits is written in as many digits as it should be. -/
theorem length_padded {width n : Nat} (wide : 0 < width) (fits : n < Nat.pow 10 width) :
    (padded width n).length = width := by
  have short := (Nat.length_toDigits_le_iff (b := 10) (by decide) wide).2 fits
  unfold padded
  rw [List.length_leftpad]
  omega

theorem numberOf_padded (width n : Nat) : numberOf (padded width n) = n := by
  -- Leading zeros come to nothing.
  have value : numberOf (padded width n) = Nat.ofDigitChars 10 (padded width n) 0 := rfl
  rw [value]
  unfold padded List.leftpad
  rw [Nat.ofDigitChars_append, Nat.ofDigitChars_replicate_zero, Nat.mul_zero,
    Nat.ofDigitChars_toDigits (by decide) (by decide)]

/-- Digits are taken up to the first character that is none, or up to the bound. -/
theorem takeDigits_append {most : Nat} {ds rest : List Char}
    (digits : ∀ c ∈ ds, c.isDigit = true) (room : ds.length ≤ most)
    (stop : ds.length = most ∨ EndsNumber rest) : takeDigits most (ds ++ rest) = (ds, rest) := by
  have taken : ((ds ++ rest).take most).takeWhile Char.isDigit = ds := by
    rw [List.take_append, List.take_of_length_le room, List.takeWhile_append_of_pos digits]
    suffices (rest.take (most - ds.length)).takeWhile Char.isDigit = [] by simp [this]
    rcases stop with full | ends
    · simp [full]
    · cases rest with
      | nil => simp
      | cons c rest =>
        cases most - ds.length with
        | zero => rfl
        | succ k => simp [endsNumber_cons.1 ends]
  simp only [takeDigits, taken, List.drop_left]

/-- A number that was written is read back. -/
theorem takeNumber_padded {most width n : Nat} {rest : List Char}
    (room : (padded width n).length ≤ most)
    (stop : (padded width n).length = most ∨ EndsNumber rest) :
    takeNumber most (padded width n ++ rest) = some (n, rest) := by
  obtain ⟨c, cs, shape, -⟩ := exists_padded_eq_cons width n
  unfold takeNumber
  rw [takeDigits_append (fun _ => isDigit_of_mem_padded) room stop, shape]
  simp only
  rw [← shape, numberOf_padded]

/-- A number below a hundred is read back from its two digits. -/
theorem takePair_padded {n : Nat} (fits : n < 100) (rest : List Char) :
    takePair (padded 2 n ++ rest) = some (n, rest) := by
  have two : (padded 2 n).length = 2 := length_padded (by decide) fits
  obtain ⟨a, b, shape⟩ : ∃ a b, padded 2 n = [a, b] := by
    match padded 2 n, two with
    | [a, b], _ => exact ⟨a, b, rfl⟩
  have digits : a.isDigit = true ∧ b.isDigit = true :=
    ⟨isDigit_of_mem_padded (shape ▸ List.mem_cons_self),
      isDigit_of_mem_padded (shape ▸ List.mem_cons_of_mem _ List.mem_cons_self)⟩
  have value := numberOf_padded 2 n
  rw [shape] at value ⊢
  simp [takePair, digits, value]

end Statechart.Text
