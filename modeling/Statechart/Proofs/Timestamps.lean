import Statechart.Calendar.Timestamp

/-!
# Timestamps are read back

What is written of an instant is read as the same instant, over the whole range of the calendar and
with every fraction of a second, leap seconds included. It makes no difference for which place the
timestamp is written, as long as the calendar has the date there.

## Main definitions

- `Instant.Offset`: how far a place may be ahead of universal time.
- `Instant.timestampAt`: the text of an instant for a place.
- `Instant.WrittenAs`: a text is a timestamp of an instant.

## Main statements

- `Instant.takeDate_dateText`, `Instant.takeClock_clockText`, `Instant.takeOffset_text`: the parts
  of a timestamp are read back.
- `Instant.ofTimestamp?_of_writtenAs`: so is a timestamp.
-/

namespace Statechart.Instant

open Text

/-! ## Timestamps for a place -/

/-- How far a place is ahead of universal time, in minutes: less than a day. -/
structure Offset where
  minutes : Int
  short : minutes.natAbs < 1440

namespace Offset

/-- The offset in seconds. -/
def seconds (o : Offset) : Int :=
  60 * o.minutes

/-- An offset as a sign, hours and minutes with a colon. -/
def text (o : Offset) : List Char :=
  (if o.minutes < 0 then '-' else '+') ::
    padded 2 (o.minutes.natAbs / 60) ++ ':' :: padded 2 (o.minutes.natAbs % 60)

end Offset

/-- The date and the time of day, with the fraction of the second, that are shown at a second
counted from 1970-01-01T00:00:00. -/
def shownChars (second : Int) (nanos : Nat) : List Char :=
  dateText (Date.ofDayNumber (second / secondsPerDay)) ++ 'T' ::
    timeText (second % secondsPerDay).toNat (nanosPerSecond ≤ nanos) ++
      fractionText (nanos % nanosPerSecond)

/-- The text of an instant for a place that is ahead of universal time. -/
def timestampAt (t : Instant) (o : Offset) : String :=
  String.ofList (shownChars (t.seconds + o.seconds) t.nanos ++ o.text)

/-- A text is a timestamp of an instant: for universal time, or for a place where the calendar has
the date. -/
inductive WrittenAs (t : Instant) : String → Prop where
  | universal : WrittenAs t t.timestamp
  | local (o : Offset) (early : firstSecond ≤ t.seconds + o.seconds)
      (late : t.seconds + o.seconds ≤ lastSecond) : WrittenAs t (t.timestampAt o)

/-! ## Numbers and marks -/

theorem trimLeft_cons {c : Char} {cs : List Char} (h : isBlank c = false) :
    trimLeft (c :: cs) = c :: cs := by
  simp [trimLeft, h]

theorem trimLeft_padded (width n : Nat) (rest : List Char) :
    trimLeft (padded width n ++ rest) = padded width n ++ rest := by
  obtain ⟨c, cs, shape, digit⟩ := exists_padded_eq_cons width n
  rw [shape, List.cons_append, trimLeft_cons (isBlank_eq_false_of_isDigit digit)]

theorem takeMark_cons {c : Char} (h : isBlank c = false) (rest : List Char) :
    takeMark c (c :: rest) = some rest := by
  simp [takeMark, trimLeft_cons h]

/-- A number of two digits is read back, whatever follows. -/
theorem takeField_padded {n : Nat} (fits : n < 100) (rest : List Char) :
    takeField (padded 2 n ++ rest) = some (n, rest) := by
  have two : (padded 2 n).length = 2 := length_padded (by decide) fits
  unfold takeField
  rw [trimLeft_padded, takeNumber_padded (Nat.le_of_eq two) (.inl two)]

/-! ## Dates -/

theorem takeYear_yearText (year : Int) {rest : List Char} (ends : EndsNumber rest) :
    takeYear (yearText year ++ rest) = some (year, rest) := by
  -- After a sign there may be as many digits as there are characters.
  have long (n : Nat) :
      takeNumber (padded 4 n ++ rest).length (padded 4 n ++ rest) = some (n, rest) :=
    takeNumber_padded (by simp) (.inr ends)
  unfold yearText
  split
  · next plain =>
    obtain ⟨c, cs, shape, digit⟩ := exists_padded_eq_cons 4 year.toNat
    have small : year.toNat < 10000 := by omega
    have four : (padded 4 year.toNat).length = 4 := length_padded (by decide) small
    have read : takeNumber 4 (padded 4 year.toNat ++ rest) = some (year.toNat, rest) :=
      takeNumber_padded (Nat.le_of_eq four) (.inl four)
    have minus : c ≠ '-' := by
      rintro rfl
      cases digit
    have plus : c ≠ '+' := by
      rintro rfl
      cases digit
    unfold takeYear
    rw [trimLeft_padded]
    rw [shape, List.cons_append] at read ⊢
    split
    · next sign => exact absurd (List.cons.inj sign).1 minus
    · next sign => exact absurd (List.cons.inj sign).1 plus
    · rw [read]
      simp
      omega
  · next signed =>
    split
    · next negative =>
      rw [List.cons_append, takeYear, trimLeft_cons rfl]
      simp only [long, Option.map_some]
      congr
      omega
    · next positive =>
      rw [List.cons_append, takeYear, trimLeft_cons rfl]
      simp only [long, Option.map_some]
      congr
      omega

/-- A date is read back, if its month and day have at most two digits. -/
theorem takeDate_dateText {d : Date} (month : d.month < 100) (day : d.day < 100)
    (rest : List Char) : takeDate (dateText d ++ rest) = some (d, rest) := by
  have hyphen : EndsNumber ('-' :: (padded 2 d.month ++ '-' :: (padded 2 d.day ++ rest))) :=
    endsNumber_cons.2 rfl
  have blank : isBlank '-' = false := by decide
  simp only [dateText, List.append_assoc, List.cons_append]
  simp [takeDate, takeYear_yearText d.year hyphen, takeMark_cons blank, takeField_padded month,
    takeField_padded day]

theorem Date.bounds_of_isValid {d : Date} (h : d.isValid = true) : d.month < 100 ∧ d.day < 100 := by
  simp only [Date.isValid, Bool.and_eq_true, decide_eq_true_eq] at h
  unfold Date.monthLength at h
  split at h
  · split at h <;> omega
  · split at h
    · omega
    · split at h <;> omega

/-! ## Times of day -/

/-- A fraction with trailing zeros left out is read back. -/
theorem takeFraction_padded {width n nanos : Nat} {rest : List Char} (wide : 0 < width)
    (narrow : width ≤ 9) (fits : n < Nat.pow 10 width) (ends : EndsNumber rest)
    (scaled : n * Nat.pow 10 (9 - width) = nanos) :
    takeFraction ('.' :: padded width n ++ rest) = some (nanos, rest) := by
  have size := length_padded wide fits
  obtain ⟨c, cs, shape, -⟩ := exists_padded_eq_cons width n
  have taken : takeDigits 9 (padded width n ++ rest) = (padded width n, rest) :=
    takeDigits_append (fun _ => isDigit_of_mem_padded) (by omega) (.inr ends)
  have beyond : rest.dropWhile Char.isDigit = rest := by
    cases rest with
    | nil => rfl
    | cons c rest => simp [endsNumber_cons.1 ends]
  rw [List.cons_append, takeFraction, taken, shape]
  simp only
  rw [← shape, numberOf_padded, size, beyond, ← scaled]

/-- The fraction of a second is read back. -/
theorem takeFraction_fractionText {nanos : Nat} (fits : nanos < nanosPerSecond) {c : Char}
    (digit : c.isDigit = false) (point : c ≠ '.') (rest : List Char) :
    takeFraction (fractionText nanos ++ c :: rest) = some (nanos, c :: rest) := by
  have ends : EndsNumber (c :: rest) := endsNumber_cons.2 digit
  unfold nanosPerSecond at fits
  unfold fractionText
  split
  · next zero =>
    subst zero
    simp only [List.nil_append, takeFraction]
    split
    · next start => exact absurd (List.cons.inj start).1 point
    · rfl
  · split
    · next millis =>
      have fits : nanos / 1000000 < 1000 := by omega
      have whole : nanos / 1000000 * 1000000 = nanos := by omega
      exact takeFraction_padded (by decide) (by decide) fits ends whole
    · split
      · next micros =>
        have fits : nanos / 1000 < 1000000 := by omega
        have whole : nanos / 1000 * 1000 = nanos := by omega
        exact takeFraction_padded (by decide) (by decide) fits ends whole
      · exact takeFraction_padded (by decide) (by decide) fits ends (Nat.mul_one nanos)

/-- The clock at a second of the day; a leap second is the sixtieth. -/
def clockAt (second nanos : Nat) : Clock where
  hour := second / 3600
  minute := second / 60 % 60
  second := if nanosPerSecond ≤ nanos then second % 60 + 1 else second % 60
  nanos := nanos % nanosPerSecond

/-- The time of day is read back. -/
theorem takeClock_clockText {second : Nat} (day : second < 86400) (nanos : Nat) {c : Char}
    (digit : c.isDigit = false) (point : c ≠ '.') (rest : List Char) :
    takeClock (timeText second (nanosPerSecond ≤ nanos) ++
      (fractionText (nanos % nanosPerSecond) ++ c :: rest)) =
        some (clockAt second nanos, c :: rest) := by
  have blank : isBlank ':' = false := by decide
  have hour : second / 3600 < 100 := by omega
  have minute : second / 60 % 60 < 100 := by omega
  have last : (if nanosPerSecond ≤ nanos then second % 60 + 1 else second % 60) < 100 := by
    split <;> omega
  have fraction := takeFraction_fractionText
    (Nat.mod_lt nanos (show 0 < nanosPerSecond by decide)) digit point rest
  simp only [timeText, decide_eq_true_eq, List.append_assoc, List.cons_append]
  simp [takeClock, takeField_padded hour, takeMark_cons blank, takeField_padded minute,
    takeField_padded last, fraction, clockAt]

/-! ## Offsets -/

theorem takeHoursMinutes_padded {hours minutes : Nat} (hour : hours < 100) (minute : minutes ≤ 59) :
    takeHoursMinutes (padded 2 hours ++ ':' :: padded 2 minutes) =
      some (3600 * hours + 60 * minutes, []) := by
  obtain ⟨c, cs, shape, digit⟩ := exists_padded_eq_cons 2 minutes
  have colon : c ≠ ':' := by
    rintro rfl
    cases digit
  have blank := isBlank_eq_false_of_isDigit digit
  have beyond : (':' :: padded 2 minutes).dropWhile (fun c => c = ':' || isBlank c) =
      padded 2 minutes := by
    rw [List.dropWhile_cons_of_pos (by simp), shape, List.dropWhile_cons_of_neg]
    simp [colon, blank]
  have pair := takePair_padded (show minutes < 100 by omega) []
  rw [List.append_nil] at pair
  simp [takeHoursMinutes, takePair_padded hour, beyond, pair, minute]

theorem takeOffset_cons {c : Char} (utc : c.toUpper ≠ 'U') (zulu : c.toUpper ≠ 'Z')
    (cs : List Char) : takeOffset (c :: cs) = takeSignedOffset (c :: cs) := by
  have three : ((c :: cs).take 3).map Char.toUpper ≠ ['U', 'T', 'C'] := by simp [utc]
  have one : ((c :: cs).take 1).map Char.toUpper ≠ ['Z'] := by simp [zulu]
  rw [takeOffset, if_neg three, if_neg one]

/-- An offset is read back. -/
theorem takeOffset_text (o : Offset) : takeOffset o.text = some (o.seconds, []) := by
  have short := o.short
  have read := takeHoursMinutes_padded (show o.minutes.natAbs / 60 < 100 by omega)
    (show o.minutes.natAbs % 60 ≤ 59 by omega)
  unfold Offset.text Offset.seconds
  split
  · next behind =>
    rw [List.cons_append, takeOffset_cons (by decide) (by decide), takeSignedOffset,
      if_neg (by decide), if_pos (.inl rfl), read]
    simp only [Option.map_some, Option.some.injEq, Prod.mk.injEq, and_true]
    omega
  · next ahead =>
    rw [List.cons_append, takeOffset_cons (by decide) (by decide), takeSignedOffset, if_pos rfl,
      read]
    simp only [Option.map_some, Option.some.injEq, Prod.mk.injEq, and_true]
    omega

/-! ## Instants -/

/-- The date and the time of day that are shown somewhere are those of the instant. -/
theorem ofLocal?_shown (t : Instant) {offset : Int} (minutes : offset % 60 = 0)
    (short : offset.natAbs < 86400) (early : firstSecond ≤ t.seconds + offset)
    (late : t.seconds + offset ≤ lastSecond) :
    ofLocal? (.ofDayNumber ((t.seconds + offset) / secondsPerDay))
      (clockAt ((t.seconds + offset) % secondsPerDay).toNat t.nanos) offset = some t := by
  obtain ⟨-, -, bound, leap⟩ := t.inRange
  have unix : ofUnix? t.seconds t.nanos = some t := dif_pos t.inRange
  unfold secondsPerDay
  generalize shown : t.seconds + offset = second at early late ⊢
  generalize hd : (second % 86400).toNat = ofDay
  have day : ofDay < 86400 := by omega
  -- A leap second stays one, since offsets are whole minutes.
  have sixtieth : nanosPerSecond ≤ t.nanos → ofDay % 60 = 59 := by
    intro h
    have := leap h
    omega
  have valid : (clockAt ofDay t.nanos).isValid = true := by
    simp only [Clock.isValid, Bool.and_eq_true, decide_eq_true_eq]
    simp only [clockAt]
    split <;> omega
  have nanos : (if (clockAt ofDay t.nanos).second = 60
      then nanosPerSecond + (clockAt ofDay t.nanos).nanos else (clockAt ofDay t.nanos).nanos) =
        t.nanos := by
    simp only [clockAt]
    unfold nanosPerSecond at sixtieth bound ⊢
    split <;> split <;> omega
  have seconds : (Date.ofDayNumber (second / 86400)).dayNumber * 86400 +
      ((3600 * (clockAt ofDay t.nanos).hour + 60 * (clockAt ofDay t.nanos).minute +
        min (clockAt ofDay t.nanos).second 59 : Nat) : Int) = second := by
    rw [Date.dayNumber_ofDayNumber]
    simp only [clockAt]
    split
    · next h =>
      have := sixtieth h
      omega
    · omega
  have back : second - offset = t.seconds := by omega
  unfold ofLocal? secondsPerDay
  simp only [Date.isValid_ofDayNumber, valid, seconds, nanos, back]
  simpa using ⟨short, ⟨early, late⟩, unix⟩

/-- The text of an instant for a place, with the offset written in any way, is read back. -/
theorem ofTimestamp?_shownChars (t : Instant) {offset : Int} {text : List Char} {c : Char}
    {rest : List Char} (minutes : offset % 60 = 0) (short : offset.natAbs < 86400)
    (early : firstSecond ≤ t.seconds + offset) (late : t.seconds + offset ≤ lastSecond)
    (shape : text = c :: rest) (blank : isBlank c = false) (digit : c.isDigit = false)
    (point : c ≠ '.') (read : takeOffset text = some (offset, [])) :
    ofTimestamp? (String.ofList (shownChars (t.seconds + offset) t.nanos ++ text)) = some t := by
  subst shape
  obtain ⟨month, day⟩ := Date.bounds_of_isValid
    (Date.isValid_ofDayNumber ((t.seconds + offset) / secondsPerDay))
  have clock := takeClock_clockText
    (show ((t.seconds + offset) % secondsPerDay).toNat < 86400 by unfold secondsPerDay; omega)
    t.nanos digit point rest
  have trimmed : trimLeft (c :: rest) = c :: rest := trimLeft_cons blank
  have empty : trimLeft [] = [] := rfl
  simp only [ofTimestamp?, String.toList_ofList, shownChars, List.append_assoc, List.cons_append]
  simp [takeDate_dateText month day, takeSeparator, clock, trimmed, read, empty,
    ofLocal?_shown t minutes short early late]

/-- Whatever is a timestamp of an instant is read as that instant. -/
theorem ofTimestamp?_of_writtenAs {t : Instant} {s : String} (h : t.WrittenAs s) :
    ofTimestamp? s = some t := by
  cases h with
  | universal =>
    have chars : t.timestampChars = shownChars (t.seconds + 0) t.nanos ++ ['Z'] := by
      simp [timestampChars, shownChars, dayNumber, secondOfDay, isLeap]
    unfold timestamp
    rw [chars]
    obtain ⟨early, late, -⟩ := t.inRange
    exact ofTimestamp?_shownChars t (by decide) (by decide) (by simpa using early)
      (by simpa using late) rfl (by decide) (by decide) (by decide) rfl
  | «local» o early late =>
    have short := o.short
    refine ofTimestamp?_shownChars t (by unfold Offset.seconds; omega)
      (by unfold Offset.seconds; omega) early late rfl ?_ ?_ ?_ (takeOffset_text o)
    · split <;> decide
    · split <;> decide
    · split <;> decide

example : (ofTimestamp? "2016-12-31T18:59:60.5-05:00").map timestamp =
    some "2016-12-31T23:59:60.500Z" := by decide +kernel

end Statechart.Instant
