import Statechart.Calendar.Instant
import Statechart.Text.Blank
import Statechart.Text.Digits

/-!
# Timestamps

Instants as text: a date and a time of day in universal time, such as
`2023-11-14T22:13:20.500Z`. Reading also takes any offset from universal time, white space
around the numbers, and numbers without leading zeros.

## Main definitions

- `Instant.timestamp`: the text of an instant.
- `Instant.ofTimestamp?`: the instant of a text.
-/

namespace Statechart.Instant

open Text

/-! ## Writing -/

/-- A year in four digits; with a sign and at least four digits outside 0 to 9999. -/
def yearText (year : Int) : List Char :=
  if 0 ≤ year ∧ year ≤ 9999 then padded 4 year.toNat
  else if year < 0 then '-' :: padded 4 year.natAbs
  else '+' :: padded 4 year.natAbs

/-- The fraction of a second with the fewest of no, three, six or nine digits that are exact. -/
def fractionText (nanos : Nat) : List Char :=
  if nanos = 0 then []
  else if nanos % 1000000 = 0 then '.' :: padded 3 (nanos / 1000000)
  else if nanos % 1000 = 0 then '.' :: padded 6 (nanos / 1000)
  else '.' :: padded 9 nanos

/-- A date as year, month and day with hyphens. -/
def dateText (d : Date) : List Char :=
  yearText d.year ++ '-' :: padded 2 d.month ++ '-' :: padded 2 d.day

/-- A second of the day as hours, minutes and seconds with colons; a leap second is the sixtieth. -/
def timeText (second : Nat) (leap : Bool) : List Char :=
  padded 2 (second / 3600) ++ ':' :: padded 2 (second / 60 % 60) ++ ':' ::
    padded 2 (if leap then second % 60 + 1 else second % 60)

/-- The text of an instant, character by character. -/
def timestampChars (t : Instant) : List Char :=
  dateText (Date.ofDayNumber t.dayNumber) ++ 'T' :: timeText t.secondOfDay t.isLeap
    ++ fractionText (t.nanos % nanosPerSecond) ++ ['Z']

/-- The text of an instant. -/
def timestamp (t : Instant) : String :=
  String.ofList t.timestampChars

/-! ## Reading -/

/-- The character `c`, after white space. -/
def takeMark (c : Char) (cs : List Char) : Option (List Char) :=
  match trimLeft cs with
  | d :: rest => if d = c then some rest else none
  | [] => none

/-- A number of at most two digits, after white space. -/
def takeField (cs : List Char) : Option (Nat × List Char) :=
  takeNumber 2 (trimLeft cs)

/-- A year, after white space: up to four digits, or a sign and any number of digits. -/
def takeYear (cs : List Char) : Option (Int × List Char) :=
  match trimLeft cs with
  | '-' :: rest => (takeNumber rest.length rest).map fun (n, r) => (-n, r)
  | '+' :: rest => (takeNumber rest.length rest).map fun (n, r) => (n, r)
  | rest => (takeNumber 4 rest).map fun (n, r) => (n, r)

/-- A date, its parts separated by hyphens. -/
def takeDate (cs : List Char) : Option (Date × List Char) := do
  let (year, cs) ← takeYear cs
  let cs ← takeMark '-' cs
  let (month, cs) ← takeField cs
  let cs ← takeMark '-' cs
  let (day, cs) ← takeField cs
  return (⟨year, month, day⟩, cs)

/-- What stands between the date and the time. -/
def takeSeparator : List Char → Option (List Char)
  | c :: rest => if c = 'T' ∨ c = 't' ∨ c = ' ' then some rest else none
  | [] => none

/-- A time of day as written. -/
structure Clock where
  hour : Nat
  minute : Nat
  second : Nat
  nanos : Nat
deriving DecidableEq, Repr, Inhabited

/-- Whether the clock shows the time; the second may be the sixtieth. -/
def Clock.isValid (c : Clock) : Bool :=
  c.hour ≤ 23 && c.minute ≤ 59 && c.second ≤ 60

/-- The fraction of a second: up to nine digits count, more are passed over. -/
def takeFraction : List Char → Option (Nat × List Char)
  | '.' :: cs =>
    match takeDigits 9 cs with
    | ([], _) => none
    | (ds, rest) => some (numberOf ds * Nat.pow 10 (9 - ds.length), rest.dropWhile Char.isDigit)
  | cs => some (0, cs)

/-- A time of day, its parts separated by colons. -/
def takeClock (cs : List Char) : Option (Clock × List Char) := do
  let (hour, cs) ← takeField cs
  let cs ← takeMark ':' cs
  let (minute, cs) ← takeField cs
  let cs ← takeMark ':' cs
  let (second, cs) ← takeField cs
  let (nanos, cs) ← takeFraction cs
  return (⟨hour, minute, second, nanos⟩, cs)

/-- Hours and minutes from universal time, in seconds. -/
def takeHoursMinutes (cs : List Char) : Option (Nat × List Char) := do
  let (hours, cs) ← takePair cs
  let (minutes, cs) ← takePair (cs.dropWhile fun c => c = ':' || isBlank c)
  if minutes ≤ 59 then return (3600 * hours + 60 * minutes, cs) else none

/-- A sign, hours and minutes: the offset from universal time in seconds. -/
def takeSignedOffset : List Char → Option (Int × List Char)
  | c :: cs =>
    if c = '+' then (takeHoursMinutes cs).map fun (n, r) => (n, r)
    -- The minus sign is read like the hyphen that stands for it.
    else if c = '-' ∨ c = '\u2212' then (takeHoursMinutes cs).map fun (n, r) => (-n, r)
    else none
  | [] => none

/-- The offset from universal time in seconds: the letters `UTC` or `Z`, or a signed offset. -/
def takeOffset (cs : List Char) : Option (Int × List Char) :=
  if (cs.take 3).map Char.toUpper = ['U', 'T', 'C'] then some (0, cs.drop 3)
  else if (cs.take 1).map Char.toUpper = ['Z'] then some (0, cs.drop 1)
  else takeSignedOffset cs

/-- The instant at which the calendar and the clock of a place show a date and a time, the place
being `offset` seconds ahead of universal time. The sixtieth second is the leap second. -/
def ofLocal? (d : Date) (c : Clock) (offset : Int) : Option Instant :=
  if d.isValid && c.isValid && offset.natAbs < secondsPerDay.natAbs then
    let second := min c.second 59
    let nanos := if c.second = 60 then nanosPerSecond + c.nanos else c.nanos
    let shown := d.dayNumber * secondsPerDay + (3600 * c.hour + 60 * c.minute + second : Nat)
    -- What the place shows has to be in range, and so has the instant itself.
    if firstSecond ≤ shown ∧ shown ≤ lastSecond then ofUnix? (shown - offset) nanos else none
  else none

/-- The instant of a text, if all of the text is a timestamp. -/
def ofTimestamp? (s : String) : Option Instant := do
  let (date, cs) ← takeDate s.toList
  let cs ← takeSeparator cs
  let (clock, cs) ← takeClock cs
  let (offset, cs) ← takeOffset (trimLeft cs)
  if trimLeft cs = [] then ofLocal? date clock offset else none

end Statechart.Instant
