import Statechart.Calendar.Date

/-!
# Instants

Points of universal time with nanoseconds. A leap second is the sixtieth second of a minute: it
shares the number of the second before it, and its nanoseconds count on from a thousand million.

## Main definitions

- `Instant`: seconds since 1970-01-01T00:00:00Z and nanoseconds, within the calendar's range.
- `Instant.ofUnix?`: the instant of given seconds and nanoseconds, if there is one.
- `Instant.since`: the time from one instant to another, if it is not negative.
-/

namespace Statechart

/-! ## Range -/

namespace Instant

/-- The first second of the year -262143. -/
def firstSecond : Int := -8334601228800

/-- The last second of the year 262142. -/
def lastSecond : Int := 8210266876799

/-- Nanoseconds in a second. -/
def nanosPerSecond : Nat := 1000000000

/-- Whether the calendar has an instant of these seconds and nanoseconds: only the last second of
a minute can be a leap second. -/
def InRange (seconds : Int) (nanos : Nat) : Prop :=
  firstSecond ≤ seconds ∧ seconds ≤ lastSecond ∧ nanos < 2 * nanosPerSecond ∧
    (nanosPerSecond ≤ nanos → seconds % 60 = 59)

instance (seconds : Int) (nanos : Nat) : Decidable (InRange seconds nanos) :=
  inferInstanceAs (Decidable (_ ∧ _ ∧ _ ∧ _))

end Instant

/-! ## Instants -/

/-- A point of universal time. -/
structure Instant where
  seconds : Int
  nanos : Nat
  inRange : Instant.InRange seconds nanos
deriving DecidableEq

namespace Instant

/-- The instant of the given seconds and nanoseconds since 1970-01-01T00:00:00Z. -/
def ofUnix? (seconds : Int) (nanos : Nat) : Option Instant :=
  if h : InRange seconds nanos then some ⟨seconds, nanos, h⟩ else none

/-- Whether the instant lies in a leap second. -/
def isLeap (t : Instant) : Bool :=
  nanosPerSecond ≤ t.nanos

/-- Seconds in a day. -/
def secondsPerDay : Int := 86400

/-- The number of the day, counted from 1970-01-01. -/
def dayNumber (t : Instant) : Int :=
  t.seconds / secondsPerDay

/-- The second of the day. -/
def secondOfDay (t : Instant) : Nat :=
  (t.seconds % secondsPerDay).toNat

/-! ## Differences -/

/-- A length of time. -/
structure Elapsed where
  seconds : Nat
  nanos : Nat
deriving DecidableEq, Repr, Inhabited

/-- The leap second that the clock of the day passes between two times of day: one of them lies
in it and the other comes later in the day. -/
def leapBetween (start finish : Instant) : Int :=
  if start.secondOfDay < finish.secondOfDay ∧ start.isLeap then 1
  else if finish.secondOfDay < start.secondOfDay ∧ finish.isLeap then -1
  else 0

/-- Nanoseconds from `start` to `finish`, with the leap second between their times of day. -/
def nanosSince (finish start : Instant) : Int :=
  (finish.seconds - start.seconds + leapBetween start finish) * nanosPerSecond
    + finish.nanos - start.nanos

/-- The time from `start` to `finish`, unless `finish` is earlier. -/
def since (finish start : Instant) : Option Elapsed :=
  let n := nanosSince finish start
  if n < 0 then none
  else some ⟨n.toNat / nanosPerSecond, n.toNat % nanosPerSecond⟩

end Instant

end Statechart
