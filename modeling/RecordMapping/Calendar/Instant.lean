import RecordMapping.Calendar.Date
import RecordMapping.Number.Dyadic

/-!
# Instants

Points in time, as whole seconds since the beginning of 1970 (UTC) and nanoseconds. A leap second is
the last second of its minute with a thousand million nanoseconds added.
-/

namespace RecordMapping.Calendar

/-- The number of nanoseconds in a second. -/
def nanosPerSecond : Nat := 1000000000

/-- The number of seconds in a day. -/
def secondsPerDay : Int := 86400

/-- The first second of the first date. -/
def firstSecond : Int := dayNumber firstYear 1 1 * secondsPerDay

/-- The last second of the last date. -/
def lastSecond : Int := dayNumber lastYear 12 31 * secondsPerDay + 86399

/-- Whether seconds and nanoseconds name an instant. -/
def isInstant (seconds : Int) (nanos : Nat) : Bool :=
  firstSecond ≤ seconds && seconds ≤ lastSecond
    && (nanos < nanosPerSecond || (nanos < 2 * nanosPerSecond && seconds % 60 == 59))

/-- A point in time. -/
structure Instant where
  seconds : Int
  nanos : Nat
  valid : isInstant seconds nanos = true
deriving DecidableEq

namespace Instant

/-- The instant with the given seconds and nanoseconds, if there is one. -/
def of? (seconds : Int) (nanos : Nat) : Option Instant :=
  if h : isInstant seconds nanos = true then some ⟨seconds, nanos, h⟩ else none

/-- The instant at a time of day on a date. Second 60 is the leap second of its minute. -/
def ofCivil? (year : Int) (month day hour minute second nanos : Nat) : Option Instant :=
  if isDate year month day && hour ≤ 23 && minute ≤ 59 && second ≤ 60 then
    let leap := second == 60
    let clock : Int := hour * 3600 + minute * 60 + (if leap then 59 else second : Nat)
    of? (dayNumber year month day * secondsPerDay + clock)
      (nanos + if leap then nanosPerSecond else 0)
  else none

/-- Midnight at the beginning of a date. -/
def ofDate? (d : Date) : Option Instant := ofCivil? d.year d.month d.day 0 0 0 0

/-- The instant a number of seconds after the beginning of 1970. The fraction of a second is
measured in nanoseconds and cut to a whole number; a NaN counts as zero. -/
def ofEpoch? (x : Float) : Option Instant :=
  match Number.Dyadic.ofFloat? x with
  | none => if x.isNaN then of? 0 0 else none
  | some d =>
    let whole := d.floor
    if firstSecond ≤ whole && whole ≤ lastSecond then
      match Number.Dyadic.ofFloat? ((x - Float.ofInt whole) * 1000000000.0) with
      | some nanos => of? whole nanos.truncate.toNat
      | none => none
    else none

/-- Year, month and day of an instant. -/
def date (t : Instant) : Int × Nat × Nat := civil (t.seconds / secondsPerDay)

/-- Seconds since midnight. -/
def clock (t : Instant) : Nat := (t.seconds % secondsPerDay).toNat

/-- Whether the instant lies in a leap second. -/
def isLeap (t : Instant) : Bool := nanosPerSecond ≤ t.nanos

/-- The second that a clock shows, 60 in a leap second. -/
def second (t : Instant) : Nat := t.clock % 60 + if t.isLeap then 1 else 0

/-- The nanoseconds within the second that the clock shows. -/
def fraction (t : Instant) : Nat := t.nanos % nanosPerSecond

end Instant

end RecordMapping.Calendar
