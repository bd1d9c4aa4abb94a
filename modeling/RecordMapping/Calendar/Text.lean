import RecordMapping.Calendar.Instant
import RecordMapping.Text.Digits

/-!
# Writing dates

The texts of dates and instants: the full form with its offset, the form with milliseconds and the
form of a database timestamp.
-/

namespace RecordMapping.Calendar

open Text

/-- A year has four digits; outside of 0 to 9999 it has a sign as well. -/
def yearText (year : Int) : String :=
  if 0 ≤ year && year ≤ 9999 then padded 4 year.toNat
  else (if year < 0 then "-" else "+") ++ padded 4 year.natAbs

/-- Year, month and day, joined by hyphens. -/
def dateText (year : Int) (month day : Nat) : String :=
  yearText year ++ "-" ++ padded 2 month ++ "-" ++ padded 2 day

/-- The text of a date. -/
def Date.text (d : Date) : String := dateText d.year d.month d.day

namespace Instant

/-- The date of an instant. -/
def dateText (t : Instant) : String :=
  let (year, month, day) := t.date
  Calendar.dateText year month day

/-- Hours, minutes and seconds, joined by colons. -/
def clockText (t : Instant) : String :=
  padded 2 (t.clock / 3600) ++ ":" ++ padded 2 (t.clock / 60 % 60) ++ ":" ++ padded 2 t.second

/-- The fraction of the second behind a point, in as many groups of three digits as are needed. -/
def fractionText (t : Instant) : String :=
  if t.fraction == 0 then ""
  else if t.fraction % 1000000 == 0 then "." ++ padded 3 (t.fraction / 1000000)
  else if t.fraction % 1000 == 0 then "." ++ padded 6 (t.fraction / 1000)
  else "." ++ padded 9 t.fraction

/-- The full text of an instant (RFC 3339), with its offset from UTC. -/
def fullText (t : Instant) : String :=
  t.dateText ++ "T" ++ t.clockText ++ t.fractionText ++ "+00:00"

/-- The text of an instant with milliseconds, the rest of the fraction cut off. -/
def millisText (t : Instant) : String :=
  t.dateText ++ "T" ++ t.clockText ++ "." ++ padded 3 (t.fraction / 1000000) ++ "Z"

/-- The text of an instant to the second. -/
def timestampText (t : Instant) : String := t.dateText ++ " " ++ t.clockText

end Instant

end RecordMapping.Calendar
