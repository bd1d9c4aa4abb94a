/-!
# Calendar dates

Dates of the proleptic Gregorian calendar and their day numbers, counted from 1970-01-01. A year is
counted from March, so that the leap day is its last one; 400 such years make an era of 146097 days.
Reading the date of a day number gives back that number (`dayNumber_civil`).
-/

namespace RecordMapping.Calendar

/-- The first and the last year that dates may have. -/
def firstYear : Int := -262143

/-- The last year that dates may have. -/
def lastYear : Int := 262142

/-- Whether February has 29 days. -/
def isLeapYear (year : Int) : Bool := year % 4 == 0 && (year % 100 != 0 || year % 400 == 0)

/-- The number of days in a month. -/
def daysInMonth (year : Int) (month : Nat) : Nat :=
  if month == 2 then (if isLeapYear year then 29 else 28)
  else if month == 4 || month == 6 || month == 9 || month == 11 then 30
  else 31

/-- Whether year, month and day name a date. -/
def isDate (year : Int) (month day : Nat) : Bool :=
  firstYear ≤ year && year ≤ lastYear && 1 ≤ month && month ≤ 12
    && 1 ≤ day && day ≤ daysInMonth year month

/-- A date of the Gregorian calendar. -/
structure Date where
  year : Int
  month : Nat
  day : Nat
  valid : isDate year month day = true
deriving DecidableEq

/-- The date with the given year, month and day, if there is one. -/
def Date.of? (year : Int) (month day : Nat) : Option Date :=
  if h : isDate year month day = true then some ⟨year, month, day, h⟩ else none

/-- The days from the beginning of the era year 0 to that of the era year `y`. -/
def eraYearStart (y : Int) : Int := 365 * y + y / 4 - y / 100

/-- The day number of a date given by its parts. -/
def dayNumber (year : Int) (month day : Nat) : Int :=
  let y : Int := if month ≤ 2 then year - 1 else year
  let m : Int := ((month : Int) + 9) % 12
  y / 400 * 146097 + eraYearStart (y % 400) + (153 * m + 2) / 5 + (day - 1) - 719468

/-- The year of the era in which a day of the era lies, and the day's place in that year. Only the
last century of an era and the last year of four have a day more than the others. -/
def eraYear (d : Int) : Int × Int :=
  let century := min 3 (d / 36524)
  let inCentury := d - 36524 * century
  let four := inCentury / 1461
  let inFour := inCentury - 1461 * four
  let year := min 3 (inFour / 365)
  (100 * century + 4 * four + year, inFour - 365 * year)

/-- Month and day of a day of the year, which begins in March. -/
def monthDay (inYear : Int) : Int × Int :=
  let m := (5 * inYear + 2) / 153
  (m, inYear - (153 * m + 2) / 5 + 1)

/-- Year, month and day from the era, the year in it, the month counted from March, and the day. -/
def civilOfParts (era y m day : Int) : Int × Nat × Nat :=
  let month := if m < 10 then m + 3 else m - 9
  (era * 400 + y + (if month ≤ 2 then 1 else 0), month.toNat, day.toNat)

/-- Year, month and day of a day number. -/
def civil (days : Int) : Int × Nat × Nat :=
  let shifted := days + 719468
  let (y, inYear) := eraYear (shifted % 146097)
  let (m, day) := monthDay inYear
  civilOfParts (shifted / 146097) y m day

/-- Year and place in the year make up the day of the era. -/
theorem eraYear_bounds {d : Int} (h0 : 0 ≤ d) (h1 : d < 146097) :
    0 ≤ (eraYear d).1 ∧ (eraYear d).1 < 400 ∧ 0 ≤ (eraYear d).2 ∧ (eraYear d).2 ≤ 365 ∧
      eraYearStart (eraYear d).1 + (eraYear d).2 = d := by
  simp only [eraYear, eraYearStart]
  generalize hc : min 3 (d / 36524) = c
  have c0 : 0 ≤ c ∧ c ≤ 3 := by omega
  generalize he : d - 36524 * c = e
  have e0 : 0 ≤ e ∧ e ≤ 36524 := by omega
  generalize hf : e / 1461 = f
  have f0 : 0 ≤ f ∧ f ≤ 24 := by omega
  generalize hg : e - 1461 * f = g
  have g0 : 0 ≤ g ∧ g ≤ 1460 := by omega
  generalize hr : min 3 (g / 365) = r
  have r0 : 0 ≤ r ∧ r ≤ 3 := by omega
  have four : (100 * c + 4 * f + r) / 4 = 25 * c + f := by omega
  have hundred : (100 * c + 4 * f + r) / 100 = c := by omega
  rw [four, hundred]
  omega

/-- The month of a day of the year, counted from March, and the day's place in it. -/
theorem monthDay_bounds {r : Int} (h0 : 0 ≤ r) (h1 : r ≤ 365) :
    0 ≤ (monthDay r).1 ∧ (monthDay r).1 < 12 ∧ 1 ≤ (monthDay r).2 ∧
      (153 * (monthDay r).1 + 2) / 5 + ((monthDay r).2 - 1) = r := by
  simp only [monthDay]
  omega

/-- The day number of a date that is put together from era, year, month and day. -/
theorem dayNumber_civilOfParts {era y m day : Int} (y0 : 0 ≤ y) (y1 : y < 400) (m0 : 0 ≤ m)
    (m1 : m < 12) (d0 : 1 ≤ day) :
    dayNumber (civilOfParts era y m day).1 (civilOfParts era y m day).2.1
        (civilOfParts era y m day).2.2 =
      era * 146097 + eraYearStart y + (153 * m + 2) / 5 + (day - 1) - 719468 := by
  have hday : ((day.toNat : Nat) : Int) = day := by omega
  by_cases early : m < 10
  · have late : ¬ m + 3 ≤ 2 := by omega
    have nat : ¬ (m + 3).toNat ≤ 2 := by omega
    have back : (((m + 3).toNat : Int) + 9) % 12 = m := by omega
    have quotient : (era * 400 + y + 0) / 400 = era := by omega
    have rest : (era * 400 + y + 0) % 400 = y := by omega
    simp only [civilOfParts, dayNumber, early, if_true, late, if_false, nat, back, quotient, rest,
      hday]
  · have late : m - 9 ≤ 2 := by omega
    have nat : (m - 9).toNat ≤ 2 := by omega
    have back : (((m - 9).toNat : Int) + 9) % 12 = m := by omega
    have quotient : (era * 400 + y + 1 - 1) / 400 = era := by omega
    have rest : (era * 400 + y + 1 - 1) % 400 = y := by omega
    simp only [civilOfParts, dayNumber, early, late, if_true, if_false, nat, back, quotient, rest,
      hday]

/-- The day number of the date that a day number denotes is that number. -/
theorem dayNumber_civil (days : Int) :
    dayNumber (civil days).1 (civil days).2.1 (civil days).2.2 = days := by
  have lo : 0 ≤ (days + 719468) % 146097 := by omega
  have hi : (days + 719468) % 146097 < 146097 := by omega
  obtain ⟨y0, y1, r0, r1, year⟩ := eraYear_bounds lo hi
  obtain ⟨m0, m1, d0, month⟩ := monthDay_bounds r0 r1
  rw [civil, dayNumber_civilOfParts y0 y1 m0 m1 d0]
  omega

end RecordMapping.Calendar
