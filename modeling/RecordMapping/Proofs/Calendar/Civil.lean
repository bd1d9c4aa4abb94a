import RecordMapping.Calendar.Instant

/-!
# Days and instants, taken apart and put together

* `isDate_civil`: the parts of a day number name a date;
* `Instant.ofCivil?_parts`: date and clock of an instant, read again, name the same second, and the
  second that the clock shows tells whether it is a leap second.
-/

namespace RecordMapping.Calendar

/-! ## Days -/

/-- Only a year before a leap day has 366 days, counted from March. -/
theorem eraYear_leap {d : Int} (h0 : 0 ≤ d) (h1 : d < 146097) (hlast : (eraYear d).2 = 365) :
    ((eraYear d).1 + 1) % 4 = 0
      ∧ (((eraYear d).1 + 1) % 100 ≠ 0 ∨ ((eraYear d).1 + 1) % 400 = 0) := by
  simp only [eraYear] at hlast ⊢
  generalize hc : min 3 (d / 36524) = c at *
  generalize he : d - 36524 * c = e at *
  have he0 : 0 ≤ e ∧ e ≤ 36524 := by omega
  generalize hf : e / 1461 = f at *
  generalize hg : e - 1461 * f = g at *
  generalize hr : min 3 (g / 365) = r at *
  omega

/-- A day of the year has its place in a month: the last day of February is the last of a year of
366 days. -/
theorem monthDay_length {r : Int} (h0 : 0 ≤ r) (h1 : r ≤ 365) :
    (monthDay r).2 ≤ 31
      ∧ ((monthDay r).1 = 1 ∨ (monthDay r).1 = 3 ∨ (monthDay r).1 = 6 ∨ (monthDay r).1 = 8 →
        (monthDay r).2 ≤ 30)
      ∧ ((monthDay r).1 = 11 → (monthDay r).2 ≤ 29 ∧ ((monthDay r).2 = 29 → r = 365)) := by
  simp only [monthDay]
  omega

theorem isLeapYear_of_era {era y : Int} (hfour : (y + 1) % 4 = 0)
    (hcentury : (y + 1) % 100 ≠ 0 ∨ (y + 1) % 400 = 0) :
    isLeapYear (era * 400 + y + 1) = true := by
  unfold isLeapYear
  have h4 : (era * 400 + y + 1) % 4 = 0 := by omega
  have h100 : (era * 400 + y + 1) % 100 ≠ 0 ∨ (era * 400 + y + 1) % 400 = 0 := by omega
  simp only [Bool.and_eq_true, Bool.or_eq_true, beq_iff_eq, bne_iff_ne]
  exact ⟨h4, h100⟩

/-- No month but February is shorter than 30 days, and four of the others have no more. -/
theorem le_daysInMonth {year : Int} {month day : Nat} (h31 : day ≤ 31)
    (h30 : month = 4 ∨ month = 6 ∨ month = 9 ∨ month = 11 → day ≤ 30)
    (h29 : month = 2 → day ≤ 29) (hleap : month = 2 → day = 29 → isLeapYear year = true) :
    day ≤ daysInMonth year month := by
  simp only [daysInMonth, Bool.or_eq_true, beq_iff_eq]
  by_cases hfebruary : month = 2
  · rw [if_pos hfebruary]
    have h := h29 hfebruary
    by_cases hlast : day = 29
    · rw [if_pos (hleap hfebruary hlast)]
      exact h
    · split <;> omega
  · rw [if_neg hfebruary]
    split <;> omega

/-- Era, year, month and day that are put together name a date, if the month has that day. -/
theorem isDate_civilOfParts {era y m day : Int} (m0 : 0 ≤ m) (m1 : m < 12) (d0 : 1 ≤ day)
    (h31 : day ≤ 31) (h30 : m = 1 ∨ m = 3 ∨ m = 6 ∨ m = 8 → day ≤ 30) (h29 : m = 11 → day ≤ 29)
    (hleap : m = 11 → day = 29 →
      (y + 1) % 4 = 0 ∧ ((y + 1) % 100 ≠ 0 ∨ (y + 1) % 400 = 0))
    (hfirst : firstYear ≤ (civilOfParts era y m day).1)
    (hlast : (civilOfParts era y m day).1 ≤ lastYear) :
    isDate (civilOfParts era y m day).1 (civilOfParts era y m day).2.1
      (civilOfParts era y m day).2.2 = true := by
  obtain ⟨month, hmonth⟩ : ∃ month : Int, (if m < 10 then m + 3 else m - 9) = month := ⟨_, rfl⟩
  have hm : m < 10 ∧ month = m + 3 ∨ 10 ≤ m ∧ month = m - 9 := by
    split at hmonth <;> omega
  have hparts : civilOfParts era y m day
      = (era * 400 + y + (if month ≤ 2 then 1 else 0), month.toNat, day.toNat) := by
    rw [← hmonth]
    rfl
  rw [hparts] at hfirst hlast ⊢
  have hday : day.toNat ≤ daysInMonth (era * 400 + y + if month ≤ 2 then 1 else 0) month.toNat := by
    refine le_daysInMonth (by omega) (fun h => ?_) (fun h => ?_) (fun h h' => ?_)
    · have := h30 (by omega)
      omega
    · have := h29 (by omega)
      omega
    · rw [if_pos (by omega)]
      have hyear := hleap (by omega) (by omega)
      exact isLeapYear_of_era hyear.1 hyear.2
  simp only [isDate, Bool.and_eq_true, decide_eq_true_eq]
  exact ⟨⟨⟨⟨⟨hfirst, hlast⟩, by omega⟩, by omega⟩, by omega⟩, hday⟩

/-- The parts of a day number name a date, within the years that dates may have. -/
theorem isDate_civil {days : Int} (hfirst : firstYear ≤ (civil days).1)
    (hlast : (civil days).1 ≤ lastYear) :
    isDate (civil days).1 (civil days).2.1 (civil days).2.2 = true := by
  have lo : 0 ≤ (days + 719468) % 146097 := by omega
  have hi : (days + 719468) % 146097 < 146097 := by omega
  obtain ⟨-, -, r0, r1, -⟩ := eraYear_bounds lo hi
  obtain ⟨m0, m1, d0, -⟩ := monthDay_bounds r0 r1
  obtain ⟨h31, h30, h29⟩ := monthDay_length r0 r1
  exact isDate_civilOfParts m0 m1 d0 h31 h30 (fun hm => (h29 hm).1)
    (fun hm hday => eraYear_leap lo hi ((h29 hm).2 hday)) hfirst hlast

/-! ## Instants -/

namespace Instant

theorem seconds_eq (t : Instant) :
    t.seconds = t.seconds / secondsPerDay * secondsPerDay + (t.clock : Int) := by
  simp only [clock, secondsPerDay]
  omega

/-- The nanoseconds that a leap second has added. -/
def leapNanos (t : Instant) : Nat := if t.isLeap = true then nanosPerSecond else 0

theorem leapNanos_cases (t : Instant) : t.leapNanos = 0 ∨ t.leapNanos = 1000000000 := by
  unfold leapNanos
  split
  · exact .inr rfl
  · exact .inl rfl

/-- The nanoseconds of an instant are those within the second that its clock shows, and those that
a leap second has added. -/
theorem nanos_eq (t : Instant) : t.nanos = t.fraction + t.leapNanos := by
  have hvalid := t.valid
  simp only [isInstant, leapNanos, isLeap, fraction, Bool.and_eq_true, Bool.or_eq_true,
    decide_eq_true_eq, beq_iff_eq] at hvalid ⊢
  unfold nanosPerSecond at *
  split <;> omega

theorem fraction_lt (t : Instant) : t.fraction < 1000000000 := Nat.mod_lt _ (by decide)

/-- A leap second comes at the end of its minute. -/
theorem clock_of_isLeap {t : Instant} (h : t.isLeap = true) : t.clock % 60 = 59 := by
  have hvalid := t.valid
  simp only [isInstant, isLeap, clock, Bool.and_eq_true, Bool.or_eq_true, decide_eq_true_eq,
    beq_iff_eq] at h hvalid ⊢
  unfold nanosPerSecond at *
  unfold secondsPerDay
  omega

/-- The date of an instant is one, within the years that dates may have. -/
theorem isDate_date {t : Instant} (hfirst : firstYear ≤ t.date.1) (hlast : t.date.1 ≤ lastYear) :
    isDate t.date.1 t.date.2.1 t.date.2.2 = true :=
  isDate_civil hfirst hlast

/-- The clock shows second 60 in a leap second, and otherwise the second of the minute. -/
theorem second_cases (t : Instant) :
    (t.isLeap = true ∧ t.second = 60 ∧ t.clock % 60 = 59)
      ∨ (t.isLeap = false ∧ t.second = t.clock % 60) := by
  unfold second
  cases hleap : t.isLeap with
  | true =>
    have hlast := clock_of_isLeap hleap
    exact .inl ⟨rfl, by rw [hlast, if_pos rfl], hlast⟩
  | false => exact .inr ⟨rfl, by rw [if_neg Bool.false_ne_true, Nat.add_zero]⟩

/-- The parts that the clock shows make up the time of day, where second 60 counts as the last one
of its minute. -/
theorem clock_eq (t : Instant) : t.clock = t.clock / 3600 * 3600 + t.clock / 60 % 60 * 60
    + if t.second = 60 then 59 else t.second := by
  rcases t.second_cases with ⟨-, hsecond, hlast⟩ | ⟨-, hsecond⟩
  · rw [if_pos hsecond]
    omega
  · rw [if_neg (by omega)]
    omega

/-- Date and clock of an instant name its second; the second that the clock shows tells whether it
is a leap second, and the nanoseconds within the second can be any. -/
theorem ofCivil?_parts {t : Instant} (hfirst : firstYear ≤ t.date.1) (hlast : t.date.1 ≤ lastYear)
    (nanos : Nat) :
    ofCivil? t.date.1 t.date.2.1 t.date.2.2 (t.clock / 3600) (t.clock / 60 % 60) t.second nanos
      = of? t.seconds (nanos + t.leapNanos) := by
  have hday : t.clock < 86400 := by
    simp only [clock, secondsPerDay]
    omega
  have hdays : dayNumber t.date.1 t.date.2.1 t.date.2.2 = t.seconds / secondsPerDay :=
    dayNumber_civil _
  have hshown : t.second ≤ 60 ∧ (t.second = 60 ↔ t.isLeap = true) := by
    rcases t.second_cases with ⟨hleap, hsecond, -⟩ | ⟨hleap, hsecond⟩
    · rw [hsecond, hleap]
      decide
    · rw [hsecond, hleap]
      constructor
      · omega
      · exact iff_of_false (by omega) Bool.false_ne_true
  have hclock := t.clock_eq
  have hsum := t.seconds_eq
  unfold ofCivil? leapNanos
  simp only [isDate_date hfirst hlast, Bool.true_and, Bool.and_eq_true, decide_eq_true_eq,
    beq_iff_eq, hdays, hshown.2] at hclock ⊢
  rw [if_pos (by omega)]
  congr 1
  omega

end Instant

end RecordMapping.Calendar
