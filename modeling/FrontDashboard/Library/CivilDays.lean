import FrontDashboard.Library.Gregorian

/-! # Dates before and after the epoch

The days of the proleptic Gregorian calendar in both directions of time, the first of January
of 1970 being day 0. Every era of 400 years is like the first.
-/

namespace CivilDays

open Gregorian

def daysPerEra : Int := 146097

/-- The days before the epoch, from the first of January of year 1 on. -/
def beforeEpoch : Int := 719162

def eraOf (day : Int) : Int := (day + beforeEpoch) / daysPerEra

/-- The date that the day has in its era. -/
def inEra (day : Int) : Date := ofOrdinal (((day + beforeEpoch) % daysPerEra).toNat + 1)

def year (day : Int) : Int := 400 * eraOf day + (inEra day).year

def month (day : Int) : Nat := (inEra day).month

def dayOfMonth (day : Int) : Nat := (inEra day).day

/-- The days from Sunday on. -/
def weekday (day : Int) : Nat := ((day + 4) % 7).toNat

/-- The number of the day that is so far into a month, which it may run out of. -/
def number (year : Int) (month : Nat) (dayOfMonth : Int) : Int :=
  daysPerEra * ((year - 1) / 400) + toOrdinal (((year - 1) % 400).toNat + 1) month 1 +
    (dayOfMonth - 1) - 1 - beforeEpoch

theorem toOrdinal_first_le {year month : Nat} (months : 1 ≤ month ∧ month ≤ 12)
    (inside : year < 400) : toOrdinal (year + 1) month 1 ≤ 146097 := by
  have valid : Valid (year + 1) month 1 :=
    ⟨Nat.le_add_left 1 year, months, le_rfl, one_le_daysInMonth _ _⟩
  have before := toOrdinal_lt valid (.inl (by omega) : year + 1 < 401 ∨ _ = _ ∧ month < 1)
  have last : toOrdinal 401 1 1 = 146098 := by decide
  omega

theorem inEra_valid (day : Int) :
    Valid (inEra day).year (inEra day).month (inEra day).day ∧
      toOrdinal (inEra day).year (inEra day).month (inEra day).day =
        ((day + beforeEpoch) % daysPerEra).toNat + 1 :=
  toOrdinal_ofOrdinal (Nat.le_add_left 1 _)

theorem inEra_year_le (day : Int) : (inEra day).year ≤ 400 := by
  obtain ⟨valid, same⟩ := inEra_valid day
  by_contra beyond
  have early : daysBeforeYear 401 ≤ daysBeforeYear (inEra day).year :=
    daysBeforeYear_mono (by omega)
  have days : daysBeforeYear 401 = 146097 := by decide
  have rest := Int.emod_lt_of_pos (day + beforeEpoch) (show 0 < daysPerEra by decide)
  have first := valid.days.1
  unfold toOrdinal at same
  unfold daysPerEra at same rest
  omega

theorem month_bounds (day : Int) : 1 ≤ month day ∧ month day ≤ 12 := (inEra_valid day).1.months

theorem dayOfMonth_bounds (day : Int) : 1 ≤ dayOfMonth day ∧ dayOfMonth day ≤ 31 := by
  have days := (inEra_valid day).1.days
  exact ⟨days.1, Nat.le_trans days.2 (daysInMonth_le _ _)⟩

/-- A number of days more in the month is as many days later. -/
theorem number_add (year : Int) (month : Nat) (dayOfMonth more : Int) :
    number year month (dayOfMonth + more) = number year month dayOfMonth + more := by
  unfold number
  omega

/-- **A day** is that of its date. -/
theorem number_date (day : Int) : number (year day) (month day) (dayOfMonth day) = day := by
  obtain ⟨valid, same⟩ := inEra_valid day
  have small := inEra_year_le day
  have positive := valid.years
  have era : (year day - 1) / 400 = eraOf day := by
    unfold year
    omega
  have rest : ((year day - 1) % 400).toNat + 1 = (inEra day).year := by
    unfold year
    omega
  have whole := Int.mul_ediv_add_emod (day + beforeEpoch) daysPerEra
  have inside := Int.emod_nonneg (day + beforeEpoch) (show daysPerEra ≠ 0 by decide)
  unfold number
  rw [era, rest, eraOf]
  unfold toOrdinal at same ⊢
  unfold month dayOfMonth
  generalize daysPerEra * ((day + beforeEpoch) / daysPerEra) = eras at *
  omega

/-- Days of one date are one. -/
theorem eq_of_date {day other : Int} (years : year day = year other)
    (months : month day = month other) (days : dayOfMonth day = dayOfMonth other) :
    day = other := by
  rw [← number_date day, ← number_date other, years, months, days]

/-- **Months are in order** of their years. -/
theorem number_lt_number {earlier later : Int} (ordered : earlier < later) {month : Nat}
    (months : 1 ≤ month ∧ month ≤ 12) : number earlier month 1 < number later month 1 := by
  have first := toOrdinal_first_le months
    (show ((earlier - 1) % 400).toNat < 400 by omega)
  have second : 1 ≤ toOrdinal (((later - 1) % 400).toNat + 1) month 1 := by
    unfold toOrdinal
    omega
  unfold number daysPerEra
  by_cases before : (earlier - 1) / 400 < (later - 1) / 400
  · omega
  · have years : ((earlier - 1) % 400).toNat + 1 < ((later - 1) % 400).toNat + 1 := by omega
    have valid : Valid (((earlier - 1) % 400).toNat + 1) month 1 :=
      ⟨Nat.le_add_left 1 _, months, le_rfl, one_le_daysInMonth _ _⟩
    have ordinals := toOrdinal_lt valid (.inl years : _ ∨ _ = _ ∧ month < month)
    omega

theorem number_add_eras (year : Int) (month : Nat) (dayOfMonth : Int) (eras : Int) :
    number (year + 400 * eras) month dayOfMonth =
      number year month dayOfMonth + daysPerEra * eras := by
  have era : (year + 400 * eras - 1) / 400 = (year - 1) / 400 + eras := by omega
  have rest : (year + 400 * eras - 1) % 400 = (year - 1) % 400 := by omega
  unfold number
  rw [era, rest, Int.mul_add]
  omega

end CivilDays
