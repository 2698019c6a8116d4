import Mathlib.Data.Nat.Basic

/-! # The proleptic Gregorian calendar

Dates as the number of the day, the first of January of year 1 being day 1.
-/

namespace Gregorian

def isLeap (year : Nat) : Bool :=
  year % 4 == 0 && (year % 100 != 0 || year % 400 == 0)

def daysInMonth (year month : Nat) : Nat :=
  match month with
  | 2 => if isLeap year then 29 else 28
  | 4 | 6 | 9 | 11 => 30
  | _ => 31

def daysBeforeYear (year : Nat) : Nat :=
  let whole := year - 1
  whole * 365 + whole / 4 - whole / 100 + whole / 400

/-- The days of a year before a month of it. -/
def daysBeforeMonth (year : Nat) : Nat → Nat
  | 0 => 0
  | 1 => 0
  | month + 2 => daysBeforeMonth year (month + 1) + daysInMonth year (month + 1)

def toOrdinal (year month day : Nat) : Nat :=
  daysBeforeYear year + daysBeforeMonth year month + day

/-- The year of a day. -/
def yearOf (ordinal : Nat) : Nat :=
  let inEra := (ordinal - 1) % 146097
  let century := inEra / 36524
  let inCentury := inEra % 36524
  let ofCycle := inCentury % 1461 / 365
  let years := (ordinal - 1) / 146097 * 400 + century * 100 + inCentury / 1461 * 4 + ofCycle
  if ofCycle = 4 ∨ century = 4 then years else years + 1

/-- The month of the day that a number of days of its year precede. -/
def monthOf (year before : Nat) : Nat → Nat
  | 0 => 0
  | month + 1 =>
      if daysBeforeMonth year (month + 1) ≤ before then month + 1 else monthOf year before month

structure Date where
  year : Nat
  month : Nat
  day : Nat
  deriving DecidableEq, Repr

def ofOrdinal (ordinal : Nat) : Date :=
  let year := yearOf ordinal
  let before := ordinal - 1 - daysBeforeYear year
  let month := monthOf year before 12
  ⟨year, month, before - daysBeforeMonth year month + 1⟩

/-! ## The date of an ordinal -/

theorem daysBeforeMonth_succ (year : Nat) {month : Nat} (positive : 1 ≤ month) :
    daysBeforeMonth year (month + 1) = daysBeforeMonth year month + daysInMonth year month := by
  obtain ⟨month, rfl⟩ := Nat.exists_eq_add_of_le' positive
  rfl

theorem daysBeforeMonth_mono (year : Nat) {earlier later : Nat} (positive : 1 ≤ earlier)
    (ordered : earlier ≤ later) : daysBeforeMonth year earlier ≤ daysBeforeMonth year later := by
  induction ordered with
  | refl => exact le_rfl
  | step further ih =>
      rw [daysBeforeMonth_succ year (Nat.le_trans positive further)]
      exact Nat.le_add_right_of_le ih

/-- The days of a year. -/
theorem daysBeforeMonth_thirteen (year : Nat) :
    daysBeforeMonth year 13 = if isLeap year then 366 else 365 := by
  simp only [daysBeforeMonth, daysInMonth]
  split <;> rfl

theorem isLeap_iff (year : Nat) :
    isLeap year = true ↔ year % 4 = 0 ∧ (year % 100 ≠ 0 ∨ year % 400 = 0) := by
  simp [isLeap]

/-- The year that begins so many eras, centuries, cycles and single years into the calendar. -/
theorem yearOf_cycles {era century cycle single rest : Nat} (centuries : century < 4)
    (cycles : cycle < 25) (bound : rest ≤ 365)
    (leap : rest = 365 → single = 3 ∧ (cycle ≠ 24 ∨ century = 3)) (singles : single < 4) :
    yearOf (146097 * era + 36524 * century + 1461 * cycle + 365 * single + rest + 1) =
      400 * era + 100 * century + 4 * cycle + single + 1 := by
  obtain ⟨inCycle, inCycle_eq⟩ : ∃ days, days = 365 * single + rest := ⟨_, rfl⟩
  obtain ⟨inCentury, inCentury_eq⟩ : ∃ days, days = 1461 * cycle + inCycle := ⟨_, rfl⟩
  obtain ⟨inEra, inEra_eq⟩ : ∃ days, days = 36524 * century + inCentury := ⟨_, rfl⟩
  have shift : 146097 * era + 36524 * century + 1461 * cycle + 365 * single + rest + 1 - 1 =
      inEra + 146097 * era := by omega
  have small : inCycle < 1461 := by omega
  have short : inCentury ≤ 36524 ∧ (inCentury = 36524 → century = 3 ∧ cycle = 24 ∧ single = 3 ∧
      rest = 365) := by omega
  have whole : inEra < 146097 := by omega
  simp only [yearOf, shift, Nat.add_mul_mod_self_left, Nat.mod_eq_of_lt whole,
    Nat.add_mul_div_left _ _ (show 0 < 146097 by decide), Nat.div_eq_of_lt whole, Nat.zero_add]
  by_cases last : inCentury = 36524
  · obtain ⟨rfl, rfl, rfl, rfl⟩ := short.2 last
    rw [inEra_eq, last, if_pos (.inr (by decide))]
    omega
  · have inside : inCentury < 36524 := by omega
    rw [inEra_eq, Nat.mul_add_mod, Nat.mod_eq_of_lt inside, Nat.mul_add_div (by decide),
      Nat.div_eq_of_lt inside, inCentury_eq, Nat.mul_add_mod, Nat.mod_eq_of_lt small,
      Nat.mul_add_div (by decide), Nat.div_eq_of_lt small, inCycle_eq]
    clear shift short whole last inside inEra_eq inCentury_eq small
    split <;> omega

/-- **The year** of a day of it. -/
theorem yearOf_eq {year rest : Nat} (positive : 1 ≤ year)
    (within : rest < if isLeap year then 366 else 365) :
    yearOf (daysBeforeYear year + rest + 1) = year := by
  have leap := isLeap_iff year
  obtain ⟨whole, rfl⟩ := Nat.exists_eq_add_of_le' positive
  obtain ⟨era, century, cycle, single, rfl, centuries, cycles, singles⟩ :
      ∃ era century cycle single, whole = 400 * era + 100 * century + 4 * cycle + single ∧
        century < 4 ∧ cycle < 25 ∧ single < 4 :=
    ⟨whole / 400, whole % 400 / 100, whole % 100 / 4, whole % 4, by omega, by omega, by omega,
      by omega⟩
  have before : daysBeforeYear (400 * era + 100 * century + 4 * cycle + single + 1) =
      146097 * era + 36524 * century + 1461 * cycle + 365 * single := by
    clear leap within
    simp only [daysBeforeYear]
    omega
  rw [before]
  split at within
  next leaps =>
    rw [leap] at leaps
    exact yearOf_cycles centuries cycles (by omega) (fun _ => by omega) singles
  next => exact yearOf_cycles centuries cycles (by omega) (fun _ => by omega) singles

/-- **The month** of a day of it. -/
theorem monthOf_eq {year month rest : Nat} (positive : 1 ≤ month)
    (within : rest < daysInMonth year month) {bound : Nat} (bounded : month ≤ bound) :
    monthOf year (daysBeforeMonth year month + rest) bound = month := by
  induction bounded with
  | refl =>
      obtain ⟨month, rfl⟩ := Nat.exists_eq_add_of_le' positive
      rw [monthOf, if_pos (Nat.le_add_right _ _)]
  | @step bound further ih =>
      have later : daysBeforeMonth year (month + 1) ≤ daysBeforeMonth year (bound + 1) :=
        daysBeforeMonth_mono year (Nat.le_add_left 1 month) (Nat.succ_le_succ further)
      rw [daysBeforeMonth_succ year positive] at later
      rw [monthOf, if_neg (by omega), ih]

/-- A date that there is. -/
structure Valid (year month day : Nat) : Prop where
  years : 1 ≤ year
  months : 1 ≤ month ∧ month ≤ 12
  days : 1 ≤ day ∧ day ≤ daysInMonth year month

/-- **Every date** is that of its ordinal. -/
theorem ofOrdinal_toOrdinal {year month day : Nat} (valid : Valid year month day) :
    ofOrdinal (toOrdinal year month day) = ⟨year, month, day⟩ := by
  obtain ⟨years, months, days⟩ := valid
  obtain ⟨rest, rfl⟩ := Nat.exists_eq_add_of_le' days.1
  have within : daysBeforeMonth year month + rest < if isLeap year then 366 else 365 := by
    rw [← daysBeforeMonth_thirteen]
    have later : daysBeforeMonth year (month + 1) ≤ daysBeforeMonth year 13 :=
      daysBeforeMonth_mono year (Nat.le_add_left 1 month) (Nat.succ_le_succ months.2)
    rw [daysBeforeMonth_succ year months.1] at later
    omega
  have sameYear : yearOf (toOrdinal year month (rest + 1)) = year := by
    rw [toOrdinal, ← Nat.add_assoc, Nat.add_assoc (daysBeforeYear year)]
    exact yearOf_eq years within
  have before : toOrdinal year month (rest + 1) - 1 - daysBeforeYear year =
      daysBeforeMonth year month + rest := by
    unfold toOrdinal
    omega
  simp only [ofOrdinal, sameYear, before, monthOf_eq months.1 days.2 months.2]
  rw [Nat.add_sub_cancel_left]

theorem daysBeforeYear_succ {year : Nat} (positive : 1 ≤ year) :
    daysBeforeYear (year + 1) = daysBeforeYear year + if isLeap year then 366 else 365 := by
  have leap := isLeap_iff year
  obtain ⟨whole, rfl⟩ := Nat.exists_eq_add_of_le' positive
  have fewer : whole / 100 ≤ whole / 4 := by omega
  simp only [daysBeforeYear, Nat.add_sub_cancel, Nat.succ_div]
  split_ifs at * <;> simp_all <;> omega

/-- A month has four weeks at least. -/
theorem le_daysInMonth (year month : Nat) : 28 ≤ daysInMonth year month := by
  unfold daysInMonth
  split
  · split <;> decide
  all_goals decide

theorem one_le_daysInMonth (year month : Nat) : 1 ≤ daysInMonth year month :=
  Nat.le_trans (by decide) (le_daysInMonth year month)

theorem daysInMonth_le (year month : Nat) : daysInMonth year month ≤ 31 := by
  unfold daysInMonth
  split
  · split <;> decide
  all_goals decide

/-- **Every ordinal** is that of a date, which is the one after that of the ordinal before. -/
theorem exists_toOrdinal_eq (before : Nat) :
    ∃ year month day, Valid year month day ∧ toOrdinal year month day = before + 1 := by
  induction before with
  | zero => exact ⟨1, 1, 1, ⟨le_rfl, by decide, by decide⟩, rfl⟩
  | succ before ih =>
      obtain ⟨year, month, day, ⟨years, months, days⟩, same⟩ := ih
      by_cases inside : day < daysInMonth year month
      · refine ⟨year, month, day + 1, ⟨years, months, Nat.le_add_left 1 day, inside⟩, ?_⟩
        rw [← same]
        rfl
      · have last : day = daysInMonth year month := Nat.le_antisymm days.2 (Nat.le_of_not_lt inside)
        have whole := daysBeforeMonth_succ year months.1
        by_cases further : month < 12
        · refine ⟨year, month + 1, 1, ⟨years, ⟨Nat.le_add_left 1 month, further⟩, le_rfl,
            one_le_daysInMonth _ _⟩, ?_⟩
          rw [← same, last, toOrdinal, whole, toOrdinal]
          omega
        · have december : month = 12 := Nat.le_antisymm months.2 (Nat.le_of_not_lt further)
          refine ⟨year + 1, 1, 1, ⟨Nat.le_add_left 1 year, by decide, le_rfl,
            one_le_daysInMonth _ _⟩, ?_⟩
          rw [december] at last whole same
          rw [daysBeforeMonth_thirteen] at whole
          rw [← same, last, toOrdinal, daysBeforeYear_succ years, whole, toOrdinal,
            daysBeforeMonth]
          omega

/-- **Every ordinal** is that of its date. -/
theorem toOrdinal_ofOrdinal {ordinal : Nat} (positive : 1 ≤ ordinal) :
    Valid (ofOrdinal ordinal).year (ofOrdinal ordinal).month (ofOrdinal ordinal).day ∧
      toOrdinal (ofOrdinal ordinal).year (ofOrdinal ordinal).month (ofOrdinal ordinal).day =
        ordinal := by
  obtain ⟨before, rfl⟩ := Nat.exists_eq_add_of_le' positive
  obtain ⟨year, month, day, valid, same⟩ := exists_toOrdinal_eq before
  rw [← same, ofOrdinal_toOrdinal valid]
  exact ⟨valid, rfl⟩

/-! ## The order of dates -/

theorem daysBeforeYear_mono {earlier later : Nat} (ordered : earlier ≤ later) :
    daysBeforeYear earlier ≤ daysBeforeYear later := by
  induction ordered with
  | refl => exact le_rfl
  | @step later further ih =>
      cases later with
      | zero => exact ih
      | succ later =>
          rw [Nat.succ_eq_add_one, daysBeforeYear_succ (Nat.le_add_left 1 later)]
          exact Nat.le_add_right_of_le ih

/-- A date comes before the first day of every later month. -/
theorem toOrdinal_lt {year month day year' month' : Nat} (valid : Valid year month day)
    (later : year < year' ∨ year = year' ∧ month < month') :
    toOrdinal year month day < toOrdinal year' month' 1 := by
  obtain ⟨years, months, days⟩ := valid
  have whole := daysBeforeMonth_succ year months.1
  unfold toOrdinal
  rcases later with laterYear | ⟨rfl, laterMonth⟩
  · have next := daysBeforeYear_mono (Nat.succ_le_of_lt laterYear)
    rw [Nat.succ_eq_add_one, daysBeforeYear_succ years, ← daysBeforeMonth_thirteen] at next
    have rest : daysBeforeMonth year (month + 1) ≤ daysBeforeMonth year 13 :=
      daysBeforeMonth_mono year (Nat.le_add_left 1 month) (Nat.succ_le_succ months.2)
    omega
  · have next : daysBeforeMonth year (month + 1) ≤ daysBeforeMonth year month' :=
      daysBeforeMonth_mono year (Nat.le_add_left 1 month) laterMonth
    omega

/-! ## Dates years apart -/

theorem add_years_le {year : Nat} (positive : 1 ≤ year) (count : Nat) :
    daysBeforeYear year + 365 * count ≤ daysBeforeYear (year + count) := by
  induction count with
  | zero => exact le_rfl
  | succ count ih =>
      have whole := daysBeforeYear_succ (Nat.le_add_right_of_le positive : 1 ≤ year + count)
      have leap : 365 ≤ if isLeap (year + count) then 366 else 365 := by split <;> decide
      rw [← Nat.add_assoc, whole, Nat.mul_succ, ← Nat.add_assoc]
      exact Nat.add_le_add ih leap

/-- A day is in the year of its date. -/
theorem le_daysBeforeYear_succ (ordinal : Nat) :
    ordinal ≤ daysBeforeYear ((ofOrdinal ordinal).year + 1) := by
  cases ordinal with
  | zero => exact Nat.zero_le _
  | succ before =>
      obtain ⟨valid, same⟩ := toOrdinal_ofOrdinal (Nat.le_add_left 1 before)
      generalize ofOrdinal (before + 1) = date at *
      have next : toOrdinal date.year date.month date.day < toOrdinal (date.year + 1) 1 1 :=
        toOrdinal_lt valid (.inl (Nat.lt_succ_self _))
      rw [same, toOrdinal, daysBeforeMonth] at next
      omega

/-- Some years later at least as many times 365 days have passed, but for the first year. -/
theorem add_years_le_toOrdinal {ordinal count year month day : Nat}
    (later : (ofOrdinal ordinal).year + 1 + count ≤ year) :
    ordinal + 365 * count ≤ toOrdinal year month day := by
  have own := le_daysBeforeYear_succ ordinal
  have passed := add_years_le (Nat.le_add_left 1 (ofOrdinal ordinal).year) count
  have reached := daysBeforeYear_mono later
  unfold toOrdinal
  omega

/-! ## Dates months and years apart -/

/-- A day is not before the first of its month. -/
theorem first_le_ordinal {ordinal : Nat} (positive : 1 ≤ ordinal) :
    toOrdinal (ofOrdinal ordinal).year (ofOrdinal ordinal).month 1 ≤ ordinal := by
  obtain ⟨valid, same⟩ := toOrdinal_ofOrdinal positive
  have first := valid.days.1
  unfold toOrdinal at same ⊢
  omega

/-- The first days of months, by the number of the month. -/
theorem add_months_le {number : Nat} (positive : 12 ≤ number) (count : Nat) :
    toOrdinal (number / 12) (number % 12 + 1) 1 + 28 * count ≤
      toOrdinal ((number + count) / 12) ((number + count) % 12 + 1) 1 := by
  induction count with
  | zero => exact le_rfl
  | succ count ih =>
      have days := le_daysInMonth ((number + count) / 12) ((number + count) % 12 + 1)
      have valid : Valid ((number + count) / 12) ((number + count) % 12 + 1) 28 :=
        ⟨by omega, by omega, by decide, days⟩
      have next := @toOrdinal_lt _ _ _ ((number + (count + 1)) / 12)
        ((number + (count + 1)) % 12 + 1) valid (by omega)
      unfold toOrdinal at ih next ⊢
      omega

/-- Between dates with whole months between them lie as many times 28 days. -/
theorem days_between_months {year month day count ordinal : Nat} (valid : Valid year month day)
    (positive : 1 ≤ ordinal) (gap : 12 * year + month + count <
      12 * (ofOrdinal ordinal).year + (ofOrdinal ordinal).month) :
    toOrdinal year month day + 28 * count < ordinal := by
  obtain ⟨own, _⟩ := toOrdinal_ofOrdinal positive
  have first := first_le_ordinal positive
  generalize ofOrdinal ordinal = date at *
  have years := valid.years
  have months := valid.months
  have months' := own.months
  have next := @toOrdinal_lt _ _ _ ((12 * year + month) / 12) ((12 * year + month) % 12 + 1) valid
    (by omega)
  have passed := add_months_le (by omega : 12 ≤ 12 * year + month)
    (12 * date.year + date.month - 1 - (12 * year + month))
  have last : 12 * year + month + (12 * date.year + date.month - 1 - (12 * year + month)) =
      12 * date.year + (date.month - 1) := by omega
  have sameYear : (12 * date.year + (date.month - 1)) / 12 = date.year := by omega
  have sameMonth : (12 * date.year + (date.month - 1)) % 12 + 1 = date.month := by omega
  rw [last, sameYear, sameMonth] at passed
  omega

/-- Between dates with whole years between them lie as many times 365 days. -/
theorem days_between_years {year month day count ordinal : Nat} (valid : Valid year month day)
    (positive : 1 ≤ ordinal) (gap : year + count < (ofOrdinal ordinal).year) :
    toOrdinal year month day + 365 * count < ordinal := by
  obtain ⟨own, same⟩ := toOrdinal_ofOrdinal positive
  generalize ofOrdinal ordinal = date at *
  have next : toOrdinal year month day < toOrdinal (year + 1) 1 1 :=
    toOrdinal_lt valid (.inl (Nat.lt_succ_self _))
  have passed := add_years_le (Nat.le_add_left 1 year) count
  have reached : daysBeforeYear (year + 1 + count) ≤ daysBeforeYear date.year :=
    daysBeforeYear_mono (by omega)
  have first := own.days.1
  rw [toOrdinal] at same
  rw [toOrdinal, toOrdinal, daysBeforeMonth] at next
  rw [toOrdinal]
  omega

end Gregorian
