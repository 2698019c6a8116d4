import FrontDashboard.MonthView.Dates
import Mathlib.Data.List.Infix

/-! # Every occurrence on exactly its days

The grid of a month, its window and the days of an occurrence agree when each day of the grid
begins at its midnight. A midnight that the clock skips makes the day begin late, and with it
everything that is counted from there.
-/

namespace FrontDashboard.MonthView

open LocalClock

variable {zone : Zone} {date day other days monthDate : Int}

/-! ## Steps of the calendar -/

/-- **Days are added** on the clock. -/
theorem addDays_eq (zone : Zone) (date days : Int) :
    addDays zone date days = zone.utc (zone.localTime date + days * msPerDay) := by
  have months := CivilDays.month_bounds (zone.dayOf date)
  have whole : makeDay (getFullYear zone date) (getMonth zone date) (getDate zone date + days) =
      zone.dayOf date + days := by
    have month : getMonth zone date + 1 = CivilDays.month (zone.dayOf date) :=
      Nat.sub_add_cancel months.1
    rw [makeDay, month, CivilDays.number_add]
    exact congrArg (· + days) (CivilDays.number_date (zone.dayOf date))
  unfold addDays setDate
  rw [whole]
  congr 1
  unfold makeDate timeWithinDay Zone.dayOf
  have parts := Int.ediv_mul_add_emod (zone.localTime date) msPerDay
  rw [Int.add_mul]
  omega

/-- The start of a day is the instant its date gives at midnight. -/
theorem startOfDay_eq (zone : Zone) (date : Int) :
    startOfDay zone date = zone.midnight (zone.dayOf date) := by
  unfold startOfDay setMidnight makeDate Zone.midnight Zone.dayOf
  rw [Int.add_zero]

/-- Adding days to a midnight gives the midnight of the later date. -/
theorem addDays_midnight (begins : zone.localTime (zone.midnight day) = day * msPerDay)
    (days : Int) : addDays zone (zone.midnight day) days = zone.midnight (day + days) := by
  rw [addDays_eq, begins, ← Int.add_mul]
  rfl

/-! ## Keys of days -/

/-- Two numbers that read alike are equal. -/
theorem nat_repr_injective {first second : Nat} (same : first.repr = second.repr) :
    first = second := by
  have digits := congrArg String.toList same
  rw [Nat.toList_repr, Nat.toList_repr] at digits
  rw [← @Nat.ofDigitChars_ten_toDigits first, digits, Nat.ofDigitChars_ten_toDigits]

/-- A minus sign is no digit. -/
theorem minus_append_ne (first second : Nat) : "-" ++ first.repr ≠ second.repr := by
  intro same
  have digits := congrArg String.toList same
  rw [String.toList_append, Nat.toList_repr, Nat.toList_repr] at digits
  have minus : '-' ∈ Nat.toDigits 10 second := by
    rw [← digits]
    exact List.mem_append_left _ (by simp)
  exact absurd (Nat.isDigit_of_mem_toDigits (by decide) (by decide) minus) (by decide)

/-- Two integers that read alike are equal. -/
theorem int_toString_injective {first second : Int} (same : toString first = toString second) :
    first = second := by
  rw [Int.toString_eq_repr, Int.toString_eq_repr, Int.repr_eq_if, Int.repr_eq_if] at same
  split at same <;> split at same
  · have naturals := nat_repr_injective same
    omega
  · exact absurd same.symm (minus_append_ne _ _)
  · exact absurd same (minus_append_ne _ _)
  · have naturals := nat_repr_injective (String.append_right_inj _ |>.mp same)
    omega

/-- Two digits tell the numbers below 32 apart. -/
theorem padStart_two : ∀ number < 32, (padStart 2 (toString number)).toList.length = 2 ∧
    ∀ other < 32, padStart 2 (toString number) = padStart 2 (toString other) → number = other := by
  decide +kernel

/-- What stands before two fields of one width, and the fields. -/
theorem fields_injective {year year' month month' day day' : String}
    (months : month.toList.length = month'.toList.length)
    (days : day.toList.length = day'.toList.length)
    (same : year ++ "-" ++ month ++ "-" ++ day = year' ++ "-" ++ month' ++ "-" ++ day') :
    year = year' ∧ month = month' ∧ day = day' := by
  have texts := congrArg String.toList same
  simp only [String.toList_append] at texts
  obtain ⟨texts, sameDay⟩ := List.append_inj' texts days
  obtain ⟨texts, -⟩ := List.append_inj' texts rfl
  obtain ⟨texts, sameMonth⟩ := List.append_inj' texts months
  obtain ⟨sameYear, -⟩ := List.append_inj' texts rfl
  exact ⟨String.toList_inj.mp sameYear, String.toList_inj.mp sameMonth,
    String.toList_inj.mp sameDay⟩

/-- **Keys are equal** on one local day. -/
theorem dateKey_eq_iff : dateKey zone date = dateKey zone other ↔
    zone.dayOf date = zone.dayOf other := by
  constructor
  · intro same
    have months := CivilDays.month_bounds (zone.dayOf date)
    have months' := CivilDays.month_bounds (zone.dayOf other)
    have days := CivilDays.dayOfMonth_bounds (zone.dayOf date)
    have days' := CivilDays.dayOfMonth_bounds (zone.dayOf other)
    have month := padStart_two (getMonth zone date + 1) (by unfold getMonth; omega)
    have month' := padStart_two (getMonth zone other + 1) (by unfold getMonth; omega)
    have day := padStart_two (CivilDays.dayOfMonth (zone.dayOf date)) (by omega)
    have day' := padStart_two (CivilDays.dayOfMonth (zone.dayOf other)) (by omega)
    obtain ⟨years, sameMonth, sameDay⟩ :=
      fields_injective (month.1.trans month'.1.symm) (day.1.trans day'.1.symm) same
    refine CivilDays.eq_of_date (int_toString_injective years) ?_ ?_
    · have numbers := month.2 _ (by unfold getMonth; omega) sameMonth
      unfold getMonth at numbers
      omega
    · exact day.2 _ (by omega) sameDay
  · intro same
    unfold dateKey getFullYear getMonth getDate
    rw [same]

/-! ## The days of an occurrence -/

/-- An occurrence spans days when it begins and last covers different ones. -/
theorem isMultiDay_iff {occurrence : CalendarOccurrence} :
    isMultiDayOccurrence zone occurrence = true ↔ zone.dayOf occurrence.occurrenceStart ≠
      zone.dayOf (lastCoveredDay occurrence.occurrenceEnd) := by
  unfold isMultiDayOccurrence spansDays
  rw [bne_iff_ne, ne_eq, dateKey_eq_iff]

/-- The cell says that the occurrence starts. -/
def SaysStart (text : String) (variant : Variant) : Prop :=
  ∃ time, text = startWord variant ++ " " ++ time

def SaysEnd (text : String) (variant : Variant) : Prop :=
  ∃ time, text = endWord variant ++ " " ++ time

/-- A label that does not begin with S says no start. -/
theorem not_saysStart_of_head {text : String} {variant : Variant}
    (head : text.toList.head? ≠ some 'S') : ¬ SaysStart text variant := by
  intro ⟨time, same⟩
  apply head
  rw [same]
  cases variant <;> simp [startWord]

/-- A label that does not begin with E says no end. -/
theorem not_saysEnd_of_head {text : String} {variant : Variant}
    (head : text.toList.head? ≠ some 'E') : ¬ SaysEnd text variant := by
  intro ⟨time, same⟩
  apply head
  rw [same]
  cases variant <;> simp [endWord]

/-- **The labels** of a timed occurrence on several days: its start on the day it starts, and
its end on the day of the last instant it covers. -/
theorem labels_exact (zone : Zone) (timeFormat : Int → String) {occurrence : CalendarOccurrence}
    (timed : occurrence.allDay = false)
    (several : zone.dayOf occurrence.occurrenceStart ≠
      zone.dayOf (lastCoveredDay occurrence.occurrenceEnd)) (day : Int) (variant : Variant) :
    (SaysStart (calendarOccurrenceCellPrefix zone timeFormat occurrence day variant) variant ↔
        zone.dayOf day = zone.dayOf occurrence.occurrenceStart) ∧
      (SaysEnd (calendarOccurrenceCellPrefix zone timeFormat occurrence day variant) variant ↔
        zone.dayOf day = zone.dayOf (lastCoveredDay occurrence.occurrenceEnd)) := by
  have multi := isMultiDay_iff.mpr several
  unfold calendarOccurrenceCellPrefix
  rw [timed, multi, if_neg Bool.false_ne_true, Bool.not_true, if_neg Bool.false_ne_true]
  simp only [dateKey_eq_iff]
  split
  next starts =>
    refine ⟨iff_of_true ⟨_, rfl⟩ starts, iff_of_false ?_ fun ends => several (starts ▸ ends)⟩
    apply not_saysEnd_of_head
    cases variant <;> simp [startWord]
  next later =>
    split
    next ends =>
      refine ⟨iff_of_false ?_ later, iff_of_true ⟨_, rfl⟩ ends⟩
      apply not_saysStart_of_head
      cases variant <;> simp [endWord]
    next within =>
      refine ⟨iff_of_false ?_ later, iff_of_false ?_ within⟩
      · apply not_saysStart_of_head
        cases variant <;> simp
      · apply not_saysEnd_of_head
        cases variant <;> simp

/-- A day whose occurrences are told rightly begins at its midnight as it is read, and ends
where the clock shows the same time a day later. -/
theorem begins_of_occurs (exact_ : ∀ occurrence : CalendarOccurrence,
      occurrence.occurrenceStart < occurrence.occurrenceEnd →
        (occursOnDate zone occurrence day = true ↔
          zone.dayOf occurrence.occurrenceStart ≤ zone.dayOf day ∧
            zone.dayOf day ≤ zone.dayOf (lastCoveredDay occurrence.occurrenceEnd))) :
    Begins zone (zone.dayOf day) (zone.midnight (zone.dayOf day)) ∧
      Begins zone (zone.dayOf day + 1) (addDays zone (zone.midnight (zone.dayOf day)) 1) := by
  have told : ∀ start stop, start ≤ stop →
      (start < addDays zone (zone.midnight (zone.dayOf day)) 1 ∧
          zone.midnight (zone.dayOf day) ≤ stop ↔
        zone.dayOf start ≤ zone.dayOf day ∧ zone.dayOf day ≤ zone.dayOf stop) := by
    intro start stop ordered
    have given := exact_ ⟨start, stop + 1, false⟩ (Int.lt_add_one_of_le ordered)
    unfold occursOnDate lastCoveredDay at given
    rw [Bool.and_eq_true, decide_eq_true_iff, decide_eq_true_iff, startOfDay_eq,
      Int.add_sub_cancel, gt_iff_lt, Int.lt_add_one_iff] at given
    exact given
  generalize addDays zone (zone.midnight (zone.dayOf day)) 1 = dayEnd at told ⊢
  generalize zone.midnight (zone.dayOf day) = dayStart at told ⊢
  constructor
  · intro instant
    obtain ⟨start, early, before⟩ := exists_earlier zone (zone.dayOf day)
      (min instant (dayEnd - 1))
    have bounds := le_min_iff.mp early
    have both := told start instant bounds.1
    rwa [and_iff_right (by omega), and_iff_right before.le] at both
  · intro instant
    obtain ⟨stop, late, after⟩ := exists_later zone (zone.dayOf day) (max instant dayStart)
    have bounds := max_le_iff.mp late
    have both := told instant stop bounds.1
    rw [and_iff_left bounds.2, and_iff_left after] at both
    rw [← not_lt, both, Int.add_one_le_iff, not_le]

/-- **Between midnights** that begin their days an occurrence is told rightly. -/
theorem occurs_of_begins (midnight : IsMidnight zone (zone.dayOf day))
    (next : Begins zone (zone.dayOf day + 1) (zone.midnight (zone.dayOf day + 1)))
    (occurrence : CalendarOccurrence) : occursOnDate zone occurrence day = true ↔
      zone.dayOf occurrence.occurrenceStart ≤ zone.dayOf day ∧
        zone.dayOf day ≤ zone.dayOf (lastCoveredDay occurrence.occurrenceEnd) := by
  obtain ⟨shows, begins⟩ := midnight.read
  unfold occursOnDate
  rw [Bool.and_eq_true, decide_eq_true_iff, decide_eq_true_iff, startOfDay_eq,
    addDays_midnight shows, ← not_le, next, Int.add_one_le_iff, not_lt, ← begins]
  unfold lastCoveredDay
  rw [gt_iff_lt, Int.le_sub_one_iff]

/-! ## The month -/

/-- The day of the first of the month. -/
def firstOfMonth (zone : Zone) (monthDate : Int) : Int :=
  makeDay (getFullYear zone monthDate) (getMonth zone monthDate) 1

/-- The Sunday on or before the first. -/
def firstSunday (zone : Zone) (monthDate : Int) : Int :=
  firstOfMonth zone monthDate - CivilDays.weekday (firstOfMonth zone monthDate)

/-- There are seven weekdays. -/
theorem weekday_lt (day : Int) : CivilDays.weekday day < 7 := by
  unfold CivilDays.weekday
  omega

/-- **The month view is exact.** The grid shows 42 consecutive local days from the Sunday on or
before the first, the weeks in view hold the whole month, the window spans the days of the grid,
an occurrence is on those of them that lie from its start to the last instant it covers, and
the first and the last of these say that it starts and ends. -/
structure ShowsExactly (zone : Zone) (timeFormat : Int → String) (monthDate : Int) : Prop where
  days : ∀ index : Nat, index < 42 → ∃ date, (monthGridDays zone monthDate)[index]? = some date ∧
    zone.dayOf date = firstSunday zone monthDate + index
  month : ∀ date, getFullYear zone date = getFullYear zone monthDate →
    getMonth zone date = getMonth zone monthDate →
      ∃ shown ∈ monthWeeksInView zone monthDate, zone.dayOf shown = zone.dayOf date
  window : ∀ instant,
    ((calendarWindow zone monthDate).start ≤ instant ∧
        instant < (calendarWindow zone monthDate).stop) ↔
      ∃ shown ∈ monthGridDays zone monthDate, zone.dayOf shown = zone.dayOf instant
  occurs : ∀ shown ∈ monthGridDays zone monthDate, ∀ day, zone.dayOf day = zone.dayOf shown →
    ∀ occurrence : CalendarOccurrence, occurrence.occurrenceStart < occurrence.occurrenceEnd →
      (occursOnDate zone occurrence day = true ↔
        zone.dayOf occurrence.occurrenceStart ≤ zone.dayOf day ∧
          zone.dayOf day ≤ zone.dayOf (lastCoveredDay occurrence.occurrenceEnd))
  labels : ∀ occurrence : CalendarOccurrence,
    occurrence.occurrenceStart < occurrence.occurrenceEnd → occurrence.allDay = false →
      zone.dayOf occurrence.occurrenceStart ≠
        zone.dayOf (lastCoveredDay occurrence.occurrenceEnd) → ∀ day variant,
      (SaysStart (calendarOccurrenceCellPrefix zone timeFormat occurrence day variant) variant ↔
          zone.dayOf day = zone.dayOf occurrence.occurrenceStart) ∧
        (SaysEnd (calendarOccurrenceCellPrefix zone timeFormat occurrence day variant) variant ↔
          zone.dayOf day = zone.dayOf (lastCoveredDay occurrence.occurrenceEnd))

/-- Each day of the grid begins at its midnight, the instant that the midnight after the grid
is read as ends it, and the year is not taken for one of the twentieth century. -/
structure Midnights (zone : Zone) (monthDate : Int) : Prop where
  year : ¬ (0 ≤ getFullYear zone monthDate ∧ getFullYear zone monthDate ≤ 99)
  days : ∀ index : Nat, index < 42 → IsMidnight zone (firstSunday zone monthDate + index)
  after : Begins zone (firstSunday zone monthDate + 42)
    (zone.midnight (firstSunday zone monthDate + 42))

/-- The grid has 42 days. -/
theorem length_monthGridDays (zone : Zone) (monthDate : Int) :
    (monthGridDays zone monthDate).length = 42 := by
  unfold monthGridDays
  rw [List.length_map, List.length_range]

/-- The first of the month is a day of the first week. -/
theorem firstOfMonth_bounds (zone : Zone) (monthDate : Int) :
    ∃ days < 7, firstOfMonth zone monthDate = firstSunday zone monthDate + (days : Nat) :=
  ⟨CivilDays.weekday (firstOfMonth zone monthDate), weekday_lt _, by unfold firstSunday; omega⟩

section Exact

variable (midnights : Midnights zone monthDate)

include midnights

/-- Within the grid midnight reads as midnight. -/
theorem Midnights.shows {index : Nat} (inside : index < 42) :
    zone.localTime (zone.midnight (firstSunday zone monthDate + index)) =
      (firstSunday zone monthDate + index) * msPerDay :=
  (midnights.days index inside).read.1

/-- A midnight within the grid is of its own day. -/
theorem Midnights.dayOf {index : Nat} (inside : index < 42) :
    zone.dayOf (zone.midnight (firstSunday zone monthDate + index)) =
      firstSunday zone monthDate + index :=
  dayOf_eq_of_midnight (midnights.shows inside)

/-- **The grid starts** at the midnight of its first day. -/
theorem Midnights.gridStart :
    startOfWeek zone (startOfMonth zone monthDate) =
      zone.midnight (firstSunday zone monthDate) := by
  obtain ⟨days, few, first⟩ := firstOfMonth_bounds zone monthDate
  have inside : days < 42 := by omega
  have monthStart : startOfMonth zone monthDate = zone.midnight (firstOfMonth zone monthDate) := by
    unfold startOfMonth newDate
    rw [makeFullYear, if_neg midnights.year, makeDate, Int.add_zero]
    rfl
  have day : zone.dayOf (startOfMonth zone monthDate) = firstOfMonth zone monthDate := by
    rw [monthStart, first, midnights.dayOf inside]
  have shows : zone.localTime (zone.midnight (firstOfMonth zone monthDate)) =
      firstOfMonth zone monthDate * msPerDay := by
    rw [first]
    exact midnights.shows inside
  unfold startOfWeek
  rw [startOfDay_eq, day, addDays_midnight shows, getDay, dayOf_eq_of_midnight shows]
  rfl

/-- The days of the grid are counted from its first Sunday: -/
theorem Midnights.addDays_gridStart (days : Int) :
    addDays zone (startOfWeek zone (startOfMonth zone monthDate)) days =
      zone.midnight (firstSunday zone monthDate + days) := by
  have shows := @Midnights.shows zone monthDate midnights 0 (by decide)
  rw [Int.natCast_zero, Int.add_zero] at shows
  rw [midnights.gridStart, addDays_midnight shows]

/-- The grid is 42 midnights in a row. -/
theorem Midnights.monthGridDays_eq : monthGridDays zone monthDate =
    (List.range 42).map fun index : Nat => zone.midnight (firstSunday zone monthDate + index) := by
  unfold monthGridDays
  dsimp only
  apply List.map_congr_left
  intro index _
  exact midnights.addDays_gridStart index

/-- The dates of the grid are its midnights. -/
theorem Midnights.mem_monthGridDays :
    date ∈ monthGridDays zone monthDate ↔ ∃ index : Nat, index < 42 ∧
      zone.midnight (firstSunday zone monthDate + index) = date := by
  rw [midnights.monthGridDays_eq]
  simp

/-- Each midnight is at its place in the grid. -/
theorem Midnights.monthGridDays_getElem? {index : Nat} (inside : index < 42) :
    (monthGridDays zone monthDate)[index]? =
      some (zone.midnight (firstSunday zone monthDate + index)) := by
  rw [midnights.monthGridDays_eq, List.getElem?_map, List.getElem?_range inside]
  rfl

/-- Each date of the grid is of its own day. -/
theorem Midnights.dayOf_of_mem (member : date ∈ monthGridDays zone monthDate) :
    ∃ index : Nat, index < 42 ∧ zone.dayOf date = firstSunday zone monthDate + index := by
  obtain ⟨index, inside, rfl⟩ := midnights.mem_monthGridDays.mp member
  exact ⟨index, inside, midnights.dayOf inside⟩

/-- **Each boundary** of the grid parts the days before it from those after. -/
theorem Midnights.begins {index : Nat} (inside : index ≤ 42) :
    Begins zone (firstSunday zone monthDate + index)
      (zone.midnight (firstSunday zone monthDate + index)) := by
  rcases Nat.lt_or_eq_of_le inside with before | rfl
  · exact (midnights.days index before).read.2
  · exact midnights.after

end Exact

/-- A day of the month is in one of the weeks that are shown. -/
theorem mem_weeksInView {month index : Nat} {days : List Int} {weeks : Nat}
    (found : days[index]? = some day) (shows : getMonth zone day = month)
    (inside : index < weeks * 7) : day ∈ weeksInView zone month days weeks := by
  induction weeks with
  | zero => omega
  | succ weeks ih =>
      unfold weeksInView
      dsimp only
      split
      next =>
        rw [List.mem_take_iff_getElem]
        obtain ⟨bound, same⟩ := List.getElem?_eq_some_iff.mp found
        exact ⟨index, by omega, same⟩
      next none_ =>
        apply ih
        by_contra later
        apply none_
        rw [List.any_eq_true]
        refine ⟨day, ?_, decide_eq_true shows⟩
        rw [List.mem_iff_getElem?]
        refine ⟨index - weeks * 7, ?_⟩
        rw [List.getElem?_take, if_pos (by omega), List.getElem?_drop,
          Nat.add_sub_cancel' (Nat.le_of_not_lt later)]
        exact found

/-- A day of the month, counted from the first. -/
theorem dayOf_eq_firstOfMonth_add (years : getFullYear zone date = getFullYear zone monthDate)
    (months : getMonth zone date = getMonth zone monthDate) :
    zone.dayOf date = firstOfMonth zone monthDate + (getDate zone date - 1) := by
  have bounds := CivilDays.month_bounds (zone.dayOf date)
  have days := CivilDays.dayOfMonth_bounds (zone.dayOf date)
  have month : getMonth zone date + 1 = CivilDays.month (zone.dayOf date) :=
    Nat.sub_add_cancel bounds.1
  have counted : 1 + (getDate zone date - 1) = getDate zone date := by omega
  unfold firstOfMonth makeDay
  rw [← years, ← months, month, ← CivilDays.number_add, counted]
  exact (CivilDays.number_date _).symm

/-- **The weeks in view** hold the days of the month. -/
theorem Midnights.exists_shown (midnights : Midnights zone monthDate)
    (years : getFullYear zone date = getFullYear zone monthDate)
    (months : getMonth zone date = getMonth zone monthDate) :
    ∃ shown ∈ monthWeeksInView zone monthDate, zone.dayOf shown = zone.dayOf date := by
  obtain ⟨before, few, first⟩ := firstOfMonth_bounds zone monthDate
  have days := CivilDays.dayOfMonth_bounds (zone.dayOf date)
  have day := dayOf_eq_firstOfMonth_add years months
  obtain ⟨index, place⟩ : ∃ index : Nat, zone.dayOf date = firstSunday zone monthDate + index :=
    ⟨before + (CivilDays.dayOfMonth (zone.dayOf date) - 1), by
      unfold getDate at day
      omega⟩
  have inside : index < 37 := by
    unfold getDate at day
    omega
  have shown := midnights.dayOf (by omega : index < 42)
  refine ⟨_, mem_weeksInView (midnights.monthGridDays_getElem? (by omega)) ?_ ?_,
    shown.trans place.symm⟩
  · unfold getMonth
    rw [shown, ← place]
    exact months
  · rw [length_monthGridDays]
    omega

/-- **The window** spans the days of the grid. -/
theorem Midnights.window_iff (midnights : Midnights zone monthDate) (instant : Int) :
    ((calendarWindow zone monthDate).start ≤ instant ∧
        instant < (calendarWindow zone monthDate).stop) ↔
      ∃ shown ∈ monthGridDays zone monthDate, zone.dayOf shown = zone.dayOf instant := by
  have start : (calendarWindow zone monthDate).start =
      zone.midnight (firstSunday zone monthDate + (0 : Nat)) := by
    rw [Int.natCast_zero, Int.add_zero]
    exact midnights.gridStart
  have stop : (calendarWindow zone monthDate).stop =
      zone.midnight (firstSunday zone monthDate + (42 : Nat)) :=
    midnights.addDays_gridStart 42
  rw [start, stop, midnights.begins (by decide) instant, ← not_le,
    midnights.begins le_rfl instant]
  constructor
  · intro within
    obtain ⟨index, place⟩ : ∃ index : Nat,
        zone.dayOf instant = firstSunday zone monthDate + index :=
      ⟨(zone.dayOf instant - firstSunday zone monthDate).toNat, by omega⟩
    have inside : index < 42 := by omega
    refine ⟨_, midnights.mem_monthGridDays.mpr ⟨index, inside, rfl⟩, ?_⟩
    rw [midnights.dayOf inside, place]
  · intro ⟨shown, member, same⟩
    obtain ⟨index, inside, place⟩ := midnights.dayOf_of_mem member
    omega

/-- **Where midnights begin the days** of the grid, the month view is exact. -/
theorem Midnights.showsExactly (midnights : Midnights zone monthDate)
    (timeFormat : Int → String) : ShowsExactly zone timeFormat monthDate where
  days := fun index inside =>
    ⟨_, midnights.monthGridDays_getElem? inside, midnights.dayOf inside⟩
  month := fun date years months => midnights.exists_shown years months
  window := midnights.window_iff
  occurs := by
    intro shown member day same occurrence _
    obtain ⟨index, inside, place⟩ := midnights.dayOf_of_mem member
    have next := midnights.begins (Nat.succ_le_of_lt inside)
    rw [Int.natCast_succ, ← Int.add_assoc, ← place, ← same] at next
    have midnight := midnights.days index inside
    rw [← place, ← same] at midnight
    exact occurs_of_begins midnight next occurrence
  labels := fun occurrence _ timed several day variant =>
    labels_exact zone timeFormat timed several day variant

/-! ## Where it is not exact -/

/-- A day that ends where the next begins, at its midnight, begins at its own. -/
theorem isMidnight_of_next (begins : Begins zone day (zone.midnight day))
    (ends : Begins zone (day + 1) (addDays zone (zone.midnight day) 1))
    (next : IsMidnight zone (day + 1)) : IsMidnight zone day := by
  obtain ⟨instant, shows, first⟩ := next
  refine ⟨zone.midnight day, ?_, begins⟩
  have late := le_dayOf_iff.mp (le_dayOf_midnight zone day)
  have passes := le_localTime_utc zone (zone.localTime (zone.midnight day) + 1 * msPerDay)
  rw [← addDays_eq, ends.unique first, shows, Int.add_mul] at passes
  omega

/-- A year that is taken for one of the twentieth century shows another month. -/
theorem year_of_days (days : ∃ date, (monthGridDays zone monthDate)[0]? = some date ∧
      zone.dayOf date = firstSunday zone monthDate) :
    ¬ (0 ≤ getFullYear zone monthDate ∧ getFullYear zone monthDate ≤ 99) := by
  intro twoDigits
  obtain ⟨date, found, first⟩ := days
  have months := CivilDays.month_bounds (zone.dayOf monthDate)
  have month : 1 ≤ getMonth zone monthDate + 1 ∧ getMonth zone monthDate + 1 ≤ 12 := by
    unfold getMonth
    omega
  have monthStart : startOfMonth zone monthDate =
      zone.midnight (makeDay (1900 + getFullYear zone monthDate) (getMonth zone monthDate) 1) := by
    unfold startOfMonth newDate
    rw [makeFullYear, if_pos twoDigits, makeDate, Int.add_zero]
    rfl
  have much : firstOfMonth zone monthDate + 584388 <
      makeDay (1900 + getFullYear zone monthDate) (getMonth zone monthDate) 1 := by
    have later := CivilDays.number_lt_number
      (by omega : getFullYear zone monthDate + 400 * 4 < 1900 + getFullYear zone monthDate) month
    rw [CivilDays.number_add_eras] at later
    exact later
  have start : date = addDays zone (startOfWeek zone (startOfMonth zone monthDate)) 0 :=
    (Option.some.inj found).symm
  have whole := le_dayOf_midnight zone
    (makeDay (1900 + getFullYear zone monthDate) (getMonth zone monthDate) 1)
  have day := le_dayOf_iff.mp
    (le_dayOf_midnight zone (zone.dayOf (startOfMonth zone monthDate)))
  have week := le_localTime_utc zone
    (zone.localTime (startOfDay zone (startOfMonth zone monthDate)) +
      -getDay zone (startOfDay zone (startOfMonth zone monthDate)) * msPerDay)
  have again := le_localTime_utc zone
    (zone.localTime (startOfWeek zone (startOfMonth zone monthDate)) + 0 * msPerDay)
  have weekday := weekday_lt (zone.dayOf (startOfDay zone (startOfMonth zone monthDate)))
  rw [← addDays_eq] at week again
  rw [← start] at again
  rw [← monthStart] at whole
  rw [← startOfDay_eq] at day
  have reached : firstOfMonth zone monthDate + 1 ≤ zone.dayOf date := by
    rw [le_dayOf_iff]
    change _ ≤ zone.localTime (startOfWeek zone (startOfMonth zone monthDate)) at week
    unfold getDay at week
    unfold msPerDay at *
    omega
  obtain ⟨before, _, sunday⟩ := firstOfMonth_bounds zone monthDate
  omega

/-- **An exact month view** has midnights begin its days, where the last of them or the day
after it begins at its midnight. -/
theorem ShowsExactly.midnights {timeFormat : Int → String}
    (shows : ShowsExactly zone timeFormat monthDate)
    (late : IsMidnight zone (firstSunday zone monthDate + 41) ∨
      IsMidnight zone (firstSunday zone monthDate + 42)) : Midnights zone monthDate := by
  have parts : ∀ index : Nat, index < 42 →
      Begins zone (firstSunday zone monthDate + index)
          (zone.midnight (firstSunday zone monthDate + index)) ∧
        Begins zone (firstSunday zone monthDate + index + 1)
          (addDays zone (zone.midnight (firstSunday zone monthDate + index)) 1) := by
    intro index inside
    obtain ⟨date, found, day⟩ := shows.days index inside
    rw [← day]
    exact begins_of_occurs fun occurrence =>
      shows.occurs date (List.mem_of_getElem? found) date rfl occurrence
  have next : ∀ index : Nat, index < 42 →
      IsMidnight zone (firstSunday zone monthDate + (index + 1 : Nat)) →
        IsMidnight zone (firstSunday zone monthDate + index) := by
    intro index inside midnight
    obtain ⟨begins, ends⟩ := parts index inside
    rw [Int.natCast_succ, ← Int.add_assoc] at midnight
    exact isMidnight_of_next begins ends midnight
  have last : IsMidnight zone (firstSunday zone monthDate + (41 : Nat)) := by
    rcases late with own | after
    · exact own
    · exact next 41 (by decide) after
  have back : ∀ left : Nat, left ≤ 41 →
      IsMidnight zone (firstSunday zone monthDate + (41 - left : Nat)) := by
    intro left
    induction left with
    | zero => exact fun _ => last
    | succ left ih =>
        intro room
        apply next (41 - (left + 1)) (by omega)
        rw [show 41 - (left + 1) + 1 = 41 - left by omega]
        exact ih (by omega)
  refine ⟨?_, ?_, ?_⟩
  · apply year_of_days
    obtain ⟨date, found, day⟩ := shows.days 0 (by decide)
    exact ⟨date, found, by rw [day, Int.natCast_zero, Int.add_zero]⟩
  · intro index inside
    have midnight := back (41 - index) (by omega)
    rw [Nat.sub_sub_self (Nat.le_of_lt_succ inside)] at midnight
    exact midnight
  · have ends := (parts 41 (by decide)).2
    rw [addDays_midnight last.read.1, Int.add_assoc] at ends
    exact ends

/-- **The month view is exact** when each day of the grid begins at its midnight and, unless
neither the last of them nor the day after it does, only then. -/
theorem month_view_exact (zone : Zone) (timeFormat : Int → String) (monthDate : Int) :
    (Midnights zone monthDate → ShowsExactly zone timeFormat monthDate) ∧
      (IsMidnight zone (firstSunday zone monthDate + 41) ∨
          IsMidnight zone (firstSunday zone monthDate + 42) →
        (ShowsExactly zone timeFormat monthDate ↔ Midnights zone monthDate)) :=
  ⟨fun midnights => midnights.showsExactly timeFormat,
    fun late => ⟨fun shows => shows.midnights late,
      fun midnights => midnights.showsExactly timeFormat⟩⟩

/-! ## A clock that changes at night, and one that changes at midnight -/

/-- Summer time from 2026-03-29 on, at one o'clock of the epoch's clock. -/
def berlin : Zone where
  initial := 3600000
  changes := [⟨1774746000000, 7200000⟩]
  spaced := ⟨nofun, trivial⟩
  bounded := by decide

/-- Berlin changes its clocks at two and at three, never at midnight. -/
theorem isMidnight_berlin (day : Int) : IsMidnight berlin day := by
  have clock : ∀ instant, berlin.localTime instant =
      instant + if instant < 1774746000000 then 3600000 else 7200000 := fun _ => rfl
  refine ⟨day * msPerDay - if day * msPerDay < 1774749600000 then 3600000 else 7200000, ?_, ?_⟩
  · rw [clock]
    unfold msPerDay
    split_ifs <;> omega
  · intro instant
    rw [le_dayOf_iff, clock]
    unfold msPerDay
    split_ifs <;> omega

/-- March 2026 in Berlin. -/
theorem month_view_exact_berlin : ShowsExactly berlin (fun _ => "") 1773576000000 := by
  refine (month_view_exact berlin (fun _ => "") 1773576000000).1 ⟨by decide +kernel, ?_, ?_⟩
  · exact fun index _ => isMidnight_berlin _
  · exact (isMidnight_berlin _).read.2

/-- Summer time from 2017-10-01 on, at midnight. -/
def asuncion : Zone where
  initial := -14400000
  changes := [⟨1506830400000, -10800000⟩]
  spaced := ⟨nofun, trivial⟩
  bounded := by decide

/-- Half an hour of 2017-10-02, from a quarter past midnight on, is on the first of October. -/
theorem month_view_not_exact :
    ¬ ∀ zone timeFormat monthDate, ShowsExactly zone timeFormat monthDate := by
  intro exact_
  have shows := exact_ asuncion (fun _ => "") 1508068800000
  have onFirst : 1506830400000 ∈ monthGridDays asuncion 1508068800000 := by decide +kernel
  have told := shows.occurs 1506830400000 onFirst 1506830400000 rfl
    ⟨1506914100000, 1506915900000, false⟩ (by decide)
  exact absurd (told.mp (by decide +kernel)).1 (by decide +kernel)

end FrontDashboard.MonthView
