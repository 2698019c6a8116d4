import Mathlib.Data.Int.ConditionallyCompleteOrder
import Mathlib.Order.ConditionallyCompleteLattice.Basic
import FrontDashboard.Calendar.Alike
import FrontDashboard.Calendar.Bounded

/-! # The slots of a window

A clock that puts a later day later puts the slots of a series in order. A walk then finds every
slot of its window from the iteration it begins with, and nothing else.
-/

namespace FrontDashboard.Calendar

open Outcomes

/-- At one time of day, the instants of the dates are in order. -/
def Zone.Advances (zone : Zone) : Prop :=
  ∀ localTime, 0 ≤ localTime → localTime < day →
    StrictMonoOn (fun date => date * day + localTime - zone.wallOffset (date * day + localTime))
      (Set.Icc 1 maxOrdinal)

theorem safeDate_within {year month dayOfMonth : Nat} {ordinal : Int}
    (valid : Gregorian.Valid year month dayOfMonth)
    (on : safeDate year month dayOfMonth = .on ordinal) : 1 ≤ ordinal ∧ ordinal ≤ maxOrdinal := by
  have early : year ≤ 9999 := by
    by_contra late
    rw [safeDate, if_pos (Nat.not_le.mp late)] at on
    cases on
  have before : Gregorian.toOrdinal year month dayOfMonth < Gregorian.toOrdinal 10000 1 1 :=
    Gregorian.toOrdinal_lt valid (.inl (Nat.lt_succ_of_le early))
  have last : (Gregorian.toOrdinal 10000 1 1 : Int) = maxOrdinal + 1 := by decide
  have positive := valid.days.1
  rw [(safeDate_eq_on on).2]
  unfold Gregorian.toOrdinal at before last ⊢
  omega

namespace Series

variable {series : Series}

/-- What a series takes from an event whose clock runs forward. -/
structure InOrder (series : Series) : Prop where
  based : 1 ≤ series.baseDate
  clock : 0 ≤ series.localTime ∧ series.localTime < day
  advances : series.zone.Advances

/-! ## The dates -/

theorem base_valid (based : 1 ≤ series.baseDate) :
    Gregorian.Valid series.base.year series.base.month series.base.day :=
  (Gregorian.toOrdinal_ofOrdinal (by omega)).1

theorem weekly_eq_on {index : Nat} {date : Int} (weekly : series.rule.frequency = .weekly)
    (on : series.candidate index = .on date) :
    ∃ weekday, series.weekdays[index % series.weekdays.length]? = some weekday ∧
      date = series.weekStart + (index / series.weekdays.length : Nat) * (7 * series.interval) +
        weekday ∧ date ≤ maxOrdinal := by
  unfold candidate at on
  rw [weekly] at on
  dsimp only at on
  split at on
  next => cases on
  next weekday named =>
    split at on
    next => cases on
    next within =>
      cases on
      exact ⟨weekday, named, by rw [Int.mul_comm 7, Int.mul_assoc], Int.not_lt.mp within⟩

/-- The days that the iterations of a weekly series name are in order. -/
theorem weekly_lt {earlier later weekday weekday' : Nat}
    (weekly : series.rule.frequency = .weekly) (before : earlier < later)
    (named : series.weekdays[earlier % series.weekdays.length]? = some weekday)
    (named' : series.weekdays[later % series.weekdays.length]? = some weekday') :
    (earlier / series.weekdays.length : Nat) * (7 * series.interval) + (weekday : Int) <
      (later / series.weekdays.length : Nat) * (7 * series.interval) + weekday' := by
  have positive := series.interval_pos
  have week := weekday_le weekly weekday (List.mem_of_getElem? named)
  have whole := Nat.div_add_mod earlier series.weekdays.length
  have whole' := Nat.div_add_mod later series.weekdays.length
  rcases Nat.lt_or_eq_of_le
      (Nat.div_le_div_right before.le : _ ≤ later / series.weekdays.length) with weeks | same
  · have further := Int.mul_le_mul_of_nonneg_right (Int.ofNat_le.mpr (Nat.succ_le_of_lt weeks))
      (by omega : (0 : Int) ≤ 7 * series.interval)
    rw [Nat.succ_eq_add_one, Int.natCast_add, Int.add_mul] at further
    omega
  · rw [same] at whole ⊢
    have turn : earlier % series.weekdays.length < later % series.weekdays.length := by omega
    have days := sorted_lt turn named named'
    omega

/-- **The dates of a series** are in order. -/
theorem candidate_lt {earlier later : Nat} {date date' : Int} (based : 1 ≤ series.baseDate)
    (before : earlier < later) (on : series.candidate earlier = .on date)
    (on' : series.candidate later = .on date') : date < date' := by
  have positive := series.interval_pos
  have valid := base_valid based
  have further : earlier * series.interval < later * series.interval :=
    Nat.mul_lt_mul_of_pos_right before (by omega)
  cases frequency : series.rule.frequency with
  | daily =>
      unfold candidate at on on'
      rw [frequency] at on on'
      dsimp only at on on'
      split at on <;> cases on
      split at on' <;> cases on'
      exact_mod_cast Int.add_lt_add_left (Int.ofNat_lt.mpr further) series.baseDate
  | weekly =>
      obtain ⟨weekday, named, rfl, -⟩ := weekly_eq_on frequency on
      obtain ⟨weekday', named', rfl, -⟩ := weekly_eq_on frequency on'
      have days := weekly_lt frequency before named named'
      omega
  | monthly =>
      unfold candidate at on on'
      rw [frequency] at on on'
      exact safeDate_lt (addMonths_valid valid (safeDate_eq_on on).1)
        (addMonths_lt further valid.months) on on'
  | yearly =>
      unfold candidate at on on'
      rw [frequency] at on on'
      have years := valid.years
      exact safeDate_lt ⟨by omega, valid.months, valid.days.1, (safeDate_eq_on on).1⟩
        (.inl (by omega)) on on'

theorem weekStart_positive (based : 1 ≤ series.baseDate) : 1 ≤ series.weekStart := by
  unfold weekStart weekdayOf
  omega

/-- A date of a series is one of the calendar. -/
theorem candidate_within {index : Nat} {date : Int} (based : 1 ≤ series.baseDate)
    (on : series.candidate index = .on date) : 1 ≤ date ∧ date ≤ maxOrdinal := by
  have positive := series.interval_pos
  have valid := base_valid based
  cases frequency : series.rule.frequency with
  | daily =>
      unfold candidate at on
      rw [frequency] at on
      dsimp only at on
      have further : (0 : Int) ≤ index * series.interval :=
        Int.mul_nonneg (Int.natCast_nonneg _) positive.le
      split at on <;> cases on
      omega
  | weekly =>
      obtain ⟨weekday, _, rfl, within⟩ := weekly_eq_on frequency on
      have monday := weekStart_positive based
      have further : (0 : Int) ≤ (index / series.weekdays.length : Nat) * (7 * series.interval) :=
        Int.mul_nonneg (Int.natCast_nonneg _) (by omega)
      omega
  | monthly =>
      unfold candidate at on
      rw [frequency] at on
      exact safeDate_within (addMonths_valid valid (safeDate_eq_on on).1) on
  | yearly =>
      unfold candidate at on
      rw [frequency] at on
      have years := valid.years
      exact safeDate_within ⟨by omega, valid.months, valid.days.1, (safeDate_eq_on on).1⟩ on

/-- The walk makes enough iterations to come to any date. -/
theorem index_lt_iterationLimit {index : Nat} {date : Int} (based : 1 ≤ series.baseDate)
    (on : series.candidate index = .on date) : index < iterationLimit := by
  have positive := series.interval_pos
  have valid := base_valid based
  unfold iterationLimit
  cases frequency : series.rule.frequency with
  | daily =>
      unfold candidate at on
      rw [frequency] at on
      dsimp only at on
      have further : (index : Int) * 1 ≤ index * series.interval :=
        Int.mul_le_mul_of_nonneg_left positive (Int.natCast_nonneg _)
      split at on <;> cases on
      unfold maxOrdinal at *
      omega
  | weekly =>
      obtain ⟨weekday, named, rfl, within⟩ := weekly_eq_on frequency on
      have monday := weekStart_positive based
      have further : ((index / series.weekdays.length : Nat) : Int) * 7 ≤
          (index / series.weekdays.length : Nat) * (7 * series.interval) :=
        Int.mul_le_mul_of_nonneg_left (by omega) (Int.natCast_nonneg _)
      have days := length_weekdays_le frequency
      have some : 0 < series.weekdays.length :=
        Nat.zero_lt_of_lt (Nat.lt_of_le_of_lt (Nat.zero_le _)
          (List.getElem?_eq_some_iff.mp named).1)
      have rest := Nat.mod_lt index some
      have whole := Nat.div_add_mod index series.weekdays.length
      have weeks := Nat.mul_le_mul_right (index / series.weekdays.length) days
      unfold maxOrdinal at *
      omega
  | monthly =>
      unfold candidate at on
      rw [frequency] at on
      have further : index ≤ index * series.interval :=
        Nat.le_mul_of_pos_right _ (by omega)
      by_contra late
      dsimp only [addMonths, safeDate] at on
      rw [if_pos (by omega)] at on
      cases on
  | yearly =>
      unfold candidate at on
      rw [frequency] at on
      have further : index ≤ index * series.interval :=
        Nat.le_mul_of_pos_right _ (by omega)
      by_contra late
      dsimp only [safeDate] at on
      rw [if_pos (by omega)] at on
      cases on

/-- Where the candidates are exhausted they remain so. -/
theorem not_exhausted {earlier later : Nat} {date : Int} (ordered : earlier ≤ later)
    (on : series.candidate later = .on date) : series.candidate earlier ≠ .exhausted := by
  intro exhausted
  rcases ordered.lt_or_eq with before | same
  swap
  · rw [same, on] at exhausted
    cases exhausted
  have positive := series.interval_pos
  have further : earlier * series.interval < later * series.interval :=
    Nat.mul_lt_mul_of_pos_right before (by omega)
  unfold candidate at on exhausted
  cases frequency : series.rule.frequency with
  | daily =>
      rw [frequency] at on exhausted
      dsimp only at on exhausted
      have apart : (earlier : Int) * series.interval < later * series.interval := by
        exact_mod_cast further
      split at on <;> cases on
      split at exhausted
      next past => omega
      next => cases exhausted
  | weekly =>
      have found := on
      rw [← candidate] at found
      obtain ⟨weekday', named', rfl, within⟩ := weekly_eq_on frequency found
      rw [frequency] at exhausted
      dsimp only at exhausted
      split at exhausted
      next missing =>
        have some : 0 < series.weekdays.length :=
          Nat.zero_lt_of_lt (Nat.lt_of_le_of_lt (Nat.zero_le _)
            (List.getElem?_eq_some_iff.mp named').1)
        exact absurd (Nat.mod_lt earlier some)
          (Nat.not_lt.mpr (List.getElem?_eq_none_iff.mp missing))
      next weekday named =>
        have days := weekly_lt frequency before named named'
        rw [Int.mul_comm 7, Int.mul_assoc] at exhausted
        split at exhausted
        next past => omega
        next => cases exhausted
  | monthly =>
      rw [frequency] at on exhausted
      dsimp only [addMonths, safeDate] at on exhausted
      split at on
      next => cases on
      next within =>
        rw [if_neg (by omega)] at exhausted
        split at exhausted <;> cases exhausted
  | yearly =>
      rw [frequency] at on exhausted
      dsimp only [safeDate] at on exhausted
      split at on
      next => cases on
      next within =>
        rw [if_neg (by omega)] at exhausted
        split at exhausted <;> cases exhausted

/-! ## The slots -/

theorem localToUtc_lt {zone : Zone} {localTime date date' instant instant' : Int}
    (advances : zone.Advances) (clock : 0 ≤ localTime ∧ localTime < day)
    (within : 1 ≤ date ∧ date ≤ maxOrdinal) (within' : 1 ≤ date' ∧ date' ≤ maxOrdinal)
    (read : zone.localToUtc date localTime = .ok instant)
    (read' : zone.localToUtc date' localTime = .ok instant') (before : date < date') :
    instant < instant' := by
  rw [(checked_eq_ok.mp read).1, (checked_eq_ok.mp read').1]
  exact advances localTime clock.1 clock.2 within within' before

theorem instant_le {earlier later : Nat} {date date' instant instant' : Int}
    (inOrder : series.InOrder) (ordered : earlier ≤ later)
    (on : series.candidate earlier = .on date) (on' : series.candidate later = .on date')
    (read : series.zone.localToUtc date series.localTime = .ok instant)
    (read' : series.zone.localToUtc date' series.localTime = .ok instant') :
    instant ≤ instant' := by
  rcases ordered.lt_or_eq with before | rfl
  · exact (localToUtc_lt inOrder.advances inOrder.clock (candidate_within inOrder.based on)
      (candidate_within inOrder.based on') read read'
      (candidate_lt inOrder.based before on on')).le
  · cases on.symm.trans on'
    cases read.symm.trans read'
    exact le_rfl

/-- **The slots of a series** are in order. -/
theorem slotAt_lt {earlier later : Nat} {instant instant' : Int} (inOrder : series.InOrder)
    (before : earlier < later) (slot : series.slotAt earlier = some instant)
    (slot' : series.slotAt later = some instant') : instant < instant' := by
  obtain ⟨date, on, read⟩ := exists_on_of_slotAt slot
  obtain ⟨date', on', read'⟩ := exists_on_of_slotAt slot'
  exact localToUtc_lt inOrder.advances inOrder.clock (candidate_within inOrder.based on)
    (candidate_within inOrder.based on') read read' (candidate_lt inOrder.based before on on')

/-! ## The walk -/

variable {windowEnd : Int}

theorem reached_mono {emitted more : Nat} (ordered : emitted ≤ more)
    (reached : series.reached emitted) : series.reached more := by
  obtain ⟨limit, counted, done⟩ := reached
  exact ⟨limit, counted, done.trans ordered⟩

/-- A walk does not end before a slot of its window. -/
theorem not_ends {index emitted later : Nat} {instant : Int} (inOrder : series.InOrder)
    (counts : series.Counts index emitted) (ordered : index ≤ later)
    (slot : series.slotAt later = some instant) (inside : instant < windowEnd)
    (unreached : ¬ series.reached (series.slotsBefore later)) :
    ¬ series.Ends windowEnd index emitted := by
  obtain ⟨date', on', read'⟩ := exists_on_of_slotAt slot
  rintro (exhausted | ⟨date, other, on, read, past | after | reached⟩)
  · exact not_exhausted ordered on' exhausted
  · have before := instant_le inOrder ordered on on' read read'
    omega
  · obtain ⟨untilAt, named, ended⟩ := after
    have before := instant_le inOrder ordered on on' read read'
    exact (slotAt_bounds slot).2 ⟨untilAt, named, ended.trans_le before⟩
  · exact unreached (reached_mono (slotsBefore_mono ordered) (counts.reached_iff.mp reached))

/-- **A walk that comes to its end** finds every slot of its window. -/
theorem mem_walk {iterations wanted index emitted later : Nat} {instant : Int}
    {starts : List Int} (inOrder : series.InOrder) (counts : series.Counts index emitted)
    (walked : series.walk windowEnd iterations wanted index emitted = .ok starts)
    (ended : starts.length < wanted) (ordered : index ≤ later)
    (soon : later < index + iterations) (slot : series.slotAt later = some instant)
    (inside : instant < windowEnd) (unreached : ¬ series.reached (series.slotsBefore later)) :
    instant ∈ starts := by
  induction iterations generalizing wanted index emitted starts with
  | zero => omega
  | succ iterations ih =>
      cases wanted with
      | zero => omega
      | succ wanted =>
          rcases walk_cases walked with ⟨ends, _⟩ | ⟨none, remaining⟩ |
            ⟨first, rest, found, _, _, rfl, remaining⟩
          · exact absurd ends (not_ends inOrder counts ordered slot inside unreached)
          · rcases ordered.lt_or_eq with before | same
            · exact ih (counts.pass none) remaining ended before (by omega)
            · rw [same, slot] at none
              cases none
          · rcases ordered.lt_or_eq with before | same
            · exact List.mem_cons_of_mem _ (ih (counts.emit found) remaining
                (Nat.lt_of_succ_lt_succ ended) before (by omega))
            · rw [same, slot] at found
              cases found
              exact List.mem_cons_self

/-- A walk finds the slots of its iterations. -/
theorem slotAt_of_mem_walk {iterations wanted index emitted : Nat} {starts : List Int}
    (walked : series.walk windowEnd iterations wanted index emitted = .ok starts) :
    ∀ start ∈ starts, ∃ later, index ≤ later ∧ series.slotAt later = some start := by
  induction iterations generalizing wanted index emitted starts with
  | zero =>
      cases walked
      exact List.forall_mem_nil _
  | succ iterations ih =>
      cases wanted with
      | zero =>
          cases walked
          exact List.forall_mem_nil _
      | succ wanted =>
          rcases walk_cases walked with ⟨_, rfl⟩ | ⟨_, remaining⟩ |
            ⟨first, rest, found, _, _, rfl, remaining⟩
          · exact List.forall_mem_nil _
          · intro start member
            obtain ⟨later, further, slot⟩ := ih remaining start member
            exact ⟨later, Nat.le_of_succ_le further, slot⟩
          · rw [List.forall_mem_cons]
            refine ⟨⟨index, le_rfl, found⟩, fun start member => ?_⟩
            obtain ⟨later, further, slot⟩ := ih remaining start member
            exact ⟨later, Nat.le_of_succ_le further, slot⟩

/-- A walk finds its slots in order. -/
theorem walk_pairwise {iterations wanted index emitted : Nat} {starts : List Int}
    (inOrder : series.InOrder)
    (walked : series.walk windowEnd iterations wanted index emitted = .ok starts) :
    starts.Pairwise (· < ·) := by
  induction iterations generalizing wanted index emitted starts with
  | zero =>
      cases walked
      exact List.Pairwise.nil
  | succ iterations ih =>
      cases wanted with
      | zero =>
          cases walked
          exact List.Pairwise.nil
      | succ wanted =>
          rcases walk_cases walked with ⟨_, rfl⟩ | ⟨_, remaining⟩ |
            ⟨first, rest, found, _, _, rfl, remaining⟩
          · exact List.Pairwise.nil
          · exact ih remaining
          · refine List.pairwise_cons.mpr ⟨fun start member => ?_, ih remaining⟩
            obtain ⟨later, further, slot⟩ := slotAt_of_mem_walk remaining start member
            exact slotAt_lt inOrder further found slot

end Series

theorem inOrder_of_seriesOf {zone : Zone} {event : CalendarEvent} {rule : RecurrenceRule}
    {series : Series} (advances : zone.Advances)
    (based : seriesOf zone event rule = .ok series) : series.InOrder := by
  obtain ⟨-, baseLocal, opens, rfl⟩ := seriesOf_eq_ok.mp based
  obtain ⟨rfl, early, _⟩ := checked_eq_ok.mp opens
  refine ⟨?_, ⟨Int.emod_nonneg _ (by decide), Int.emod_lt_of_pos _ (by decide)⟩, advances⟩
  dsimp only
  unfold day at *
  omega

end FrontDashboard.Calendar
