import FrontDashboard.Calendar.Bounded
import FrontDashboard.EventEditor.Draft

/-! # Normalizing the bounds of an all-day event

`normalize_all_day_bounds` steps back from the end by the wall clock. Where the clock skips
the midnight that the end was read from, the moment before the end is on the day that begins
with it, and the event grows by that day.
-/

namespace FrontDashboard.AllDay

open Outcomes
open Calendar
open EventEditor (localTime localDate instantOf)

/-! ## Local days on the clock of a timezone -/

/-- **The readings of a timezone.** A time that the clock shows is read as the first instant
that shows it and one that it skips as an instant that shows a later time, and the midnight of
a day that it shows is read as a moment of that day. -/
structure ReadsFirst (zone : Zone) : Prop where
  earliest : ∀ instant, instantOf zone (localTime zone instant) ≤ instant
  returns : ∀ instant,
    localTime zone (instantOf zone (localTime zone instant)) = localTime zone instant
  forward : ∀ wall, wall ≤ localTime zone (instantOf zone wall)
  midnight : ∀ instant,
    localDate zone (instantOf zone (localDate zone instant * day)) = localDate zone instant

/-- A local day begins at the instant: all that come before it are on earlier days. -/
def BeginsDay (zone : Zone) (instant : Int) : Prop :=
  ∀ earlier, earlier < instant → localDate zone earlier < localDate zone instant

/-- The clock shows nothing as late before the instant that a time is read as. -/
def Reaches (zone : Zone) (wall : Int) : Prop :=
  ∀ earlier, earlier < instantOf zone wall → localTime zone earlier < wall

/-- The instant that the midnight of a date is read as. -/
def opening (zone : Zone) (date : Int) : Int := instantOf zone (date * day)

/-- The instant shows a midnight, and it is the first to show a time as late. -/
def ShowsMidnight (zone : Zone) (instant : Int) : Prop :=
  day ∣ localTime zone instant ∧
    ∀ earlier, earlier < instant → localTime zone earlier < localTime zone instant

variable {zone : Zone} {instant wall : Int}

/-- A day has seconds. -/
theorem day_pos : 0 < day := by decide

/-- A date is past once its midnight is. -/
theorem localDate_lt_iff {date : Int} :
    localDate zone instant < date ↔ localTime zone instant < date * day :=
  Int.ediv_lt_iff_lt_mul day_pos

/-- A date has begun from its midnight on. -/
theorem le_localDate_iff {date : Int} :
    date ≤ localDate zone instant ↔ date * day ≤ localTime zone instant :=
  Int.le_ediv_iff_mul_le day_pos

/-- A clock that shows midnight shows the start of its date. -/
theorem ShowsMidnight.localTime_eq (shows : ShowsMidnight zone instant) :
    localTime zone instant = localDate zone instant * day :=
  (Int.ediv_mul_cancel shows.1).symm

/-- A first midnight begins a day. -/
theorem ShowsMidnight.beginsDay (shows : ShowsMidnight zone instant) :
    BeginsDay zone instant := by
  intro earlier before
  rw [localDate_lt_iff, ← shows.localTime_eq]
  exact shows.2 earlier before

/-- Midnight reads as an instant of its own date or a later one. -/
theorem ReadsFirst.le_localDate (reads : ReadsFirst zone) (date : Int) :
    date ≤ localDate zone (instantOf zone (date * day)) :=
  le_localDate_iff.mpr (reads.forward _)

/-- A midnight that the clock reaches begins a day. -/
theorem Reaches.beginsDay {date : Int} (reaches : Reaches zone (date * day))
    (reads : ReadsFirst zone) : BeginsDay zone (instantOf zone (date * day)) := by
  intro earlier before
  exact (localDate_lt_iff.mpr (reaches earlier before)).trans_le (reads.le_localDate date)

/-- The day of an instant is reached no later than it. -/
theorem Reaches.le (reaches : Reaches zone (localDate zone instant * day)) :
    instantOf zone (localDate zone instant * day) ≤ instant := by
  by_contra later
  have before := reaches instant (Int.not_le.mp later)
  exact absurd (localDate_lt_iff.mpr before) (lt_irrefl _)

/-- **A first midnight** is read back as itself. -/
theorem ShowsMidnight.read (shows : ShowsMidnight zone instant) (reads : ReadsFirst zone) :
    instantOf zone (localDate zone instant * day) = instant := by
  rw [← shows.localTime_eq]
  by_contra moved
  have earlier := lt_of_le_of_ne (reads.earliest instant) moved
  have less := shows.2 _ earlier
  rw [reads.returns] at less
  exact lt_irrefl _ less

/-- An instant that is on the day after the moment before it shows a midnight. -/
theorem dvd_of_eve (begins : localDate zone instant ≠ (localTime zone instant - 1) / day) :
    day ∣ localTime zone instant := by
  unfold localDate day at *
  omega

/-- Just before midnight it is the day before. -/
theorem ShowsMidnight.eve (shows : ShowsMidnight zone instant) :
    (localTime zone instant - 1) / day = localDate zone instant - 1 := by
  have whole := shows.localTime_eq
  unfold localDate day at *
  omega

/-! ## What the function returns -/

/-- A `datetime` does not overflow. -/
def InYears (instant : Int) : Prop := day ≤ instant ∧ instant < (maxOrdinal + 1) * day

instance (instant : Int) : Decidable (InYears instant) := inferInstanceAs (Decidable (_ ∧ _))

/-- The last day an event covers: that of the time before the one that the clock shows at its
end, and no earlier than its first day. -/
def lastDay (zone : Zone) (startsAt endsAt : Int) : Int :=
  max (localDate zone startsAt) ((localTime zone endsAt - 1) / day)

/-- The midnight of the day an event starts on. -/
def firstMidnight (zone : Zone) (startsAt : Int) : Int :=
  opening zone (localDate zone startsAt)

/-- The midnight after its last day. -/
def lastMidnight (zone : Zone) (startsAt endsAt : Int) : Int :=
  opening zone (lastDay zone startsAt endsAt + 1)

/-- The times that the function converts. -/
structure Representable (zone : Zone) (startsAt endsAt : Int) : Prop where
  startLocal : InYears (localTime zone startsAt)
  endLocal : InYears (localTime zone endsAt)
  eve : InYears (localTime zone endsAt - 1)
  last : lastDay zone startsAt endsAt + 1 ≤ maxOrdinal
  begins : InYears (firstMidnight zone startsAt)
  ends : InYears (lastMidnight zone startsAt endsAt)

variable {zoneInfo : TimezoneName → Zone} {timezone : TimezoneName} {startsAt endsAt : Int}

/-- The local time can be had within the years of a date. -/
theorem toLocal_eq_ok {instant wall : Int} :
    zone.toLocal instant = .ok wall ↔
      wall = localTime zone instant ∧ InYears (localTime zone instant) :=
  checked_eq_ok

/-- The instant of a midnight can be had. -/
theorem localToUtc_midnight {date instant : Int} :
    zone.localToUtc date 0 = .ok instant ↔
      instant = instantOf zone (date * day) ∧ InYears (instantOf zone (date * day)) := by
  rw [Zone.localToUtc, Int.add_zero]
  exact checked_eq_ok

/-- **What the function returns.** -/
theorem normalizeAllDayBounds_iff {bounds : Int × Int} :
    normalizeAllDayBounds zoneInfo startsAt endsAt timezone = .ok bounds ↔
      Representable (zoneInfo timezone) startsAt endsAt ∧
        bounds = (firstMidnight (zoneInfo timezone) startsAt,
          lastMidnight (zoneInfo timezone) startsAt endsAt) := by
  constructor
  · intro ok
    obtain ⟨startLocal, starts, rest⟩ := bind_eq_ok.mp ok
    obtain ⟨endLocal, ends, rest⟩ := bind_eq_ok.mp rest
    obtain ⟨beforeEnd, eve, rest⟩ := bind_eq_ok.mp rest
    obtain ⟨rfl, startInside⟩ := toLocal_eq_ok.mp starts
    obtain ⟨rfl, endInside⟩ := toLocal_eq_ok.mp ends
    obtain ⟨rfl, eveInside⟩ := checked_eq_ok.mp eve
    dsimp only at rest
    split at rest
    next => cases rest
    next within =>
      obtain ⟨first, opened, rest⟩ := bind_eq_ok.mp rest
      obtain ⟨last, closed, rest⟩ := bind_eq_ok.mp rest
      cases rest
      obtain ⟨rfl, begins⟩ := localToUtc_midnight.mp opened
      obtain ⟨rfl, finishes⟩ := localToUtc_midnight.mp closed
      exact ⟨⟨startInside, endInside, eveInside, Int.not_lt.mp within, begins, finishes⟩, rfl⟩
  · rintro ⟨representable, rfl⟩
    refine bind_eq_ok.mpr ⟨_, toLocal_eq_ok.mpr ⟨rfl, representable.startLocal⟩, ?_⟩
    refine bind_eq_ok.mpr ⟨_, toLocal_eq_ok.mpr ⟨rfl, representable.endLocal⟩, ?_⟩
    refine bind_eq_ok.mpr ⟨_, checked_eq_ok.mpr ⟨rfl, representable.eve⟩, ?_⟩
    refine (if_neg (Int.not_lt.mpr representable.last)).trans ?_
    refine bind_eq_ok.mpr ⟨_, localToUtc_midnight.mpr ⟨rfl, representable.begins⟩, ?_⟩
    exact bind_eq_ok.mpr ⟨_, localToUtc_midnight.mpr ⟨rfl, representable.ends⟩, rfl⟩

/-! ## When the bounds cover the event and stay -/

/-- The bounds contain the event, begin local days and are left unchanged by a second
application. -/
def CoversAndStays (zoneInfo : TimezoneName → Zone) (timezone : TimezoneName)
    (startsAt endsAt : Int) : Prop :=
  ∃ bounds, normalizeAllDayBounds zoneInfo startsAt endsAt timezone = .ok bounds ∧
    bounds.1 ≤ startsAt ∧ endsAt ≤ bounds.2 ∧
    BeginsDay (zoneInfo timezone) bounds.1 ∧ BeginsDay (zoneInfo timezone) bounds.2 ∧
    normalizeAllDayBounds zoneInfo bounds.1 bounds.2 timezone = .ok bounds

/-- The days of an event, and the one after them, are in the calendar of the years 1 to 9999
by the clock and by UTC. -/
structure InCalendar (zone : Zone) (startsAt endsAt : Int) : Prop where
  first : InYears (localTime zone startsAt)
  eve : InYears (localTime zone endsAt - 1)
  next : lastDay zone startsAt endsAt + 1 ≤ maxOrdinal
  opens : InYears (opening zone (localDate zone startsAt))
  closes : InYears (opening zone (lastDay zone startsAt endsAt + 1))
  shows : InYears (localTime zone (opening zone (lastDay zone startsAt endsAt + 1)))

/-- **The midnights of an event are kept** by the clock. It does not pass that of the first day
before the instant it is read as. It does not skip that after the last day, or skips a whole
day with it, and shows nothing as late before the instant it is read as, nor before the end. -/
structure MidnightsKept (zone : Zone) (startsAt endsAt : Int) : Prop where
  first : Reaches zone (localDate zone startsAt * day)
  whole : day ∣ localTime zone (opening zone (lastDay zone startsAt endsAt + 1))
  ahead : ∀ moment, moment < opening zone (lastDay zone startsAt endsAt + 1) ∨ moment < endsAt →
    localTime zone moment < localTime zone (opening zone (lastDay zone startsAt endsAt + 1))

/-- An event that keeps three days from either end of the calendar is in it. -/
theorem InCalendar.of_days (offsets : ShortOffsets zone) (ordered : startsAt < endsAt)
    (early : 4 * day ≤ startsAt) (late : endsAt ≤ (maxOrdinal - 3) * day) :
    InCalendar zone startsAt endsAt := by
  have starts := offsets.utc startsAt
  have ends := offsets.utc endsAt
  have first := offsets.wall (localDate zone startsAt * day)
  have last := offsets.wall ((lastDay zone startsAt endsAt + 1) * day)
  have shown := offsets.utc (opening zone (lastDay zone startsAt endsAt + 1))
  have begun : localDate zone startsAt = (startsAt + zone.utcOffset startsAt) / day := rfl
  have covered : lastDay zone startsAt endsAt = max (localDate zone startsAt)
      ((endsAt + zone.utcOffset endsAt - 1) / day) := rfl
  have opened : opening zone (localDate zone startsAt) =
      localDate zone startsAt * day - zone.wallOffset (localDate zone startsAt * day) := rfl
  have closed : opening zone (lastDay zone startsAt endsAt + 1) =
      (lastDay zone startsAt endsAt + 1) * day -
        zone.wallOffset ((lastDay zone startsAt endsAt + 1) * day) := rfl
  have begins : localTime zone startsAt = startsAt + zone.utcOffset startsAt := rfl
  have finishes : localTime zone endsAt = endsAt + zone.utcOffset endsAt := rfl
  have showing : localTime zone (opening zone (lastDay zone startsAt endsAt + 1)) =
      opening zone (lastDay zone startsAt endsAt + 1) +
        zone.utcOffset (opening zone (lastDay zone startsAt endsAt + 1)) := rfl
  refine ⟨⟨?_, ?_⟩, ⟨?_, ?_⟩, ?_, ⟨?_, ?_⟩, ⟨?_, ?_⟩, ?_, ?_⟩ <;>
    simp only [day, maxOrdinal] at * <;> omega

/-- The clock shows the midnight after an event that is kept. -/
theorem MidnightsKept.shows (kept : MidnightsKept zone startsAt endsAt) :
    ShowsMidnight zone (lastMidnight zone startsAt endsAt) :=
  ⟨kept.whole, fun earlier before => kept.ahead earlier (.inl before)⟩

/-- The end is not past the midnight after it. -/
theorem MidnightsKept.covers (kept : MidnightsKept zone startsAt endsAt) :
    endsAt ≤ lastMidnight zone startsAt endsAt := by
  by_contra passed
  exact lt_irrefl _ (kept.ahead _ (.inr (Int.not_le.mp passed)))

/-- What is in the calendar can be converted. -/
theorem InCalendar.representable (inside : InCalendar zone startsAt endsAt) :
    Representable zone startsAt endsAt := by
  refine ⟨inside.first, ?_, inside.eve, inside.next, inside.opens, inside.closes⟩
  have covered : (localTime zone endsAt - 1) / day ≤ lastDay zone startsAt endsAt :=
    le_max_right _ _
  have next := inside.next
  have eve := inside.eve
  unfold InYears day maxOrdinal at *
  omega

/-- The first day is no later than the last. -/
theorem firstDay_le_lastDay : localDate zone startsAt ≤ lastDay zone startsAt endsAt :=
  le_max_left _ _

/-- The midnight of the first day is on that day. -/
theorem localDate_firstMidnight (reads : ReadsFirst zone) :
    localDate zone (firstMidnight zone startsAt) = localDate zone startsAt :=
  reads.midnight startsAt

/-- The first midnight is its own first midnight. -/
theorem firstMidnight_again (reads : ReadsFirst zone) :
    firstMidnight zone (firstMidnight zone startsAt) = firstMidnight zone startsAt := by
  rw [firstMidnight, localDate_firstMidnight reads, firstMidnight]

/-- The midnight after the last day is on a later day. -/
theorem lastDay_lt (reads : ReadsFirst zone) :
    lastDay zone startsAt endsAt < localDate zone (lastMidnight zone startsAt endsAt) :=
  Int.lt_of_add_one_le (reads.le_localDate _)

/-- The last day of the bounds is the one before the day that their end begins. -/
theorem lastDay_again (reads : ReadsFirst zone)
    (last : ShowsMidnight zone (lastMidnight zone startsAt endsAt)) :
    lastDay zone (firstMidnight zone startsAt) (lastMidnight zone startsAt endsAt) + 1 =
      localDate zone (lastMidnight zone startsAt endsAt) := by
  have before : localDate zone startsAt < localDate zone (lastMidnight zone startsAt endsAt) :=
    firstDay_le_lastDay.trans_lt (lastDay_lt reads)
  rw [lastDay, localDate_firstMidnight reads, last.eve, max_eq_right (Int.le_sub_one_of_lt before),
    Int.sub_add_cancel]

/-- The bounds of an event that is kept are left as they are. -/
theorem coversAndStays_of_kept (reads : ReadsFirst (zoneInfo timezone))
    (inside : InCalendar (zoneInfo timezone) startsAt endsAt)
    (kept : MidnightsKept (zoneInfo timezone) startsAt endsAt) :
    CoversAndStays zoneInfo timezone startsAt endsAt := by
  have again := lastDay_again reads kept.shows
  have stays : lastMidnight (zoneInfo timezone) (firstMidnight (zoneInfo timezone) startsAt)
      (lastMidnight (zoneInfo timezone) startsAt endsAt) =
        lastMidnight (zoneInfo timezone) startsAt endsAt := by
    rw [lastMidnight, again]
    exact kept.shows.read reads
  refine ⟨_, normalizeAllDayBounds_iff.mpr ⟨inside.representable, rfl⟩, kept.first.le, kept.covers,
    kept.first.beginsDay reads, kept.shows.beginsDay, ?_⟩
  refine normalizeAllDayBounds_iff.mpr ⟨?_, ?_⟩
  · have own := @localDate_firstMidnight _ startsAt reads
    have later := @lastDay_lt _ startsAt endsAt reads
    have after := @firstDay_le_lastDay (zoneInfo timezone) startsAt endsAt
    have shown := kept.shows.localTime_eq
    have first := inside.first
    have last : InYears (localTime (zoneInfo timezone)
      (lastMidnight (zoneInfo timezone) startsAt endsAt)) := inside.shows
    constructor
    case startLocal =>
      dsimp only
      unfold InYears localDate day at *
      omega
    case endLocal => exact last
    case eve =>
      dsimp only
      unfold InYears localDate day at *
      omega
    case last =>
      rw [again]
      unfold InYears localDate day maxOrdinal at *
      omega
    case begins =>
      rw [firstMidnight_again reads]
      exact inside.opens
    case ends =>
      rw [stays]
      exact inside.closes
  · rw [stays, firstMidnight_again reads]

/-- An event that is covered by bounds that stay is kept. -/
theorem kept_of_coversAndStays (reads : ReadsFirst (zoneInfo timezone))
    (ordered : startsAt < endsAt) (holds : CoversAndStays zoneInfo timezone startsAt endsAt) :
    InCalendar (zoneInfo timezone) startsAt endsAt ∧
      MidnightsKept (zoneInfo timezone) startsAt endsAt := by
  obtain ⟨bounds, ok, opens, covers, begins, ends, again⟩ := holds
  obtain ⟨representable, rfl⟩ := normalizeAllDayBounds_iff.mp ok
  obtain ⟨second, stays⟩ := normalizeAllDayBounds_iff.mp again
  have lastStays := congrArg Prod.snd stays
  dsimp only at opens covers begins ends second lastStays
  have own := @localDate_firstMidnight _ startsAt reads
  have midnight : day ∣ localTime (zoneInfo timezone)
      (lastMidnight (zoneInfo timezone) startsAt endsAt) := by
    apply dvd_of_eve
    intro same
    have grown : lastDay (zoneInfo timezone) (firstMidnight (zoneInfo timezone) startsAt)
        (lastMidnight (zoneInfo timezone) startsAt endsAt) =
          localDate (zoneInfo timezone) (lastMidnight (zoneInfo timezone) startsAt endsAt) := by
      have before := (ends _ ((opens.trans_lt ordered).trans_le covers)).le
      rw [lastDay, ← same, max_eq_right before]
    have later := reads.le_localDate
      (localDate (zoneInfo timezone) (lastMidnight (zoneInfo timezone) startsAt endsAt) + 1)
    rw [← grown] at later
    change _ ≤ localDate (zoneInfo timezone) (lastMidnight (zoneInfo timezone) _ _) at later
    rw [← lastStays, grown] at later
    omega
  refine ⟨⟨representable.startLocal, representable.eve, representable.last, representable.begins,
    representable.ends, second.endLocal⟩, ?_, midnight, fun moment before => ?_⟩
  · intro earlier before
    rw [← localDate_lt_iff, ← own]
    exact begins earlier before
  · have earlier := before.elim id fun ended => ended.trans_le covers
    have later := ends moment earlier
    rw [localDate_lt_iff] at later
    rwa [localDate, Int.ediv_mul_cancel midnight] at later

/-- **Normalization** covers an event and is idempotent exactly where the event is in the calendar
and the clock keeps its midnights. -/
theorem coversAndStays_iff (reads : ReadsFirst (zoneInfo timezone)) (ordered : startsAt < endsAt) :
    CoversAndStays zoneInfo timezone startsAt endsAt ↔
      InCalendar (zoneInfo timezone) startsAt endsAt ∧
        MidnightsKept (zoneInfo timezone) startsAt endsAt :=
  ⟨kept_of_coversAndStays reads ordered, fun kept => coversAndStays_of_kept reads kept.1 kept.2⟩

/-! ## A clock that skips midnight -/

def hour : Int := 3600000000

/-- Sao Paulo, which began summer time at the midnight of 4 November 2018. -/
def summerTime : Int := Gregorian.toOrdinal 2018 11 4 * day + 3 * hour

def saoPaulo : Zone where
  utcOffset instant := if instant < summerTime then -3 * hour else -2 * hour
  wallOffset wall := if wall < summerTime - 2 * hour then -3 * hour else -2 * hour

/-- São Paulo's skipped midnight reads within its day. -/
theorem readsFirst_saoPaulo : ReadsFirst saoPaulo := by
  have midnight : (Gregorian.toOrdinal 2018 11 4 : Int) = 737002 := by decide
  constructor
  case earliest =>
    intro instant
    simp only [instantOf, localTime, saoPaulo, summerTime, midnight, hour, day]
    split_ifs <;> omega
  case returns =>
    intro instant
    simp only [instantOf, localTime, saoPaulo, summerTime, midnight, hour, day]
    split_ifs <;> omega
  case forward =>
    intro wall
    simp only [instantOf, localTime, saoPaulo, summerTime, midnight, hour, day]
    split_ifs <;> omega
  case midnight =>
    intro instant
    simp only [localDate, instantOf, localTime, saoPaulo, summerTime, midnight, hour, day]
    split_ifs <;> omega

/-- Nine o'clock to five o'clock of a day, by the winter clock. -/
def workingDay (dayOfMonth : Nat) : Int × Int :=
  (Gregorian.toOrdinal 2018 11 dayOfMonth * day + 12 * hour,
    Gregorian.toOrdinal 2018 11 dayOfMonth * day + 20 * hour)

theorem shortOffsets_saoPaulo : ShortOffsets saoPaulo := by
  constructor
  case utc =>
    intro instant
    simp only [saoPaulo, hour, day]
    split_ifs <;> omega
  case wall =>
    intro wall
    simp only [saoPaulo, hour, day]
    split_ifs <;> omega

/-- The short day itself is covered and stays. -/
theorem normalize_short_day :
    CoversAndStays (fun _ => saoPaulo) "America/Sao_Paulo" (workingDay 4).1 (workingDay 4).2 := by
  have midnight : (Gregorian.toOrdinal 2018 11 4 : Int) = 737002 := by decide
  have inside : InCalendar saoPaulo (workingDay 4).1 (workingDay 4).2 :=
    .of_days shortOffsets_saoPaulo (by decide) (by decide) (by decide)
  refine (coversAndStays_iff readsFirst_saoPaulo (by decide)).mpr ⟨inside, ?_⟩
  have read : opening saoPaulo (lastDay saoPaulo (workingDay 4).1 (workingDay 4).2 + 1) =
      summerTime + 23 * hour := by decide
  constructor
  case first =>
    intro earlier before
    have read : instantOf saoPaulo (localDate saoPaulo (workingDay 4).1 * day) = summerTime := by
      decide
    have wall : localDate saoPaulo (workingDay 4).1 * day = summerTime - 3 * hour := by decide
    rw [read] at before
    rw [wall]
    simp only [localTime, saoPaulo, summerTime, midnight, hour, day] at *
    omega
  case whole =>
    rw [read]
    decide
  case ahead =>
    rw [read]
    intro moment before
    have earlier : moment < summerTime + 23 * hour :=
      before.elim id fun ended => ended.trans (by decide)
    simp only [localTime, saoPaulo, summerTime, midnight, hour, day] at *
    split_ifs <;> omega

/-- The day before the skipped midnight is normalized to a day first and to two days then. -/
theorem not_coversAndStays :
    (workingDay 3).1 < (workingDay 3).2 ∧
      ¬ CoversAndStays (fun _ => saoPaulo) "America/Sao_Paulo" (workingDay 3).1
        (workingDay 3).2 := by
  refine ⟨by decide, ?_⟩
  rintro ⟨bounds, first, _, _, _, _, second⟩
  have once : normalizeAllDayBounds (fun _ => saoPaulo) (workingDay 3).1 (workingDay 3).2
      "America/Sao_Paulo" = .ok (summerTime - 24 * hour, summerTime) := by rfl
  have twice : normalizeAllDayBounds (fun _ => saoPaulo) (summerTime - 24 * hour) summerTime
      "America/Sao_Paulo" = .ok (summerTime - 24 * hour, summerTime + 23 * hour) := by rfl
  rw [once] at first
  cases first
  rw [twice] at second
  have same := congrArg Prod.snd (Except.ok.inj second)
  exact absurd same (by decide)

end FrontDashboard.AllDay
