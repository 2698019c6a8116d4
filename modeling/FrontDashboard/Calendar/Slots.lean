import FrontDashboard.Calendar.Recurrence
import FrontDashboard.Library.Outcomes
import Mathlib.Data.List.Dedup

/-! # The slots of a series

What a recurrence stands for: its candidates from the first on that are not before the
event's start nor after the rule's end, only as many as it counts. Every walk finds
slots only.
-/

namespace FrontDashboard.Calendar

open Outcomes

/-- An instant passes the check when it is a date's. -/
theorem checked_eq_ok {instant result : Int} :
    checked instant = .ok result ↔
      result = instant ∧ day ≤ instant ∧ instant < (maxOrdinal + 1) * day := by
  unfold checked
  split
  next within =>
    constructor
    · intro same
      cases same
      exact ⟨rfl, within⟩
    · rintro ⟨same, _⟩
      rw [same]
  next outside =>
    constructor
    · intro failed
      cases failed
    · rintro ⟨_, within⟩
      exact absurd within outside

/-- A date is safe when its month has the day. -/
theorem safeDate_eq_on {year month dayOfMonth : Nat} {ordinal : Int}
    (on : safeDate year month dayOfMonth = .on ordinal) :
    dayOfMonth ≤ Gregorian.daysInMonth year month ∧
      ordinal = Gregorian.toOrdinal year month dayOfMonth := by
  unfold safeDate at on
  split at on
  next => cases on
  next =>
    split at on
    next there =>
      cases on
      exact ⟨there, rfl⟩
    next => cases on

/-- Adding months gives a date, where the month has the day. -/
theorem addMonths_valid {base : Gregorian.Date} {months : Nat}
    (valid : Gregorian.Valid base.year base.month base.day)
    (present : base.day ≤ Gregorian.daysInMonth (Series.addMonths base months).1
      (Series.addMonths base months).2) :
    Gregorian.Valid (Series.addMonths base months).1 (Series.addMonths base months).2 base.day := by
  have positive := valid.years
  refine ⟨?_, ?_, valid.days.1, present⟩
  · unfold Series.addMonths
    dsimp only
    omega
  · unfold Series.addMonths
    dsimp only
    omega

/-- More months give a later date. -/
theorem addMonths_lt {base : Gregorian.Date} {earlier later : Nat} (before : earlier < later)
    (valid : 1 ≤ base.month ∧ base.month ≤ 12) :
    (Series.addMonths base earlier).1 < (Series.addMonths base later).1 ∨
      (Series.addMonths base earlier).1 = (Series.addMonths base later).1 ∧
        (Series.addMonths base earlier).2 < (Series.addMonths base later).2 := by
  unfold Series.addMonths
  dsimp only
  omega

/-- Days of the same number are in the order of their months. -/
theorem safeDate_lt {year month year' month' dayOfMonth : Nat} {ordinal ordinal' : Int}
    (valid : Gregorian.Valid year month dayOfMonth)
    (later : year < year' ∨ year = year' ∧ month < month')
    (on : safeDate year month dayOfMonth = .on ordinal)
    (on' : safeDate year' month' dayOfMonth = .on ordinal') : ordinal < ordinal' := by
  have before := Gregorian.toOrdinal_lt valid later
  have positive := valid.days.1
  rw [(safeDate_eq_on on).2, (safeDate_eq_on on').2]
  unfold Gregorian.toOrdinal at before ⊢
  omega

/-- A list that is sorted without duplicates is strictly so. -/
theorem sorted_lt {α : Type} [LinearOrder α] {days : List α} {earlier later : Nat} {first last : α}
    (before : earlier < later) (named : (days.dedup.insertionSort (· ≤ ·))[earlier]? = some first)
    (named' : (days.dedup.insertionSort (· ≤ ·))[later]? = some last) : first < last := by
  obtain ⟨bound, rfl⟩ := List.getElem?_eq_some_iff.mp named
  obtain ⟨bound', rfl⟩ := List.getElem?_eq_some_iff.mp named'
  have sorted : (days.dedup.insertionSort (· ≤ ·)).Pairwise (· ≤ ·) :=
    List.pairwise_insertionSort _ _
  have unique : (days.dedup.insertionSort (· ≤ ·)).Nodup :=
    (List.perm_insertionSort _ _).nodup_iff.mpr (List.nodup_dedup _)
  exact lt_of_le_of_ne (List.pairwise_iff_getElem.mp sorted _ _ bound bound' before)
    (List.pairwise_iff_getElem.mp unique _ _ bound bound' before)

namespace Series

/-- The instant of a candidate that is not before the start nor after the end. -/
def slotAt (series : Series) (index : Nat) : Option Int :=
  match series.candidate index with
  | .on ordinal =>
      match series.zone.localToUtc ordinal series.localTime with
      | .ok instant =>
          if instant < series.startsAt ∨ series.afterUntil instant then none else some instant
      | .error _ => none
  | _ => none

/-- How many of the first candidates are not before the start nor after the end. -/
def slotsBefore (series : Series) : Nat → Nat
  | 0 => 0
  | index + 1 => series.slotsBefore index + (series.slotAt index).toList.length

/-- **The slots.** -/
def IsSlot (series : Series) (instant : Int) : Prop :=
  ∃ index, series.slotAt index = some instant ∧ ¬ series.reached (series.slotsBefore index)

variable {series : Series}

/-- A candidate that is no slot is not counted. -/
theorem slotsBefore_succ_of_none {index : Nat} (none : series.slotAt index = none) :
    series.slotsBefore (index + 1) = series.slotsBefore index := by
  simp [slotsBefore, none]

/-- A candidate that is a slot is counted. -/
theorem slotsBefore_succ_of_some {index : Nat} {instant : Int}
    (some : series.slotAt index = some instant) :
    series.slotsBefore (index + 1) = series.slotsBefore index + 1 := by
  simp [slotsBefore, some]

/-- A skipped candidate is no slot. -/
theorem slotAt_of_skipped {index : Nat} (skipped : series.candidate index = .skipped) :
    series.slotAt index = none := by
  simp [slotAt, skipped]

/-- A date is a slot between the start and the bound of the rule. -/
theorem slotAt_of_on {index : Nat} {ordinal instant : Int}
    (on : series.candidate index = .on ordinal)
    (named : series.zone.localToUtc ordinal series.localTime = .ok instant) :
    series.slotAt index =
      if instant < series.startsAt ∨ series.afterUntil instant then none else some instant := by
  simp [slotAt, on, named]

/-- A slot is not before the start nor after the end. -/
theorem slotAt_bounds {index : Nat} {instant : Int} (slot : series.slotAt index = some instant) :
    series.startsAt ≤ instant ∧ ¬ series.afterUntil instant := by
  unfold slotAt at slot
  split at slot
  next =>
    split at slot
    next =>
      split at slot
      next => cases slot
      next within =>
        cases slot
        exact ⟨Int.not_lt.mp fun earlier => within (.inl earlier),
          fun later => within (.inr later)⟩
    next => cases slot
  next => cases slot

/-- A slot is a `datetime`. -/
theorem slotAt_checked {index : Nat} {instant : Int} (slot : series.slotAt index = some instant) :
    checked instant = .ok instant := by
  unfold slotAt at slot
  split at slot
  next =>
    split at slot
    next named =>
      split at slot
      next => cases slot
      next =>
        cases slot
        obtain ⟨same, within⟩ := checked_eq_ok.mp named
        rw [← same] at within
        exact checked_eq_ok.mpr ⟨rfl, within⟩
    next => cases slot
  next => cases slot

/-- A slot is a date's instant. -/
theorem IsSlot.checked {instant : Int} (slot : series.IsSlot instant) :
    checked instant = .ok instant := by
  obtain ⟨index, found, _⟩ := slot
  exact slotAt_checked found

/-- A slot is no earlier than the start and no later than the bound. -/
theorem IsSlot.bounds {instant : Int} (slot : series.IsSlot instant) :
    series.startsAt ≤ instant ∧ ¬ series.afterUntil instant := by
  obtain ⟨index, found, _⟩ := slot
  exact slotAt_bounds found

/-- Without a count none is ever reached. -/
theorem not_reached (uncounted : series.rule.count = none) (emitted : Nat) :
    ¬ series.reached emitted := by
  rintro ⟨limit, counted, _⟩
  rw [uncounted] at counted
  cases counted

/-- The counter of a walk: it is kept only for rules that count. -/
def Counts (series : Series) (index emitted : Nat) : Prop :=
  series.rule.count = none ∨ emitted = series.slotsBefore index

/-- The walk stops at its count when that many slots lie behind it. -/
theorem Counts.reached_iff {index emitted : Nat} (counts : series.Counts index emitted) :
    series.reached emitted ↔ series.reached (series.slotsBefore index) := by
  rcases counts with uncounted | same
  · exact iff_of_false (not_reached uncounted _) (not_reached uncounted _)
  · rw [same]

/-- Passing a candidate by leaves the count right. -/
theorem Counts.pass {index emitted : Nat} (counts : series.Counts index emitted)
    (none : series.slotAt index = none) : series.Counts (index + 1) emitted :=
  counts.imp_right fun same => by rw [slotsBefore_succ_of_none none, same]

/-- Emitting a candidate leaves the count right. -/
theorem Counts.emit {index emitted : Nat} {instant : Int} (counts : series.Counts index emitted)
    (some : series.slotAt index = some instant) : series.Counts (index + 1) (emitted + 1) :=
  counts.imp_right fun same => by rw [slotsBefore_succ_of_some some, same]

/-! ## One iteration -/

section Iteration

variable {windowEnd : Int} {iterations wanted index emitted : Nat}

/-- The walk ends where the candidates do. -/
theorem walk_exhausted (exhausted : series.candidate index = .exhausted) :
    series.walk windowEnd (iterations + 1) (wanted + 1) index emitted = .ok [] := by
  rw [walk, exhausted]

/-- The walk goes past a candidate that is skipped. -/
theorem walk_skipped (skipped : series.candidate index = .skipped) :
    series.walk windowEnd (iterations + 1) (wanted + 1) index emitted =
      series.walk windowEnd iterations (wanted + 1) (index + 1) emitted := by
  rw [walk, skipped]

/-- The walk fails where a candidate cannot be read. -/
theorem walk_failed {ordinal : Int} {error : CalendarExpansionError}
    (on : series.candidate index = .on ordinal)
    (named : series.zone.localToUtc ordinal series.localTime = .error error) :
    series.walk windowEnd (iterations + 1) (wanted + 1) index emitted = .error error := by
  rw [walk, on]
  simp only [named]
  rfl

/-- Else the walk looks at the instant that the candidate reads as. -/
theorem walk_on {ordinal instant : Int} (on : series.candidate index = .on ordinal)
    (named : series.zone.localToUtc ordinal series.localTime = .ok instant) :
    series.walk windowEnd (iterations + 1) (wanted + 1) index emitted =
      if windowEnd ≤ instant ∨ series.afterUntil instant then .ok []
      else if series.reached emitted then .ok []
      else if instant < series.startsAt then
        series.walk windowEnd iterations (wanted + 1) (index + 1) emitted
      else
        series.walk windowEnd iterations wanted (index + 1) (emitted + 1) >>= fun rest =>
          .ok (instant :: rest) := by
  rw [walk, on]
  simp only [named]
  rfl

end Iteration

/-- What ends a walk at an iteration. -/
def Ends (series : Series) (windowEnd : Int) (index emitted : Nat) : Prop :=
  series.candidate index = .exhausted ∨
    ∃ ordinal instant, series.candidate index = .on ordinal ∧
      series.zone.localToUtc ordinal series.localTime = .ok instant ∧
      (windowEnd ≤ instant ∨ series.afterUntil instant ∨ series.reached emitted)

/-- **One iteration**: the walk ends, passes a candidate that is no slot, or emits a slot. -/
theorem walk_cases {windowEnd : Int} {iterations wanted index emitted : Nat} {starts : List Int}
    (walked : series.walk windowEnd (iterations + 1) (wanted + 1) index emitted = .ok starts) :
    (series.Ends windowEnd index emitted ∧ starts = []) ∨
      (series.slotAt index = none ∧
        series.walk windowEnd iterations (wanted + 1) (index + 1) emitted = .ok starts) ∨
      ∃ instant rest, series.slotAt index = some instant ∧ instant < windowEnd ∧
        ¬ series.reached emitted ∧ starts = instant :: rest ∧
        series.walk windowEnd iterations wanted (index + 1) (emitted + 1) = .ok rest := by
  cases found : series.candidate index with
  | exhausted =>
      rw [walk_exhausted found] at walked
      cases walked
      exact .inl ⟨.inl found, rfl⟩
  | skipped =>
      rw [walk_skipped found] at walked
      exact .inr (.inl ⟨slotAt_of_skipped found, walked⟩)
  | on ordinal =>
      cases named : series.zone.localToUtc ordinal series.localTime with
      | error error =>
          rw [walk_failed found named] at walked
          cases walked
      | ok instant =>
          have slot := slotAt_of_on found named
          rw [walk_on found named] at walked
          split at walked
          next past =>
            cases walked
            exact .inl ⟨.inr ⟨ordinal, instant, found, named, past.imp_right .inl⟩, rfl⟩
          next inside =>
            split at walked
            next reached =>
              cases walked
              exact .inl ⟨.inr ⟨ordinal, instant, found, named, .inr (.inr reached)⟩, rfl⟩
            next unreached =>
              split at walked
              next earlier =>
                rw [if_pos (.inl earlier)] at slot
                exact .inr (.inl ⟨slot, walked⟩)
              next started =>
                have within : ¬ (instant < series.startsAt ∨ series.afterUntil instant) :=
                  fun either => either.elim started fun after => inside (.inr after)
                rw [if_neg within] at slot
                obtain ⟨rest, remaining, built⟩ := bind_eq_ok.mp walked
                cases built
                exact .inr (.inr ⟨instant, rest, slot,
                  Int.not_le.mp fun late => inside (.inl late), unreached, rfl, remaining⟩)

/-- **A walk finds slots only**, and those before the end of its window. -/
theorem walk_isSlot {windowEnd : Int} {iterations wanted index emitted : Nat} {starts : List Int}
    (counts : series.Counts index emitted)
    (walked : series.walk windowEnd iterations wanted index emitted = .ok starts) :
    ∀ start ∈ starts, series.IsSlot start ∧ start < windowEnd := by
  induction iterations generalizing wanted index emitted starts with
  | zero =>
      cases walked
      exact fun start member => nomatch member
  | succ iterations ih =>
      cases wanted with
      | zero =>
          cases walked
          exact fun start member => nomatch member
      | succ wanted =>
          rcases walk_cases walked with ⟨_, nothing⟩ | ⟨none, remaining⟩ |
            ⟨instant, rest, slot, inside, unreached, built, remaining⟩
          · rw [nothing]
            exact fun start member => nomatch member
          · exact ih (counts.pass none) remaining
          · rw [built]
            intro start member
            rcases List.mem_cons.mp member with same | later
            · rw [same]
              exact ⟨⟨index, slot, fun reached => unreached (counts.reached_iff.mpr reached)⟩,
                inside⟩
            · exact ih (counts.emit slot) remaining start later

/-- A walk that ended, or failed, before it had as many as wanted does so when more are
wanted. -/
theorem walk_more {windowEnd : Int} {iterations wanted more index emitted : Nat}
    (further : wanted ≤ more) :
    (∀ starts, series.walk windowEnd iterations wanted index emitted = .ok starts →
      starts.length < wanted →
        series.walk windowEnd iterations more index emitted = .ok starts) ∧
    ∀ error, series.walk windowEnd iterations wanted index emitted = .error error →
      series.walk windowEnd iterations more index emitted = .error error := by
  induction iterations generalizing wanted more index emitted with
  | zero => exact ⟨fun starts walked _ => walked, fun error walked => walked⟩
  | succ iterations ih =>
      cases wanted with
      | zero =>
          refine ⟨fun starts _ short => absurd short (Nat.not_lt_zero _), fun error walked => ?_⟩
          cases walked
      | succ wanted =>
          obtain ⟨more, rfl⟩ : ∃ rest, more = rest + 1 :=
            Nat.exists_eq_add_one_of_ne_zero (by omega)
          cases found : series.candidate index with
          | exhausted =>
              rw [walk_exhausted found, walk_exhausted found]
              exact ⟨fun starts walked _ => walked, fun error walked => walked⟩
          | skipped =>
              rw [walk_skipped found, walk_skipped found]
              exact ih further
          | on ordinal =>
              cases named : series.zone.localToUtc ordinal series.localTime with
              | error failure =>
                  rw [walk_failed found named, walk_failed found named]
                  exact ⟨fun starts walked _ => walked, fun error walked => walked⟩
              | ok instant =>
                  rw [walk_on found named, walk_on found named]
                  split
                  next => exact ⟨fun starts walked _ => walked, fun error walked => walked⟩
                  next =>
                    split
                    next => exact ⟨fun starts walked _ => walked, fun error walked => walked⟩
                    next =>
                      split
                      next => exact ih further
                      next =>
                        obtain ⟨succeeds, fails⟩ := @ih wanted more (index + 1) (emitted + 1)
                          (Nat.le_of_succ_le_succ further)
                        cases rest : series.walk windowEnd iterations wanted (index + 1)
                            (emitted + 1) with
                        | error failure =>
                            rw [fails failure rest]
                            exact ⟨fun starts walked _ => walked, fun error walked => walked⟩
                        | ok others =>
                            refine ⟨fun starts walked short => ?_, fun error walked => ?_⟩
                            · cases walked
                              rw [succeeds others rest (Nat.lt_of_succ_lt_succ short)]
                              rfl
                            · cases walked

/-- A rule that counts is walked from the first candidate. -/
theorem counts_firstIndex (windowStart : Int) :
    series.Counts (series.firstIndex windowStart) 0 := by
  cases counted : series.rule.count with
  | none => exact .inl counted
  | some limit =>
      right
      have first : series.firstIndex windowStart = 0 := by
        unfold firstIndex
        rw [if_pos (.inl (by rw [counted]; rfl))]
      rw [first]
      rfl

end Series

variable (zoneInfo : TimezoneName → Zone)

/-- The slots of an event: those of its series, or its own start. -/
def CalendarEvent.HasSlot (event : CalendarEvent) (instant : Int) : Prop :=
  match event.recurrence with
  | none => instant = event.startsAt
  | some rule => ∃ series, seriesOf (zoneInfo event.timezone) event rule = .ok series ∧
      series.IsSlot instant

/-- `_to_utc` changes nothing of an instant. -/
theorem toUtc_eq_ok {untilAt converted : Option Int} (ok : toUtc untilAt = .ok converted) :
    converted = untilAt := by
  cases untilAt with
  | none =>
      cases ok
      rfl
  | some instant =>
      obtain ⟨same, read, rfl⟩ := map_eq_ok.mp ok
      rw [(checked_eq_ok.mp read).1]

/-- The end of the rule and the start have to be dates of the calendar. -/
theorem seriesOf_eq_ok {zone : Zone} {event : CalendarEvent} {rule : RecurrenceRule}
    {series : Series} : seriesOf zone event rule = .ok series ↔
      toUtc rule.untilAt = .ok rule.untilAt ∧ ∃ baseLocal,
        zone.toLocal event.startsAt = .ok baseLocal ∧
          series = ⟨event.startsAt, event.duration, zone, baseLocal / day, baseLocal % day,
            rule⟩ := by
  constructor
  · intro ok
    obtain ⟨untilAt, ends, based⟩ := bind_eq_ok.mp ok
    obtain ⟨baseLocal, starts, built⟩ := bind_eq_ok.mp based
    cases built
    rw [toUtc_eq_ok ends] at ends
    exact ⟨ends, baseLocal, starts, rfl⟩
  · rintro ⟨ends, baseLocal, starts, rfl⟩
    exact bind_eq_ok.mpr ⟨_, ends, bind_eq_ok.mpr ⟨_, starts, rfl⟩⟩

/-- What `seriesOf` takes from the event. -/
theorem seriesOf_ok {zone : Zone} {event : CalendarEvent} {rule : RecurrenceRule}
    {series : Series} (ok : seriesOf zone event rule = .ok series) :
    series.startsAt = event.startsAt ∧ series.duration = event.duration ∧
      series.zone = zone ∧ series.rule = rule := by
  obtain ⟨_, base, _, rfl⟩ := seriesOf_eq_ok.mp ok
  exact ⟨rfl, rfl, rfl, rfl⟩

/-- What the walk over a rule returns are slots. -/
theorem iterRecurrenceStarts_isSlot {zone : Zone} {event : CalendarEvent} {rule : RecurrenceRule}
    {windowStart windowEnd : Int} {wanted : Nat} {starts : List Int}
    (iterated : iterRecurrenceStarts zone event rule windowStart windowEnd wanted = .ok starts) :
    ∃ series, seriesOf zone event rule = .ok series ∧
      ∀ start ∈ starts, series.IsSlot start ∧ start < windowEnd := by
  obtain ⟨series, found, walked⟩ := bind_eq_ok.mp iterated
  exact ⟨series, found, Series.walk_isSlot (Series.counts_firstIndex windowStart) walked⟩

/-- Starts that were not cut off are found when more are wanted. -/
theorem iterRecurrenceStarts_more {zone : Zone} {event : CalendarEvent} {rule : RecurrenceRule}
    {windowStart windowEnd : Int} {wanted more : Nat} (further : wanted ≤ more) :
    (∀ starts, iterRecurrenceStarts zone event rule windowStart windowEnd wanted = .ok starts →
      starts.length < wanted →
        iterRecurrenceStarts zone event rule windowStart windowEnd more = .ok starts) ∧
    ∀ error, iterRecurrenceStarts zone event rule windowStart windowEnd wanted = .error error →
      iterRecurrenceStarts zone event rule windowStart windowEnd more = .error error := by
  unfold iterRecurrenceStarts
  cases seriesOf zone event rule with
  | error failure => exact ⟨fun starts iterated _ => iterated, fun error iterated => iterated⟩
  | ok series => exact Series.walk_more further

end FrontDashboard.Calendar
