import FrontDashboard.Calendar.Prefilter

/-! # Series that read alike

Two series whose iterations come to the same instants yield the same starts when one's end
leaves out what the other's end and count leave out.
-/

namespace FrontDashboard.Calendar

open Outcomes

/-- What an iteration comes to. -/
inductive Reading
  | exhausted
  | skipped
  | named (instant : Except CalendarExpansionError Int)

namespace Series

/-- The candidate of an iteration, and the instant of its local time. -/
def reading (series : Series) (index : Nat) : Reading :=
  match series.candidate index with
  | .exhausted => .exhausted
  | .skipped => .skipped
  | .on ordinal => .named (series.zone.localToUtc ordinal series.localTime)

variable {series : Series}

theorem reading_eq_named {index : Nat} {instant : Except CalendarExpansionError Int}
    (read : series.reading index = .named instant) :
    ∃ ordinal, series.candidate index = .on ordinal ∧
      series.zone.localToUtc ordinal series.localTime = instant := by
  unfold reading at read
  split at read
  next => cases read
  next => cases read
  next ordinal on =>
    cases read
    exact ⟨ordinal, on, rfl⟩

theorem walk_of_exhausted {windowEnd : Int} {iterations wanted index emitted : Nat}
    (read : series.reading index = .exhausted) :
    series.walk windowEnd (iterations + 1) (wanted + 1) index emitted = .ok [] := by
  apply walk_exhausted
  cases found : series.candidate index <;> simp [reading, found] at read
  rfl

theorem walk_of_skipped {windowEnd : Int} {iterations wanted index emitted : Nat}
    (read : series.reading index = .skipped) :
    series.walk windowEnd (iterations + 1) (wanted + 1) index emitted =
      series.walk windowEnd iterations (wanted + 1) (index + 1) emitted := by
  apply walk_skipped
  cases found : series.candidate index <;> simp [reading, found] at read
  rfl

theorem slotAt_of_named {index : Nat} {instant : Int}
    (read : series.reading index = .named (.ok instant)) :
    series.slotAt index =
      if instant < series.startsAt ∨ series.afterUntil instant then none else some instant := by
  obtain ⟨ordinal, on, named⟩ := reading_eq_named read
  exact slotAt_of_on on named

theorem slotAt_of_not_named {index : Nat}
    (read : ∀ instant, series.reading index ≠ .named (.ok instant)) :
    series.slotAt index = none := by
  cases found : series.candidate index with
  | exhausted => simp [slotAt, found]
  | skipped => simp [slotAt, found]
  | on ordinal =>
      cases named : series.zone.localToUtc ordinal series.localTime with
      | error error => simp [slotAt, found, named]
      | ok instant =>
          have same : series.reading index = .named (.ok instant) := by
            simp [reading, found, named]
          exact absurd same (read instant)

/-- The rule does not end with an iteration, nor has it run out. -/
def Continues (series : Series) (index : Nat) : Prop :=
  match series.reading index with
  | .skipped => True
  | .named (.ok instant) =>
      ¬ series.afterUntil instant ∧ ¬ series.reached (series.slotsBefore index)
  | _ => False

/-- The rule comes to an iteration. -/
def Runs (series : Series) (index : Nat) : Prop := ∀ earlier < index, series.Continues earlier

theorem runs_zero : series.Runs 0 := fun _ before => absurd before (Nat.not_lt_zero _)

theorem Runs.succ {index : Nat} (runs : series.Runs index) (continues : series.Continues index) :
    series.Runs (index + 1) := by
  intro earlier before
  rcases (Nat.le_of_lt_succ before).eq_or_lt with same | sooner
  · rw [same]
    exact continues
  · exact runs earlier sooner

theorem Runs.pred {index : Nat} (runs : series.Runs (index + 1)) : series.Runs index :=
  fun earlier before => runs earlier (Nat.lt_succ_of_lt before)

theorem continues_of_skipped {index : Nat} (read : series.reading index = .skipped) :
    series.Continues index := by
  unfold Continues
  rw [read]
  trivial

theorem continues_of_named {index : Nat} {instant : Int}
    (read : series.reading index = .named (.ok instant)) (before : ¬ series.afterUntil instant)
    (fewer : ¬ series.reached (series.slotsBefore index)) : series.Continues index := by
  unfold Continues
  rw [read]
  exact ⟨before, fewer⟩

/-- Iterations that come to the same, as far as the rule comes. -/
structure Alike (here there : Series) : Prop where
  starts : here.startsAt = there.startsAt
  readings : ∀ index, there.Runs index → here.reading index = there.reading index

/-- The day of an iteration, some days later. -/
def laterBy (days : Int) : Candidate → Candidate
  | .on ordinal => .on (ordinal + days)
  | .exhausted => .exhausted
  | .skipped => .skipped

/-- How far the first day of one series is after that of another. -/
def daysApart (here there : Series) : Int := here.baseDate - there.baseDate

/-- **Two series in step**: as far as the second goes, they name days as far from their first ones,
and on each of these their clocks are as far apart as at the start. -/
structure InStep (here there : Series) : Prop where
  starts : here.startsAt = there.startsAt
  days : ∀ index, there.Runs index →
    here.candidate index = laterBy (here.daysApart there) (there.candidate index)
  clocks : ∀ index ordinal, there.Runs index → there.candidate index = .on ordinal →
    here.zone.wallOffset ((ordinal + here.daysApart there) * day + here.localTime) -
        there.zone.wallOffset (ordinal * day + there.localTime) =
      here.zone.utcOffset here.startsAt - there.zone.utcOffset there.startsAt

/-- The first day and the time of day are those that the clock shows at the start. -/
def Based (series : Series) : Prop :=
  series.baseDate * day + series.localTime =
    series.startsAt + series.zone.utcOffset series.startsAt

/-- Series in step come to the same instants. -/
theorem InStep.alike {here there : Series} (inStep : here.InStep there) (based : here.Based)
    (based' : there.Based) : here.Alike there := by
  refine ⟨inStep.starts, fun index runs => ?_⟩
  have same := inStep.days index runs
  unfold reading
  rw [same]
  cases on : there.candidate index with
  | exhausted => rfl
  | skipped => rfl
  | on ordinal =>
      have clocks := inStep.clocks index ordinal runs on
      have starts := inStep.starts
      have instants : (ordinal + here.daysApart there) * day + here.localTime -
          here.zone.wallOffset ((ordinal + here.daysApart there) * day + here.localTime) =
          ordinal * day + there.localTime -
            there.zone.wallOffset (ordinal * day + there.localTime) := by
        generalize here.zone.wallOffset _ = offset at clocks ⊢
        generalize there.zone.wallOffset _ = offset' at clocks ⊢
        unfold Based daysApart day at *
        omega
      simp only [laterBy, Zone.localToUtc, instants]

/-- Series that read alike and end at the same time have the same slots. -/
theorem Alike.slotsBefore_eq {here there : Series} (alike : Alike here there)
    (ends : here.rule.untilAt = there.rule.untilAt) {index : Nat} (runs : there.Runs index) :
    here.slotsBefore index = there.slotsBefore index := by
  induction index with
  | zero => rfl
  | succ index ih =>
      have same := alike.readings index runs.pred
      rw [slotsBefore, slotsBefore, ih runs.pred]
      by_cases read : ∃ instant, there.reading index = .named (.ok instant)
      · obtain ⟨instant, read⟩ := read
        have after : here.afterUntil instant ↔ there.afterUntil instant := by
          unfold afterUntil
          rw [ends]
        simp only [slotAt_of_named read, slotAt_of_named (same.trans read), alike.starts, after]
      · have unread := not_exists.mp read
        rw [slotAt_of_not_named unread, slotAt_of_not_named fun instant => same ▸ unread instant]

/-- A rule comes as far in one series as in another that it reads alike in. -/
theorem Alike.runs {here there : Series} (alike : Alike here there)
    (same : here.rule = there.rule) {index : Nat} (runs : there.Runs index) : here.Runs index := by
  intro earlier before
  have reached : there.Runs earlier := fun first sooner => runs first (sooner.trans before)
  have continues := runs earlier before
  unfold Continues afterUntil Series.reached at continues ⊢
  rw [alike.readings earlier reached, same,
    alike.slotsBefore_eq (congrArg (·.untilAt) same) reached]
  exact continues

/-- Where one rule ends, the other does, as far as they come. -/
def EndsAlike (here there : Series) : Prop :=
  ∀ index instant, there.Runs index → there.reading index = .named (.ok instant) →
    (here.afterUntil instant ↔
      there.afterUntil instant ∨ there.reached (there.slotsBefore index))

/-- **Series that read and end alike** are walked alike, one of them having no count. -/
theorem walk_alike {here there : Series} (alike : Alike here there)
    (ends : EndsAlike here there) (uncounted : here.rule.count = none) {windowEnd : Int}
    {iterations wanted index emitted emitted' : Nat} (runs : there.Runs index)
    (counts : there.Counts index emitted) :
    here.walk windowEnd iterations wanted index emitted' =
      there.walk windowEnd iterations wanted index emitted := by
  induction iterations generalizing wanted index emitted emitted' with
  | zero => rfl
  | succ iterations ih =>
      cases wanted with
      | zero => rfl
      | succ wanted =>
          have same := alike.readings index runs
          cases read : there.reading index with
          | exhausted =>
              rw [read] at same
              rw [walk_of_exhausted read, walk_of_exhausted same]
          | skipped =>
              rw [read] at same
              rw [walk_of_skipped read, walk_of_skipped same]
              have none : there.slotAt index = none :=
                slotAt_of_not_named fun instant => by simp [read]
              exact ih (runs.succ (continues_of_skipped read)) (counts.pass none)
          | named outcome =>
              rw [read] at same
              obtain ⟨ordinal, on, named⟩ := reading_eq_named read
              obtain ⟨ordinal', on', named'⟩ := reading_eq_named same
              cases outcome with
              | error error => rw [walk_failed on named, walk_failed on' named']
              | ok instant =>
                  have slot := slotAt_of_on on named
                  rw [walk_on on named, walk_on on' named', alike.starts]
                  have stops := ends index instant runs read
                  have never := not_reached uncounted emitted'
                  by_cases late : windowEnd ≤ instant
                  · rw [if_pos (.inl late), if_pos (.inl late)]
                  · by_cases after : here.afterUntil instant
                    · rw [if_pos (.inr after)]
                      rcases stops.mp after with after | reached
                      · rw [if_pos (.inr after)]
                      · rw [if_pos (counts.reached_iff.mpr reached), ite_self]
                    · have continues := mt stops.mpr after
                      rw [not_or] at continues
                      have inside : ¬ (windowEnd ≤ instant ∨ here.afterUntil instant) :=
                        not_or.mpr ⟨late, after⟩
                      have inside' : ¬ (windowEnd ≤ instant ∨ there.afterUntil instant) :=
                        not_or.mpr ⟨late, continues.1⟩
                      have further := runs.succ (continues_of_named read continues.1 continues.2)
                      rw [if_neg inside, if_neg inside', if_neg never,
                        if_neg (mt counts.reached_iff.mp continues.2)]
                      by_cases earlier : instant < there.startsAt
                      · rw [if_pos earlier, if_pos earlier]
                        rw [if_pos (.inl earlier)] at slot
                        exact ih further (counts.pass slot)
                      · rw [if_neg earlier, if_neg earlier]
                        rw [if_neg (not_or.mpr ⟨earlier, continues.1⟩)] at slot
                        rw [ih further (counts.emit slot)]

/-! ## Counting -/

theorem slotsBefore_le (index : Nat) : series.slotsBefore index ≤ index := by
  induction index with
  | zero => exact le_rfl
  | succ index ih =>
      cases found : series.slotAt index with
      | none =>
          rw [slotsBefore_succ_of_none found]
          exact Nat.le_succ_of_le ih
      | some instant =>
          rw [slotsBefore_succ_of_some found]
          exact Nat.succ_le_succ ih

/-- As many slots come before an index as there are indices, if each of them has one. -/
theorem slotsBefore_eq_of_all {index : Nat}
    (slots : ∀ earlier < index, (series.slotAt earlier).isSome = true) :
    series.slotsBefore index = index := by
  induction index with
  | zero => rfl
  | succ index ih =>
      obtain ⟨instant, found⟩ := Option.isSome_iff_exists.mp (slots index (Nat.lt_succ_self index))
      rw [slotsBefore_succ_of_some found, ih fun earlier before =>
        slots earlier (Nat.lt_succ_of_lt before)]

theorem slotsBefore_mono {earlier later : Nat} (ordered : earlier ≤ later) :
    series.slotsBefore earlier ≤ series.slotsBefore later := by
  induction ordered with
  | refl => exact le_rfl
  | step _ ih => exact ih.trans (Nat.le_add_right _ _)

end Series

/-! ## Occurrences -/

variable (zoneInfo : TimezoneName → Zone)

/-- The starts that `_iter_recurrence_starts` yields for an event from its own start on,
wherever the window ends and however many are taken. -/
def CalendarEvent.Yields (event : CalendarEvent) (start : Int) : Prop :=
  match event.recurrence with
  | none => start = event.startsAt
  | some rule => ∃ windowEnd wanted starts,
      iterRecurrenceStarts (zoneInfo event.timezone) event rule event.startsAt windowEnd wanted =
        .ok starts ∧ start ∈ starts

/-- **The occurrences** an event expands to with some overrides, by their times. -/
def CalendarEvent.Occurs (event : CalendarEvent) (overrides : List CalendarEventOverride)
    (start finish : Int) : Prop :=
  ∃ original, (event.Yields zoneInfo original ∨
      original ∈ overrides.map (·.occurrenceStart)) ∧
    ∃ occurrence, buildOccurrence event (overrideAt overrides original) original event.duration =
        .ok (some occurrence) ∧
      occurrence.occurrenceStart = start ∧ occurrence.occurrenceEnd = finish

/-- The times of an occurrence, which depend on the start, the override and the duration
only. -/
theorem buildOccurrence_times {event : CalendarEvent} {override : Option CalendarEventOverride}
    {original duration start finish : Int} :
    (∃ occurrence, buildOccurrence event override original duration = .ok (some occurrence) ∧
      occurrence.occurrenceStart = start ∧ occurrence.occurrenceEnd = finish) ↔
    override.any (·.cancelled) = false ∧ (override.bind (·.startsAt)).getD original = start ∧
      (override.bind (·.endsAt)).elim
        (checked ((override.bind (·.startsAt)).getD original + duration)) .ok = .ok finish := by
  constructor
  · rintro ⟨occurrence, built, rfl, rfl⟩
    unfold buildOccurrence at built
    split at built
    next => cases built
    next kept =>
      obtain ⟨finish, ended, whole⟩ := bind_eq_ok.mp built
      cases whole
      exact ⟨Bool.eq_false_iff.mpr kept, rfl, ended⟩
  · rintro ⟨kept, starts, ended⟩
    have kept' : ¬ override.any (·.cancelled) = true := Bool.eq_false_iff.mp kept
    unfold buildOccurrence
    rw [if_neg kept']
    exact ⟨_, bind_eq_ok.mpr ⟨finish, ended, rfl⟩, starts, rfl⟩

/-- **Events that yield the same starts** and last as long have the same occurrences. -/
theorem CalendarEvent.occurs_congr {zoneInfo : TimezoneName → Zone} {here there : CalendarEvent}
    (yields : ∀ start, here.Yields zoneInfo start ↔ there.Yields zoneInfo start)
    (duration : here.duration = there.duration) (overrides : List CalendarEventOverride)
    (start finish : Int) :
    here.Occurs zoneInfo overrides start finish ↔ there.Occurs zoneInfo overrides start finish := by
  unfold CalendarEvent.Occurs
  simp only [buildOccurrence_times, yields, duration]

/-- A one-off event occurs once. -/
theorem CalendarEvent.occurs_oneOff {zoneInfo : TimezoneName → Zone} {event : CalendarEvent}
    (oneOff : event.recurrence = none) {start finish : Int} :
    event.Occurs zoneInfo [] start finish ↔
      start = event.startsAt ∧ checked (event.startsAt + event.duration) = .ok finish := by
  unfold CalendarEvent.Occurs CalendarEvent.Yields
  rw [oneOff]
  simp only [buildOccurrence_times]
  constructor
  · rintro ⟨original, yielded, _, started, ended⟩
    simp [overrideAt] at yielded started ended
    rw [← started, yielded]
    rw [yielded] at ended
    exact ⟨rfl, ended⟩
  · rintro ⟨rfl, ended⟩
    exact ⟨_, .inl rfl, rfl, rfl, ended⟩

end FrontDashboard.Calendar
