import FrontDashboard.Calendar.Repeated

/-! # The walk of a stored rule ends

Every iteration moves on to a later week, month or year, so that the last year is reached. A walk
emits twice just what the series repeats in the window.
-/

namespace FrontDashboard.Calendar

open Outcomes

namespace StoredSeries

variable {series : StoredSeries} {windowStart windowEnd : Int}

/-! ## The last year -/

/-- After the year 9999 there are no dates. -/
theorem safeDate_exhausted {year month dayOfMonth : Nat} (late : 9999 < year) :
    safeDate year month dayOfMonth = .exhausted :=
  if_pos late

/-- **Every rule** is exhausted from some iteration on. -/
theorem exists_exhausted (series : StoredSeries) :
    ∃ bound, ∀ index, bound ≤ index → series.candidate index = .exhausted := by
  cases frequency : series.rule.frequency with
  | daily =>
      refine ⟨(maxOrdinal + 1 - series.baseDate).toNat, fun index further => ?_⟩
      have advanced := series.le_mul_interval index
      unfold candidate
      rw [frequency]
      exact if_pos (by omega)
  | weekly =>
      refine ⟨(maxOrdinal + 1 - series.weekStart).toNat * series.turns, fun index further => ?_⟩
      have weeks := (Nat.le_div_iff_mul_le series.turns_pos).mpr further
      have advanced := series.le_mul_interval (index / series.turns)
      unfold candidate
      rw [frequency]
      refine if_pos ?_
      rw [Int.mul_assoc]
      omega
  | monthly =>
      refine ⟨120000, fun index further => ?_⟩
      have advanced := series.le_mul_interval index
      unfold candidate
      rw [frequency]
      dsimp only [Series.addMonths]
      exact safeDate_exhausted (by omega)
  | yearly =>
      refine ⟨10000, fun index further => ?_⟩
      have advanced := series.le_mul_interval index
      unfold candidate
      rw [frequency]
      exact safeDate_exhausted (by omega)

/-! ## One iteration -/

section Iteration

variable {fuel index emitted : Nat}

/-- The walk ends where the candidates do. -/
theorem walk_exhausted (exhausted : series.candidate index = .exhausted) :
    series.walk windowEnd (fuel + 1) index emitted = some ([], .finished) := by
  rw [walk, exhausted]

/-- The walk goes past a candidate that is skipped. -/
theorem walk_skipped (skipped : series.candidate index = .skipped) :
    series.walk windowEnd (fuel + 1) index emitted =
      series.walk windowEnd fuel (index + 1) emitted := by
  rw [walk, skipped]

/-- The walk stops at a candidate that cannot be read. -/
theorem walk_failed {ordinal : Int} {error : CalendarExpansionError}
    (on : series.candidate index = .on ordinal) (failed : series.read ordinal = .error error) :
    series.walk windowEnd (fuel + 1) index emitted = some ([], .overflowError) := by
  rw [walk, on]
  simp only [failed]

/-- Else the walk looks at the instant that the candidate reads as. -/
theorem walk_on {ordinal instant : Int} (on : series.candidate index = .on ordinal)
    (read : series.read ordinal = .ok instant) :
    series.walk windowEnd (fuel + 1) index emitted =
      if windowEnd ≤ instant ∨ series.afterUntil instant then some ([], .finished)
      else if series.reached emitted then some ([], .finished)
      else if instant < series.startsAt then series.walk windowEnd fuel (index + 1) emitted
      else (series.walk windowEnd fuel (index + 1) (emitted + 1)).map fun rest =>
        (instant :: rest.1, rest.2) := by
  rw [walk, on]
  simp only [read]

end Iteration

/-- The counter of a walk: it is kept only for rules that count. -/
def Counts (series : StoredSeries) (index emitted : Nat) : Prop :=
  series.rule.count = none ∨ emitted = series.startsBefore index

/-- A rule without a count never reaches it. -/
theorem not_reached (uncounted : series.rule.count = none) (emitted : Nat) :
    ¬ series.reached emitted := by
  rintro ⟨limit, given, _⟩
  rw [uncounted] at given
  cases given

/-- The count is reached when that many starts lie behind. -/
theorem Counts.reached_iff {index emitted : Nat} (counts : series.Counts index emitted) :
    series.reached emitted ↔ series.reached (series.startsBefore index) := by
  rcases counts with uncounted | same
  · exact iff_of_false (not_reached uncounted _) (not_reached uncounted _)
  · rw [same]

/-- Each candidate adds its own starts. -/
theorem Counts.next {index emitted : Nat} (counts : series.Counts index emitted) :
    series.Counts (index + 1) (emitted + (series.startAt index).toList.length) :=
  counts.imp_right fun same => by rw [same, startsBefore]

/-- **One iteration**: the walk ends, or goes on after it has emitted the start that is named, if
there is one. -/
theorem walk_cases {fuel index emitted : Nat} {outcome : List Int × Ended}
    (walked : series.walk windowEnd (fuel + 1) index emitted = some outcome) :
    outcome.1 = [] ∨
      series.GoesOn windowEnd index ∧
        ((series.startAt index).isSome → ¬ series.reached emitted) ∧ ∃ rest,
          series.walk windowEnd fuel (index + 1)
            (emitted + (series.startAt index).toList.length) = some rest ∧
          outcome.1 = (series.startAt index).toList ++ rest.1 := by
  cases found : series.candidate index with
  | exhausted =>
      rw [walk_exhausted found] at walked
      cases walked
      exact .inl rfl
  | skipped =>
      rw [walk_skipped found] at walked
      rw [startAt_of_skipped found]
      exact .inr ⟨.inl found, (fun named => by cases named), outcome, walked, rfl⟩
  | on date =>
      cases read : series.read date with
      | error error =>
          rw [walk_failed found read] at walked
          cases walked
          exact .inl rfl
      | ok instant =>
          rw [walk_on found read] at walked
          obtain ⟨inside, rfl⟩ := read_eq_ok.mp read
          rw [startAt_of_on found]
          split at walked
          next =>
            cases walked
            exact .inl rfl
          next within =>
            obtain ⟨before, early⟩ := not_or.mp within
            have goes : series.GoesOn windowEnd index :=
              .inr ⟨date, found, inside, Int.not_le.mp before, early⟩
            split at walked
            next =>
              cases walked
              exact .inl rfl
            next unreached =>
              split at walked
              next earlier =>
                rw [if_pos earlier]
                exact .inr ⟨goes, fun _ => unreached, outcome, walked, rfl⟩
              next started =>
                obtain ⟨rest, remaining, built⟩ := Option.map_eq_some_iff.mp walked
                rw [if_neg started, ← built]
                exact .inr ⟨goes, fun _ => unreached, rest, remaining, rfl⟩

/-- An iteration at which nothing ends the walk. -/
theorem walk_of_goesOn {fuel index emitted : Nat} {outcome : List Int × Ended}
    (goes : series.GoesOn windowEnd index) (unreached : ¬ series.reached emitted)
    (walked : series.walk windowEnd (fuel + 1) index emitted = some outcome) :
    ∃ rest, series.walk windowEnd fuel (index + 1)
        (emitted + (series.startAt index).toList.length) = some rest ∧
      outcome.1 = (series.startAt index).toList ++ rest.1 := by
  rcases goes with skipped | ⟨date, on, inside, before, early⟩
  · rw [walk_skipped skipped] at walked
    rw [startAt_of_skipped skipped]
    exact ⟨outcome, walked, rfl⟩
  · rw [walk_on on (read_eq_ok.mpr ⟨inside, rfl⟩),
      if_neg (not_or.mpr ⟨Int.not_le.mpr before, early⟩),
      if_neg unreached] at walked
    rw [startAt_of_on on]
    split at walked
    next earlier =>
      rw [if_pos earlier]
      exact ⟨outcome, walked, rfl⟩
    next started =>
      obtain ⟨rest, remaining, built⟩ := Option.map_eq_some_iff.mp walked
      rw [if_neg started, ← built]
      exact ⟨rest, remaining, rfl⟩

/-! ## Runs -/

/-- More fuel changes nothing. -/
theorem walk_more {fuel more index emitted : Nat} {outcome : List Int × Ended}
    (enough : fuel ≤ more) (walked : series.walk windowEnd fuel index emitted = some outcome) :
    series.walk windowEnd more index emitted = some outcome := by
  induction fuel generalizing more index emitted outcome with
  | zero => cases walked
  | succ fuel ih =>
      obtain ⟨more, rfl⟩ : ∃ rest, more = rest + 1 :=
        Nat.exists_eq_add_one_of_ne_zero (by omega)
      have less : fuel ≤ more := Nat.le_of_succ_le_succ enough
      cases found : series.candidate index with
      | exhausted =>
          rw [walk_exhausted found] at walked ⊢
          exact walked
      | skipped =>
          rw [walk_skipped found] at walked ⊢
          exact ih less walked
      | on ordinal =>
          cases read : series.read ordinal with
          | error error =>
              rw [walk_failed found read] at walked ⊢
              exact walked
          | ok instant =>
              rw [walk_on found read] at walked ⊢
              split
              next past => rwa [if_pos past] at walked
              next inside =>
                rw [if_neg inside] at walked
                split
                next done => rwa [if_pos done] at walked
                next undone =>
                  rw [if_neg undone] at walked
                  split
                  next earlier =>
                    rw [if_pos earlier] at walked
                    exact ih less walked
                  next started =>
                    rw [if_neg started] at walked
                    obtain ⟨rest, remaining, built⟩ := Option.map_eq_some_iff.mp walked
                    exact Option.map_eq_some_iff.mpr ⟨rest, ih less remaining, built⟩

/-- **A walk ends** with the fuel that its iterations need. -/
theorem exists_walk {bound : Nat}
    (exhausted : ∀ index, bound ≤ index → series.candidate index = .exhausted)
    {fuel index emitted : Nat} (enough : bound - index < fuel) :
    ∃ outcome, series.walk windowEnd fuel index emitted = some outcome := by
  induction fuel generalizing index emitted with
  | zero => exact absurd enough (Nat.not_lt_zero _)
  | succ fuel ih =>
      by_cases further : bound ≤ index
      · exact ⟨_, walk_exhausted (exhausted index further)⟩
      · have less : bound - (index + 1) < fuel := by omega
        cases found : series.candidate index with
        | exhausted => exact ⟨_, walk_exhausted found⟩
        | skipped =>
            rw [walk_skipped found]
            exact ih less
        | on ordinal =>
            cases read : series.read ordinal with
            | error error => exact ⟨_, walk_failed found read⟩
            | ok instant =>
                rw [walk_on found read]
                split_ifs
                · exact ⟨_, rfl⟩
                · exact ⟨_, rfl⟩
                · exact ih less
                · obtain ⟨rest, remaining⟩ := @ih (index + 1) (emitted + 1) less
                  rw [remaining]
                  exact ⟨_, rfl⟩

/-! ## What a walk repeats -/

theorem counts_firstIndex (windowStart : Int) :
    series.Counts (series.firstIndex windowStart) 0 := by
  cases counted : series.rule.count with
  | none => exact .inl counted
  | some limit =>
      right
      have first : series.firstIndex windowStart = 0 := by
        unfold firstIndex
        rw [if_pos (.inl (by rw [counted]; rfl))]
      rw [first]
      rfl

/-- What a walk emits is named by iterations that it has gone on to. -/
theorem exists_startAt_of_mem {fuel index emitted : Nat} {outcome : List Int × Ended}
    (counts : series.Counts index emitted)
    (walked : series.walk windowEnd fuel index emitted = some outcome) :
    ∀ start ∈ outcome.1, ∃ later, index ≤ later ∧
      (∀ between, index ≤ between → between ≤ later → series.GoesOn windowEnd between) ∧
      series.startAt later = some start ∧ ¬ series.reached (series.startsBefore later) := by
  induction fuel generalizing index emitted outcome with
  | zero => cases walked
  | succ fuel ih =>
      rcases walk_cases walked with nothing | ⟨goes, unreached, rest, remaining, built⟩
      · rw [nothing]
        exact fun start member => (List.not_mem_nil member).elim
      · rw [built]
        intro start member
        rcases List.mem_append.mp member with here | further
        · have named := Option.mem_toList.mp here
          refine ⟨index, le_rfl, ?_, named, ?_⟩
          · intro between lower upper
            rwa [Nat.le_antisymm upper lower]
          · rw [← counts.reached_iff]
            exact unreached (Option.isSome_of_mem named)
        · obtain ⟨later, after, goOn, named⟩ := ih counts.next remaining start further
          refine ⟨later, Nat.le_of_succ_le after, ?_, named⟩
          intro between lower upper
          rcases Nat.eq_or_lt_of_le lower with same | beyond
          · rwa [← same]
          · exact goOn between beyond upper

/-- **What is not repeated** is emitted once. -/
theorem nodup_walk (offsets : ShortOffsets series.zone) (positive : 1 ≤ series.baseDate)
    (once : ∀ earlier later, ¬ series.Repeats windowStart windowEnd earlier later)
    {fuel index emitted : Nat} {outcome : List Int × Ended}
    (after : series.firstIndex windowStart ≤ index)
    (goOn : ∀ before, series.firstIndex windowStart ≤ before → before < index →
      series.GoesOn windowEnd before) (counts : series.Counts index emitted)
    (walked : series.walk windowEnd fuel index emitted = some outcome) : outcome.1.Nodup := by
  induction fuel generalizing index emitted outcome with
  | zero => cases walked
  | succ fuel ih =>
      rcases walk_cases walked with nothing | ⟨goes, unreached, rest, remaining, built⟩
      · rw [nothing]
        exact List.nodup_nil
      · have goOn' : ∀ before, series.firstIndex windowStart ≤ before → before < index + 1 →
            series.GoesOn windowEnd before := by
          intro before lower upper
          rcases Nat.eq_or_lt_of_le (Nat.le_of_lt_succ upper) with same | earlier
          · rwa [same]
          · exact goOn before lower earlier
        have unique := ih (Nat.le_succ_of_le after) goOn' counts.next remaining
        rw [built]
        cases named : series.startAt index with
        | none => exact unique
        | some start =>
            refine List.nodup_cons.mpr ⟨fun again => ?_, unique⟩
            obtain ⟨later, beyond, between, repeated, counted⟩ :=
              exists_startAt_of_mem counts.next remaining start again
            obtain ⟨date, on, same, _⟩ := startAt_eq_some.mp named
            obtain ⟨other, on', same', _⟩ := startAt_eq_some.mp repeated
            have meet := (instantAt_eq_iff offsets).mp (same.symm.trans same')
            obtain ⟨days, spans⟩ := span_of_meet positive beyond on on' meet
            refine once index later ⟨beyond, ⟨date, other, on, on', meet⟩, ?_, ?_, ?_, counted⟩
            · exact fun skips => Nat.not_lt.mpr after ((lt_firstIndex_iff spans).mpr skips)
            · rw [named]
              rfl
            · intro middle upper kept
              have lower : series.firstIndex windowStart ≤ middle :=
                Nat.not_lt.mp fun skips => kept ((lt_firstIndex_iff spans).mp skips)
              by_cases early : middle < index + 1
              · exact goOn' middle lower early
              · exact between middle (Nat.not_lt.mp early) upper

/-- A count that is not reached was not reached before. -/
theorem not_reached_of_le {earlier later : Nat} (before : earlier ≤ later)
    (unreached : ¬ series.reached (series.startsBefore later)) :
    ¬ series.reached (series.startsBefore earlier) := by
  rintro ⟨limit, given, passed⟩
  have more : series.startsBefore earlier ≤ series.startsBefore later := startsBefore_mono before
  exact unreached ⟨limit, given, passed.trans (Int.ofNat_le.mpr more)⟩

/-- A walk comes to a start that nothing keeps it from. -/
theorem mem_walk {fuel index emitted later : Nat} {start : Int} {outcome : List Int × Ended}
    (after : index ≤ later)
    (goOn : ∀ between, index ≤ between → between ≤ later → series.GoesOn windowEnd between)
    (counted : ¬ series.reached (series.startsBefore later))
    (named : series.startAt later = some start) (counts : series.Counts index emitted)
    (walked : series.walk windowEnd fuel index emitted = some outcome) :
    start ∈ outcome.1 := by
  induction fuel generalizing index emitted outcome with
  | zero => cases walked
  | succ fuel ih =>
      obtain ⟨rest, remaining, built⟩ := walk_of_goesOn (goOn index le_rfl after)
        (counts.reached_iff.not.mpr (not_reached_of_le after counted)) walked
      rw [built]
      rcases Nat.eq_or_lt_of_le after with rfl | before
      · rw [named]
        exact List.mem_cons_self
      · apply List.mem_append_right
        refine ih before ?_ counts.next remaining
        exact fun between lower upper => goOn between (Nat.le_of_succ_le lower) upper

/-- **What is repeated** is emitted twice. -/
theorem not_nodup_walk {fuel index emitted earlier later : Nat} {start : Int}
    {outcome : List Int × Ended} (after : index ≤ earlier) (ordered : earlier < later)
    (goOn : ∀ between, index ≤ between → between ≤ later → series.GoesOn windowEnd between)
    (counted : ¬ series.reached (series.startsBefore later))
    (named : series.startAt earlier = some start) (again : series.startAt later = some start)
    (counts : series.Counts index emitted)
    (walked : series.walk windowEnd fuel index emitted = some outcome) :
    ¬ outcome.1.Nodup := by
  induction fuel generalizing index emitted outcome with
  | zero => cases walked
  | succ fuel ih =>
      have within : index ≤ later := after.trans ordered.le
      obtain ⟨rest, remaining, built⟩ := walk_of_goesOn (goOn index le_rfl within)
        (counts.reached_iff.not.mpr (not_reached_of_le within counted)) walked
      have goOn' : ∀ between, index + 1 ≤ between → between ≤ later →
          series.GoesOn windowEnd between :=
        fun between lower upper => goOn between (Nat.le_of_succ_le lower) upper
      rw [built]
      rcases Nat.eq_or_lt_of_le after with rfl | before
      · rw [named]
        intro unique
        exact (List.nodup_cons.mp unique).1
          (mem_walk ordered goOn' counted again counts.next remaining)
      · intro unique
        exact ih before goOn' counts.next remaining (List.Nodup.of_append_right unique)

end StoredSeries

/-- **The property**, of a window: the walk emits finitely many starts, no two of them equal, and
then finishes or overflows. -/
def WalkEnds (zone : Zone) (startsAt endsAt : Int) (rule : StoredRule)
    (windowStart windowEnd : Int) : Prop :=
  ∃ bound starts ended, (∀ fuel, bound ≤ fuel →
    iterStored zone startsAt endsAt rule windowStart windowEnd fuel = some (starts, ended)) ∧
      starts.Nodup

variable {zone : Zone} {startsAt endsAt windowStart windowEnd : Int} {rule : StoredRule}

/-- A series has the timezone and the rule that are stored, and begins on a day of the calendar. -/
theorem of_storedSeriesOf {series : StoredSeries}
    (based : storedSeriesOf zone startsAt endsAt rule = .ok series) :
    series.zone = zone ∧ 1 ≤ series.baseDate ∧ series.rule = rule := by
  obtain ⟨_, -, begins⟩ := bind_eq_ok.mp based
  obtain ⟨baseLocal, opens, built⟩ := bind_eq_ok.mp begins
  cases built
  have inside := (checked_eq_ok.mp opens).2.1
  have same := (checked_eq_ok.mp opens).1
  refine ⟨rfl, ?_, rfl⟩
  dsimp only
  rw [same]
  unfold day at *
  omega

/-- A walk ends, and no two of its starts are equal exactly where the series repeats none. -/
theorem walkEnds_iff_not_repeats (offsets : ShortOffsets zone) :
    WalkEnds zone startsAt endsAt rule windowStart windowEnd ↔
      ∀ series, storedSeriesOf zone startsAt endsAt rule = .ok series →
        ∀ earlier later, ¬ series.Repeats windowStart windowEnd earlier later := by
  unfold WalkEnds iterStored
  cases based : storedSeriesOf zone startsAt endsAt rule with
  | error error =>
      refine iff_of_true ⟨0, [], .overflowError, fun fuel _ => rfl, List.nodup_nil⟩ ?_
      exact fun series impossible => by cases impossible
  | ok series =>
      obtain ⟨rfl, positive, -⟩ := of_storedSeriesOf based
      dsimp only
      constructor
      · rintro ⟨bound, starts, ended, walked, unique⟩ _ ⟨⟩ earlier later repeats
        obtain ⟨date, other, on, on', meet⟩ := repeats.meets
        obtain ⟨days, spans⟩ := StoredSeries.span_of_meet positive repeats.ordered on on' meet
        obtain ⟨start, named⟩ := Option.isSome_iff_exists.mp repeats.begun
        have again : series.startAt later = some start := by
          rw [StoredSeries.startAt_of_on on] at named
          rw [StoredSeries.startAt_of_on on', ← (StoredSeries.instantAt_eq_iff offsets).mpr meet]
          exact named
        refine StoredSeries.not_nodup_walk ?_ repeats.ordered ?_ repeats.counted named again
          (StoredSeries.counts_firstIndex windowStart) (walked bound le_rfl) unique
        · exact Nat.not_lt.mp fun skips =>
            repeats.kept ((StoredSeries.lt_firstIndex_iff spans).mp skips)
        · intro between lower upper
          exact repeats.goesOn between upper fun skips =>
            Nat.not_lt.mpr lower ((StoredSeries.lt_firstIndex_iff spans).mpr skips)
      · intro once
        obtain ⟨bound, exhausted⟩ := series.exists_exhausted
        obtain ⟨outcome, walked⟩ := @StoredSeries.exists_walk series windowEnd bound exhausted
          (bound + 1) (series.firstIndex windowStart) 0 (by omega)
        refine ⟨bound + 1, outcome.1, outcome.2, fun fuel enough =>
          StoredSeries.walk_more enough walked, ?_⟩
        refine StoredSeries.nodup_walk offsets positive (once series rfl) le_rfl ?_
          (StoredSeries.counts_firstIndex windowStart) walked
        exact fun before lower upper => absurd upper (Nat.not_lt.mpr lower)

/-- **The walk always ends.** No two of its starts are equal exactly where the series repeats none
in the window: for weekdays of a week, where no two dates that follow each other and start at one
instant are in the window, the rule and its count. -/
theorem walkEnds_iff (offsets : ShortOffsets zone) :
    (WalkEnds zone startsAt endsAt rule windowStart windowEnd ↔
      ∀ series, storedSeriesOf zone startsAt endsAt rule = .ok series →
        ∀ earlier later, ¬ series.Repeats windowStart windowEnd earlier later) ∧
    (StoredSeries.OfWeek rule →
      (WalkEnds zone startsAt endsAt rule windowStart windowEnd ↔
        ∀ series, storedSeriesOf zone startsAt endsAt rule = .ok series →
          ∀ date, ¬ series.Doubles windowStart windowEnd date)) := by
  refine ⟨walkEnds_iff_not_repeats offsets, fun week => ?_⟩
  rw [walkEnds_iff_not_repeats offsets]
  refine forall_congr' fun series => forall_congr' fun based => ?_
  obtain ⟨own, positive, stored⟩ := of_storedSeriesOf based
  have doubled := @StoredSeries.exists_repeats_iff series windowStart windowEnd
    (own.symm ▸ offsets) positive (stored.symm ▸ week)
  have single := doubled.not
  simpa only [not_exists] using single

/-! ## A day that is skipped -/

/-- A walk that ended ends the same with more fuel. -/
theorem iterStored_more {windowStart windowEnd : Int} {fuel more : Nat}
    {outcome : List Int × Ended} (enough : fuel ≤ more)
    (walked : iterStored zone startsAt endsAt rule windowStart windowEnd fuel = some outcome) :
    iterStored zone startsAt endsAt rule windowStart windowEnd more = some outcome := by
  unfold iterStored at walked ⊢
  split at walked
  next => exact walked
  next => exact StoredSeries.walk_more enough walked

def everyDay : StoredRule where
  frequency := .daily
  interval := 0
  byWeekday := none
  untilAt := none
  count := none

/-- Samoa, whose clock went from the end of 29 December 2011 to the beginning of the 31st. -/
def apia : Zone where
  utcOffset instant := if instant < hourOf 734501 10 then -36000000000 else 50400000000
  wallOffset wall := if wall < hourOf 734502 0 then -36000000000 else 50400000000

/-- Apia's offsets are short of a day. -/
theorem shortOffsets_apia : ShortOffsets apia := by
  constructor
  case utc =>
    intro instant
    simp only [apia, day]
    split_ifs <;> omega
  case wall =>
    intro wall
    simp only [apia, day]
    split_ifs <;> omega

/-- A series that ends before the day that is skipped repeats nothing. -/
theorem walkEnds_before_skip :
    WalkEnds apia (hourOf 734499 19) (hourOf 734499 20)
      { everyDay with untilAt := some (hourOf 734501 0) } (hourOf 734499 0)
      (hourOf 734503 0) := by
  refine ((walkEnds_iff shortOffsets_apia).2 fun weekdays given => by cases given).mpr ?_
  intro series based date doubles
  cases based
  have nine : (hourOf 734499 19 + apia.utcOffset (hourOf 734499 19)) % day = 32400000000 := by
    decide
  have skips := doubles.skips
  refine doubles.early ⟨_, rfl, ?_⟩
  simp only [StoredSeries.SkipsDay, StoredSeries.instantAt, nine] at *
  simp only [apia, hourOf, day] at *
  split_ifs at * <;> omega

/-- Nine o'clock of every day from the 28th on: that of the 30th is read as that of the 31st. -/
theorem not_walkEnds : ¬ WalkEnds apia (hourOf 734499 19) (hourOf 734499 20) everyDay
    (hourOf 734499 0) (hourOf 734503 0) := by
  rintro ⟨bound, starts, ended, walked, unique⟩
  have run : iterStored apia (hourOf 734499 19) (hourOf 734499 20) everyDay (hourOf 734499 0)
      (hourOf 734503 0) 6 = some ([hourOf 734499 19, hourOf 734500 19, hourOf 734501 19,
        hourOf 734501 19, hourOf 734502 19], .finished) := by decide +kernel
  have long := iterStored_more (Nat.le_add_left 6 bound) run
  rw [walked (bound + 6) (Nat.le_add_right bound 6)] at long
  cases long
  exact absurd unique (by decide)

end FrontDashboard.Calendar
