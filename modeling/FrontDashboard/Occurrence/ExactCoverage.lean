import FrontDashboard.Occurrence.Coverage

/-! # Exact coverage

The covered intervals of the store are separated, and cover what was added and nothing else. The
gaps of a wanted interval are separated too, and are exactly what is not covered of it.
-/

namespace FrontDashboard.Occurrence

open HalfOpen

variable {covered rest : List Interval} {interval next wanted gap : Interval}
  {cursor point : Millis}

/-! ## Adding an interval -/

/-- What the loop of `addInterval` sets aside, and what grows. -/
theorem foldl_mergeInto (separated : Separated covered) (aside : List Interval) (next : Interval) :
    covered.foldl mergeInto (aside, next) =
      (aside ++ covered.filter fun interval => !decide (next.Touches interval),
        merged covered next) := by
  induction covered generalizing aside next with
  | nil => simp [merged]
  | cons interval rest ih =>
      rw [List.foldl_cons, mergeInto]
      by_cases touches : next.Touches interval
      · have close : ¬ (interval.stop < next.start ∨ interval.start > next.stop) := by
          rw [not_or, not_lt, gt_iff_lt, not_lt]
          exact touches
        have same : rest.filter (fun other => !decide ((next.hull interval).Touches other)) =
            rest.filter fun other => !decide (next.Touches other) := by
          apply List.filter_congr
          intro other member
          rw [decide_eq_decide.mpr (touches_hull touches (separated.head_stop_lt member))]
        rw [if_neg close, ih separated.tail, merged_cons_of_touches separated touches, same]
        simp [touches]
      · have far : interval.stop < next.start ∨ interval.start > next.stop := by
          by_contra close
          rw [not_or, not_lt, gt_iff_lt, not_lt] at close
          exact touches close
        rw [if_pos far, ih separated.tail, merged_cons_of_not touches]
        simp [touches]

theorem addInterval_eq (separated : Separated covered) (next : Interval) :
    addInterval covered next =
      ((covered.filter fun interval => !decide (next.Touches interval)) ++
        [merged covered next]).insertionSort fun a b => a.start ≤ b.start := by
  rw [addInterval, foldl_mergeInto separated, List.nil_append]

/-- **Adding keeps the list separated.** -/
theorem Separated.addInterval (separated : Separated covered) (next : Interval) :
    Separated (addInterval covered next) := by
  rw [addInterval_eq separated]
  exact separated_insertionSort (separated.apart_merged next)

/-- However it was built, coverage is separated. -/
theorem separated_foldl_addInterval (separated : Separated covered) (added : List Interval) :
    Separated (added.foldl Occurrence.addInterval covered) := by
  induction added generalizing covered with
  | nil => exact separated
  | cons interval rest ih => exact ih (Separated.addInterval separated interval)

/-! ## Gaps -/

theorem remainder_eq_nil (late : wanted.stop ≤ cursor) : remainder wanted cursor = [] := by
  rw [remainder, dif_neg (not_lt.mpr late)]

theorem mem_remainder (member : gap ∈ remainder wanted cursor) :
    gap.start = cursor ∧ gap.stop = wanted.stop := by
  rw [remainder] at member
  split_ifs at member
  · cases List.mem_singleton.mp member
    exact ⟨rfl, rfl⟩
  · cases member

theorem separated_remainder (wanted : Interval) (cursor : Millis) :
    Separated (remainder wanted cursor) := by
  rw [remainder]
  split_ifs
  · exact List.pairwise_singleton _ _
  · exact .nil

/-- Between the cursor and the end of what is wanted, beside everything that is covered. -/
structure Gap (covered : List Interval) (wanted : Interval) (cursor : Millis) (gap : Interval) :
    Prop where
  starts : cursor ≤ gap.start
  stops : gap.stop ≤ wanted.stop
  apart : ∀ interval ∈ covered, gap.stop ≤ interval.start ∨ interval.stop ≤ gap.start

/-- What has passed before the cursor leaves the gaps as they are. -/
theorem Gap.cons {moved : Millis} (between : Gap rest wanted moved gap) (on : cursor ≤ moved)
    (passed : interval.stop ≤ moved) : Gap (interval :: rest) wanted cursor gap where
  starts := on.trans between.starts
  stops := between.stops
  apart := List.forall_mem_cons.mpr ⟨.inr (passed.trans between.starts), between.apart⟩

/-- What stops before the first interval starts is a gap. -/
theorem gap_of_early (separated : Separated (interval :: rest)) (starts : cursor ≤ gap.start)
    (stops : gap.stop ≤ wanted.stop) (early : gap.stop ≤ interval.start) :
    Gap (interval :: rest) wanted cursor gap where
  starts := starts
  stops := stops
  apart := by
    refine List.forall_mem_cons.mpr ⟨.inl early, fun other present => .inl ?_⟩
    exact early.trans (interval.nonempty.trans (separated.head_stop_lt present)).le

/-- **What the loop of `gapsIn` finds** are gaps, in order. -/
theorem gaps_gapsFrom (separated : Separated covered) (wanted : Interval) (cursor : Millis) :
    (∀ gap ∈ gapsFrom wanted cursor covered, Gap covered wanted cursor gap) ∧
      Separated (gapsFrom wanted cursor covered) := by
  induction covered generalizing cursor with
  | nil =>
      refine ⟨fun gap member => ?_, separated_remainder wanted cursor⟩
      obtain ⟨starts, stops⟩ := mem_remainder member
      exact ⟨starts.ge, stops.le, fun _ none => absurd none List.not_mem_nil⟩
  | cons interval rest ih =>
      rw [gapsFrom]
      by_cases passed : interval.stop ≤ cursor
      · rw [if_pos passed]
        obtain ⟨gaps, ordered⟩ := ih separated.tail cursor
        exact ⟨fun gap member => (gaps gap member).cons le_rfl passed, ordered⟩
      by_cases beyond : wanted.stop ≤ interval.start
      · rw [if_neg passed, dif_pos beyond]
        refine ⟨fun gap member => ?_, separated_remainder wanted cursor⟩
        obtain ⟨starts, stops⟩ := mem_remainder member
        exact gap_of_early separated starts.ge stops.le (stops.trans_le beyond)
      · rw [if_neg passed, dif_neg beyond]
        dsimp only
        set moved := max cursor interval.stop
        have tail : (∀ gap ∈ if wanted.stop ≤ moved then remainder wanted moved
              else gapsFrom wanted moved rest, Gap rest wanted moved gap) ∧
            Separated (if wanted.stop ≤ moved then remainder wanted moved
              else gapsFrom wanted moved rest) := by
          split_ifs with reached
          · rw [remainder_eq_nil reached]
            exact ⟨fun _ none => absurd none List.not_mem_nil, .nil⟩
          · exact ih separated.tail moved
        obtain ⟨gaps, ordered⟩ := tail
        have before : ∀ gap ∈ if ahead : cursor < interval.start then
            [(⟨cursor, min interval.start wanted.stop,
              lt_min ahead (ahead.trans (not_le.mp beyond))⟩ : Interval)]
            else [], gap.start = cursor ∧ gap.stop = min interval.start wanted.stop := by
          intro gap member
          split_ifs at member
          · cases List.mem_singleton.mp member
            exact ⟨rfl, rfl⟩
          · cases member
        constructor
        · intro gap member
          rcases List.mem_append.mp member with first | second
          · obtain ⟨starts, stops⟩ := before gap first
            exact gap_of_early separated starts.ge (stops.trans_le (min_le_right _ _))
              (stops.trans_le (min_le_left _ _))
          · exact (gaps gap second).cons (le_max_left _ _) (le_max_right _ _)
        · refine List.pairwise_append.mpr ⟨?_, ordered, fun gap first other second => ?_⟩
          · split_ifs
            · exact List.pairwise_singleton _ _
            · exact .nil
          · have stops : gap.stop ≤ interval.start :=
              (before gap first).2.trans_le (min_le_left _ _)
            exact stops.trans_lt (interval.nonempty.trans_le
              ((le_max_right _ _).trans (gaps other second).starts))

/-- **The gaps are what is not covered** of the wanted interval. -/
theorem covers_gapsIn (separated : Separated covered) :
    Covers (gapsIn covered wanted) point ↔ point ∈ wanted ∧ ¬ Covers covered point := by
  constructor
  · rintro ⟨gap, member, inGap⟩
    obtain ⟨starts, stops, apart⟩ := (gaps_gapsFrom separated wanted wanted.start).1 gap member
    refine ⟨⟨starts.trans inGap.1, inGap.2.trans_le stops⟩, ?_⟩
    rintro ⟨interval, present, within⟩
    rcases apart interval present with before | after
    · exact not_lt.mpr (before.trans within.1) inGap.2
    · exact not_lt.mpr (after.trans inGap.1) within.2
  · rintro ⟨inside, uncovered⟩
    exact (covers_or_gap covered inside).resolve_left uncovered

/-- No gap is left when all of the wanted interval is covered. -/
theorem gapsIn_eq_nil (separated : Separated covered)
    (all : ∀ point ∈ wanted, Covers covered point) : gapsIn covered wanted = [] := by
  refine List.eq_nil_iff_forall_not_mem.mpr fun gap member => ?_
  have start : Covers (gapsIn covered wanted) gap.start :=
    ⟨gap, member, le_rfl, gap.nonempty⟩
  obtain ⟨inside, uncovered⟩ := (covers_gapsIn separated).mp start
  exact uncovered (all gap.start inside)

/-- **Coverage is exact**: what was added is kept separated and covered, the gaps of a wanted
interval are apart, in order and within it, and are what is not covered of it, and once they are
added there are none. -/
theorem coverage_exact (added : List Interval) (next wanted : Interval) :
    let covered := added.foldl addInterval []
    (Separated covered ∧ ∀ point, Covers covered point ↔ Covers added point) ∧
      (Separated (addInterval covered next) ∧ ∀ point,
        Covers (addInterval covered next) point ↔ Covers covered point ∨ point ∈ next) ∧
      (Separated (gapsIn covered wanted) ∧
        (∀ gap ∈ gapsIn covered wanted, wanted.start ≤ gap.start ∧ gap.stop ≤ wanted.stop) ∧
        ∀ point, Covers (gapsIn covered wanted) point ↔
          point ∈ wanted ∧ ¬ Covers covered point) ∧
      gapsIn ((gapsIn covered wanted).foldl addInterval covered) wanted = [] := by
  intro covered
  have separated : Separated covered := separated_foldl_addInterval .nil added
  obtain ⟨gaps, ordered⟩ := gaps_gapsFrom separated wanted wanted.start
  refine ⟨⟨separated, fun point => ?_⟩,
    ⟨Separated.addInterval separated next, fun _ => covers_addInterval⟩,
    ⟨ordered, fun gap member => ⟨(gaps gap member).starts, (gaps gap member).stops⟩,
      fun _ => covers_gapsIn separated⟩, ?_⟩
  · exact (covers_foldl_addInterval added []).trans (or_iff_right (covers_nil point))
  · refine gapsIn_eq_nil (separated_foldl_addInterval separated _) fun point inside => ?_
    rw [covers_foldl_addInterval]
    exact covers_or_gap covered inside

end FrontDashboard.Occurrence
