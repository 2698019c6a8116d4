import Mathlib.Data.List.Sort
import Mathlib.Order.Lattice
import Mathlib.Order.MinMax

/-! # Non-empty half-open intervals

Half-open intervals over a linear order that contain at least their start, with
the points they share and the hull of two that touch. Lists of intervals of which each stops
before the next one starts, and what becomes of them when one is merged with those it touches.
-/

/-- The points from `start` up to, but not including, `stop`. -/
structure HalfOpen (α : Type*) [LT α] where
  start : α
  stop : α
  nonempty : start < stop
  deriving DecidableEq

namespace HalfOpen

variable {α : Type*} [LinearOrder α]

instance : Membership α (HalfOpen α) where
  mem interval point := interval.start ≤ point ∧ point < interval.stop

/-- Two intervals overlap when each starts before the other stops. -/
def Overlaps (first second : HalfOpen α) : Prop :=
  first.start < second.stop ∧ second.start < first.stop

instance (first second : HalfOpen α) : Decidable (first.Overlaps second) :=
  inferInstanceAs (Decidable (_ ∧ _))

/-- **Overlapping is sharing a point.** -/
theorem overlaps_iff_exists_mem {first second : HalfOpen α} :
    first.Overlaps second ↔ ∃ point, point ∈ first ∧ point ∈ second := by
  constructor
  · rintro ⟨before, after⟩
    refine ⟨max first.start second.start, ⟨le_max_left _ _, ?_⟩, le_max_right _ _, ?_⟩
    · exact max_lt first.nonempty after
    · exact max_lt before second.nonempty
  · rintro ⟨point, ⟨first₁, first₂⟩, second₁, second₂⟩
    exact ⟨first₁.trans_lt second₂, second₁.trans_lt first₂⟩

/-- Intervals with a point in common overlap. -/
theorem overlaps_of_mem {first second : HalfOpen α} {point : α} (inFirst : point ∈ first)
    (inSecond : point ∈ second) : first.Overlaps second :=
  overlaps_iff_exists_mem.mpr ⟨point, inFirst, inSecond⟩

/-- The least interval that contains both. -/
def hull (first second : HalfOpen α) : HalfOpen α where
  start := min first.start second.start
  stop := max first.stop second.stop
  nonempty := (min_le_left _ _).trans_lt (first.nonempty.trans_le (le_max_left _ _))

/-- The hull holds what the first interval does. -/
theorem mem_hull_left {first : HalfOpen α} (second : HalfOpen α) {point : α}
    (member : point ∈ first) : point ∈ first.hull second :=
  ⟨(min_le_left _ _).trans member.1, member.2.trans_le (le_max_left _ _)⟩

/-- The hull holds what the second interval does. -/
theorem mem_hull_right (first : HalfOpen α) {second : HalfOpen α} {point : α}
    (member : point ∈ second) : point ∈ first.hull second :=
  ⟨(min_le_right _ _).trans member.1, member.2.trans_le (le_max_right _ _)⟩

/-- The hull of intervals that touch has no points but theirs. -/
theorem mem_hull_of_touching {first second : HalfOpen α} (before : first.start ≤ second.stop)
    (after : second.start ≤ first.stop) {point : α} :
    point ∈ first.hull second ↔ point ∈ first ∨ point ∈ second := by
  refine ⟨?_, fun member => member.elim (mem_hull_left _) (mem_hull_right _)⟩
  rintro ⟨starts, stops⟩
  rcases lt_or_ge point first.stop with early | late
  · by_cases reached : first.start ≤ point
    · exact .inl ⟨reached, early⟩
    · have notFirst : point < first.start := not_le.mp reached
      refine .inr ⟨?_, notFirst.trans_le before⟩
      exact (min_le_iff.mp starts).resolve_left (not_le.mpr notFirst)
  · exact .inr ⟨after.trans late, (lt_max_iff.mp stops).resolve_left (not_lt.mpr late)⟩

/-- The points of a list of intervals. -/
def Covers (intervals : List (HalfOpen α)) (point : α) : Prop :=
  ∃ interval ∈ intervals, point ∈ interval

/-- No interval covers nothing. -/
@[simp] theorem covers_nil (point : α) : ¬ Covers ([] : List (HalfOpen α)) point := by
  rintro ⟨interval, member, -⟩
  cases member

/-- One more interval covers its own points besides. -/
theorem covers_cons {interval : HalfOpen α} {rest : List (HalfOpen α)} {point : α} :
    Covers (interval :: rest) point ↔ point ∈ interval ∨ Covers rest point := by
  simp [Covers]

/-- Two lists cover what either does. -/
theorem covers_append {first second : List (HalfOpen α)} {point : α} :
    Covers (first ++ second) point ↔ Covers first point ∨ Covers second point := by
  simp [Covers, or_and_right, exists_or]

/-- More intervals cover more. -/
theorem Covers.mono {first second : List (HalfOpen α)} (subset : ∀ i ∈ first, i ∈ second)
    {point : α} (covered : Covers first point) : Covers second point := by
  obtain ⟨interval, member, inside⟩ := covered
  exact ⟨interval, subset interval member, inside⟩

/-! ## Separated intervals -/

variable {intervals rest : List (HalfOpen α)} {interval next first second : HalfOpen α} {point : α}

/-- Each interval stops before the later ones start. -/
def Separated (intervals : List (HalfOpen α)) : Prop :=
  intervals.Pairwise fun first second => first.stop < second.start

/-- Two intervals share a point or abut. -/
def Touches (first second : HalfOpen α) : Prop :=
  first.start ≤ second.stop ∧ second.start ≤ first.stop

instance (first second : HalfOpen α) : Decidable (first.Touches second) :=
  inferInstanceAs (Decidable (_ ∧ _))

/-- Fewer intervals are still apart. -/
theorem Separated.filter (separated : Separated intervals) (keeps : HalfOpen α → Bool) :
    Separated (intervals.filter keeps) :=
  List.Pairwise.filter keeps separated

theorem Separated.tail (separated : Separated (interval :: rest)) : Separated rest :=
  (List.pairwise_cons.mp separated).2

/-- The first interval stops before the others start. -/
theorem Separated.head_stop_lt (separated : Separated (interval :: rest)) (member : next ∈ rest) :
    interval.stop < next.start :=
  (List.pairwise_cons.mp separated).1 next member

/-- Intervals that are apart in whatever order are separated once they are sorted. -/
theorem separated_insertionSort
    (apart : intervals.Pairwise fun first second =>
      first.stop < second.start ∨ second.stop < first.start) :
    Separated (intervals.insertionSort fun first second => first.start ≤ second.start) := by
  have ordered := List.pairwise_insertionSort
    (fun first second : HalfOpen α => first.start ≤ second.start) intervals
  have apart' : (intervals.insertionSort fun first second => first.start ≤ second.start).Pairwise
      fun first second => first.stop < second.start ∨ second.stop < first.start :=
    (List.perm_insertionSort _ intervals).symm.pairwise apart Or.symm
  refine (ordered.and apart').imp fun {first second} both => ?_
  exact both.2.resolve_right fun after =>
    not_lt.mpr both.1 (second.nonempty.trans after)

/-! ## Adding an interval -/

/-- The interval with those of the list that it touches. -/
def merged (intervals : List (HalfOpen α)) (next : HalfOpen α) : HalfOpen α :=
  (intervals.filter fun interval => next.Touches interval).foldl hull next

/-- A hull reaches at least as far as the interval it starts from. -/
theorem foldl_hull_start_le (intervals : List (HalfOpen α)) (next : HalfOpen α) :
    (intervals.foldl hull next).start ≤ next.start ∧
      next.stop ≤ (intervals.foldl hull next).stop := by
  induction intervals generalizing next with
  | nil => exact ⟨le_rfl, le_rfl⟩
  | cons interval rest ih =>
      obtain ⟨starts, stops⟩ := ih (next.hull interval)
      exact ⟨starts.trans (min_le_left _ _), (le_max_left _ _).trans stops⟩

/-- Merging loses no point of the new interval. -/
theorem mem_merged_of_mem (member : point ∈ next) : point ∈ merged intervals next :=
  ⟨(foldl_hull_start_le _ next).1.trans member.1, member.2.trans_le (foldl_hull_start_le _ next).2⟩

/-- What has stopped before an interval and touches another does not change whether the two
touch. -/
theorem touches_hull (touches : next.Touches first) (before : first.stop < second.start) :
    (next.hull first).Touches second ↔ next.Touches second := by
  have late : first.start < second.stop :=
    first.nonempty.trans (before.trans second.nonempty)
  have early : next.start ≤ second.stop :=
    touches.1.trans (before.trans second.nonempty).le
  constructor
  · rintro ⟨-, reaches⟩
    exact ⟨early, (le_max_iff.mp reaches).resolve_right (not_le.mpr before)⟩
  · rintro ⟨-, reaches⟩
    exact ⟨(min_le_left _ _).trans early, reaches.trans (le_max_left _ _)⟩

/-- An interval that touches is taken into the hull. -/
theorem merged_cons_of_touches (separated : Separated (interval :: rest))
    (touches : next.Touches interval) :
    merged (interval :: rest) next = merged rest (next.hull interval) := by
  have same : rest.filter (fun other => decide ((next.hull interval).Touches other)) =
      rest.filter fun other => decide (next.Touches other) := by
    apply List.filter_congr
    intro other member
    exact decide_eq_decide.mpr (touches_hull touches (separated.head_stop_lt member))
  rw [merged, merged, List.filter_cons_of_pos (by simpa using touches), List.foldl_cons, same]

/-- An interval that does not touch is passed by. -/
theorem merged_cons_of_not (apart : ¬ next.Touches interval) :
    merged (interval :: rest) next = merged rest next := by
  rw [merged, merged, List.filter_cons_of_neg (by simpa using apart)]

/-- A point before all the intervals is before their hull. -/
theorem lt_foldl_hull_start (early : point < next.start)
    (earlier : ∀ interval ∈ intervals, point < interval.start) :
    point < (intervals.foldl hull next).start := by
  induction intervals generalizing next with
  | nil => exact early
  | cons interval rest ih =>
      refine ih (lt_min early (earlier interval List.mem_cons_self)) fun other member => ?_
      exact earlier other (List.mem_cons_of_mem interval member)

/-- **What an interval does not touch** its merge with the others does not touch. -/
theorem Separated.touches_of_merged (separated : Separated intervals)
    (member : interval ∈ intervals) (touches : (merged intervals next).Touches interval) :
    next.Touches interval := by
  induction intervals generalizing next with
  | nil => cases member
  | cons head rest ih =>
      by_cases here : next.Touches head
      · rcases List.mem_cons.mp member with rfl | later
        · exact here
        · rw [merged_cons_of_touches separated here] at touches
          exact (touches_hull here (separated.head_stop_lt later)).mp
            (ih separated.tail later touches)
      · rw [merged_cons_of_not here] at touches
        rcases List.mem_cons.mp member with rfl | later
        · by_cases after : next.stop < interval.start
          · have untouched : (rest.filter fun other => decide (next.Touches other)) = [] := by
              rw [List.filter_eq_nil_iff]
              intro other present
              have late : next.stop < other.start :=
                after.trans (interval.nonempty.trans (separated.head_stop_lt present))
              simpa using fun reaches : next.Touches other => not_lt.mpr reaches.2 late
            rwa [merged, untouched] at touches
          · have before : interval.stop < next.start := by
              by_contra reaches
              exact here ⟨not_lt.mp reaches, not_lt.mp after⟩
            have start : interval.stop < (merged rest next).start :=
              lt_foldl_hull_start before fun other present =>
                separated.head_stop_lt (List.mem_of_mem_filter present)
            exact absurd touches.1 (not_le.mpr start)
        · exact ih separated.tail later touches

/-- **The intervals that are not touched, with the merge,** are apart. -/
theorem Separated.apart_merged (separated : Separated intervals) (next : HalfOpen α) :
    ((intervals.filter fun interval => !decide (next.Touches interval)) ++
        [merged intervals next]).Pairwise
      fun first second => first.stop < second.start ∨ second.stop < first.start := by
  rw [List.pairwise_append]
  refine ⟨(separated.filter _).imp .inl, List.pairwise_singleton _ _, ?_⟩
  intro interval kept whole member
  cases List.mem_singleton.mp member
  have untouched : ¬ next.Touches interval := by
    simpa using (List.mem_filter.mp kept).2
  have apart : ¬ (merged intervals next).Touches interval := fun touches =>
    untouched (separated.touches_of_merged (List.mem_of_mem_filter kept) touches)
  by_contra close
  rw [not_or, not_lt, not_lt] at close
  exact apart ⟨close.1, close.2⟩

end HalfOpen
