import Mathlib.Algebra.Ring.Int.Defs
import Mathlib.Algebra.Order.Group.Int
import Mathlib.Data.List.Sort
import Mathlib.Tactic.Tauto
import FrontDashboard.Library.HalfOpen

/-! # Interval coverage

The interval arithmetic of the occurrence store: adding an interval to a list of
covered ones, the gaps of a wanted interval, and which intervals are retained
once the covered span exceeds its cap.
-/

namespace FrontDashboard.Occurrence

/-- Milliseconds. -/
abbrev Millis := Int

abbrev Interval := HalfOpen Millis

/-- `MAX_COVERED_MS`: 366 days. -/
def maxCoveredMs : Millis := 366 * 24 * 60 * 60 * 1000

/-- One step of `addInterval`'s loop, over the intervals already set aside and the
growing one. -/
def mergeInto (state : List Interval × Interval) (interval : Interval) :
    List Interval × Interval :=
  if interval.stop < state.2.start ∨ interval.start > state.2.stop then
    (state.1 ++ [interval], state.2)
  else (state.1, state.2.hull interval)

/-- `addInterval`: intervals that overlap or abut are coalesced. -/
def addInterval (covered : List Interval) (next : Interval) : List Interval :=
  let merged := covered.foldl mergeInto ([], next)
  (merged.1 ++ [merged.2]).insertionSort fun a b => a.start ≤ b.start

/-- What is left of `wanted` from the cursor on. -/
def remainder (wanted : Interval) (cursor : Millis) : List Interval :=
  if early : cursor < wanted.stop then [⟨cursor, wanted.stop, early⟩] else []

/-- The loop of `gapsIn` from a cursor on. -/
def gapsFrom (wanted : Interval) (cursor : Millis) : List Interval → List Interval
  | [] => remainder wanted cursor
  | interval :: rest =>
      if interval.stop ≤ cursor then gapsFrom wanted cursor rest
      else if later : wanted.stop ≤ interval.start then remainder wanted cursor
      else
        (if ahead : cursor < interval.start then
            [⟨cursor, min interval.start wanted.stop, lt_min ahead (ahead.trans (not_le.mp later))⟩]
          else []) ++
        (let moved := max cursor interval.stop
          if wanted.stop ≤ moved then remainder wanted moved else gapsFrom wanted moved rest)

/-- `gapsIn`: the sub-intervals of `wanted` no covered interval accounts for. -/
def gapsIn (covered : List Interval) (wanted : Interval) : List Interval :=
  gapsFrom wanted wanted.start covered

def coveredSpan (covered : List Interval) : Millis :=
  (covered.map fun interval => interval.stop - interval.start).sum

/-- How far an interval lies from the one to keep. -/
def distance (keep interval : Interval) : Millis :=
  max 0 (max (keep.start - interval.stop) (interval.start - keep.stop))

/-- One step of `trim`'s loop, over the retained intervals and their span. -/
def retainOne (state : List Interval × Millis) (interval : Interval) : List Interval × Millis :=
  let width := interval.stop - interval.start
  if state.2 + width > maxCoveredMs ∧ state.1 ≠ [] then state
  else (state.1 ++ [interval], state.2 + width)

/-- The coverage `trim` keeps: everything within the cap, else the nearest
intervals. -/
def retain (covered : List Interval) (keep : Interval) : List Interval :=
  if coveredSpan covered ≤ maxCoveredMs then covered
  else
    (((covered.insertionSort fun a b => distance keep a ≤ distance keep b).foldl
      retainOne ([], 0)).1).insertionSort fun a b => a.start ≤ b.start

/-! ## What they cover -/

open HalfOpen

private theorem covers_mergeInto (state : List Interval × Interval) (interval : Interval)
    (point : Millis) :
    Covers (mergeInto state interval).1 point ∨ point ∈ (mergeInto state interval).2 ↔
      (Covers state.1 point ∨ point ∈ state.2) ∨ point ∈ interval := by
  unfold mergeInto
  split
  · rw [covers_append, covers_cons]
    simp only [covers_nil, or_false]
    tauto
  next touching =>
    rw [not_or, not_lt, gt_iff_lt, not_lt] at touching
    dsimp only
    rw [mem_hull_of_touching touching.1 touching.2]
    tauto

/-- Adding an interval covers what was covered and the interval. -/
theorem covers_addInterval {covered : List Interval} {next : Interval} {point : Millis} :
    Covers (addInterval covered next) point ↔ Covers covered point ∨ point ∈ next := by
  have merged : ∀ (intervals : List Interval) (state : List Interval × Interval),
      Covers (intervals.foldl mergeInto state).1 point ∨
          point ∈ (intervals.foldl mergeInto state).2 ↔
        (Covers state.1 point ∨ point ∈ state.2) ∨ Covers intervals point := by
    intro intervals
    induction intervals with
    | nil => simp
    | cons interval rest ih =>
        intro state
        rw [List.foldl_cons, ih, covers_mergeInto, covers_cons]
        tauto
  have sorted : ∀ intervals : List Interval,
      Covers (intervals.insertionSort fun a b => a.start ≤ b.start) point ↔
        Covers intervals point := by
    intro intervals
    simp [Covers, List.mem_insertionSort]
  rw [addInterval, sorted, covers_append, covers_cons]
  simp only [covers_nil, or_false]
  rw [merged]
  simp only [covers_nil, false_or]
  tauto

theorem covers_foldl_addInterval (added covered : List Interval) {point : Millis} :
    Covers (added.foldl addInterval covered) point ↔
      Covers covered point ∨ Covers added point := by
  induction added generalizing covered with
  | nil => simp
  | cons interval rest ih =>
      rw [List.foldl_cons, ih, covers_addInterval, covers_cons]
      tauto

private theorem covers_remainder {wanted : Interval} {cursor point : Millis}
    (after : cursor ≤ point) (inside : point < wanted.stop) :
    Covers (remainder wanted cursor) point := by
  have early : cursor < wanted.stop := after.trans_lt inside
  rw [remainder, dif_pos early, covers_cons]
  exact .inl ⟨after, inside⟩

private theorem covers_gapsFrom {wanted : Interval} {covered : List Interval}
    {cursor point : Millis} (after : cursor ≤ point) (inside : point < wanted.stop) :
    Covers covered point ∨ Covers (gapsFrom wanted cursor covered) point := by
  induction covered generalizing cursor with
  | nil => exact .inr (covers_remainder after inside)
  | cons interval rest ih =>
      rw [covers_cons]
      unfold gapsFrom
      split
      next => exact (ih after).imp .inr id
      next ahead =>
        split
        next => exact .inr (covers_remainder after inside)
        next begins =>
          rw [covers_append]
          by_cases before : point < interval.start
          · have open_ : cursor < interval.start := after.trans_lt before
            refine .inr (.inl ?_)
            rw [dif_pos open_, covers_cons]
            exact .inl ⟨after, lt_min before inside⟩
          · by_cases within : point < interval.stop
            · exact .inl (.inl ⟨not_lt.mp before, within⟩)
            · have moved : max cursor interval.stop ≤ point := max_le after (not_lt.mp within)
              by_cases reached : wanted.stop ≤ max cursor interval.stop
              · refine .inr (.inr ?_)
                rw [if_pos reached]
                exact covers_remainder moved inside
              · rw [if_neg reached]
                exact (ih moved).imp .inr .inr

/-- **No part of a wanted interval is missed**: each of its points is covered or in
a gap. -/
theorem covers_or_gap (covered : List Interval) {wanted : Interval} {point : Millis}
    (member : point ∈ wanted) :
    Covers covered point ∨ Covers (gapsIn covered wanted) point :=
  covers_gapsFrom member.1 member.2

theorem covers_of_no_gap {covered : List Interval} {wanted : Interval}
    (none : gapsIn covered wanted = []) {point : Millis} (member : point ∈ wanted) :
    Covers covered point := by
  have found := covers_or_gap covered member
  rw [none] at found
  exact found.resolve_right (covers_nil point)

/-- What is retained was covered. -/
theorem mem_of_mem_retain {covered : List Interval} {keep interval : Interval}
    (member : interval ∈ retain covered keep) : interval ∈ covered := by
  have kept : ∀ (intervals : List Interval) (state : List Interval × Millis),
      interval ∈ (intervals.foldl retainOne state).1 →
        interval ∈ state.1 ∨ interval ∈ intervals := by
    intro intervals
    induction intervals with
    | nil => exact fun _ => .inl
    | cons next rest ih =>
        intro state present
        rcases ih _ present with before | later
        · unfold retainOne at before
          dsimp only at before
          split at before
          · exact .inl before
          · rcases List.mem_append.mp before with earlier | same
            · exact .inl earlier
            · exact .inr (List.mem_cons.mpr (.inl (List.mem_singleton.mp same)))
        · exact .inr (List.mem_cons_of_mem _ later)
  unfold retain at member
  split at member
  · exact member
  · rw [List.mem_insertionSort] at member
    have found := (kept _ _ member).resolve_left List.not_mem_nil
    rwa [List.mem_insertionSort] at found

end FrontDashboard.Occurrence
