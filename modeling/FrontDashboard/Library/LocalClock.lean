import Mathlib.Data.List.MinMax
import Mathlib.Order.Basic

/-! # The clock of a timezone

Instants count milliseconds from an epoch, and a timezone is an offset and the changes of it.
The clock shows an instant with the offset that holds then. A time is read as the first instant
that shows it; one that the clock skips is read with the offset before the change.
-/

namespace LocalClock

def msPerDay : Int := 86400000

/-- An offset that holds from a moment on. -/
structure Change where
  moment : Int
  offset : Int
  deriving DecidableEq

/-- The offset at an instant, of the changes that remain. -/
def offsetFrom (offset : Int) : List Change → Int → Int
  | [], _ => offset
  | change :: rest, instant =>
      if instant < change.moment then offset else offsetFrom change.offset rest instant

/-- A change comes after the one before it, and after the time that one skips. -/
def Spaced (offset : Int) : List Change → Prop
  | [] => True
  | change :: rest =>
      (∀ next ∈ rest.head?, change.moment < next.moment ∧
        change.moment + (change.offset - offset) ≤ next.moment) ∧ Spaced change.offset rest

/-- A timezone: offsets are less than a day. -/
structure Zone where
  initial : Int
  changes : List Change
  spaced : Spaced initial changes
  bounded : ∀ offset ∈ initial :: changes.map Change.offset, -msPerDay < offset ∧ offset < msPerDay

namespace Zone

variable (zone : Zone)

def offsets : List Int := zone.initial :: zone.changes.map Change.offset

def offsetAt (instant : Int) : Int := offsetFrom zone.initial zone.changes instant

/-- What the clock shows. -/
def localTime (instant : Int) : Int := instant + zone.offsetAt instant

/-- The instants at which the clock shows a time. -/
def showing (wall : Int) : List Int :=
  (zone.offsets.map fun offset => wall - offset).filter fun instant =>
    decide (zone.localTime instant = wall)

end Zone

/-- A time that the first change to do so skips, read with the offset before. -/
def throughGap (offset : Int) : List Change → Int → Int
  | [], wall => wall - offset
  | change :: rest, wall =>
      if change.moment + offset ≤ wall ∧ wall < change.moment + change.offset then wall - offset
      else throughGap change.offset rest wall

namespace Zone

variable (zone : Zone)

/-- The instant that a time is read as. -/
def utc (wall : Int) : Int :=
  (zone.showing wall).min?.getD (throughGap zone.initial zone.changes wall)

/-- The number of the local day. -/
def dayOf (instant : Int) : Int := zone.localTime instant / msPerDay

/-- The instant that the midnight a day begins with is read as. -/
def midnight (day : Int) : Int := zone.utc (day * msPerDay)

end Zone

/-! ## Reading a time -/

theorem offsetFrom_mem (offset : Int) (changes : List Change) (instant : Int) :
    offsetFrom offset changes instant ∈ offset :: changes.map Change.offset := by
  induction changes generalizing offset with
  | nil => exact List.mem_cons_self
  | cons change rest ih =>
      unfold offsetFrom
      split
      · exact List.mem_cons_self
      · exact List.mem_cons_of_mem _ (ih change.offset)

variable {zone : Zone} {instant wall day other : Int}

theorem mem_showing : instant ∈ zone.showing wall ↔ zone.localTime instant = wall := by
  unfold Zone.showing
  rw [List.mem_filter, decide_eq_true_iff, and_iff_right_iff_imp]
  intro shows
  refine List.mem_map.mpr ⟨zone.offsetAt instant, offsetFrom_mem _ _ _, ?_⟩
  rw [← shows, Zone.localTime, Int.add_sub_cancel]

/-- **A time that is shown** is read as the first instant that shows it. -/
theorem utc_of_shows (shows : zone.localTime instant = wall) :
    zone.localTime (zone.utc wall) = wall ∧ zone.utc wall ≤ instant := by
  have listed := mem_showing.mpr shows
  cases first : (zone.showing wall).min? with
  | none =>
      rw [List.min?_eq_none_iff.mp first] at listed
      cases listed
  | some earliest =>
      obtain ⟨member, least⟩ := List.min?_eq_some_iff.mp first
      rw [Zone.utc, first]
      exact ⟨mem_showing.mp member, least instant listed⟩

/-- A time that no instant shows lies in a gap, which its reading passes. -/
theorem throughGap_forward {offset since : Int} {changes : List Change}
    (spaced : Spaced offset changes) (first : ∀ change ∈ changes.head?, since ≤ change.moment)
    (reached : since + offset ≤ wall)
    (skipped : ∀ instant, since ≤ instant → instant + offsetFrom offset changes instant ≠ wall) :
    since ≤ throughGap offset changes wall ∧
      wall < throughGap offset changes wall +
        offsetFrom offset changes (throughGap offset changes wall) := by
  induction changes generalizing offset since with
  | nil => exact absurd (Int.sub_add_cancel wall offset) (skipped _ (by omega))
  | cons change rest ih =>
      have passed : change.moment ≤ wall - offset := by
        by_contra before
        apply skipped (wall - offset) (by omega)
        rw [offsetFrom, if_pos (by omega), Int.sub_add_cancel]
      have later : ∀ instant, change.moment ≤ instant →
          offsetFrom offset (change :: rest) instant = offsetFrom change.offset rest instant := by
        intro instant after
        rw [offsetFrom, if_neg (by omega)]
      rw [throughGap]
      split
      next inside =>
        have holds : offsetFrom change.offset rest (wall - offset) = change.offset := by
          cases rest with
          | nil => rfl
          | cons next rest =>
              have room := (spaced.1 next rfl).2
              rw [offsetFrom, if_pos (by omega)]
        rw [later _ passed, holds]
        omega
      next outside =>
        have since_le := first change rfl
        have further := @ih change.offset change.moment spaced.2
          (fun next head => (spaced.1 next head).1.le) (by omega) (by
            intro instant after
            rw [← later instant after]
            exact skipped instant (by omega))
        rw [later _ further.1]
        exact ⟨by omega, further.2⟩

/-- **Reading a time** never goes back. -/
theorem le_localTime_utc (zone : Zone) (wall : Int) : wall ≤ zone.localTime (zone.utc wall) := by
  by_cases shown : ∃ instant, zone.localTime instant = wall
  · obtain ⟨instant, shows⟩ := shown
    exact (utc_of_shows shows).1.ge
  · have none_ : zone.showing wall = [] := by
      rw [List.eq_nil_iff_forall_not_mem]
      exact fun instant member => shown ⟨instant, mem_showing.mp member⟩
    rw [Zone.utc, none_]
    obtain ⟨since, reached, first⟩ : ∃ since, since ≤ wall - zone.initial ∧
        ∀ change ∈ zone.changes.head?, since ≤ change.moment := by
      cases zone.changes with
      | nil => exact ⟨wall - zone.initial, le_rfl, nofun⟩
      | cons change rest =>
          refine ⟨min (wall - zone.initial) change.moment, min_le_left _ _, ?_⟩
          intro head same
          cases same
          exact min_le_right _ _
    have passes := throughGap_forward zone.spaced first (by omega)
      fun instant _ shows => shown ⟨instant, shows⟩
    exact passes.2.le

/-! ## Local days -/

theorem le_dayOf_iff : day ≤ zone.dayOf instant ↔ day * msPerDay ≤ zone.localTime instant :=
  Int.le_ediv_iff_mul_le (by decide)

theorem dayOf_eq_of_midnight (shows : zone.localTime instant = day * msPerDay) :
    zone.dayOf instant = day := by
  rw [Zone.dayOf, shows, Int.mul_ediv_cancel _ (by decide)]

theorem le_dayOf_midnight (zone : Zone) (day : Int) : day ≤ zone.dayOf (zone.midnight day) :=
  le_dayOf_iff.mpr (le_localTime_utc zone _)

theorem localTime_bounds (zone : Zone) (instant : Int) :
    instant - msPerDay < zone.localTime instant ∧ zone.localTime instant < instant + msPerDay := by
  have bound := zone.bounded (zone.offsetAt instant) (offsetFrom_mem _ _ _)
  unfold Zone.localTime
  omega

/-- Every day is reached, at an instant as late as one likes. -/
theorem exists_later (zone : Zone) (day bound : Int) :
    ∃ instant, bound ≤ instant ∧ day ≤ zone.dayOf instant := by
  refine ⟨max bound (day * msPerDay + msPerDay), le_max_left _ _, le_dayOf_iff.mpr ?_⟩
  have shown := (localTime_bounds zone (max bound (day * msPerDay + msPerDay))).1
  have late := le_max_right bound (day * msPerDay + msPerDay)
  omega

/-- Every day is still to come, at an instant as early as one likes. -/
theorem exists_earlier (zone : Zone) (day bound : Int) :
    ∃ instant, instant ≤ bound ∧ zone.dayOf instant < day := by
  refine ⟨min bound (day * msPerDay - msPerDay), min_le_left _ _, ?_⟩
  rw [← Int.not_le, le_dayOf_iff]
  have shown := (localTime_bounds zone (min bound (day * msPerDay - msPerDay))).2
  have early := min_le_right bound (day * msPerDay - msPerDay)
  omega

/-- From an instant on it is the day or later, and before it earlier. -/
def Begins (zone : Zone) (day instant : Int) : Prop :=
  ∀ other, instant ≤ other ↔ day ≤ zone.dayOf other

theorem Begins.unique (first : Begins zone day instant) (second : Begins zone day other) :
    instant = other :=
  le_antisymm ((first other).mpr ((second other).mp le_rfl))
    ((second instant).mpr ((first instant).mp le_rfl))

/-- The day begins at its midnight. -/
def IsMidnight (zone : Zone) (day : Int) : Prop :=
  ∃ instant, zone.localTime instant = day * msPerDay ∧ Begins zone day instant

/-- **A midnight that begins its day** is what the midnight is read as. -/
theorem IsMidnight.read (begins : IsMidnight zone day) :
    zone.localTime (zone.midnight day) = day * msPerDay ∧ Begins zone day (zone.midnight day) := by
  obtain ⟨instant, shows, first⟩ := begins
  obtain ⟨same, early⟩ := utc_of_shows shows
  have late : instant ≤ zone.midnight day := (first _).mpr (le_dayOf_midnight zone day)
  refine ⟨same, ?_⟩
  rw [Zone.midnight, le_antisymm early late]
  exact first

end LocalClock
