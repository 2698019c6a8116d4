import FrontDashboard.Library.Followers
import FrontDashboard.Overview.Tab
import Mathlib.Data.Multiset.MapFold

/-! # Summaries as a set and in their order

What a frame makes of the summaries does not depend on their order, and a frame that comes twice
changes nothing more, also with another between. The page sorts what it holds as the server lists
it, wherever the texts of the times sort as the times do.
-/

namespace FrontDashboard.Overview

open Resync

variable {frame : Frame}

/-! ## Summaries as a set -/

/-- What a frame that is applied makes of the summaries, in whatever order. -/
def followed (frame : Frame) (summaries : Multiset Tables.DashboardSummary) :
    Multiset Tables.DashboardSummary :=
  if shouldApplyLocalDashboardSummaryTouch frame then summaries.map (stamped frame) else summaries

/-- A second stamp by one frame tells the same as the first, also with another between. -/
theorem stamped_stamped (frame other : Frame) (dashboard : Tables.DashboardSummary) :
    stamped frame (stamped other (stamped frame dashboard)) =
      stamped frame (stamped other dashboard) := by
  by_cases here : dashboard.id = frame.dashboardId
  · by_cases there : dashboard.id = other.dashboardId
    · simp [stamped, stamp, ← here, ← there, max_left_comm]
    · simp [stamped, stamp, here, here ▸ there]
  · have same : stamped frame dashboard = dashboard := if_neg here
    rw [same]

/-- A second stamp at once tells the same as the first. -/
theorem stamped_self (frame : Frame) (dashboard : Tables.DashboardSummary) :
    stamped frame (stamped frame dashboard) = stamped frame dashboard := by
  by_cases here : dashboard.id = frame.dashboardId
  · simp [stamped, stamp, here]
  · simp [stamped, here]

/-- A frame that says nothing of a summary leaves it. -/
theorem stamped_of_not_says {dashboard : Tables.DashboardSummary}
    (silent : ¬ Says frame dashboard) : stamped frame dashboard = dashboard := by
  rw [stamped]
  split_ifs with here
  · obtain ⟨version, updated⟩ := not_not.mp (not_and.mp silent here)
    rw [stamp, ← version, ← updated]
  · rfl

/-- The summaries that a page holds, in whatever order and with their times written somehow. -/
def held (summaries : List Summary) : Multiset Tables.DashboardSummary :=
  summaries.map Summary.dashboard

/-- What is answered is held as it is. -/
theorem held_answered (dashboards : List Tables.DashboardSummary) :
    held (dashboards.map .answered) = dashboards := by
  rw [held, List.map_map]
  exact congrArg _ (List.map_id dashboards)

/-- A frame changes what is held as it changes the summaries. -/
theorem held_applyLocalDashboardSummaryUpdate (summaries : List Summary) (frame : Frame) :
    held (applyLocalDashboardSummaryUpdate summaries frame) = followed frame (held summaries) := by
  rw [held, Multiset.coe_eq_coe.mpr (applyLocalDashboardSummaryUpdate_perm summaries frame),
    followed]
  split_ifs <;> rfl

/-- What a message makes of the summaries that it is applied to. -/
def Message.apply :
    Message → Multiset Tables.DashboardSummary → Multiset Tables.DashboardSummary
  | .dashboard _ frame => followed frame
  | _ => fun summaries => summaries

/-- A frame that comes twice changes nothing more. -/
theorem followed_self (frame : Frame) (summaries : Multiset Tables.DashboardSummary) :
    followed frame (followed frame summaries) = followed frame summaries := by
  rw [followed]
  split_ifs with touches
  · rw [followed, if_pos touches, Multiset.map_map]
    exact Multiset.map_congr rfl fun dashboard _ => stamped_self frame dashboard
  · rfl

/-- A frame that comes twice, with another between, changes nothing more. -/
theorem followed_between (frame other : Frame) (summaries : Multiset Tables.DashboardSummary) :
    followed frame (followed other (followed frame summaries)) =
      followed frame (followed other summaries) := by
  have untouched : ∀ {sent : Frame}, ¬ shouldApplyLocalDashboardSummaryTouch sent = true →
      ∀ summaries, followed sent summaries = summaries := fun untouched _ => if_neg untouched
  by_cases touches : shouldApplyLocalDashboardSummaryTouch frame = true
  · by_cases touches' : shouldApplyLocalDashboardSummaryTouch other = true
    · simp only [followed, touches, touches', if_true, Multiset.map_map]
      exact Multiset.map_congr rfl fun dashboard _ => stamped_stamped frame other dashboard
    · rw [untouched touches', untouched touches', followed_self]
  · rw [untouched touches, untouched touches, untouched touches]

/-- **How the summaries follow the stream.** -/
def following : Following Message (Multiset Tables.DashboardSummary) where
  apply := Message.apply
  reloads := Message.reloads
  apply_self news summaries := by
    cases news with
    | dashboard _ frame => exact followed_self frame summaries
    | content | connected | resync => rfl
  apply_between news other summaries := by
    cases news with
    | dashboard _ frame =>
        cases other with
        | dashboard _ other => exact followed_between frame other summaries
        | content | connected | resync => exact followed_self frame summaries
    | content | connected | resync => rfl

/-- What does not bear on the summaries changes nothing. -/
theorem idle_of_not_bears {message : Message} (beside : message.bears = false) :
    following.Idle message := by
  obtain ⟨quiet, untouched⟩ := Bool.or_eq_false_iff.mp beside
  refine ⟨quiet, fun summaries => ?_⟩
  cases message with
  | dashboard _ frame => exact if_neg (by simp [show _ = false from untouched])
  | content | connected | resync => rfl

/-- A load in flight, and the answer to it. -/
def fetchOf (flying : Bool) (answer : Option Answer) :
    Option (Fetch (Multiset Tables.DashboardSummary)) :=
  if flying then
    some (answer.elim .asked fun answer => .answered answer.dashboards answer.known)
  else none

/-- A fetch that was told of something is told of it wherever its answer is. -/
theorem fetchOf_heard (flying : Bool) (answer : Option Answer) :
    fetchOf flying (answer.map .heard) = (fetchOf flying answer).map .heard := by
  cases flying <;> cases answer <;> rfl

/-- A fetch that has lost something has lost it wherever its answer is. -/
theorem fetchOf_adrift (flying : Bool) (answer : Option Answer) :
    fetchOf flying (answer.map .adrift) = (fetchOf flying answer).map .adrift := by
  cases flying <;> cases answer <;> rfl

/-- A fetch that is answered has its answer drawn. -/
theorem fetchOf_eq_answered {flying : Bool} {answer : Option Answer}
    {summaries : Multiset Tables.DashboardSummary} {known : Nat}
    (answered : fetchOf flying answer = some (.answered summaries known)) :
    ∃ drawn, answer = some drawn ∧
      (drawn.dashboards : Multiset Tables.DashboardSummary) = summaries ∧ drawn.known = known := by
  cases flying with
  | false => cases answered
  | true =>
      cases answer with
      | none => cases answered
      | some drawn =>
          cases answered
          exact ⟨drawn, rfl, rfl, rfl⟩

/-- The tab as a follower of the server. -/
def World.follower (user : UserId) (world : World) :
    Follower Message (Multiset Tables.DashboardSummary) where
  server := world.tables.listDashboards user
  queue := world.queue
  view := if world.page.summariesLoaded then some (held world.page.summaries) else none
  due := world.due
  fetch := fetchOf world.page.flight.awaiting.isSome world.answer
  again := world.page.flight.queued

/-! ## Their order -/

/-- The server lists favorites first, then what was updated last. -/
def ListedFirst (dashboard other : Tables.DashboardSummary) : Prop :=
  if dashboard.isFavorite ≠ other.isFavorite then dashboard.isFavorite = true
  else other.updatedAt < dashboard.updatedAt

/-- Of two summaries one comes first at most. -/
theorem Summary.Before.asymm (summary other : Summary) (before : Summary.Before summary other) :
    ¬ Summary.Before other summary := by
  unfold Summary.Before at *
  grind

/-- A third summary comes after the first or before the other. -/
theorem Summary.Before.between (summary middle other : Summary)
    (before : Summary.Before summary other) :
    Summary.Before summary middle ∨ Summary.Before middle other := by
  unfold Summary.Before at *
  grind

/-- Of two dashboards one is listed first at most. -/
theorem ListedFirst.asymm (dashboard other : Tables.DashboardSummary)
    (first : ListedFirst dashboard other) : ¬ ListedFirst other dashboard := by
  unfold ListedFirst at *
  grind

/-- A third dashboard comes after the first or before the other. -/
theorem ListedFirst.between (dashboard middle other : Tables.DashboardSummary)
    (first : ListedFirst dashboard other) :
    ListedFirst dashboard middle ∨ ListedFirst middle other := by
  unfold ListedFirst at *
  grind

/-- Rows are arranged so that none follows one that comes after it. -/
theorem pairwise_arranged {α : Type} {before : α → α → Prop} [DecidableRel before]
    (asymm : ∀ row other, before row other → ¬ before other row)
    (between : ∀ row middle other, before row other → before row middle ∨ before middle other)
    (rows : List α) : (arranged before rows).Pairwise fun row later => ¬ before later row := by
  have total : Std.Total fun row other => ¬ before other row :=
    ⟨fun row other => or_iff_not_imp_left.mpr fun first => asymm _ _ (not_not.mp first)⟩
  have trans : IsTrans α fun row other => ¬ before other row :=
    ⟨fun row middle other first second both => (between _ middle _ both).elim second first⟩
  exact List.pairwise_insertionSort _ rows

/-- Answers in the order of the server. -/
def Listed (dashboards : List Tables.DashboardSummary) : Prop :=
  dashboards.Pairwise fun dashboard later => ¬ ListedFirst later dashboard

/-- Summaries in the order of the server, or in that of the page. -/
def Arranged (summaries : List Summary) : Prop :=
  Listed (summaries.map Summary.dashboard) ∨
    summaries.Pairwise fun summary later => ¬ Summary.Before later summary

/-- Summaries that are sorted are in order. -/
theorem arranged_sortDashboardSummaries (summaries : List Summary) :
    Arranged (sortDashboardSummaries summaries) :=
  .inr (pairwise_arranged Summary.Before.asymm Summary.Before.between summaries)

/-- The page is in order after a frame. -/
theorem arranged_applyLocalDashboardSummaryUpdate {summaries : List Summary}
    (arranged : Arranged summaries) (frame : Frame) :
    Arranged (applyLocalDashboardSummaryUpdate summaries frame) := by
  rw [applyLocalDashboardSummaryUpdate]
  split_ifs
  · exact arranged
  · exact arranged_sortDashboardSummaries _
  · exact arranged

/-- An answer is in order on the page. -/
theorem arranged_answered {dashboards : List Tables.DashboardSummary}
    (listed : Listed dashboards) : Arranged (dashboards.map .answered) := by
  refine .inl ?_
  rw [List.map_map]
  exact (List.map_id dashboards).symm ▸ listed

/-- The server lists in the order of the page. -/
theorem listedFirst_summary_iff {tables : Tables} {row other : Dashboard} :
    ListedFirst (tables.summary user row) (tables.summary user other) ↔
      tables.ListedBefore user row other := by
  simp only [ListedFirst, Tables.summary, Tables.ListedBefore]
  grind

theorem listed_listDashboards (user : UserId) (tables : Tables) :
    Listed (tables.listDashboards user) := by
  refine List.pairwise_map.mpr ((pairwise_arranged (fun row other => ?_)
    (fun row middle other => ?_) _).imp fun beside first =>
      beside (listedFirst_summary_iff.mp first))
  · rw [← listedFirst_summary_iff, ← listedFirst_summary_iff]
    exact ListedFirst.asymm _ _
  · rw [← listedFirst_summary_iff, ← listedFirst_summary_iff, ← listedFirst_summary_iff]
    exact ListedFirst.between _ _ _

/-- Of no two summaries that were updated in one second, and are favorites or not alike, was just
one updated at its very start: only such times sort otherwise by their texts. -/
def TextsTell (dashboards : List Tables.DashboardSummary) : Prop :=
  ∀ dashboard ∈ dashboards, ∀ other ∈ dashboards, dashboard.isFavorite = other.isFavorite →
    dashboard.updatedAt / 1000000 = other.updatedAt / 1000000 →
      dashboard.updatedAt % 1000000 = 0 → other.updatedAt % 1000000 = 0

/-- A later time has the greater text, unless only the earlier one of its second is whole. -/
theorem collation_lt {time later : Nat} (after : time < later)
    (tells : time / 1000000 = later / 1000000 → time % 1000000 = 0 → later % 1000000 = 0)
    (zulu zulu' : Bool) : collation time zulu < collation later zulu' := by
  have short := Bool.toNat_le zulu
  simp only [collation]
  obtain second | sooner := (Nat.div_le_div_right after.le : time / 1000000 ≤ _).eq_or_lt
  · have whole := tells second
    split_ifs <;> omega
  · split_ifs <;> omega

instance (dashboards : List Tables.DashboardSummary) : Decidable (TextsTell dashboards) :=
  inferInstanceAs (Decidable (∀ dashboard ∈ dashboards, ∀ other ∈ dashboards, _ → _ → _ → _))

/-- What the server lists first comes first on the page, if the texts of the times tell. -/
theorem before_of_listedFirst {summary other : Summary}
    (tells : other.dashboard.isFavorite = summary.dashboard.isFavorite →
      other.dashboard.updatedAt / 1000000 = summary.dashboard.updatedAt / 1000000 →
        other.dashboard.updatedAt % 1000000 = 0 → summary.dashboard.updatedAt % 1000000 = 0)
    (first : ListedFirst summary.dashboard other.dashboard) : Summary.Before summary other := by
  rw [ListedFirst] at first
  rw [Summary.Before]
  split_ifs at first ⊢ with favorite
  · exact first
  · exact collation_lt first (tells (not_not.mp favorite).symm) _ _

/-- Where the texts tell, the page shows its summaries in the order of the server. -/
theorem Arranged.listed {summaries : List Summary} (arranged : Arranged summaries)
    (tell : TextsTell (summaries.map Summary.dashboard)) :
    Listed (summaries.map Summary.dashboard) := by
  obtain listed | sorted := arranged
  · exact listed
  · refine List.pairwise_map.mpr (sorted.imp_of_mem fun here later beside first => ?_)
    exact beside (before_of_listedFirst
      (tell _ (List.mem_map_of_mem here) _ (List.mem_map_of_mem later)) first)

end FrontDashboard.Overview
