import FrontDashboard.Resync.Authority
import FrontDashboard.Resync.Unseen

/-! # What a user is told of his dashboards

The frames that the requests on dashboards send, and what a page does about them for the summaries
that it shows. Each request tells everyone whose summaries it changes, but for two: a transfer does
not tell who handed the dashboard over, and the deletion of a list nobody whose dashboard showed it.
-/

namespace FrontDashboard.Overview

open Boards (WidgetCreate)
open Calendar (TimezoneName Zone)
open FrontDashboard.Membership (EffectiveRole ResourceShare ShareRole dashboardAudienceUserIds)
open Resync

/-! ## Frames -/

/-- The types of the events about a dashboard. -/
inductive DashboardEvent
  | created
  | updated
  | deleted
  | shareAdded
  | shareUpdated
  | shareRemoved
  deriving DecidableEq

/-- What a `dashboard.updated` frame says changed. -/
inductive ChangedField
  | layout
  | widgets
  | name
  | restored
  | shares
  deriving DecidableEq

/-- A frame about a dashboard. A changed field that a build does not know is `none`. -/
structure Frame where
  eventType : DashboardEvent
  dashboardId : DashboardId
  entityVersion : Int
  changedFields : List (Option ChangedField)
  createdAt : Time
  deriving DecidableEq

/-- What the event of a request says, where it is about a dashboard. A name that is `null` counts
as absent. -/
def announcement : Request → Option (DashboardEvent × List ChangedField)
  | .createDashboard .. => some (.created, [])
  | .updateDashboardMeta _ _ none _ => some (.updated, [])
  | .updateDashboardMeta _ _ (some _) _ => some (.updated, [.name])
  | .updateLayout .. => some (.updated, [.layout])
  | .addWidget .. | .deleteWidget .. => some (.updated, [.widgets, .layout])
  | .updateWidget .. => some (.updated, [.widgets])
  | .deleteDashboard .. => some (.deleted, [])
  | .restoreDashboard .. => some (.updated, [.restored])
  | .acceptInvite .. => some (.shareAdded, [.shares])
  | .updateDashboardShare .. | .transferDashboardOwnership .. => some (.shareUpdated, [.shares])
  | .deleteDashboardShare .. | .leaveDashboard .. => some (.shareRemoved, [.shares])
  | .lists _ | .calendar _ => none

/-- The shares that the audience of a frame is computed from: those that the request has read,
before its writes or after them. -/
def audienceShares (tables next : Tables) (id : DashboardId) : Request → List ResourceShare
  | .createDashboard .. => []
  | .acceptInvite .. | .updateDashboardShare .. => next.shares id
  | _ => tables.shares id

/-- The time of a request's transaction, which stamps its rows. -/
def stampedAt : Request → Option Time
  | .createDashboard _ _ _ now | .updateDashboardMeta _ _ _ now | .updateLayout _ _ _ now
  | .addWidget _ _ _ _ _ _ _ now | .updateWidget _ _ _ _ now | .deleteWidget _ _ _ now
  | .deleteDashboard _ _ now | .restoreDashboard _ _ now
  | .transferDashboardOwnership _ _ _ _ now => some now
  | .acceptInvite .. | .updateDashboardShare .. | .deleteDashboardShare .. | .leaveDashboard ..
  | .lists _ | .calendar _ => none

/-- `dashboard_fanout`, to one user: the owner is read after the writes. -/
def fanout (user : UserId) (tables next : Tables) (id : DashboardId) (createdAt : Time)
    (request : Request) : List Frame :=
  match announcement request, next.dashboards.find? fun row => row.id = id with
  | some (eventType, changedFields), some row =>
      if user ∈ dashboardAudienceUserIds row.userId (audienceShares tables next id request) then
        [⟨eventType, id, row.version, changedFields.map some, createdAt⟩]
      else []
  | _, _ => []

/-- The frames of a request that commits. -/
def frames (zoneInfo : TimezoneName → Zone) (settings : Settings) (user : UserId)
    (tables : Tables) (createdAt : Time) (request : Request) : List Frame :=
  match perform zoneInfo settings tables request with
  | some (id, .ok (some next)) => fanout user tables next id createdAt request
  | _ => []

/-- Whose summaries a request changes without a word: the owner's who hands a dashboard over, and
those of everyone who sees a dashboard that showed a deleted list. -/
def Untold (user : UserId) (tables : Tables) : Request → Prop
  | .transferDashboardOwnership caller id _ _ _ =>
      caller = user ∧ ∀ share ∈ tables.shares id, share.principal ≠ user
  | .lists (.deleteList _ list _) =>
      ∃ widget ∈ tables.widgets, widget.resourceId = some list ∧ tables.Sees user widget.dashboardId
  | _ => False

instance (user : UserId) (tables : Tables) (request : Request) :
    Decidable (Untold user tables request) := by
  unfold Untold
  split <;> infer_instance

/-! ## What a page does about them -/

structure ChangedFieldEffect where
  appliedLocally : Bool
  touchesDashboardRow : Bool

/-- `EFFECTS`. -/
def effects : ChangedField → ChangedFieldEffect
  | .layout => ⟨true, true⟩
  | .widgets => ⟨true, false⟩
  | .name => ⟨false, true⟩
  | .restored => ⟨false, true⟩
  | .shares => ⟨false, false⟩

def unknownEffect : ChangedFieldEffect := ⟨false, false⟩

def effectOf (field : Option ChangedField) : ChangedFieldEffect :=
  field.elim unknownEffect effects

def isFullyAppliedLocally (fields : List (Option ChangedField)) : Bool :=
  !fields.isEmpty && fields.all fun field => (effectOf field).appliedLocally

def movesDashboardRow (fields : List (Option ChangedField)) : Bool :=
  fields.any fun field => (effectOf field).touchesDashboardRow

def canSkipDashboardSummaryReload (frame : Frame) : Bool :=
  frame.eventType = .updated && isFullyAppliedLocally frame.changedFields

def shouldApplyLocalDashboardSummaryTouch (frame : Frame) : Bool :=
  frame.eventType = .updated && isFullyAppliedLocally frame.changedFields &&
    movesDashboardRow frame.changedFields

/-- A summary as a page holds it: what was answered, and whether its time is written with a `Z`, as
in an answer, or with an offset, as in a frame. -/
structure Summary where
  dashboard : Tables.DashboardSummary
  zulu : Bool

/-- A summary as it is answered. -/
def Summary.answered (dashboard : Tables.DashboardSummary) : Summary := ⟨dashboard, true⟩

/-- Where the text of a time, in microseconds, stands for `localeCompare`. A whole second is
written without a fraction, and a full stop comes before a sign, a sign before a letter. -/
def collation (time : Time) (zulu : Bool) : Nat :=
  let fraction : Nat := time % 1000000
  2 * (time / 1000000 * 1000001 + if fraction = 0 then 1000000 else fraction) + zulu.toNat

/-- Favorites come first, then what was updated last by the text of its time. -/
def Summary.Before (summary other : Summary) : Prop :=
  if summary.dashboard.isFavorite ≠ other.dashboard.isFavorite then
    summary.dashboard.isFavorite = true
  else collation other.dashboard.updatedAt other.zulu <
    collation summary.dashboard.updatedAt summary.zulu

instance : DecidableRel Summary.Before := fun summary other =>
  inferInstanceAs (Decidable
    (if summary.dashboard.isFavorite ≠ other.dashboard.isFavorite then _ else _))

def sortDashboardSummaries (summaries : List Summary) : List Summary :=
  arranged Summary.Before summaries

/-- The frame is about the summary's dashboard and says what it does not have, by the text of its
time. -/
def Changes (frame : Frame) (summary : Summary) : Prop :=
  summary.dashboard.id = frame.dashboardId ∧
    ¬ (summary.dashboard.version = max frame.entityVersion summary.dashboard.version ∧
      summary.dashboard.updatedAt = frame.createdAt ∧ summary.zulu = false)

instance (frame : Frame) (summary : Summary) : Decidable (Changes frame summary) :=
  inferInstanceAs (Decidable (_ ∧ ¬ (_ ∧ _ ∧ _)))

/-- What a frame says of its dashboard. -/
def stamp (frame : Frame) (dashboard : Tables.DashboardSummary) : Tables.DashboardSummary :=
  { dashboard with
    version := max frame.entityVersion dashboard.version, updatedAt := frame.createdAt }

def touch (frame : Frame) (summary : Summary) : Summary :=
  if Changes frame summary then ⟨stamp frame summary.dashboard, false⟩ else summary

def applyLocalDashboardSummaryUpdate (summaries : List Summary) (frame : Frame) : List Summary :=
  if !shouldApplyLocalDashboardSummaryTouch frame then summaries
  else if ∃ summary ∈ summaries, Changes frame summary then
    sortDashboardSummaries (summaries.map (touch frame))
  else summaries

/-! ## Summaries that are touched -/

variable {user : UserId} {tables next : Tables} {id : DashboardId} {row : Dashboard}
  {frame : Frame} {summaries : List Summary} {createdAt now : Time}

/-- What a frame makes of a summary, whatever its texts. -/
def stamped (frame : Frame) (dashboard : Tables.DashboardSummary) : Tables.DashboardSummary :=
  if dashboard.id = frame.dashboardId then stamp frame dashboard else dashboard

/-- Touching a summary stamps its dashboard. -/
theorem touch_dashboard (frame : Frame) (summary : Summary) :
    (touch frame summary).dashboard = stamped frame summary.dashboard := by
  rw [touch, stamped]
  by_cases changes : Changes frame summary
  · rw [if_pos changes, if_pos changes.1]
  · rw [if_neg changes]
    split_ifs with here
    · obtain ⟨version, updated, -⟩ := not_not.mp (not_and.mp changes here)
      rw [stamp, ← version, ← updated]
    · rfl

/-- Arranging rows rearranges them. -/
theorem arranged_perm {α : Type} (before : α → α → Prop) [DecidableRel before] (rows : List α) :
    (arranged before rows).Perm rows := List.perm_insertionSort _ _

/-- What an update leaves of the summaries, but for their order and the texts of their times. -/
theorem applyLocalDashboardSummaryUpdate_perm (summaries : List Summary) (frame : Frame) :
    ((applyLocalDashboardSummaryUpdate summaries frame).map Summary.dashboard).Perm
      (if shouldApplyLocalDashboardSummaryTouch frame then
        (summaries.map Summary.dashboard).map (stamped frame)
      else summaries.map Summary.dashboard) := by
  have touched : (summaries.map (touch frame)).map Summary.dashboard =
      (summaries.map Summary.dashboard).map (stamped frame) := by
    rw [List.map_map, List.map_map]
    exact List.map_congr_left fun summary _ => touch_dashboard frame summary
  rw [applyLocalDashboardSummaryUpdate]
  by_cases touches : shouldApplyLocalDashboardSummaryTouch frame = true
  · rw [if_neg (by simp [touches]), if_pos touches]
    split_ifs with changes
    · exact ((arranged_perm _ _).map _).trans (.of_eq touched)
    · have untouched : summaries.map (touch frame) = summaries :=
        (List.map_congr_left fun summary member =>
          if_neg fun change => changes ⟨summary, member, change⟩).trans (List.map_id _)
      rw [← touched, untouched]
  · rw [if_pos (by simp [touches]), if_neg touches]

/-- The summaries of a user are those of the rows he may see. -/
theorem listDashboards_perm (user : UserId) (tables : Tables) :
    (tables.listDashboards user).Perm
      ((tables.dashboards.filter fun row => tables.Accessible user row).map
        (tables.summary user)) :=
  (arranged_perm _ _).map _

/-- An edit that raises the version stamps the row. -/
theorem saved_of_raised {change : Dashboard → Dashboard}
    (same : ∀ row, change row =
      { row with layout := (change row).layout, version := row.version + 1 })
    (row : Dashboard) : row.saved now (change row) =
      { row with
        layout := (change row).layout, version := row.version + 1, updatedAt := now } := by
  have raised : ¬ change row = row := fun unchanged => by
    have version := congrArg Dashboard.version (unchanged.symm.trans (same row))
    simp at version
  rw [Dashboard.saved, if_neg raised, same row]

/-- **An edit of a dashboard that raises its version** touches its summary. -/
theorem listDashboards_setDashboard (constrained : tables.Constrained)
    (listed : row ∈ tables.dashboards) {change : Dashboard → Dashboard}
    (same : ∀ row, change row =
      { row with layout := (change row).layout, version := row.version + 1 })
    (rows : next.dashboards = (tables.setDashboard row.id now change).dashboards)
    (shares : next.shares = tables.shares) (favorites : next.favorites = tables.favorites)
    (about : frame.dashboardId = row.id) (version : frame.entityVersion = row.version + 1)
    (dated : frame.createdAt = now) :
    (next.listDashboards user).Perm ((tables.listDashboards user).map (stamped frame)) := by
  have accessible : ∀ other ∈ tables.dashboards,
      next.Accessible user (if other.id = row.id then other.saved now (change other) else other) ↔
        tables.Accessible user other := by
    intro other _
    rw [saved_of_raised same, Tables.Accessible, Tables.Accessible, shares]
    split_ifs <;> rfl
  have summary : ∀ other ∈ tables.dashboards,
      next.summary user (if other.id = row.id then other.saved now (change other) else other) =
        stamped frame (tables.summary user other) := by
    intro other member
    rw [saved_of_raised same, Overview.stamped, about, stamp, version, dated]
    by_cases here : other.id = row.id
    · obtain rfl := constrained.row_eq member listed here
      simp [Tables.summary, shares, favorites]
    · simp [Tables.summary, shares, favorites, here]
  refine (listDashboards_perm user next).trans
    (.trans (.of_eq ?_) ((listDashboards_perm user tables).map (stamped frame)).symm)
  rw [rows, Tables.setDashboard, List.filter_map, List.map_map, List.map_map]
  have chosen : tables.dashboards.filter ((fun row => decide (next.Accessible user row)) ∘
      fun other => if other.id = row.id then other.saved now (change other) else other) =
      tables.dashboards.filter fun row => tables.Accessible user row :=
    List.filter_congr fun other member => decide_eq_decide.mpr (accessible other member)
  rw [chosen]
  exact List.map_congr_left fun other member => summary other (List.mem_of_mem_filter member)

/-! ## Who is told -/

variable {zoneInfo : TimezoneName → Zone} {settings : Settings} {request : Request}
  {caller : UserId}

/-- The user is in the audience of the frame. -/
def Addressed (user : UserId) (tables next : Tables) (id : DashboardId) (request : Request) :
    Prop :=
  ∃ row ∈ next.dashboards, row.id = id ∧
    user ∈ dashboardAudienceUserIds row.userId (audienceShares tables next id request)

/-- A listed dashboard is found by its id. -/
theorem find?_row (constrained : next.Constrained) (listed : row ∈ next.dashboards) :
    next.dashboards.find? (fun other => other.id = row.id) = some row :=
  (KeyedRows.find?_eq_some_iff constrained.dashboards
    fun _ passes => of_decide_eq_true passes).mpr ⟨listed, decide_eq_true rfl⟩

/-- A commit sends a user one frame at most. -/
theorem fanout_eq_nil_or : fanout user tables next id createdAt request = [] ∨
    ∃ frame, fanout user tables next id createdAt request = [frame] := by
  rw [fanout]
  split
  · split_ifs
    · exact .inr ⟨_, rfl⟩
    · exact .inl rfl
  · exact .inl rfl

/-- The frames that a commit sends. -/
theorem mem_fanout : frame ∈ fanout user tables next id createdAt request ↔
    ∃ eventType changedFields row, announcement request = some (eventType, changedFields) ∧
      next.dashboards.find? (fun row => row.id = id) = some row ∧
        user ∈ dashboardAudienceUserIds row.userId (audienceShares tables next id request) ∧
          frame = ⟨eventType, id, row.version, changedFields.map some, createdAt⟩ := by
  rw [fanout]
  cases announcement request with
  | none => simp
  | some event =>
      cases next.dashboards.find? fun row => row.id = id with
      | none => simp
      | some row =>
          obtain ⟨eventType, changedFields⟩ := event
          simp only [Option.some.injEq, Prod.mk.injEq]
          split_ifs with addressed
          · simp [addressed]
          · simp [addressed]

/-- Whom the frame is for is sent it. -/
theorem fanout_ne_nil (constrained : next.Constrained) (announced : announcement request ≠ none)
    (addressed : Addressed user tables next id request) :
    fanout user tables next id createdAt request ≠ [] := by
  obtain ⟨row, listed, rfl, addressed⟩ := addressed
  obtain ⟨⟨eventType, changedFields⟩, announced⟩ := Option.ne_none_iff_exists'.mp announced
  exact List.ne_nil_of_mem (mem_fanout.mpr
    ⟨eventType, changedFields, row, announced, find?_row constrained listed, addressed, rfl⟩)

section Addressed

/-- Each row of the dashboard has the same owner afterwards. -/
def KeepsOwner (tables next : Tables) (id : DashboardId) : Prop :=
  ∀ row ∈ tables.dashboards, row.id = id →
    ∃ after ∈ next.dashboards, after.id = id ∧ after.userId = row.userId

theorem KeepsOwner.refl : KeepsOwner tables tables id :=
  fun row listed named => ⟨row, listed, named, rfl⟩

/-- A change to a row that leaves its id and its owner keeps the owner. -/
theorem KeepsOwner.setDashboard {change : Dashboard → Dashboard}
    (rows : next.dashboards = (tables.setDashboard id now change).dashboards)
    (same : ∀ row, (change row).id = row.id ∧ (change row).userId = row.userId) :
    KeepsOwner tables next id := by
  rintro row listed rfl
  rw [rows]
  refine ⟨_, List.mem_map_of_mem listed, ?_⟩
  rw [if_pos rfl, Dashboard.saved]
  split_ifs
  · exact ⟨rfl, rfl⟩
  · exact same row

/-- Who sees the dashboard before or after a request that leaves it to its owner is told, if the
audience is of all who share it. -/
theorem KeepsOwner.addressed (keeps : KeepsOwner tables next id)
    (there : ∃ row ∈ tables.dashboards, row.id = id)
    (shared : ∀ share, share ∈ tables.shares id ∨ share ∈ next.shares id →
      ∃ other ∈ audienceShares tables next id request, other.principal = share.principal)
    (seen : tables.Sees user id ∨ next.Sees user id) : Addressed user tables next id request := by
  obtain ⟨origin, listed, named⟩ := there
  obtain ⟨row, listed', named', -⟩ := keeps origin listed named
  have sharing : ∀ share, share ∈ tables.shares id ∨ share ∈ next.shares id →
      share.principal = user → Addressed user tables next id request := by
    intro share member principal
    obtain ⟨other, among, same⟩ := shared share member
    refine ⟨row, listed', named', List.mem_cons_of_mem _ (List.mem_map.mpr ⟨other, among, ?_⟩)⟩
    exact same.trans principal
  obtain seen | seen := seen
  · obtain ⟨origin, listed, ⟨-, owns | ⟨share, member, principal⟩⟩, rfl⟩ := sees_iff.mp seen
    · obtain ⟨row, listed', named', same⟩ := keeps origin listed rfl
      exact ⟨row, listed', named', List.mem_cons.mpr (.inl (same.trans owns).symm)⟩
    · exact sharing share (.inl member) principal
  · obtain ⟨row, listed, ⟨-, owns | ⟨share, member, principal⟩⟩, rfl⟩ := sees_iff.mp seen
    · exact ⟨row, listed, rfl, List.mem_cons.mpr (.inl owns.symm)⟩
    · exact sharing share (.inr member) principal

/-- A share after one is made was there or is the new one. -/
theorem mem_createShare {principal invitedBy : UserId} {role : ShareRole} {newShare : Nat}
    {share : ResourceShare}
    (member : share ∈ (tables.createShare id principal role invitedBy newShare).shares id) :
    share.principal = principal ∨
      ∃ other ∈ tables.shares id, other.principal = share.principal := by
  rw [Tables.createShare, Tables.setShares_self] at member
  split_ifs at member
  · obtain ⟨other, listed, rfl⟩ := List.mem_map.mp member
    refine .inr ⟨other, listed, ?_⟩
    split_ifs <;> rfl
  · rcases List.mem_append.mp member with old | new
    · exact .inr ⟨share, old, rfl⟩
    · exact .inl (by rw [List.mem_singleton.mp new])

/-- The shares that were there are still there. -/
theorem exists_createShare {principal invitedBy : UserId} {role : ShareRole} {newShare : Nat}
    {share : ResourceShare} (member : share ∈ tables.shares id) :
    ∃ other ∈ (tables.createShare id principal role invitedBy newShare).shares id,
      other.principal = share.principal := by
  rw [Tables.createShare, Tables.setShares_self]
  split_ifs
  · refine ⟨_, List.mem_map_of_mem member, ?_⟩
    split_ifs <;> rfl
  · exact ⟨share, List.mem_append_left _ member, rfl⟩

/-- A role is held on a dashboard that exists. -/
theorem there_of_holds {role : EffectiveRole} (holds : tables.Holds id caller row role) :
    ∃ row ∈ tables.dashboards, row.id = id :=
  ⟨row, (Tables.of_dashboard? holds.1).1, (Tables.of_dashboard? holds.1).2.1⟩

/-- Where the shares are left alone, or only go, those read before are enough. -/
theorem shared_of_subset (before : audienceShares tables next id request = tables.shares id)
    (fewer : next.shares id ⊆ tables.shares id) :
    ∀ share, share ∈ tables.shares id ∨ share ∈ next.shares id →
      ∃ other ∈ audienceShares tables next id request, other.principal = share.principal := by
  intro share member
  rw [before]
  exact ⟨share, member.elim (fun old => old) fun new => fewer new, rfl⟩

/-- Deleting a share adds none. -/
theorem deleteShare_subset {share : ResourceShare} :
    (tables.deleteShare id share).shares id ⊆ tables.shares id := by
  rw [Tables.deleteShare, Tables.setShares_self]
  exact fun _ member => List.mem_of_mem_filter member

/-- Creating a dashboard is announced to whom it concerns. -/
theorem addressed_of_createDashboard (attached : tables.Attached) {name : String}
    (ran : createDashboard settings caller id name now tables = .ok (some next))
    (seen : tables.Sees user id ∨ next.Sees user id) :
    Addressed user tables next id (.createDashboard caller id name now) := by
  obtain ⟨fresh, rfl⟩ := createDashboard_eq_ok ran
  have bare : tables.shares id = [] := attached id fresh
  obtain seen | seen := seen
  · obtain ⟨row, listed, -, rfl⟩ := sees_iff.mp seen
    exact absurd (List.mem_map_of_mem listed) fresh
  · obtain ⟨row, listed, ⟨-, owns | ⟨share, member, -⟩⟩, rfl⟩ := sees_iff.mp seen
    · exact ⟨row, listed, rfl, List.mem_cons.mpr (.inl owns.symm)⟩
    · rw [show (_ : Tables).shares row.id = [] from bare] at member
      cases member

/-- A widget is announced to whom it concerns. -/
theorem addressed_of_addWidget {body : WidgetCreate} {name config : String} {newWidget : Uuid}
    {newList : Lists.ListId}
    (ran : addWidget settings caller id body name config newWidget newList now tables =
      .ok (some next)) (seen : tables.Sees user id ∨ next.Sees user id) :
    Addressed user tables next id
      (.addWidget caller id body name config newWidget newList now) := by
  obtain ⟨row, _, _, middle, holds, -, rfl, bound, placed⟩ := addWidget_eq_ok ran
  obtain ⟨box, rfl⟩ := placeWidget_eq_ok placed
  have keeps : KeepsOwner middle (middle.setDashboard row.id now fun row =>
      { row with
        layout := row.layout ++ [⟨box, newWidget.text⟩], version := row.version + 1 }) row.id :=
    .setDashboard rfl fun _ => ⟨rfl, rfl⟩
  obtain ⟨-, rfl⟩ | ⟨_, -, -, -, rfl⟩ | ⟨_, -, -, -, rfl⟩ := bindResource_eq_ok bound
  all_goals
    exact KeepsOwner.addressed keeps (there_of_holds holds)
      (shared_of_subset rfl (List.Subset.refl _)) seen

/-- **A transfer** is announced to all whom it concerns but the old owner. -/
theorem addressed_of_transferDashboardOwnership (constrained : tables.Constrained)
    {heir : UserId} {newShare : Nat}
    (ran : transferDashboardOwnership caller id heir newShare now tables = .ok (some next))
    (told : ¬ Untold user tables (.transferDashboardOwnership caller id heir newShare now))
    (seen : tables.Sees user id ∨ next.Sees user id) :
    Addressed user tables next id (.transferDashboardOwnership caller id heir newShare now) := by
  obtain ⟨row, holds, -, share, held, principal, rfl⟩ := transferDashboardOwnership_eq_ok ran
  obtain ⟨listed, named, -, role⟩ := constrained.holds_iff.mp holds
  have owner : row.userId = caller := Membership.effectiveRole_eq_owner.mp role
  have handed : ∃ after ∈ (tables.setDashboard id now fun row =>
      { row with userId := heir }).dashboards, after.id = id ∧ after.userId = heir := by
    refine ⟨_, List.mem_map_of_mem listed, ?_⟩
    rw [if_pos named, Dashboard.saved]
    split_ifs with same
    · exact ⟨named, (congrArg Dashboard.userId same).symm⟩
    · exact ⟨named, rfl⟩
  obtain ⟨after, listed', named', inherits⟩ := handed
  have sharing : ∀ other ∈ tables.shares id, other.principal = user → Addressed user tables
      (((tables.setDashboard id now fun row => { row with userId := heir }).deleteShare id
        share).createShare id caller .editor heir newShare) id
      (.transferDashboardOwnership caller id heir newShare now) := fun other member same =>
    ⟨after, listed', named', List.mem_cons_of_mem _ (List.mem_map.mpr ⟨other, member, same⟩)⟩
  have handing : caller = user → Addressed user tables
      (((tables.setDashboard id now fun row => { row with userId := heir }).deleteShare id
        share).createShare id caller .editor heir newShare) id
      (.transferDashboardOwnership caller id heir newShare now) := by
    intro own
    by_contra missed
    exact told ⟨own, fun other member same => missed (sharing other member same)⟩
  obtain seen | seen := seen
  · obtain ⟨other, listed, ⟨-, owns | ⟨share, member, same⟩⟩, named⟩ := sees_iff.mp seen
    · obtain rfl := constrained.row_eq listed ‹row ∈ _› (named.trans ‹row.id = id›.symm)
      exact handing (owner.symm.trans owns)
    · exact sharing share (named ▸ member) same
  · obtain ⟨other, listed, ⟨-, owns | ⟨share', member, same⟩⟩, named⟩ := sees_iff.mp seen
    · exact ⟨other, listed, named, List.mem_cons.mpr (.inl owns.symm)⟩
    · rw [named] at member
      obtain created | ⟨old, member, kept⟩ := mem_createShare member
      · exact handing (created.symm.trans same)
      · exact sharing old (deleteShare_subset member) (kept.trans same)

/-- Whatever is announced is announced to whom it concerns. -/
theorem addressed_of_perform (constrained : tables.Constrained) (attached : tables.Attached)
    (performed : perform zoneInfo settings tables request = some (id, .ok (some next)))
    (announced : announcement request ≠ none) (told : ¬ Untold user tables request)
    (seen : tables.Sees user id ∨ next.Sees user id) :
    Addressed user tables next id request := by
  cases performs_of_perform performed with
  | lists => exact absurd rfl announced
  | calendar => exact absurd rfl announced
  | createDashboard ran =>
      exact addressed_of_createDashboard attached ran seen
  | updateDashboardMeta ran =>
      obtain ⟨_, _, holds, ⟨-, rfl⟩ | ⟨_, -, -, rfl⟩⟩ := updateDashboardMeta_eq_ok ran
      · exact KeepsOwner.refl.addressed (there_of_holds holds)
          (shared_of_subset rfl (List.Subset.refl _)) seen
      · exact KeepsOwner.addressed (.setDashboard rfl fun _ => ⟨rfl, rfl⟩) (there_of_holds holds)
          (shared_of_subset rfl (List.Subset.refl _)) seen
  | updateLayout ran =>
      obtain ⟨_, _, holds, -, -, rfl⟩ := updateLayout_eq_ok ran
      exact KeepsOwner.addressed (.setDashboard rfl fun _ => ⟨rfl, rfl⟩) (there_of_holds holds)
        (shared_of_subset rfl (List.Subset.refl _)) seen
  | addWidget ran =>
      exact addressed_of_addWidget ran seen
  | updateWidget ran =>
      obtain ⟨_, _, holds, -, rfl⟩ := updateWidget_eq_ok ran
      exact KeepsOwner.addressed KeepsOwner.refl (there_of_holds holds)
        (shared_of_subset rfl (List.Subset.refl _)) seen
  | deleteWidget ran =>
      obtain ⟨_, _, holds, -, rfl⟩ := deleteWidget_eq_ok ran
      exact KeepsOwner.addressed (.setDashboard rfl fun _ => ⟨rfl, rfl⟩) (there_of_holds holds)
        (shared_of_subset rfl (List.Subset.refl _)) seen
  | deleteDashboard ran =>
      obtain ⟨_, holds, rfl⟩ := deleteDashboard_eq_ok ran
      exact KeepsOwner.addressed (.setDashboard rfl fun _ => ⟨rfl, rfl⟩) (there_of_holds holds)
        (shared_of_subset rfl (List.Subset.refl _)) seen
  | restoreDashboard ran =>
      obtain ⟨⟨row, listed, named, -⟩, rfl⟩ := restoreDashboard_eq_ok ran
      exact KeepsOwner.addressed (.setDashboard rfl fun _ => ⟨rfl, rfl⟩) ⟨row, listed, named⟩
        (shared_of_subset rfl (List.Subset.refl _)) seen
  | acceptInvite ran =>
      obtain ⟨row, found, -, rfl⟩ := acceptInvite_eq_ok ran
      obtain ⟨listed, named, -⟩ := Tables.of_dashboard? found
      refine KeepsOwner.addressed KeepsOwner.refl ⟨row, listed, named⟩ ?_ seen
      rintro share (old | new)
      · exact exists_createShare old
      · exact ⟨share, new, rfl⟩
  | updateDashboardShare ran =>
      obtain ⟨_, holds, _, -, -, rfl⟩ := updateDashboardShare_eq_ok ran
      refine KeepsOwner.addressed KeepsOwner.refl (there_of_holds holds) ?_ seen
      rintro share (old | new)
      · rw [audienceShares, Tables.setShares_self]
        refine ⟨_, List.mem_map_of_mem old, ?_⟩
        split_ifs <;> rfl
      · exact ⟨share, new, rfl⟩
  | deleteDashboardShare ran =>
      obtain ⟨_, holds, _, -, -, rfl⟩ := deleteDashboardShare_eq_ok ran
      exact KeepsOwner.addressed KeepsOwner.refl (there_of_holds holds)
        (shared_of_subset rfl deleteShare_subset) seen
  | leaveDashboard ran =>
      obtain ⟨_, _, holds, -, _, -, -, rfl⟩ := leaveDashboard_eq_ok ran
      exact KeepsOwner.addressed KeepsOwner.refl (there_of_holds holds)
        (shared_of_subset rfl deleteShare_subset) seen
  | transferDashboardOwnership ran =>
      exact addressed_of_transferDashboardOwnership constrained ran told seen

end Addressed

/-! ## What is told -/

/-- What a page that holds an answer makes of it because of a frame. -/
def updated (answer : List Tables.DashboardSummary) (frame : Frame) :
    List Tables.DashboardSummary :=
  (applyLocalDashboardSummaryUpdate (answer.map .answered) frame).map Summary.dashboard

/-- What it makes of it, but for the order. -/
theorem updated_perm (answer : List Tables.DashboardSummary) (frame : Frame) :
    (updated answer frame).Perm
      (if shouldApplyLocalDashboardSummaryTouch frame then answer.map (stamped frame)
      else answer) := by
  have held : (answer.map Summary.answered).map Summary.dashboard = answer := by
    rw [List.map_map]
    exact List.map_id _
  have perm := applyLocalDashboardSummaryUpdate_perm (answer.map .answered) frame
  rwa [held] at perm

/-- What a user is told of a commit: without a frame his summaries are what they were, and a frame
that a page applies makes of them what they are, in some order and with their times written
somehow. -/
structure Told (user : UserId) (tables next : Tables) (frames : List Frame) : Prop where
  quiet : frames = [] → next.listDashboards user = tables.listDashboards user
  applied : ∀ frame ∈ frames, canSkipDashboardSummaryReload frame = true →
    (next.listDashboards user).Perm
      (updated (tables.listDashboards user) frame)

/-- Out of sight, summaries stay. -/
theorem listDashboards_of_unseen (constrained : tables.Constrained) (bound : tables.Bound)
    (performed : perform zoneInfo settings tables request = some (id, .ok (some next)))
    (unseen : ¬ tables.Sees user id) (unseen' : ¬ next.Sees user id) :
    next.listDashboards user = tables.listDashboards user := by
  have alike := looksAlike_of_perform constrained bound performed unseen unseen'
  have constrained' := (footprint_of_perform constrained performed).constrained
  have same := alike.fetch_eq constrained constrained'
    ⟨zoneInfo, fun text => text, fun text => text, fun _ => "", 0⟩ .summaries
  rw [Resource.fetch, Resource.fetch, Content.summaries.injEq] at same
  exact same.symm

/-- A deleted list that no dashboard in sight has shown. -/
theorem listDashboards_removeResourceWidgets (constrained : tables.Constrained)
    {list : Lists.ListId}
    (spared : ∀ widget ∈ tables.widgets, widget.resourceId = some list →
      ¬ tables.Sees user widget.dashboardId) :
    (tables.removeResourceWidgets list now).listDashboards user = tables.listDashboards user := by
  have rows : (tables.dashboards.map (tables.unboundRow list now)).filter
      (fun row => tables.Accessible user row) =
      tables.dashboards.filter fun row => tables.Accessible user row := by
    refine filter_map_of_beside (fun row listed chosen => ?_) fun row _ beside => ?_
    · have none : (tables.widgetsOf row.id).filter (fun widget =>
          widget.resourceId = some list) = [] := by
        refine List.filter_eq_nil_iff.mpr fun widget member binds => ?_
        obtain ⟨shown, here⟩ := List.mem_filter.mp member
        refine spared widget shown (of_decide_eq_true binds) ?_
        rw [of_decide_eq_true here]
        exact (constrained.accessible_iff listed).mp (of_decide_eq_true chosen)
      simp only [Tables.unboundRow, none, List.map_nil, if_true]
    · refine decide_eq_false fun accessible => of_decide_eq_false beside ?_
      simp only [Tables.unboundRow] at accessible
      split_ifs at accessible
      · exact accessible
      · rw [Dashboard.saved] at accessible
        split_ifs at accessible <;> exact accessible
  rw [Tables.listDashboards, Tables.listDashboards]
  exact congrArg _ (congrArg (arranged (tables.ListedBefore user)) rows)

/-- What is left of an edit that raises the version, by the frame that tells of it. -/
theorem applied_of_setDashboard (constrained : tables.Constrained)
    {change : Dashboard → Dashboard}
    (same : ∀ row, change row =
      { row with layout := (change row).layout, version := row.version + 1 })
    (rows : next.dashboards = (tables.setDashboard id now change).dashboards)
    (shares : next.shares = tables.shares) (favorites : next.favorites = tables.favorites)
    (found : next.dashboards.find? (fun row => row.id = id) = some row)
    (about : frame.dashboardId = id) (version : frame.entityVersion = row.version)
    (dated : frame.createdAt = now)
    (touches : shouldApplyLocalDashboardSummaryTouch frame = true) :
    (next.listDashboards user).Perm
      (updated (tables.listDashboards user) frame) := by
  have named := List.find?_some found
  rw [decide_eq_true_eq] at named
  have member := List.mem_of_find?_eq_some found
  rw [rows] at member
  obtain ⟨origin, listed, edited⟩ := List.mem_map.mp member
  have here : origin.id = id := by
    by_contra elsewhere
    rw [if_neg elsewhere] at edited
    exact elsewhere (edited ▸ named)
  have raised : row.version = origin.version + 1 := by
    rw [if_pos here, saved_of_raised same] at edited
    rw [← edited]
  subst here
  have applied := updated_perm (tables.listDashboards user) frame
  rw [if_pos touches] at applied
  exact (listDashboards_setDashboard constrained listed same rows shares favorites about
    (version.trans raised) dated).trans applied.symm

/-- **A frame that a page applies** makes of the summaries what the commit made of them. -/
theorem applied_of_fanout (constrained : tables.Constrained)
    (performed : perform zoneInfo settings tables request = some (id, .ok (some next)))
    (stamped : ∀ now ∈ stampedAt request, now = createdAt)
    (sent : frame ∈ fanout user tables next id createdAt request)
    (skips : canSkipDashboardSummaryReload frame = true) :
    (next.listDashboards user).Perm
      (updated (tables.listDashboards user) frame) := by
  obtain ⟨eventType, changedFields, row, announced, found, -, rfl⟩ := mem_fanout.mp sent
  cases request with
  | updateLayout caller id body now =>
      cases announced
      obtain ⟨rfl, ran⟩ := Prod.mk.inj (Option.some.inj performed)
      obtain ⟨_, _, -, -, -, rfl⟩ := updateLayout_eq_ok ran
      exact applied_of_setDashboard constrained (fun _ => rfl) rfl rfl rfl found rfl rfl
        (stamped now rfl).symm rfl
  | addWidget caller id body name config newWidget newList now =>
      cases announced
      obtain ⟨rfl, ran⟩ := Prod.mk.inj (Option.some.inj performed)
      obtain ⟨origin, _, _, middle, _, -, rfl, bound, placed⟩ := addWidget_eq_ok ran
      obtain ⟨box, rfl⟩ := placeWidget_eq_ok placed
      obtain ⟨-, rfl⟩ | ⟨_, -, -, -, rfl⟩ | ⟨_, -, -, -, rfl⟩ := bindResource_eq_ok bound
      all_goals
        exact applied_of_setDashboard constrained (fun _ => rfl) rfl rfl rfl found rfl rfl
          (stamped now rfl).symm rfl
  | updateWidget caller id widget config now =>
      cases announced
      obtain ⟨rfl, ran⟩ := Prod.mk.inj (Option.some.inj performed)
      obtain ⟨_, _, -, -, rfl⟩ := updateWidget_eq_ok ran
      have untouched := updated_perm (tables.listDashboards user)
        ⟨.updated, id, row.version, [some .widgets], createdAt⟩
      exact untouched.symm
  | deleteWidget caller id widget now =>
      cases announced
      obtain ⟨rfl, ran⟩ := Prod.mk.inj (Option.some.inj performed)
      obtain ⟨_, _, -, -, rfl⟩ := deleteWidget_eq_ok ran
      exact applied_of_setDashboard constrained (fun _ => rfl) rfl rfl rfl found rfl rfl
        (stamped now rfl).symm rfl
  | updateDashboardMeta caller id name now =>
      cases name <;> cases announced <;> cases skips
  | lists mutation => cases announced
  | calendar scheduled => cases announced
  | _ =>
      cases announced
      cases skips

/-- Nobody else is left without a frame whom a commit concerns. -/
theorem listDashboards_of_fanout_nil (constrained : tables.Constrained) (bound : tables.Bound)
    (attached : tables.Attached)
    (performed : perform zoneInfo settings tables request = some (id, .ok (some next)))
    (told : ¬ Untold user tables request)
    (quiet : fanout user tables next id createdAt request = []) :
    next.listDashboards user = tables.listDashboards user := by
  by_cases announced : announcement request = none
  · cases performs_of_perform performed with
    | @lists mutation _ lists =>
        cases mutation with
        | deleteList role list now =>
            exact listDashboards_removeResourceWidgets constrained
              fun widget shown binds seen => told ⟨widget, shown, binds, seen⟩
        | createList | updateListName | restoreList | reorderLists | addListItem | updateListItem
          | deleteListItem | reorderListItems => rfl
    | calendar => rfl
    | @updateDashboardMeta _ name => cases name <;> cases announced
    | _ => cases announced
  · have constrained' := (footprint_of_perform constrained performed).constrained
    have unaddressed : ¬ (tables.Sees user id ∨ next.Sees user id) := fun seen =>
      fanout_ne_nil constrained' announced
        (addressed_of_perform constrained attached performed announced told seen) quiet
    obtain ⟨unseen, unseen'⟩ := not_or.mp unaddressed
    exact listDashboards_of_unseen constrained bound performed unseen unseen'

/-! ## What is not -/

/-- Who hands a dashboard over is not told, and has other summaries. -/
theorem not_told_of_transfer (constrained : tables.Constrained) {heir : UserId} {newShare : Nat}
    (ran : transferDashboardOwnership user id heir newShare now tables = .ok (some next))
    (alone : ∀ share ∈ tables.shares id, share.principal ≠ user) :
    fanout user tables next id createdAt
      (.transferDashboardOwnership user id heir newShare now) = [] ∧
        next.listDashboards user ≠ tables.listDashboards user := by
  obtain ⟨row, holds, other, share, held, principal, rfl⟩ := transferDashboardOwnership_eq_ok ran
  obtain ⟨listed, rfl, live, role⟩ := constrained.holds_iff.mp holds
  have owner : row.userId = user := Membership.effectiveRole_eq_owner.mp role
  have inherits : ∀ after ∈ (tables.setDashboard row.id now fun row =>
      { row with userId := heir }).dashboards, after.id = row.id → after.userId = heir := by
    intro after member named
    obtain ⟨origin, listed', rfl⟩ := List.mem_map.mp member
    split_ifs at named ⊢ with here
    · rw [Dashboard.saved]
      split_ifs with same
      · exact (congrArg Dashboard.userId same).symm
      · rfl
    · exact absurd named here
  constructor
  · refine List.eq_nil_iff_forall_not_mem.mpr fun frame sent => ?_
    obtain ⟨_, _, after, -, found, addressed, -⟩ := mem_fanout.mp sent
    have named := List.find?_some found
    rw [decide_eq_true_eq] at named
    rw [inherits after (List.mem_of_find?_eq_some found) named] at addressed
    obtain own | among := List.mem_cons.mp addressed
    · exact other own.symm
    · obtain ⟨share, member, same⟩ := List.mem_map.mp among
      exact alone share member same
  · intro same
    have before : tables.summary user row ∈ tables.listDashboards user :=
      List.mem_map_of_mem (mem_arranged.mpr (List.mem_filter.mpr
        ⟨listed, decide_eq_true ⟨live, .inl owner⟩⟩))
    rw [← same] at before
    obtain ⟨after, chosen, summarised⟩ := List.mem_map.mp before
    have member := List.mem_of_mem_filter (mem_arranged.mp chosen)
    have kept : after.userId = row.userId := congrArg Tables.DashboardSummary.userId summarised
    have named : after.id = row.id := congrArg Tables.DashboardSummary.id summarised
    exact other ((inherits after member named).symm.trans (kept.trans owner))

/-- A version that a deleted list raises is seen. -/
theorem not_told_of_deleteList (constrained : tables.Constrained) {list : Lists.ListId}
    {widget : Widget} (shown : widget ∈ tables.widgets) (binds : widget.resourceId = some list)
    (seen : tables.Sees user widget.dashboardId) :
    (tables.removeResourceWidgets list now).listDashboards user ≠ tables.listDashboards user := by
  intro same
  obtain ⟨row, listed, accessible, named⟩ := sees_iff.mp seen
  have shows : tables.Shows user row.id row.version := ⟨row, listed, accessible, rfl, rfl⟩
  rw [shows_iff_listDashboards, ← same, ← shows_iff_listDashboards] at shows
  obtain ⟨after, member, -, sameId, version⟩ := shows
  obtain ⟨origin, listed', rfl⟩ := List.mem_map.mp member
  have named' : origin.id = row.id := (unboundRow_id list now origin).symm.trans sameId
  obtain rfl := constrained.row_eq listed' listed named'
  have removed : ((tables.widgetsOf origin.id).filter fun widget =>
      widget.resourceId = some list).map (·.id.text) ≠ [] := by
    refine List.ne_nil_of_mem (List.mem_map_of_mem (List.mem_filter.mpr
      ⟨List.mem_filter.mpr ⟨shown, decide_eq_true named.symm⟩, decide_eq_true binds⟩))
  simp only [Tables.unboundRow, if_neg removed, Dashboard.saved] at version
  split_ifs at version with unchanged
  · have raised := congrArg Dashboard.version unchanged
    simp at raised
  · simp at version

/-- The frames of a request that commits are those of its fanout. -/
theorem frames_of_perform
    (performed : perform zoneInfo settings tables request = some (id, .ok (some next))) :
    frames zoneInfo settings user tables createdAt request =
      fanout user tables next id createdAt request := by
  rw [frames, performed]

/-- The frames of a request that commits say what changed. -/
theorem told_of_perform (constrained : tables.Constrained) (bound : tables.Bound)
    (attached : tables.Attached)
    (performed : perform zoneInfo settings tables request = some (id, .ok (some next)))
    (stamped : ∀ now ∈ stampedAt request, now = createdAt)
    (told : ¬ Untold user tables request) :
    Told user tables next (frames zoneInfo settings user tables createdAt request) := by
  rw [frames_of_perform performed]
  exact ⟨listDashboards_of_fanout_nil constrained bound attached performed told,
    fun frame sent skips => applied_of_fanout constrained performed stamped sent skips⟩

/-- **A commit is told** to a user unless he hands a dashboard over by it, or it deletes a list that
a dashboard of his has shown. -/
theorem told_iff (constrained : tables.Constrained) (bound : tables.Bound)
    (attached : tables.Attached) {step : Commit}
    (committed : commit zoneInfo settings tables step = some next)
    (stamped : ∀ now ∈ stampedAt step.request, now = createdAt) :
    Told user tables next (frames zoneInfo settings user tables createdAt step.request) ↔
      ¬ Untold user tables step.request := by
  obtain ⟨-, id, made, performed, rfl⟩ := commit_eq_some committed
  obtain ⟨eventId, request⟩ := step
  dsimp only at performed stamped ⊢
  constructor
  · rw [frames_of_perform performed]
    intro told untold
    cases request with
    | transferDashboardOwnership caller id heir newShare now =>
        obtain ⟨rfl, alone⟩ := untold
        obtain ⟨rfl, ran⟩ := Prod.mk.inj (Option.some.inj performed)
        obtain ⟨quiet, differ⟩ := not_told_of_transfer constrained ran alone
        exact differ (told.quiet quiet)
    | lists mutation =>
        cases mutation with
        | deleteList role list now =>
            obtain ⟨widget, shown, binds, seen⟩ := untold
            cases performs_of_perform performed with
            | lists =>
                exact not_told_of_deleteList constrained shown binds seen (told.quiet rfl)
        | createList | updateListName | restoreList | reorderLists | addListItem | updateListItem
          | deleteListItem | reorderListItems => exact untold
    | _ => exact untold
  · intro told
    have made := told_of_perform constrained bound attached performed stamped told
    exact ⟨made.quiet, made.applied⟩

/-- A shared dashboard that its owner has handed over. -/
def handedOver : Tables :=
  { sharedTables with
    dashboards := [⟨1, 2, "Home", [], 0, 0, 7, none⟩]
    shares := Function.update (Function.update sharedTables.shares 1 []) 1 [⟨9, 1, .editor, 2⟩]
    log := sharedTables.log ++ [⟨2, EntityType.dashboard.text, some 1⟩] }

/-- The new owner is told of a transfer, the old one is not. -/
theorem transfer_is_told_to_heir :
    Told 2 sharedTables handedOver
        (frames Calendar.utc sharedSettings 2 sharedTables 7
          (.transferDashboardOwnership 1 1 2 9 7)) ∧
      ¬ Told 1 sharedTables handedOver
        (frames Calendar.utc sharedSettings 1 sharedTables 7
          (.transferDashboardOwnership 1 1 2 9 7)) := by
  have committed : commit Calendar.utc sharedSettings sharedTables
      ⟨2, .transferDashboardOwnership 1 1 2 9 7⟩ = some handedOver := rfl
  have bound : sharedTables.Bound := fun widget shown => (List.not_mem_nil shown).elim
  have attached : sharedTables.Attached := by
    intro id absent
    refine if_neg fun here => absent ?_
    exact here ▸ List.mem_cons_self
  have stamped : ∀ now ∈ stampedAt (.transferDashboardOwnership 1 1 2 9 7), now = 7 :=
    fun now same => (Option.some.inj same).symm
  exact ⟨(told_iff constrained_sharedTables bound attached committed stamped).mpr (by decide),
    fun told => (told_iff constrained_sharedTables bound attached committed stamped).mp told
      (by decide)⟩

end FrontDashboard.Overview
