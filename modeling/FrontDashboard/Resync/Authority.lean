import FrontDashboard.Resync.Contents

/-! # Who gives a role

A role on a dashboard is gained by creating it, by an invite, by what the owner does with its
shares, or with its return from the trash. No other request raises anybody's role.
-/

namespace FrontDashboard.Resync

open Boards (LayoutUpdate WidgetCreate)
open Calendar (TimezoneName Zone)
open FrontDashboard.Lists (ListId)
open FrontDashboard.Membership (EffectiveRole ResourceShare ShareRole effectiveRole isAtLeast)

/-! ## Roles -/

section Roles

/-- The best of some roles is at least each of them. -/
theorem rank_foldl (first : ShareRole) (roles : List ShareRole) :
    ∀ role ∈ first :: roles, role.effective.rank ≤ (roles.foldl (fun best next =>
      if best.effective.rank < next.effective.rank then next else best) first).effective.rank := by
  induction roles generalizing first with
  | nil =>
      intro role member
      rw [List.mem_singleton.mp member]
      exact le_refl _
  | cons next rest ih =>
      intro role member
      rw [List.foldl_cons]
      have best := ih (if first.effective.rank < next.effective.rank then next else first)
      have reached := best _ List.mem_cons_self
      rcases List.mem_cons.mp member with rfl | member
      · refine le_trans ?_ reached
        split_ifs with weaker
        · exact weaker.le
        · exact le_refl _
      · rcases List.mem_cons.mp member with rfl | member
        · refine le_trans ?_ reached
          split_ifs with weaker
          · exact le_refl _
          · exact not_lt.mp weaker
        · exact best role (List.mem_cons_of_mem _ member)

/-- The best of some roles is one of them. -/
theorem foldl_mem (first : ShareRole) (roles : List ShareRole) :
    roles.foldl (fun best next =>
      if best.effective.rank < next.effective.rank then next else best) first ∈ first :: roles := by
  induction roles generalizing first with
  | nil => exact List.mem_cons_self
  | cons next rest ih =>
      rw [List.foldl_cons]
      have chosen := ih (if first.effective.rank < next.effective.rank then next else first)
      split_ifs at chosen ⊢
      · exact List.mem_cons_of_mem _ chosen
      · rcases List.mem_cons.mp chosen with same | later
        · exact List.mem_cons.mpr (.inl same)
        · exact List.mem_cons_of_mem _ (List.mem_cons_of_mem _ later)

variable {owner user : UserId} {shares : List ResourceShare} {role : EffectiveRole}

/-- The role of someone who is not the owner is that of a share. -/
theorem exists_share_of_effectiveRole (held : effectiveRole owner user shares = some role)
    (different : owner ≠ user) :
    ∃ share ∈ shares, share.principal = user ∧ share.role.effective = role := by
  rw [effectiveRole, if_neg different, Option.map_eq_some_iff] at held
  obtain ⟨best, highest, rfl⟩ := held
  cases roles : (shares.filter fun share => share.principal = user).map (·.role) with
  | nil =>
      rw [roles] at highest
      cases highest
  | cons first rest =>
      rw [roles] at highest
      cases highest
      obtain ⟨share, member, same⟩ := List.mem_map.mp (roles ▸ foldl_mem first rest)
      obtain ⟨listed, named⟩ := List.mem_filter.mp member
      exact ⟨share, listed, of_decide_eq_true named, congrArg ShareRole.effective same⟩

/-- A share gives at least its role. -/
theorem effectiveRole_of_share (owner : UserId) {share : ResourceShare} (member : share ∈ shares)
    (named : share.principal = user) :
    ∃ held, effectiveRole owner user shares = some held ∧ isAtLeast held share.role.effective := by
  rw [effectiveRole]
  split_ifs
  · refine ⟨.owner, rfl, ?_⟩
    cases share.role <;> rfl
  · have listed : share.role ∈ (shares.filter fun share => share.principal = user).map (·.role) :=
      List.mem_map_of_mem (List.mem_filter.mpr ⟨member, decide_eq_true named⟩)
    cases roles : (shares.filter fun share => share.principal = user).map (·.role) with
    | nil =>
        rw [roles] at listed
        cases listed
    | cons first rest =>
        rw [roles] at listed
        exact ⟨_, rfl, decide_eq_true (rank_foldl first rest _ listed)⟩

/-- What is at least a role is at least the lesser ones. -/
theorem isAtLeast_trans {first second third : EffectiveRole} (one : isAtLeast first second)
    (two : isAtLeast second third) : isAtLeast first third := by
  have one : second.rank ≤ first.rank := of_decide_eq_true one
  have two : third.rank ≤ second.rank := of_decide_eq_true two
  exact decide_eq_true (two.trans one)

/-- An owner is at least everything. -/
theorem isAtLeast_owner (role : EffectiveRole) : isAtLeast .owner role := by
  cases role <;> rfl

end Roles

variable {tables before after next : Tables} {id : DashboardId} {user : UserId}
  {role : EffectiveRole}

namespace Tables

/-- The shares that are set are those of the dashboard. -/
theorem setShares_self (shares : List ResourceShare) :
    (tables.setShares id shares).shares id = shares := Function.update_self _ _ _

/-- A user has at least a role on a dashboard that is not in the trash. -/
def HoldsAtLeast (tables : Tables) (id : DashboardId) (user : UserId) (role : EffectiveRole) :
    Prop :=
  ∃ row held, tables.Holds id user row held ∧ isAtLeast held role

/-- The foreign key of the shares. -/
def Attached (tables : Tables) : Prop :=
  ∀ id, id ∉ tables.dashboards.map Dashboard.id → tables.shares id = []

/-- A role is held through the one row of the dashboard. -/
theorem Constrained.holds_iff (constrained : tables.Constrained) {row : Dashboard} :
    tables.Holds id user row role ↔ row ∈ tables.dashboards ∧ row.id = id ∧ row.deletedAt = none ∧
      effectiveRole row.userId user (tables.shares id) = some role := by
  constructor
  · rintro ⟨found, held⟩
    obtain ⟨listed, named, live⟩ := of_dashboard? found
    exact ⟨listed, named, live, held⟩
  · rintro ⟨listed, rfl, live, held⟩
    exact ⟨constrained.dashboard?_eq_some listed live, held⟩

end Tables

/-- A request gives a user at least a role on a dashboard. -/
inductive Gives (tables : Tables) (id : DashboardId) (user : UserId) (role : EffectiveRole) :
    Request → Prop
  | created (name : String) (now : Time) :
      Gives tables id user role (.createDashboard user id name now)
  | restored (row : Dashboard) (held : EffectiveRole) (now : Time)
      (listed : row ∈ tables.dashboards)
      (named : row.id = id) (trashed : row.deletedAt ≠ none)
      (holds : effectiveRole row.userId user (tables.shares id) = some held)
      (enough : isAtLeast held role) :
      Gives tables id user role (.restoreDashboard row.userId id now)
  | joined (offered : ShareRole) (invitedBy : UserId) (newShare : Nat)
      (enough : isAtLeast offered.effective role) :
      Gives tables id user role (.acceptInvite user id offered invitedBy newShare)
  | promoted (caller : UserId) (row : Dashboard) (share : ResourceShare) (granted : ShareRole)
      (owns : tables.Holds id caller row .owner) (member : share ∈ tables.shares id)
      (named : share.principal = user) (enough : isAtLeast granted.effective role) :
      Gives tables id user role (.updateDashboardShare caller id share.id granted)
  | handedOver (caller : UserId) (row : Dashboard) (share : ResourceShare) (newShare : Nat)
      (now : Time) (owns : tables.Holds id caller row .owner) (member : share ∈ tables.shares id)
      (named : share.principal = user) :
      Gives tables id user role (.transferDashboardOwnership caller id user newShare now)

/-! ## What raises no role -/

/-- Nobody's dashboard comes, and the shares of a user are not stronger, beside some of a role
that is offered. -/
structure Withheld (id : DashboardId) (user : UserId) (offered : Option ShareRole)
    (before after : Tables) : Prop where
  rows : ∀ row ∈ after.dashboards, row.id = id → row.deletedAt = none →
    ∃ origin ∈ before.dashboards, origin.id = id ∧ origin.deletedAt = none ∧
      (row.userId = user → origin.userId = user)
  shares : ∀ share ∈ after.shares id, share.principal = user → share.role ∈ offered ∨
    ∃ other ∈ before.shares id, other.principal = user ∧ other.role = share.role

namespace Withheld

variable {offered : Option ShareRole}

/-- Nothing is granted. -/
theorem refl : Withheld id user none tables tables :=
  ⟨fun row listed named live => ⟨row, listed, named, live, fun owns => owns⟩,
    fun share member named => .inr ⟨share, member, named, rfl⟩⟩

/-- A role was there before, or is offered. -/
theorem holdsAtLeast_or (withheld : Withheld id user offered before after)
    (constrained : before.Constrained) (constrained' : after.Constrained)
    (holds : after.HoldsAtLeast id user role) :
    before.HoldsAtLeast id user role ∨ ∃ granted ∈ offered, isAtLeast granted.effective role := by
  obtain ⟨row, held, holds, enough⟩ := holds
  obtain ⟨listed, named, live, known⟩ := constrained'.holds_iff.mp holds
  obtain ⟨origin, listed', named', live', owner⟩ := withheld.rows row listed named live
  by_cases owns : row.userId = user
  · refine .inl ⟨origin, .owner, constrained.holds_iff.mpr ⟨listed', named', live', ?_⟩,
      isAtLeast_owner role⟩
    exact Membership.effectiveRole_eq_owner.mpr (owner owns)
  · obtain ⟨share, member, principal, rfl⟩ := exists_share_of_effectiveRole known owns
    rcases withheld.shares share member principal with given | ⟨other, member', principal', same⟩
    · exact .inr ⟨share.role, given, enough⟩
    · obtain ⟨held', known', reached⟩ := effectiveRole_of_share origin.userId member' principal'
      rw [same] at reached
      exact .inl ⟨origin, held', constrained.holds_iff.mpr ⟨listed', named', live', known'⟩,
        isAtLeast_trans reached enough⟩

/-- What is withheld from a user he holds only if he did. -/
theorem holdsAtLeast (withheld : Withheld id user none before after)
    (constrained : before.Constrained) (constrained' : after.Constrained)
    (holds : after.HoldsAtLeast id user role) : before.HoldsAtLeast id user role := by
  rcases withheld.holdsAtLeast_or constrained constrained' holds with held | ⟨_, none, -⟩
  · exact held
  · cases none

/-- Boards that are kept give nobody anything. -/
theorem of_boardsKept (kept : BoardsKept [id] before after) :
    Withheld id user none before after where
  rows := by
    rintro row listed rfl live
    obtain ⟨origin, listed', unbinds⟩ :=
      (kept.shown user).exists_origin listed List.mem_cons_self
    exact ⟨origin, listed', unbinds.id.symm, unbinds.deletedAt.symm.trans live, fun owns =>
      unbinds.owner.symm.trans owns⟩
  shares := fun share member named =>
    .inr ⟨share, kept.shares id List.mem_cons_self ▸ member, named, rfl⟩

/-- An edit of one dashboard keeps its owner, or gives it to someone else, and does not take it
from the trash. -/
theorem setDashboard {now : Time} {change : Dashboard → Dashboard}
    (kept : ∀ row, (change row).id = row.id ∧
      ((change row).deletedAt = none → row.deletedAt = none) ∧
        ((change row).userId = user → row.userId = user)) :
    Withheld id user none tables (tables.setDashboard id now change) where
  rows := by
    intro row listed named live
    obtain ⟨origin, listed', rfl⟩ := List.mem_map.mp listed
    refine ⟨origin, listed', ?_⟩
    split_ifs at named live ⊢ with here
    · rw [Dashboard.saved] at live ⊢
      split_ifs at live ⊢
      · exact ⟨here, live, fun owns => owns⟩
      · exact ⟨here, (kept origin).2.1 live, (kept origin).2.2⟩
    · exact absurd named here
  shares := fun share member named => .inr ⟨share, member, named, rfl⟩

/-- Shares may go, and one may come that is offered. -/
theorem setShares {shares : List ResourceShare}
    (fewer : ∀ share ∈ shares, share.principal = user → share.role ∈ offered ∨
      ∃ other ∈ tables.shares id, other.principal = user ∧ other.role = share.role) :
    Withheld id user offered tables (tables.setShares id shares) where
  rows := fun row listed named live => ⟨row, listed, named, live, fun owns => owns⟩
  shares := by
    rw [Tables.setShares_self]
    exact fewer

/-- A favorite grants nothing. -/
theorem forget {users : List UserId} : Withheld id user none tables (tables.forget users id) where
  rows := fun row listed named live => ⟨row, listed, named, live, fun owns => owns⟩
  shares := fun share member named => .inr ⟨share, member, named, rfl⟩

/-- A share that is deleted grants nothing. -/
theorem deleteShare {share : ResourceShare} :
    Withheld id user none tables (tables.deleteShare id share) :=
  setShares fun other member named => .inr ⟨other, List.mem_of_mem_filter member, named, rfl⟩

/-- A share that is created is for one user. -/
theorem createShare {principal invitedBy : UserId} {granted : ShareRole} {newShare : Nat} :
    Withheld id user (if user = principal then some granted else none) tables
      (tables.createShare id principal granted invitedBy newShare) := by
  refine setShares fun share member named => ?_
  have given : share.principal = principal → share.role = granted →
      share.role ∈ if user = principal then some granted else none := by
    intro same role
    rw [if_pos (named.symm.trans same), role]
    rfl
  split_ifs at member
  · obtain ⟨other, listed, rfl⟩ := List.mem_map.mp member
    by_cases here : other.principal = principal
    · rw [if_pos here] at given
      rw [if_pos here]
      exact .inl (given here rfl)
    · rw [if_neg here] at named ⊢
      exact .inr ⟨other, listed, named, rfl⟩
  · rcases List.mem_append.mp member with old | new
    · exact .inr ⟨share, old, named, rfl⟩
    · rw [List.mem_singleton.mp new] at given ⊢
      exact .inl (given rfl rfl)

theorem createShare_of_ne {principal invitedBy : UserId} {granted : ShareRole} {newShare : Nat}
    (other : user ≠ principal) :
    Withheld id user none tables (tables.createShare id principal granted invitedBy newShare) := by
  have created : Withheld id user (if user = principal then some granted else none) tables
    (tables.createShare id principal granted invitedBy newShare) := .createShare
  rwa [if_neg other] at created

/-- What is withheld twice is withheld. -/
theorem trans (first : Withheld id user none before next)
    (second : Withheld id user offered next after) : Withheld id user offered before after where
  rows := by
    intro row listed named live
    obtain ⟨middle, listed, named, live, owner⟩ := second.rows row listed named live
    obtain ⟨origin, listed, named, live, owner'⟩ := first.rows middle listed named live
    exact ⟨origin, listed, named, live, fun owns => owner' (owner owns)⟩
  shares := by
    intro share member named
    rcases second.shares share member named with given | ⟨other, member, named, same⟩
    · exact .inl given
    · rcases first.shares other member named with given | ⟨last, member, named, same'⟩
      · cases given
      · exact .inr ⟨last, member, named, same'.trans same⟩

end Withheld

/-! ## What each request gives -/

section Requests

variable {caller : UserId} {now : Time}

/-- These requests grant nothing. -/
theorem withheld_of_updateDashboardMeta {name : Option String}
    (ran : updateDashboardMeta caller id name now tables = .ok (some next)) :
    Withheld id user none tables next := by
  obtain ⟨_, _, _, ⟨-, rfl⟩ | ⟨_, -, -, rfl⟩⟩ := updateDashboardMeta_eq_ok ran
  · exact .refl
  · exact .setDashboard fun _ => ⟨rfl, fun live => live, fun owns => owns⟩

theorem withheld_of_updateLayout {body : LayoutUpdate}
    (ran : updateLayout caller id body now tables = .ok (some next)) :
    Withheld id user none tables next := by
  obtain ⟨_, _, _, -, -, rfl⟩ := updateLayout_eq_ok ran
  exact .setDashboard fun _ => ⟨rfl, fun live => live, fun owns => owns⟩

theorem withheld_of_addWidget {settings : Settings} {body : WidgetCreate} {name config : String}
    {newWidget : Uuid} {newList : ListId}
    (ran : addWidget settings caller id body name config newWidget newList now tables =
      .ok (some next)) : Withheld id user none tables next := by
  obtain ⟨row, _, _, middle, _, -, rfl, bound, placed⟩ := addWidget_eq_ok ran
  obtain ⟨box, rfl⟩ := placeWidget_eq_ok placed
  have edited : Withheld row.id user none middle (middle.setDashboard row.id now fun row =>
      { row with
        layout := row.layout ++ [⟨box, newWidget.text⟩], version := row.version + 1 }) :=
    .setDashboard fun _ => ⟨rfl, fun live => live, fun owns => owns⟩
  obtain ⟨-, rfl⟩ | ⟨_, -, -, -, rfl⟩ | ⟨_, -, -, -, rfl⟩ := bindResource_eq_ok bound
  · exact ⟨edited.rows, edited.shares⟩
  · exact ⟨edited.rows, edited.shares⟩
  · exact ⟨edited.rows, edited.shares⟩

theorem withheld_of_updateWidget {widget : Uuid} {config : String}
    (ran : updateWidget caller id widget config now tables = .ok (some next)) :
    Withheld id user none tables next := by
  obtain ⟨_, _, _, -, rfl⟩ := updateWidget_eq_ok ran
  exact ⟨Withheld.refl.rows, Withheld.refl.shares⟩

theorem withheld_of_deleteWidget {widget : Uuid}
    (ran : deleteWidget caller id widget now tables = .ok (some next)) :
    Withheld id user none tables next := by
  obtain ⟨_, _, _, -, rfl⟩ := deleteWidget_eq_ok ran
  have edited : Withheld id user none tables (tables.setDashboard id now fun row =>
      { row with
        layout := row.layout.filter fun item => item.i ≠ widget.text
        version := row.version + 1 }) :=
    .setDashboard fun _ => ⟨rfl, fun live => live, fun owns => owns⟩
  exact ⟨edited.rows, edited.shares⟩

theorem withheld_of_deleteDashboard
    (ran : deleteDashboard caller id now tables = .ok (some next)) :
    Withheld id user none tables next := by
  obtain ⟨_, -, rfl⟩ := deleteDashboard_eq_ok ran
  refine .trans (.setDashboard ?_) .forget
  exact fun _ => ⟨rfl, fun live => absurd live (Option.some_ne_none now), fun owns => owns⟩

theorem withheld_of_deleteDashboardShare {share : Nat}
    (ran : deleteDashboardShare caller id share tables = .ok (some next)) :
    Withheld id user none tables next := by
  obtain ⟨_, -, _, -, -, rfl⟩ := deleteDashboardShare_eq_ok ran
  exact Withheld.forget.trans .deleteShare

theorem withheld_of_leaveDashboard
    (ran : leaveDashboard caller id tables = .ok (some next)) :
    Withheld id user none tables next := by
  obtain ⟨_, _, _, -, _, -, -, rfl⟩ := leaveDashboard_eq_ok ran
  exact Withheld.forget.trans .deleteShare

/-- Creating a dashboard gives it to its owner. -/
theorem gives_of_createDashboard (constrained' : next.Constrained)
    (holds : next.HoldsAtLeast id user role) (attached : tables.Attached) {settings : Settings}
    {name : String}
    (ran : createDashboard settings caller id name now tables = .ok (some next)) :
    Gives tables id user role (.createDashboard caller id name now) := by
  obtain ⟨fresh, rfl⟩ := createDashboard_eq_ok ran
  obtain ⟨row, held, holds, -⟩ := holds
  obtain ⟨listed, named, -, known⟩ := constrained'.holds_iff.mp holds
  have bare : tables.shares id = [] := attached id fresh
  rcases List.mem_append.mp listed with old | new
  · exact absurd (List.mem_map.mpr ⟨row, old, named⟩) fresh
  · rw [List.mem_singleton.mp new] at known
    by_cases same : caller = user
    · exact same ▸ .created name now
    · obtain ⟨share, member, -⟩ := exists_share_of_effectiveRole known same
      exact (List.not_mem_nil (bare ▸ member)).elim

variable (constrained : tables.Constrained) (constrained' : next.Constrained)
  (holds : next.HoldsAtLeast id user role)
include constrained constrained' holds

/-- Restoring a dashboard gives it to those who had it. -/
theorem gives_of_restoreDashboard
    (ran : restoreDashboard caller id now tables = .ok (some next)) :
    Gives tables id user role (.restoreDashboard caller id now) := by
  obtain ⟨⟨trashed, listed', rfl, rfl, gone⟩, rfl⟩ := restoreDashboard_eq_ok ran
  obtain ⟨row, held, holds, enough⟩ := holds
  obtain ⟨listed, named, live, known⟩ := constrained'.holds_iff.mp holds
  obtain ⟨origin, member, rfl⟩ := List.mem_map.mp listed
  have same : origin = trashed := by
    refine constrained.row_eq member listed' ?_
    rw [← named]
    split_ifs
    · rw [Dashboard.saved]
      split_ifs <;> rfl
    · rfl
  subst same
  refine .restored origin held now member rfl gone ?_ enough
  rw [← known, if_pos rfl, Dashboard.saved]
  split_ifs <;> rfl

/-- Accepting an invite gives its role to who asks, if he had less. -/
theorem gives_of_acceptInvite {offered : ShareRole} {invitedBy : UserId} {newShare : Nat}
    (ran : acceptInvite caller id offered invitedBy newShare tables = .ok (some next)) :
    tables.HoldsAtLeast id user role ∨
      Gives tables id user role (.acceptInvite caller id offered invitedBy newShare) := by
  obtain ⟨row, -, -, rfl⟩ := acceptInvite_eq_ok ran
  refine (Withheld.createShare.holdsAtLeast_or constrained constrained' holds).imp_right ?_
  rintro ⟨granted, given, enough⟩
  split_ifs at given with same
  · cases given
    exact same ▸ .joined offered invitedBy newShare enough
  · cases given

/-- A new role is given to its member. -/
theorem gives_of_updateDashboardShare {shareId : Nat} {granted : ShareRole}
    (ran : updateDashboardShare caller id shareId granted tables = .ok (some next)) :
    tables.HoldsAtLeast id user role ∨
      Gives tables id user role (.updateDashboardShare caller id shareId granted) := by
  obtain ⟨row, owns, share, -, rfl, rfl⟩ := updateDashboardShare_eq_ok ran
  by_cases named : ∃ other ∈ tables.shares id, other.id = share.id ∧ other.principal = user
  · obtain ⟨other, member, same, principal⟩ := named
    have withheld : Withheld id user (some granted) tables (tables.setShares id
        ((tables.shares id).map fun other =>
          if other.id = share.id then { other with role := granted } else other)) := by
      refine .setShares fun changed member named => ?_
      obtain ⟨origin, listed, rfl⟩ := List.mem_map.mp member
      split_ifs at named ⊢
      · exact .inl rfl
      · exact .inr ⟨origin, listed, named, rfl⟩
    refine (withheld.holdsAtLeast_or constrained constrained' holds).imp_right ?_
    rintro ⟨_, given, enough⟩
    cases given
    exact same ▸ .promoted caller row other granted owns member principal enough
  · have withheld : Withheld id user none tables (tables.setShares id
        ((tables.shares id).map fun other =>
          if other.id = share.id then { other with role := granted } else other)) := by
      refine .setShares fun changed member principal => ?_
      obtain ⟨origin, listed, rfl⟩ := List.mem_map.mp member
      split_ifs at principal ⊢ with same
      · exact absurd ⟨origin, listed, same, principal⟩ named
      · exact .inr ⟨origin, listed, principal, rfl⟩
    exact .inl (withheld.holdsAtLeast constrained constrained' holds)

/-- A transfer gives to the new owner and, as an editor, to the old one. -/
theorem gives_of_transferDashboardOwnership {heir : UserId} {newShare : Nat}
    (ran : transferDashboardOwnership caller id heir newShare now tables = .ok (some next)) :
    tables.HoldsAtLeast id user role ∨
      Gives tables id user role (.transferDashboardOwnership caller id heir newShare now) := by
  obtain ⟨row, owns, -, share, member, named, rfl⟩ := transferDashboardOwnership_eq_ok ran
  by_cases inherits : user = heir
  · exact .inr (inherits ▸ .handedOver caller row share newShare now owns member
      (named.trans inherits.symm))
  · by_cases same : user = caller
    · exact .inl ⟨row, .owner, same ▸ owns, isAtLeast_owner role⟩
    · have handed : Withheld id user none tables
          (tables.setDashboard id now fun row => { row with userId := heir }) :=
        .setDashboard fun _ => ⟨rfl, fun live => live, fun owns => absurd owns.symm inherits⟩
      have dropped := handed.trans (Withheld.deleteShare : Withheld id user none _
        (Tables.deleteShare _ id share))
      exact .inl ((dropped.trans (.createShare_of_ne same)).holdsAtLeast constrained constrained'
        holds)

end Requests

/-! ## Histories -/

variable {zoneInfo : TimezoneName → Zone} {settings : Settings}

/-- **What a request gives** of a role that was not there. -/
theorem gives_of_perform (constrained : tables.Constrained) (attached : tables.Attached)
    {request : Request} {on : DashboardId}
    (performed : perform zoneInfo settings tables request = some (on, .ok (some next)))
    (holds : next.HoldsAtLeast id user role) :
    tables.HoldsAtLeast id user role ∨ Gives tables id user role request := by
  have footprint := footprint_of_perform constrained performed
  have constrained' := footprint.constrained
  by_cases here : request.entityType = .dashboard → on ≠ id
  · have kept := footprint.boards [id] fun type member => here type (List.mem_singleton.mp member)
    exact .inl ((Withheld.of_boardsKept kept).holdsAtLeast constrained constrained' holds)
  · obtain ⟨type, rfl⟩ : request.entityType = .dashboard ∧ on = id := by
      simpa using here
    cases performs_of_perform performed with
    | @lists mutation _ lists =>
        exact .inl ((Withheld.of_boardsKept (boardsKept_unbound mutation lists)).holdsAtLeast
          constrained constrained' holds)
    | calendar => cases type
    | createDashboard ran =>
        exact .inr (gives_of_createDashboard constrained' holds attached ran)
    | updateDashboardMeta ran =>
        exact .inl
          ((withheld_of_updateDashboardMeta ran).holdsAtLeast constrained constrained' holds)
    | updateLayout ran =>
        exact .inl ((withheld_of_updateLayout ran).holdsAtLeast constrained constrained' holds)
    | addWidget ran =>
        exact .inl ((withheld_of_addWidget ran).holdsAtLeast constrained constrained' holds)
    | updateWidget ran =>
        exact .inl ((withheld_of_updateWidget ran).holdsAtLeast constrained constrained' holds)
    | deleteWidget ran =>
        exact .inl ((withheld_of_deleteWidget ran).holdsAtLeast constrained constrained' holds)
    | deleteDashboard ran =>
        exact .inl ((withheld_of_deleteDashboard ran).holdsAtLeast constrained constrained' holds)
    | restoreDashboard ran =>
        exact .inr (gives_of_restoreDashboard constrained constrained' holds ran)
    | acceptInvite ran =>
        exact gives_of_acceptInvite constrained constrained' holds ran
    | updateDashboardShare ran =>
        exact gives_of_updateDashboardShare constrained constrained' holds ran
    | deleteDashboardShare ran =>
        exact .inl
          ((withheld_of_deleteDashboardShare ran).holdsAtLeast constrained constrained' holds)
    | leaveDashboard ran =>
        exact .inl ((withheld_of_leaveDashboard ran).holdsAtLeast constrained constrained' holds)
    | transferDashboardOwnership ran =>
        exact gives_of_transferDashboardOwnership constrained constrained' holds ran

/-- A dashboard that is found has a row. -/
theorem mem_of_dashboard? (found : (tables.dashboard? id).isSome) :
    id ∈ tables.dashboards.map Dashboard.id := by
  obtain ⟨row, found⟩ := Option.isSome_iff_exists.mp found
  obtain ⟨listed, named, -⟩ := Tables.of_dashboard? found
  exact List.mem_map.mpr ⟨row, listed, named⟩

/-- A dashboard in which a role is held has a row. -/
theorem mem_of_holds {row : Dashboard} (holds : tables.Holds id user row role) :
    id ∈ tables.dashboards.map Dashboard.id :=
  mem_of_dashboard? (Option.isSome_of_mem holds.1)

/-- The dashboard of a request is there, or made by it. -/
theorem exists_of_perform {request : Request} {on : DashboardId}
    (performed : perform zoneInfo settings tables request = some (on, .ok (some next))) :
    on ∈ tables.dashboards.map Dashboard.id ∨ on ∈ next.dashboards.map Dashboard.id := by
  cases performs_of_perform performed with
  | lists _ found => exact .inl (mem_of_dashboard? found)
  | calendar _ found => exact .inl (mem_of_dashboard? found)
  | createDashboard ran =>
      obtain ⟨-, rfl⟩ := createDashboard_eq_ok ran
      refine .inr (List.mem_map.mpr ⟨_, List.mem_append_right _ List.mem_cons_self, rfl⟩)
  | updateDashboardMeta ran =>
      obtain ⟨_, _, holds, -⟩ := updateDashboardMeta_eq_ok ran
      exact .inl (mem_of_holds holds)
  | updateLayout ran =>
      obtain ⟨_, _, holds, -⟩ := updateLayout_eq_ok ran
      exact .inl (mem_of_holds holds)
  | addWidget ran =>
      obtain ⟨_, _, _, _, holds, -⟩ := addWidget_eq_ok ran
      exact .inl (mem_of_holds holds)
  | updateWidget ran =>
      obtain ⟨_, _, holds, -⟩ := updateWidget_eq_ok ran
      exact .inl (mem_of_holds holds)
  | deleteWidget ran =>
      obtain ⟨_, _, holds, -⟩ := deleteWidget_eq_ok ran
      exact .inl (mem_of_holds holds)
  | deleteDashboard ran =>
      obtain ⟨_, holds, -⟩ := deleteDashboard_eq_ok ran
      exact .inl (mem_of_holds holds)
  | restoreDashboard ran =>
      obtain ⟨⟨row, listed, named, -⟩, -⟩ := restoreDashboard_eq_ok ran
      exact .inl (List.mem_map.mpr ⟨row, listed, named⟩)
  | acceptInvite ran =>
      obtain ⟨row, found, -⟩ := acceptInvite_eq_ok ran
      exact .inl (mem_of_dashboard? (Option.isSome_of_mem found))
  | updateDashboardShare ran =>
      obtain ⟨_, holds, -⟩ := updateDashboardShare_eq_ok ran
      exact .inl (mem_of_holds holds)
  | deleteDashboardShare ran =>
      obtain ⟨_, holds, -⟩ := deleteDashboardShare_eq_ok ran
      exact .inl (mem_of_holds holds)
  | leaveDashboard ran =>
      obtain ⟨_, _, holds, -⟩ := leaveDashboard_eq_ok ran
      exact .inl (mem_of_holds holds)
  | transferDashboardOwnership ran =>
      obtain ⟨_, holds, -⟩ := transferDashboardOwnership_eq_ok ran
      exact .inl (mem_of_holds holds)

/-- A request on a dashboard keeps the foreign key. -/
theorem attached_of_perform (constrained : tables.Constrained) (attached : tables.Attached)
    {request : Request} {on : DashboardId}
    (performed : perform zoneInfo settings tables request = some (on, .ok (some next))) :
    next.Attached := by
  obtain ⟨mutation, _, lists, rfl, rfl, -⟩ | ⟨scheduled, calendar, rfl, rfl, -⟩ | ⟨-, onBoard⟩ :=
    onBoard_of_perform constrained performed
  · intro other absent
    refine ((boardsKept_unbound mutation lists).shares other (List.mem_singleton_self other)).trans
      (attached other ?_)
    rwa [← unbound_ids mutation]
  · exact attached
  · intro other absent
    have missing : other ∉ tables.dashboards.map Dashboard.id := fun member =>
      absent (onBoard.ids member)
    by_cases here : on = other
    · subst here
      exact ((exists_of_perform performed).elim missing absent).elim
    · refine ((onBoard.elsewhere [other] ?_).shares other (List.mem_singleton_self other)).trans
        (attached other missing)
      exact fun member => here (List.mem_singleton.mp member)

/-- **No role comes from nowhere.** Whoever has a role after a history had it before, or was given
it by a request of the history. -/
theorem gives_of_replay (constrained : before.Constrained) (attached : before.Attached)
    {history : List Commit} (ran : replay zoneInfo settings history before = some after)
    (holds : after.HoldsAtLeast id user role) :
    before.HoldsAtLeast id user role ∨ ∃ earlier step later middle,
      history = earlier ++ step :: later ∧
        replay zoneInfo settings earlier before = some middle ∧
          Gives middle id user role step.request := by
  induction history generalizing before with
  | nil =>
      cases ran
      exact .inl holds
  | cons first rest ih =>
      obtain ⟨next, committed, continued⟩ := Option.bind_eq_some_iff.mp ran
      obtain ⟨_, _, _, footprint⟩ := footprint_of_commit constrained committed
      obtain ⟨-, on, made, performed, rfl⟩ := commit_eq_some committed
      have attached' := attached_of_perform constrained attached performed
      rcases ih footprint.constrained attached' continued with
        held | ⟨earlier, step, later, middle, rfl, reached, given⟩
      · refine (gives_of_perform constrained attached performed held).imp_right fun given => ?_
        exact ⟨[], first, rest, before, rfl, rfl, given⟩
      · refine .inr ⟨first :: earlier, step, later, middle, rfl, ?_, given⟩
        rw [replay, committed]
        exact reached

/-- A shared dashboard after its owner has made the viewer an editor. -/
def promotedTables : Tables :=
  { sharedTables.setShares 1 [⟨1, 2, .editor, 1⟩] with
    log := sharedTables.log ++ [⟨2, EntityType.dashboard.text, some 1⟩] }

/-- A viewer who is an editor in the end has been made one. -/
theorem promotion_was_given : ∃ earlier step later middle,
    [(⟨2, .updateDashboardShare 1 1 1 .editor⟩ : Commit)] = earlier ++ step :: later ∧
      replay Calendar.utc sharedSettings earlier sharedTables = some middle ∧
        Gives middle 1 2 .editor step.request := by
  have attached : sharedTables.Attached := fun id absent =>
    if_neg fun same : id = 1 => absent (List.mem_singleton.mpr same)
  have ran : replay Calendar.utc sharedSettings
      [⟨2, .updateDashboardShare 1 1 1 .editor⟩] sharedTables = some promotedTables := rfl
  have editor : promotedTables.HoldsAtLeast 1 2 .editor := ⟨_, .editor, ⟨rfl, rfl⟩, rfl⟩
  refine (gives_of_replay constrained_sharedTables attached ran editor).resolve_left ?_
  rintro ⟨row, held, ⟨found, known⟩, enough⟩
  cases found
  cases known
  exact absurd enough (by decide)

end FrontDashboard.Resync
