import FrontDashboard.Calendar.Listing
import FrontDashboard.Library.OrderBy
import FrontDashboard.Library.Uuid
import FrontDashboard.Membership.Dashboard

/-! # The ways to a dashboard

The queries and checks that decide what a user may see: `load_dashboard_access`,
`list_accessible_dashboard_ids`, the dashboard summaries, the audience of a frame and
the check of the ids a user wants in their preferences. Each is written on its own
against the tables of dashboards and share rows.
-/

namespace FrontDashboard.Access

open Calendar (HttpError)
open FrontDashboard.Membership
  (EffectiveRole ResourceShare effectiveRole dashboardAudienceUserIds isAtLeast)

abbrev UserId := Nat

inductive ResourceType
  | list
  | calendarEvent
  | dashboard
  deriving DecidableEq

/-- A row of `resource_shares`. Its principal is a user, the only type there is. -/
structure ShareRow extends ResourceShare where
  resourceType : ResourceType
  resourceId : Uuid
  deriving DecidableEq

/-- A row of `dashboards`, by the columns that a summary shows or a query reads. -/
structure Dashboard where
  id : Uuid
  userId : UserId
  name : String
  deletedAt : Option Int
  version : Nat
  createdAt : Int
  updatedAt : Int
  deriving DecidableEq

/-- The tables. `id` is the primary key of `dashboards`. -/
structure Store where
  dashboards : List Dashboard
  shares : List ShareRow
  unique : (dashboards.map Dashboard.id).Nodup

/-- A user, with the entries of `favorite_dashboard_ids` in their preferences. An entry
that is no string is `none`. -/
structure User where
  id : UserId
  favoriteDashboardIds : List (Option String)

def dashboardNotFound : HttpError := ⟨404, "Dashboard not found"⟩

def notFound : HttpError := ⟨404, "Not found"⟩

def invalidDashboardId : HttpError := ⟨422, "Invalid dashboard ID"⟩

/-- `can_edit`. -/
def canEdit (role : EffectiveRole) : Bool := isAtLeast role .editor

/-- `can_manage_shares`. -/
def canManageShares (role : EffectiveRole) : Bool := decide (role = .owner)

variable (store : Store)

/-! ## Loading one dashboard -/

/-- The share rows of a dashboard. -/
def Store.sharesOf (id : Uuid) : List ShareRow :=
  store.shares.filter fun share => share.resourceType = .dashboard ∧ share.resourceId = id

/-- `load_resource_access`: the share rows, and the role they give. -/
def loadResourceAccess (id : Uuid) (createdBy : UserId) (user : User) :
    Except HttpError (List ShareRow × EffectiveRole) :=
  let shares := store.sharesOf id
  match effectiveRole createdBy user.id (shares.map ShareRow.toResourceShare) with
  | none => .error notFound
  | some role => .ok (shares, role)

/-- `load_dashboard_access`. -/
def loadDashboardAccess (id : Uuid) (user : User) :
    Except HttpError (Dashboard × List ShareRow × EffectiveRole) :=
  match store.dashboards.find? fun dashboard => dashboard.id = id ∧ dashboard.deletedAt = none with
  | none => .error dashboardNotFound
  | some dashboard =>
      match loadResourceAccess store dashboard.id dashboard.userId user with
      | .error error => .error error
      | .ok (shares, role) => .ok (dashboard, shares, role)

/-! ## Listing ids -/

/-- The dashboards on which the user holds a share row. -/
def sharedIds (user : User) : List Uuid :=
  (store.shares.filter fun share =>
    share.resourceType = .dashboard ∧ share.principal = user.id).map ShareRow.resourceId

/-- `list_accessible_dashboard_ids`. -/
def listAccessibleDashboardIds (user : User) : List Uuid :=
  (store.dashboards.filter fun dashboard =>
    dashboard.deletedAt = none ∧
      (dashboard.userId = user.id ∨ dashboard.id ∈ sharedIds store user)).map Dashboard.id

/-! ## Summaries -/

/-- `DashboardSummary`. -/
structure DashboardSummary where
  id : Uuid
  userId : UserId
  name : String
  accessDescription : String
  isShared : Bool
  canEdit : Bool
  canManageShares : Bool
  isFavorite : Bool
  version : Nat
  createdAt : Int
  updatedAt : Int

/-- `favorite_dashboard_ids_from_preferences`: what can be read, each once. -/
def favoriteDashboardIds (user : User) : List Uuid :=
  ((user.favoriteDashboardIds.filterMap id).filterMap Uuid.read).reverse.dedup.reverse

/-- A share row of the dashboard names the user. -/
def directShareExists (dashboard : Dashboard) (user : User) : Prop :=
  ∃ share ∈ store.shares,
    share.resourceType = .dashboard ∧ share.resourceId = dashboard.id ∧ share.principal = user.id

instance (dashboard : Dashboard) (user : User) :
    Decidable (directShareExists store dashboard user) :=
  inferInstanceAs (Decidable (∃ share ∈ store.shares,
    share.resourceType = .dashboard ∧ share.resourceId = dashboard.id ∧ share.principal = user.id))

/-- A share row of the dashboard names anyone. -/
def anyShareExists (dashboard : Dashboard) : Prop :=
  ∃ share ∈ store.shares, share.resourceType = .dashboard ∧ share.resourceId = dashboard.id

instance (dashboard : Dashboard) : Decidable (anyShareExists store dashboard) :=
  inferInstanceAs (Decidable (∃ share ∈ store.shares,
    share.resourceType = .dashboard ∧ share.resourceId = dashboard.id))

def accessDescription (dashboard : Dashboard) (user : User) : String :=
  if dashboard.userId = user.id then "Owned by you"
  else if directShareExists store dashboard user then "Shared directly with you"
  else "Shared with you"

/-- The rows of the summaries. -/
def summaryRows (user : User) : List Dashboard :=
  store.dashboards.filter fun dashboard =>
    dashboard.deletedAt = none ∧
      (dashboard.userId = user.id ∨ directShareExists store dashboard user)

/-- Favorites come first, then what was updated last. -/
def listedBefore (user : User) (dashboard other : Dashboard) : Prop :=
  (dashboard.id ∈ favoriteDashboardIds user ∧ other.id ∉ favoriteDashboardIds user) ∨
    ((dashboard.id ∈ favoriteDashboardIds user ↔ other.id ∈ favoriteDashboardIds user) ∧
      other.updatedAt < dashboard.updatedAt)

/-- `_resource_shares_by_dashboard`. -/
def resourceSharesByDashboard (ids : List Uuid) (id : Uuid) : List ShareRow :=
  (store.shares.filter fun share =>
    share.resourceType = .dashboard ∧ share.resourceId ∈ ids).filter fun share =>
      share.resourceId = id

/-- The summary of a row, which fails with the role. -/
def summaryOf (user : User) (rows : List Dashboard) (dashboard : Dashboard) :
    Except HttpError DashboardSummary :=
  let shares := resourceSharesByDashboard store (rows.map Dashboard.id) dashboard.id
  match effectiveRole dashboard.userId user.id (shares.map ShareRow.toResourceShare) with
  | none => .error notFound
  | some role => .ok {
      id := dashboard.id
      userId := dashboard.userId
      name := dashboard.name
      accessDescription := accessDescription store dashboard user
      isShared := anyShareExists store dashboard
      canEdit := canEdit role
      canManageShares := canManageShares role
      isFavorite := dashboard.id ∈ favoriteDashboardIds user
      version := dashboard.version
      createdAt := dashboard.createdAt
      updatedAt := dashboard.updatedAt }

/-- What `_list_accessible_dashboard_summaries` may answer. -/
def Summaries (user : User) (answer : Except HttpError (List DashboardSummary)) : Prop :=
  ∃ rows, OrderedBy (listedBefore user) (summaryRows store user) rows ∧
    answer = rows.mapM (summaryOf store user rows)

/-! ## Preferences -/

/-- The ids of the texts, each once. -/
def readIds : List Uuid → List String → Except HttpError (List Uuid)
  | seen, [] => .ok seen
  | seen, text :: rest =>
      match Uuid.read text with
      | none => .error invalidDashboardId
      | some id => if id ∈ seen then readIds seen rest else readIds (seen ++ [id]) rest

/-- The owner of an id, among the rows that were read. -/
def ownerById (rows : List Dashboard) (id : Uuid) : Option UserId :=
  (rows.find? fun row => row.id = id).map Dashboard.userId

/-- `_normalize_accessible_dashboard_ids`. -/
def normalizeAccessibleDashboardIds (texts : List String) (user : User) :
    Except HttpError (List String) :=
  match readIds [] texts with
  | .error error => .error error
  | .ok ids =>
      let rows := store.dashboards.filter fun dashboard =>
        dashboard.id ∈ ids ∧ dashboard.deletedAt = none
      let directShareIds := ids.filter fun id => ownerById rows id ≠ some user.id
      let accessibleSharedIds := (store.shares.filter fun share =>
        share.resourceType = .dashboard ∧ share.resourceId ∈ directShareIds ∧
          share.principal = user.id).map ShareRow.resourceId
      if (rows.map Dashboard.id).dedup.length ≠ ids.length then .error dashboardNotFound
      else if ∃ id ∈ directShareIds, id ∉ accessibleSharedIds then .error dashboardNotFound
      else .ok (ids.map Uuid.text)

end FrontDashboard.Access
