import FrontDashboard.Access.Paths
import FrontDashboard.Library.KeyedRows
import FrontDashboard.Library.Outcomes
import Mathlib.Data.List.Dedup
import Mathlib.Data.List.TFAE

/-! # The ways to a dashboard agree

Each query and check lets a user through to a dashboard exactly when the dashboard is
live and the user owns it or holds a share row of it.
-/

namespace FrontDashboard.Access

open Outcomes
open Calendar (HttpError)
open FrontDashboard.Membership (EffectiveRole effectiveRole effectiveRole_isSome members
  dashboardAudienceUserIds)

variable {store : Store} {user : User} {id : Uuid}

/-- The user owns the dashboard or holds a share row of it. -/
def Entitled (store : Store) (user : User) (dashboard : Dashboard) : Prop :=
  dashboard.userId = user.id ∨ ∃ share ∈ store.shares,
    share.resourceType = .dashboard ∧ share.resourceId = dashboard.id ∧ share.principal = user.id

/-- The rule: the dashboard is live and the user entitled to it. -/
def Accessible (store : Store) (user : User) (id : Uuid) : Prop :=
  ∃ dashboard ∈ store.dashboards,
    dashboard.id = id ∧ dashboard.deletedAt = none ∧ Entitled store user dashboard

theorem entitled_iff_members {dashboard : Dashboard} :
    Entitled store user dashboard ↔ user.id ∈ members dashboard.userId
      ((store.sharesOf dashboard.id).map ShareRow.toResourceShare) := by
  have shared : user.id ∈ ((store.sharesOf dashboard.id).map ShareRow.toResourceShare).map
      (·.principal) ↔ ∃ share ∈ store.shares, share.resourceType = .dashboard ∧
        share.resourceId = dashboard.id ∧ share.principal = user.id := by
    simp [Store.sharesOf, and_assoc]
  rw [Entitled, members, List.mem_cons, shared, eq_comm]

/-- Who is entitled has a role. -/
theorem exists_role {dashboard : Dashboard} (entitled : Entitled store user dashboard) :
    ∃ role, effectiveRole dashboard.userId user.id
      ((store.sharesOf dashboard.id).map ShareRow.toResourceShare) = some role :=
  Option.isSome_iff_exists.mp (effectiveRole_isSome.mpr (entitled_iff_members.mp entitled))

/-- The row of a dashboard is the one that is found by its id. -/
theorem eq_of_id {dashboard other : Dashboard} (present : dashboard ∈ store.dashboards)
    (alsoPresent : other ∈ store.dashboards) (same : dashboard.id = other.id) :
    dashboard = other :=
  List.inj_on_of_nodup_map store.unique present alsoPresent same

/-! ## Loading -/

theorem find?_live {dashboard : Dashboard} :
    (store.dashboards.find? fun row => row.id = id ∧ row.deletedAt = none) = some dashboard ↔
      dashboard ∈ store.dashboards ∧ dashboard.id = id ∧ dashboard.deletedAt = none := by
  have named : ∀ row : Dashboard, decide (row.id = id ∧ row.deletedAt = none) = true →
    row.id = id :=
    fun row fits => (of_decide_eq_true fits).1
  simpa using KeyedRows.find?_eq_some_iff store.unique named

/-- What a load answers. -/
theorem loadDashboardAccess_eq_ok {dashboard : Dashboard} {shares : List ShareRow}
    {role : EffectiveRole} :
    loadDashboardAccess store id user = .ok (dashboard, shares, role) ↔
      (dashboard ∈ store.dashboards ∧ dashboard.id = id ∧ dashboard.deletedAt = none) ∧
        shares = store.sharesOf dashboard.id ∧
        effectiveRole dashboard.userId user.id
          ((store.sharesOf dashboard.id).map ShareRow.toResourceShare) = some role := by
  rw [← find?_live]
  unfold loadDashboardAccess loadResourceAccess
  constructor
  · intro loaded
    split at loaded
    next => cases loaded
    next found row =>
      split at loaded
      next => cases loaded
      next given =>
        cases loaded
        dsimp only at given
        split at given
        next => cases given
        next role resolved =>
          cases given
          exact ⟨row, rfl, resolved⟩
  · rintro ⟨found, rfl, resolved⟩
    simp only [found, resolved]

theorem load_iff : (∃ access, loadDashboardAccess store id user = .ok access) ↔
    Accessible store user id := by
  constructor
  · rintro ⟨⟨dashboard, shares, role⟩, loaded⟩
    obtain ⟨⟨present, named, live⟩, _, resolved⟩ := loadDashboardAccess_eq_ok.mp loaded
    have entitled : Entitled store user dashboard := by
      rw [entitled_iff_members, ← effectiveRole_isSome, resolved]
      rfl
    exact ⟨dashboard, present, named, live, entitled⟩
  · rintro ⟨dashboard, present, named, live, entitled⟩
    obtain ⟨role, resolved⟩ := exists_role entitled
    exact ⟨_, loadDashboardAccess_eq_ok.mpr ⟨⟨present, named, live⟩, rfl, resolved⟩⟩

/-! ## Listing -/

theorem mem_sharedIds : id ∈ sharedIds store user ↔ ∃ share ∈ store.shares,
    share.resourceType = .dashboard ∧ share.resourceId = id ∧ share.principal = user.id := by
  simp only [sharedIds, List.mem_map, List.mem_filter, decide_eq_true_eq]
  constructor
  · rintro ⟨share, ⟨present, isDashboard, names⟩, same⟩
    exact ⟨share, present, isDashboard, same, names⟩
  · rintro ⟨share, present, isDashboard, same, names⟩
    exact ⟨share, ⟨present, isDashboard, names⟩, same⟩

theorem listed_iff : id ∈ listAccessibleDashboardIds store user ↔ Accessible store user id := by
  simp only [listAccessibleDashboardIds, Accessible, Entitled, List.mem_map, List.mem_filter,
    decide_eq_true_eq, mem_sharedIds]
  constructor
  · rintro ⟨dashboard, ⟨present, live, entitled⟩, named⟩
    exact ⟨dashboard, present, named, live, entitled⟩
  · rintro ⟨dashboard, present, named, live, entitled⟩
    exact ⟨dashboard, ⟨present, live, entitled⟩, named⟩

/-! ## The audience -/

/-- The dashboard is live and the user among those its frames are addressed to. -/
def InAudience (store : Store) (user : User) (id : Uuid) : Prop :=
  ∃ dashboard ∈ store.dashboards, dashboard.id = id ∧ dashboard.deletedAt = none ∧
    user.id ∈ dashboardAudienceUserIds dashboard.userId
      ((store.sharesOf dashboard.id).map ShareRow.toResourceShare)

theorem inAudience_iff : InAudience store user id ↔ Accessible store user id := by
  simp only [InAudience, Accessible, entitled_iff_members]
  rfl

/-! ## Summaries -/

theorem mem_summaryRows {dashboard : Dashboard} : dashboard ∈ summaryRows store user ↔
    dashboard ∈ store.dashboards ∧ dashboard.deletedAt = none ∧ Entitled store user dashboard := by
  simp only [summaryRows, List.mem_filter, decide_eq_true_eq]
  rfl

/-- The share rows of all the dashboards listed are, for one of them, its own. -/
theorem resourceSharesByDashboard_eq (store : Store) {ids : List Uuid} (listed : id ∈ ids) :
    resourceSharesByDashboard store ids id = store.sharesOf id := by
  rw [resourceSharesByDashboard, List.filter_filter, Store.sharesOf]
  apply List.filter_congr
  intro share _
  by_cases same : share.resourceId = id <;> simp [same, listed]

/-- The summary of a row, by the role that a load gives. -/
theorem summaryOf_eq_ok {rows : List Dashboard} {dashboard : Dashboard}
    (listed : dashboard ∈ rows) (entitled : Entitled store user dashboard) :
    ∃ summary role, summaryOf store user rows dashboard = .ok summary ∧
      effectiveRole dashboard.userId user.id
        ((store.sharesOf dashboard.id).map ShareRow.toResourceShare) = some role ∧
      summary.id = dashboard.id ∧ summary.canEdit = canEdit role ∧
      summary.canManageShares = canManageShares role := by
  obtain ⟨role, resolved⟩ := exists_role entitled
  have own := resourceSharesByDashboard_eq store (List.mem_map_of_mem (f := Dashboard.id) listed)
  rw [summaryOf]
  simp only [own, resolved]
  exact ⟨_, role, rfl, rfl, rfl, rfl, rfl⟩

/-- A query of summaries does not fail, and each summary is that of a row. -/
theorem Summaries.eq_ok {answer : Except HttpError (List DashboardSummary)}
    (answered : Summaries store user answer) :
    ∃ rows summaries, answer = .ok summaries ∧
      (∀ dashboard, dashboard ∈ rows ↔ dashboard ∈ summaryRows store user) ∧
      ∀ summary, summary ∈ summaries ↔
        ∃ dashboard ∈ rows, summaryOf store user rows dashboard = .ok summary := by
  obtain ⟨rows, ordered, rfl⟩ := answered
  have sameRows := fun dashboard => ordered.perm.mem_iff (a := dashboard)
  have succeeds : ∀ dashboard ∈ rows, ∃ summary,
      summaryOf store user rows dashboard = .ok summary := by
    intro dashboard listed
    have entitled := (mem_summaryRows.mp ((sameRows dashboard).mp listed)).2.2
    obtain ⟨summary, _, made, _⟩ := summaryOf_eq_ok listed entitled
    exact ⟨summary, made⟩
  obtain ⟨summaries, ran, same⟩ := exists_mapM succeeds
  exact ⟨rows, summaries, ran, sameRows, same⟩

/-- Every answer has a summary of the dashboard. -/
def InSummaries (store : Store) (user : User) (id : Uuid) : Prop :=
  ∀ answer, Summaries store user answer →
    ∃ summaries, answer = .ok summaries ∧ ∃ summary ∈ summaries, summary.id = id

theorem listedBefore_asymm (user : User) (dashboard other : Dashboard)
    (before : listedBefore user dashboard other) : ¬ listedBefore user other dashboard := by
  unfold listedBefore at *
  grind

theorem listedBefore_between (user : User) (dashboard middle other : Dashboard)
    (before : listedBefore user dashboard other) :
    listedBefore user dashboard middle ∨ listedBefore user middle other := by
  unfold listedBefore at *
  grind

/-- The query has an answer. -/
theorem exists_summaries (store : Store) (user : User) : ∃ answer, Summaries store user answer := by
  classical
  exact ⟨_, _, OrderedBy.insertionSort (listedBefore_asymm user) (listedBefore_between user) _, rfl⟩

theorem inSummaries_iff : InSummaries store user id ↔ Accessible store user id := by
  constructor
  · intro shown
    obtain ⟨answer, answered⟩ := exists_summaries store user
    obtain ⟨summaries, succeeded, summary, listed, named⟩ := shown answer answered
    obtain ⟨rows, others, succeeded', sameRows, made⟩ := answered.eq_ok
    cases succeeded.symm.trans succeeded'
    obtain ⟨dashboard, inRows, ran⟩ := (made summary).mp listed
    obtain ⟨present, live, entitled⟩ := mem_summaryRows.mp ((sameRows dashboard).mp inRows)
    obtain ⟨other, _, ran', _, sameId, _⟩ := summaryOf_eq_ok inRows entitled
    cases ran.symm.trans ran'
    exact ⟨dashboard, present, sameId.symm.trans named, live, entitled⟩
  · rintro ⟨dashboard, present, named, live, entitled⟩ answer answered
    obtain ⟨rows, summaries, succeeded, sameRows, made⟩ := answered.eq_ok
    have inRows := (sameRows dashboard).mpr (mem_summaryRows.mpr ⟨present, live, entitled⟩)
    obtain ⟨summary, _, ran, _, sameId, _⟩ := summaryOf_eq_ok inRows entitled
    exact ⟨summaries, succeeded, summary, (made summary).mpr ⟨dashboard, inRows, ran⟩,
      sameId.trans named⟩

/-- **The rights a summary reports** are those of the role that a load gives. -/
theorem summary_rights {summaries : List DashboardSummary}
    (answered : Summaries store user (.ok summaries)) {summary : DashboardSummary}
    (listed : summary ∈ summaries) {dashboard : Dashboard} {shares : List ShareRow}
    {role : EffectiveRole}
    (loaded : loadDashboardAccess store summary.id user = .ok (dashboard, shares, role)) :
    summary.canEdit = canEdit role ∧ summary.canManageShares = canManageShares role := by
  obtain ⟨rows, others, succeeded, sameRows, made⟩ := answered.eq_ok
  cases succeeded
  obtain ⟨row, inRows, ran⟩ := (made summary).mp listed
  obtain ⟨present, live, entitled⟩ := mem_summaryRows.mp ((sameRows row).mp inRows)
  obtain ⟨other, given, ran', resolved, sameId, edits, manages⟩ := summaryOf_eq_ok inRows entitled
  cases ran.symm.trans ran'
  obtain ⟨⟨loadedRow, named, _⟩, _, resolved'⟩ := loadDashboardAccess_eq_ok.mp loaded
  cases eq_of_id loadedRow present (named.trans sameId)
  cases resolved.symm.trans resolved'
  exact ⟨edits, manages⟩

/-! ## Preferences -/

/-- What is read of a list of texts, after what was seen: the id of each, once. -/
structure ReadsIds (seen : List Uuid) (texts : List String) (ids : List Uuid) : Prop where
  nodup : ids.Nodup
  keeps : ∀ id ∈ seen, id ∈ ids
  reads : ∀ text ∈ texts, ∃ id ∈ ids, Uuid.read text = some id
  only : ∀ id ∈ ids, id ∈ seen ∨ ∃ text ∈ texts, Uuid.read text = some id

theorem readIds_eq_ok {seen ids : List Uuid} {texts : List String} (distinct : seen.Nodup)
    (ran : readIds seen texts = .ok ids) : ReadsIds seen texts ids := by
  induction texts generalizing seen with
  | nil =>
      cases ran
      exact ⟨distinct, fun _ => id, by simp, fun _ => .inl⟩
  | cons text rest ih =>
      rw [readIds] at ran
      split at ran
      next => cases ran
      next id found =>
        split at ran
        next old =>
          have later := ih distinct ran
          refine ⟨later.nodup, later.keeps, ?_, ?_⟩
          · exact List.forall_mem_cons.mpr ⟨⟨id, later.keeps id old, found⟩, later.reads⟩
          · intro other member
            exact (later.only other member).imp_right fun ⟨text, among, same⟩ =>
              ⟨text, List.mem_cons_of_mem _ among, same⟩
        next new =>
          have extended : (seen ++ [id]).Nodup := by
            rw [← List.concat_eq_append]
            exact List.Nodup.concat new distinct
          have later := ih extended ran
          refine ⟨later.nodup, ?_, ?_, ?_⟩
          · exact fun other member => later.keeps other (List.mem_append_left _ member)
          · have kept := later.keeps id (List.mem_append_right _ (List.mem_singleton.mpr rfl))
            exact List.forall_mem_cons.mpr ⟨⟨id, kept, found⟩, later.reads⟩
          · intro other member
            rcases later.only other member with before | ⟨text, among, same⟩
            · rcases List.mem_append.mp before with before | added
              · exact .inl before
              · rw [List.mem_singleton.mp added]
                exact .inr ⟨text, List.mem_cons_self, found⟩
            · exact .inr ⟨text, List.mem_cons_of_mem _ among, same⟩

theorem exists_readIds {texts : List String} (seen : List Uuid)
    (readable : ∀ text ∈ texts, ∃ id, Uuid.read text = some id) :
    ∃ ids, readIds seen texts = .ok ids := by
  induction texts generalizing seen with
  | nil => exact ⟨seen, rfl⟩
  | cons text rest ih =>
      obtain ⟨id, found⟩ := readable text List.mem_cons_self
      have others := fun seen => ih seen fun text member =>
        readable text (List.mem_cons_of_mem _ member)
      rw [readIds]
      simp only [found]
      split
      next => exact others seen
      next => exact others (seen ++ [id])

/-- The rows that are read for some ids. -/
abbrev liveRows (store : Store) (ids : List Uuid) : List Dashboard :=
  store.dashboards.filter fun dashboard => dashboard.id ∈ ids ∧ dashboard.deletedAt = none

/-- As many rows as ids: each id has a row. -/
theorem length_liveRows {ids : List Uuid} (distinct : ids.Nodup) :
    ((liveRows store ids).map Dashboard.id).dedup.length = ids.length ↔
      ∀ id ∈ ids, ∃ dashboard ∈ store.dashboards, dashboard.id = id ∧
        dashboard.deletedAt = none := by
  have rowIds : ((liveRows store ids).map Dashboard.id).Nodup :=
    store.unique.sublist (List.filter_sublist.map _)
  have within : (liveRows store ids).map Dashboard.id ⊆ ids := by
    intro id member
    obtain ⟨dashboard, found, rfl⟩ := List.mem_map.mp member
    exact (by simpa using (List.mem_filter.mp found).2 : dashboard.id ∈ ids ∧ _).1
  rw [List.dedup_eq_self.mpr rowIds]
  constructor
  · intro same id member
    have perm := (List.subperm_of_subset rowIds within).perm_of_length_le same.ge
    obtain ⟨dashboard, found, named⟩ := List.mem_map.mp (perm.mem_iff.mpr member)
    obtain ⟨present, fits⟩ := List.mem_filter.mp found
    exact ⟨dashboard, present, named, (by simpa using fits : _ ∧ dashboard.deletedAt = none).2⟩
  · intro live
    have covers : ids ⊆ (liveRows store ids).map Dashboard.id := by
      intro id member
      obtain ⟨dashboard, present, named, alive⟩ := live id member
      refine List.mem_map.mpr ⟨dashboard, List.mem_filter.mpr ⟨present, ?_⟩, named⟩
      simpa [named, alive] using member
    exact le_antisymm (List.subperm_of_subset rowIds within).length_le
      (List.subperm_of_subset distinct covers).length_le

/-- The owner that is read for an id is that of its row. -/
theorem ownerById_eq {ids : List Uuid} {dashboard : Dashboard}
    (present : dashboard ∈ store.dashboards)
    (alive : dashboard.deletedAt = none) (member : dashboard.id ∈ ids) :
    ownerById (liveRows store ids) dashboard.id = some dashboard.userId := by
  have listed : dashboard ∈ liveRows store ids :=
    List.mem_filter.mpr ⟨present, by simpa [alive] using member⟩
  unfold ownerById
  cases found : (liveRows store ids).find? fun row => decide (row.id = dashboard.id) with
  | none =>
      rw [List.find?_eq_none] at found
      exact absurd (decide_eq_true rfl) (found dashboard listed)
  | some other =>
      have sameId : other.id = dashboard.id := by simpa using List.find?_some found
      have alsoPresent := (List.mem_filter.mp (List.mem_of_find?_eq_some found)).1
      rw [eq_of_id alsoPresent present sameId]
      rfl

/-- **The check of preferences** accepts texts that all name accessible dashboards. -/
theorem normalize_iff {texts : List String} :
    (∃ normalized, normalizeAccessibleDashboardIds store texts user = .ok normalized) ↔
      ∀ text ∈ texts, ∃ id, Uuid.read text = some id ∧ Accessible store user id := by
  constructor
  · rintro ⟨normalized, ran⟩ text among
    unfold normalizeAccessibleDashboardIds at ran
    split at ran
    next => cases ran
    next ids read =>
      have reads := readIds_eq_ok .nil read
      dsimp only at ran
      split_ifs at ran with missing refused
      obtain ⟨id, member, named⟩ := reads.reads text among
      obtain ⟨dashboard, present, rfl, alive⟩ :=
        (length_liveRows reads.nodup).mp (not_not.mp missing) id member
      refine ⟨dashboard.id, named, dashboard, present, rfl, alive, ?_⟩
      by_cases owns : dashboard.userId = user.id
      · exact .inl owns
      · have owner := ownerById_eq present alive member
        have direct : dashboard.id ∈ ids.filter fun id =>
            ownerById (liveRows store ids) id ≠ some user.id := by
          simpa [owner, owns] using member
        have shared := by_contra fun unshared => refused ⟨_, direct, unshared⟩
        obtain ⟨share, found, same⟩ := List.mem_map.mp shared
        obtain ⟨inShares, fits⟩ := List.mem_filter.mp found
        obtain ⟨isDashboard, _, names⟩ := of_decide_eq_true fits
        exact .inr ⟨share, inShares, isDashboard, same, names⟩
  · intro accessible
    have readable : ∀ text ∈ texts, ∃ id, Uuid.read text = some id := by
      intro text among
      obtain ⟨id, named, _⟩ := accessible text among
      exact ⟨id, named⟩
    obtain ⟨ids, read⟩ := exists_readIds [] readable
    have reads := readIds_eq_ok .nil read
    have allowed : ∀ id ∈ ids, Accessible store user id := by
      intro id member
      rcases reads.only id member with seen | ⟨text, among, named⟩
      · cases seen
      · obtain ⟨other, named', access⟩ := accessible text among
        cases named.symm.trans named'
        exact access
    have live : ∀ id ∈ ids, ∃ dashboard ∈ store.dashboards,
        dashboard.id = id ∧ dashboard.deletedAt = none := by
      intro id member
      obtain ⟨dashboard, present, named, alive, _⟩ := allowed id member
      exact ⟨dashboard, present, named, alive⟩
    have whole := (length_liveRows reads.nodup).mpr live
    refine ⟨ids.map Uuid.text, ?_⟩
    simp only [normalizeAccessibleDashboardIds, read]
    rw [if_neg (not_not.mpr whole), if_neg]
    rintro ⟨id, direct, unshared⟩
    obtain ⟨member, fits⟩ := List.mem_filter.mp direct
    obtain ⟨dashboard, present, rfl, alive, entitled⟩ := allowed id member
    rw [ownerById_eq present alive member] at fits
    rcases entitled with owns | ⟨share, inShares, isDashboard, same, names⟩
    · simp [owns] at fits
    · apply unshared
      refine List.mem_map.mpr ⟨share, List.mem_filter.mpr ⟨inShares, ?_⟩, same⟩
      rw [← same] at direct
      exact decide_eq_true ⟨isDashboard, direct, names⟩

/-- What is kept of the texts are their ids, in canonical form. -/
theorem normalize_eq_ok {texts normalized : List String}
    (ran : normalizeAccessibleDashboardIds store texts user = .ok normalized) :
    ∃ ids, readIds [] texts = .ok ids ∧ normalized = ids.map Uuid.text := by
  unfold normalizeAccessibleDashboardIds at ran
  split at ran
  next => cases ran
  next ids read =>
    dsimp only at ran
    split_ifs at ran
    cases ran
    exact ⟨ids, read, rfl⟩

/-- Preferences accept an id when the dashboard is accessible, and keep its text. -/
theorem accepted_iff : normalizeAccessibleDashboardIds store [id.text] user = .ok [id.text] ↔
    Accessible store user id := by
  constructor
  · intro accepted
    obtain ⟨other, named, accessible⟩ := normalize_iff.mp ⟨_, accepted⟩ id.text (by simp)
    cases (Uuid.read_text id).symm.trans named
    exact accessible
  · intro accessible
    obtain ⟨normalized, ran⟩ := normalize_iff.mpr fun text (among : text ∈ [id.text]) =>
      ⟨id, by rw [List.mem_singleton.mp among, Uuid.read_text], accessible⟩
    obtain ⟨ids, read, rfl⟩ := normalize_eq_ok ran
    have single : readIds [] [id.text] = .ok [id] := by simp [readIds, Uuid.read_text]
    cases read.symm.trans single
    exact ran

/-- **All access paths agree.** Whatever the tables hold, a dashboard loads for a user
exactly when it is listed, shown in the summaries, live with the user in its audience, and
accepted in their preferences. The rights a summary reports are those of the loaded role. -/
theorem access_paths_agree (store : Store) (user : User) (id : Uuid) :
    List.TFAE [
      ∃ access, loadDashboardAccess store id user = .ok access,
      id ∈ listAccessibleDashboardIds store user,
      InSummaries store user id,
      InAudience store user id,
      normalizeAccessibleDashboardIds store [id.text] user = .ok [id.text]] ∧
    ∀ summaries, Summaries store user (.ok summaries) → ∀ summary ∈ summaries, summary.id = id →
      ∀ dashboard shares role, loadDashboardAccess store id user = .ok (dashboard, shares, role) →
        summary.canEdit = canEdit role ∧ summary.canManageShares = canManageShares role := by
  constructor
  · rw [load_iff, listed_iff, inSummaries_iff, inAudience_iff, accepted_iff]
    intro path among other alsoAmong
    have same : path ↔ Accessible store user id := by simpa using among
    have alsoSame : other ↔ Accessible store user id := by simpa using alsoAmong
    exact same.trans alsoSame.symm
  · rintro summaries answered summary listed rfl dashboard shares role loaded
    exact summary_rights answered listed loaded

end FrontDashboard.Access
