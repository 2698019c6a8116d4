import FrontDashboard.Appending.Routes

/-! # What a lock on the parent keeps

Orders enter a parent in two ways: a row is appended, under the lock of the parent, or
rows that were there are moved. While the lock is held and nothing is moved the orders
can only become fewer.
-/

namespace FrontDashboard.Appending

open ReadCommitted
open Boards (DashboardId ListId)

namespace Tables

variable {tables : Tables}

theorem mem_orders_dashboard {id : DashboardId} {order : Nat} :
    order ∈ tables.orders (.dashboard id) ↔
      ∃ row ∈ tables.lists, (row.dashboardId = id ∧ row.deletedAt = none) ∧
        row.sortOrder = order := by
  simp [orders, liveLists, and_assoc]

theorem mem_orders_list {id : ListId} {order : Nat} :
    order ∈ tables.orders (.list id) ↔
      ∃ item ∈ tables.items, item.listId = id ∧ item.sortOrder = order := by
  simp [orders, itemsOf, and_assoc]

/-- Rows of a parent that are each as one was before bring no order with them. -/
theorem orders_subset {before after : Tables} {parent : Parent}
    (lists : ∀ row ∈ after.lists, parent = .dashboard row.dashboardId → row.deletedAt = none →
      ∃ former ∈ before.lists, former.dashboardId = row.dashboardId ∧ former.deletedAt = none ∧
        former.sortOrder = row.sortOrder)
    (items : ∀ item ∈ after.items, parent = .list item.listId →
      ∃ former ∈ before.items, former.listId = item.listId ∧
        former.sortOrder = item.sortOrder) :
    after.orders parent ⊆ before.orders parent := by
  intro order member
  cases parent with
  | dashboard id =>
      obtain ⟨row, present, ⟨rfl, live⟩, rfl⟩ := mem_orders_dashboard.mp member
      obtain ⟨former, there, same, alive, placed⟩ := lists row present rfl live
      exact mem_orders_dashboard.mpr ⟨former, there, ⟨same, alive⟩, placed⟩
  | list id =>
      obtain ⟨item, present, rfl, rfl⟩ := mem_orders_list.mp member
      obtain ⟨former, there, same, placed⟩ := items item present rfl
      exact mem_orders_list.mpr ⟨former, there, same, placed⟩

theorem orders_eq {before after : Tables} (lists : after.lists = before.lists)
    (items : after.items = before.items) (parent : Parent) :
    after.orders parent = before.orders parent := by
  cases parent <;> simp [orders, liveLists, itemsOf, lists, items]

theorem subset_of_rows {before after : Tables} (lists : after.lists = before.lists)
    (items : after.items = before.items) (parent : Parent) :
    after.orders parent ⊆ before.orders parent := by
  rw [orders_eq lists items]
  exact List.Subset.refl _

/-- A write that neither appends to a parent nor moves its rows adds no order to it. -/
theorem orders_change {write : Write} {parent : Parent}
    (apart : ∀ order sight, write.appends ≠ some (parent, order, sight))
    (still : write.moved ≠ some parent) :
    (tables.change write).orders parent ⊆ tables.orders parent := by
  cases write with
  | insertList row sight =>
      refine orders_subset (fun other present own live => ?_) fun item present _ =>
        ⟨item, present, rfl, rfl⟩
      rcases List.mem_append.mp present with before | added
      · exact ⟨other, before, rfl, live, rfl⟩
      · obtain rfl := List.mem_singleton.mp added
        exact absurd (by rw [own]; rfl) (apart other.sortOrder sight)
  | insertItem item sight =>
      refine orders_subset (fun row present _ live => ⟨row, present, rfl, live, rfl⟩)
        fun other present own => ?_
      rcases List.mem_append.mp present with before | added
      · exact ⟨other, before, rfl, rfl⟩
      · obtain rfl := List.mem_singleton.mp added
        exact absurd (by rw [own]; rfl) (apart other.sortOrder sight)
  | renumberLists dashboard changed orderedIds updatedBy =>
      refine orders_subset (fun row present own live => ?_) fun item present _ =>
        ⟨item, present, rfl, rfl⟩
      obtain ⟨former, there, rfl⟩ := List.mem_map.mp present
      split_ifs at own live ⊢ with renumbered
      · exact absurd (by rw [own]; exact congrArg (some ∘ Parent.dashboard) renumbered.1.symm) still
      · exact ⟨former, there, rfl, live, rfl⟩
  | renumberItems list changed orderedIds updatedBy =>
      refine orders_subset (fun row present _ live => ⟨row, present, rfl, live, rfl⟩)
        fun item present own => ?_
      obtain ⟨former, there, rfl⟩ := List.mem_map.mp present
      split_ifs at own ⊢ with renumbered
      · exact absurd (by rw [own]; exact congrArg (some ∘ Parent.list) renumbered.1.symm) still
      · exact ⟨former, there, rfl, rfl⟩
  | trashList id moment =>
      refine orders_subset (fun row present own live => ?_) fun item present _ =>
        ⟨item, present, rfl, rfl⟩
      obtain ⟨former, there, rfl⟩ := List.mem_map.mp present
      split_ifs at live ⊢ with trashed
      exact ⟨former, there, rfl, live, rfl⟩
  | restoreList id dashboard updatedBy =>
      refine orders_subset (fun row present own live => ?_) fun item present _ =>
        ⟨item, present, rfl, rfl⟩
      obtain ⟨former, there, rfl⟩ := List.mem_map.mp present
      split_ifs at own live ⊢ with restored
      · exact absurd (by rw [own]; exact congrArg (some ∘ Parent.dashboard) restored.1.symm) still
      · exact ⟨former, there, rfl, live, rfl⟩
  | deleteItem id =>
      refine orders_subset (fun row present _ live => ⟨row, present, rfl, live, rfl⟩)
        fun item present _ => ⟨item, List.mem_of_mem_filter present, rfl, rfl⟩
  | insertWidget widget => exact subset_of_rows rfl rfl parent
  | deleteWidget id => exact subset_of_rows rfl rfl parent
  | editLayout dashboard layout version => exact subset_of_rows rfl rfl parent

/-- Nor does anything that other routes do. -/
theorem orders_happen (event : Event) (parent : Parent) :
    (tables.happen event).orders parent ⊆ tables.orders parent := by
  cases event with
  | dashboards rows => exact subset_of_rows rfl rfl parent
  | shares dashboard rows => exact subset_of_rows rfl rfl parent
  | widgets rows => exact subset_of_rows rfl rfl parent
  | editList id updatedBy =>
      refine orders_subset (fun row present _ live => ?_) fun item present _ =>
        ⟨item, present, rfl, rfl⟩
      obtain ⟨former, there, rfl⟩ := List.mem_map.mp present
      split_ifs at live ⊢ <;> exact ⟨former, there, rfl, live, rfl⟩
  | editItem id updatedBy =>
      refine orders_subset (fun row present _ live => ⟨row, present, rfl, live, rfl⟩)
        fun item present _ => ?_
      obtain ⟨former, there, rfl⟩ := List.mem_map.mp present
      split_ifs <;> exact ⟨former, there, rfl, rfl⟩
  | purge lists =>
      exact orders_subset
        (fun row present _ live => ⟨row, List.mem_of_mem_filter present, rfl, live, rfl⟩)
        fun item present _ => ⟨item, List.mem_of_mem_filter present, rfl, rfl⟩

end Tables

/-! ## What requests rely on -/

/-- The lock that is taken before a row is appended. -/
def Parent.lock : Parent → Lock
  | .dashboard id => .dashboard id
  | .list id => .list id

/-- Rows are counted as moved when they are, those of a locked list are not, and no order
enters a locked parent unless its rows are moved. -/
structure Undisturbed (held : Set Lock) (before after : Tables) : Prop where
  counted : ∀ parent, before.moves parent ≤ after.moves parent
  fixed : ∀ list, Lock.list list ∈ held → after.moves (.list list) = before.moves (.list list)
  kept : ∀ parent, parent.lock ∈ held → after.moves parent = before.moves parent →
    after.orders parent ⊆ before.orders parent

theorem Undisturbed.refl (held : Set Lock) (tables : Tables) : Undisturbed held tables tables :=
  ⟨fun _ => le_rfl, fun _ _ => rfl, fun _ _ _ => List.Subset.refl _⟩

theorem Undisturbed.trans {held : Set Lock} {first second third : Tables}
    (one : Undisturbed held first second) (other : Undisturbed held second third) :
    Undisturbed held first third where
  counted := fun parent => (one.counted parent).trans (other.counted parent)
  fixed := fun list own => (other.fixed list own).trans (one.fixed list own)
  kept := fun parent own same => by
    have before := one.counted parent
    have after := other.counted parent
    have middle : second.moves parent = first.moves parent := by omega
    exact List.Subset.trans (other.kept parent own (same.trans middle.symm))
      (one.kept parent own middle)

theorem moves_perform (tables : Tables) (write : Write) (parent : Parent) :
    (tables.perform write).moves parent =
      if write.moved = some parent then tables.moves parent + 1 else tables.moves parent :=
  rfl

theorem orders_perform (tables : Tables) (write : Write) (parent : Parent) :
    (tables.perform write).orders parent = (tables.change write).orders parent :=
  Tables.orders_eq rfl rfl parent

/-- **A write under the lock of its parent.** It disturbs nobody who holds other locks. -/
theorem undisturbed_perform {held others : Set Lock} (apart : Disjoint held others)
    {write : Write} (tables : Tables)
    (appends : ∀ parent order sight, write.appends = some (parent, order, sight) →
      parent.lock ∈ held)
    (moves : ∀ list, write.moved = some (.list list) → Lock.list list ∈ held) :
    Undisturbed others tables (tables.perform write) where
  counted := fun parent => by
    rw [moves_perform]
    split_ifs <;> omega
  fixed := fun list own => by
    rw [moves_perform, if_neg fun moved => Set.disjoint_left.mp apart (moves list moved) own]
  kept := fun parent own same => by
    rw [orders_perform]
    refine Tables.orders_change (fun order sight appended => ?_) fun moved => ?_
    · exact Set.disjoint_left.mp apart (appends parent order sight appended) own
    · rw [moves_perform, if_pos moved] at same
      omega

theorem undisturbed_happen (held : Set Lock) (tables : Tables) (event : Event) :
    Undisturbed held tables (tables.happen event) := by
  have moves : (tables.happen event).moves = tables.moves := by
    cases event <;> rfl
  exact ⟨fun parent => (congrFun moves parent).ge, fun list _ => congrFun moves _,
    fun parent _ _ => Tables.orders_happen event parent⟩

end FrontDashboard.Appending
