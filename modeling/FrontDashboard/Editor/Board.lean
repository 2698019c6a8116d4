import FrontDashboard.Library.Ledger

/-! # Dashboards on the server

A dashboard has a name, widgets and a versioned layout. Every write of the layout
or of the widget set bumps the version; a write of a widget's configuration or of
the name does not. Each write sends a frame to the other clients.
-/

namespace FrontDashboard.Editor

/-- An entry of a layout: the widget `i` and its place on the grid. -/
structure LayoutItem where
  i : Nat
  x : Nat
  y : Nat
  w : Nat
  h : Nat
  deriving DecidableEq, Repr

/-- A widget, with the list it is bound to. -/
structure DashboardWidget where
  id : Nat
  resourceId : Option Nat
  config : String
  deriving DecidableEq, Repr

/-- The entry of a widget. -/
def entry (layout : List LayoutItem) (id : Nat) : Option LayoutItem :=
  layout.find? fun item => item.i = id

/-- A dashboard row with its widgets. -/
structure Board where
  name : String
  widgets : List DashboardWidget
  layout : Ledger (List LayoutItem)

/-- What a client may be told of a write. -/
inductive Frame
  /-- `dashboard.updated` with `layout` alone. -/
  | layout (dashboard version : Nat) (own : Bool)
  /-- `dashboard.updated` with `widgets` and `layout`. -/
  | widgets (dashboard : Nat) (own : Bool)
  /-- `dashboard.updated` with `widgets` alone and the widget's configuration. -/
  | config (dashboard widget : Nat) (config : String) (own : Bool)
  /-- `dashboard.updated` with `name`. -/
  | name (dashboard : Nat) (own : Bool)
  /-- A share frame; one the client need not act on counts as its own. -/
  | shares (dashboard : Nat) (own : Bool)
  /-- `dashboard.deleted`. -/
  | deleted (dashboard : Nat)
  /-- `list.deleted`. The frame does not carry the widgets removed with the list, nor
  the version that left; they are recorded to speak about it. -/
  | listDeleted (dashboard list : Nat) (removed : List Nat) (version : Nat)
  deriving DecidableEq, Repr

/-- `getEventDashboardId`. -/
def Frame.dashboard : Frame → Nat
  | .layout dashboard _ _ | .widgets dashboard _ | .config dashboard _ _ _ | .name dashboard _
  | .shares dashboard _ | .deleted dashboard | .listDeleted dashboard _ _ _ => dashboard

/-- The writes of a dashboard. -/
inductive Write
  | layout (items : List LayoutItem)
  | add (widget : DashboardWidget) (item : LayoutItem)
  | remove (widget : Nat)
  | config (widget : Nat) (config : String)
  | name (name : String)
  | shares (ignored : Bool)
  | delete
  | deleteList (list : Nat)
  deriving DecidableEq, Repr

namespace Board

/-- The widgets bound to a list. -/
def boundTo (list : Nat) (widgets : List DashboardWidget) : List Nat :=
  (widgets.filter fun widget => widget.resourceId = some list).map (·.id)

/-- `remove_resource_widgets`, for the dashboard the list belongs to. -/
def removeResourceWidgets (list : Nat) (board : Board) : Board :=
  let removed := boundTo list board.widgets
  if removed = [] then board
  else
    { board with
      widgets := board.widgets.filter fun widget => widget.resourceId ≠ some list
      layout := board.layout.write (board.layout.current.filter fun item => item.i ∉ removed) }

/-- The effect of a write, or none where the route refuses it: a list is on a
dashboard at most once, and a widget is removed or configured only where it is. -/
def apply (write : Write) (board : Board) : Option Board :=
  match write with
  | .layout items => some { board with layout := board.layout.write items }
  | .add widget item =>
      if widget.id ∉ board.widgets.map (·.id) ∧ item.i = widget.id ∧
          ∀ list ∈ widget.resourceId, boundTo list board.widgets = [] then
        some { board with
          widgets := board.widgets ++ [widget]
          layout := board.layout.write (board.layout.current ++ [item]) }
      else none
  | .remove id =>
      if id ∈ board.widgets.map (·.id) then
        some { board with
          widgets := board.widgets.filter fun widget => widget.id ≠ id
          layout := board.layout.write (board.layout.current.filter fun item => item.i ≠ id) }
      else none
  | .config id config =>
      if id ∈ board.widgets.map (·.id) then
        some { board with
          widgets := board.widgets.map fun widget =>
            if widget.id = id then { widget with config } else widget }
      else none
  | .name name => some { board with name }
  | .shares _ => some board
  | .delete => some board
  | .deleteList list => some (board.removeResourceWidgets list)

/-- The frame a write sends, given the dashboard before and after it. -/
def frame (dashboard : Nat) (write : Write) (before after : Board) (own : Bool) : Frame :=
  match write with
  | .layout _ => .layout dashboard after.layout.version own
  | .add _ _ => .widgets dashboard own
  | .remove _ => .widgets dashboard own
  | .config id config => .config dashboard id config own
  | .name _ => .name dashboard own
  | .shares ignored => .shares dashboard (own || ignored)
  | .delete => .deleted dashboard
  | .deleteList list =>
      .listDeleted dashboard list (boundTo list before.widgets) after.layout.version

/-- Writes keep the versions there are. -/
theorem extends_apply {write : Write} {board after : Board}
    (applied : board.apply write = some after) : after.layout.Extends board.layout := by
  cases write with
  | layout items =>
      cases applied
      exact Ledger.extends_write _ _
  | add widget item =>
      simp only [apply] at applied
      split at applied
      · cases applied
        exact Ledger.extends_write _ _
      · cases applied
  | remove id =>
      simp only [apply] at applied
      split at applied
      · cases applied
        exact Ledger.extends_write _ _
      · cases applied
  | config id config =>
      simp only [apply] at applied
      split at applied
      · cases applied
        exact Ledger.Extends.refl _
      · cases applied
  | name name =>
      cases applied
      exact Ledger.Extends.refl _
  | shares ignored =>
      cases applied
      exact Ledger.Extends.refl _
  | delete =>
      cases applied
      exact Ledger.Extends.refl _
  | deleteList list =>
      simp only [apply, removeResourceWidgets] at applied
      split at applied
      · cases applied
        exact Ledger.Extends.refl _
      · cases applied
        exact Ledger.extends_write _ _

end Board

end FrontDashboard.Editor
