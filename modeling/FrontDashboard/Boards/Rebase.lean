import FrontDashboard.Boards.Grid
import FrontDashboard.Editor.LostUpdate

/-! # A layout rebased on the server's

After a conflict the client lays its entries over the server's layout and saves the
result. Entries are merged by their ids and not moved, so the result is a layout of the
grid exactly when no entry of the client lies on one that only the server has.
-/

namespace FrontDashboard.Boards

/-- The entry that a map by ids holds: the last one of the id. -/
def lastEntry (layout : Layout) (id : String) : Option LayoutItem :=
  layout.reverse.find? fun item => item.i = id

/-- `rebaseLayout`, once the dashboard is read again. -/
def rebaseLayout (server layout : Layout) : Layout :=
  (server.map fun item => (lastEntry layout item.i).getD item) ++
    layout.filter fun item => item.i ∉ server.map LayoutItem.i

variable {server ours layout : Layout} {item : LayoutItem} {id : String}

theorem lastEntry_i (found : lastEntry layout id = some item) : item.i = id := by
  have matched := List.find?_some found
  exact of_decide_eq_true matched

theorem mem_of_lastEntry (found : lastEntry layout id = some item) : item ∈ layout :=
  List.mem_reverse.mp (List.mem_of_find?_eq_some found)

theorem lastEntry_eq_none_iff : lastEntry layout id = none ↔ id ∉ layout.map LayoutItem.i := by
  simp [lastEntry, List.find?_eq_none]

/-- Under ids of their own each entry is the last of its id. -/
theorem lastEntry_of_mem (unique : (layout.map LayoutItem.i).Nodup) (member : item ∈ layout) :
    lastEntry layout item.i = some item := by
  cases found : lastEntry layout item.i with
  | none => exact absurd (List.mem_map_of_mem member) (lastEntry_eq_none_iff.mp found)
  | some other =>
      rw [List.inj_on_of_nodup_map unique (mem_of_lastEntry found) member (lastEntry_i found)]

theorem rebaseLayout_ids (server ours : Layout) :
    (rebaseLayout server ours).map LayoutItem.i =
      server.map LayoutItem.i ++
        (ours.filter fun item => item.i ∉ server.map LayoutItem.i).map LayoutItem.i := by
  rw [rebaseLayout, List.map_append, List.map_map]
  congr 1
  apply List.map_congr_left
  intro item _
  rw [Function.comp_apply]
  cases found : lastEntry ours item.i with
  | none => rfl
  | some other => exact lastEntry_i found

theorem mem_rebaseLayout_ids :
    id ∈ (rebaseLayout server ours).map LayoutItem.i ↔
      id ∈ server.map LayoutItem.i ∨ id ∈ ours.map LayoutItem.i := by
  rw [rebaseLayout_ids, List.mem_append]
  constructor
  · rintro (known | added)
    · exact Or.inl known
    · exact Or.inr ((List.filter_sublist.map _).mem added)
  · rintro (known | mine)
    · exact Or.inl known
    · by_cases known : id ∈ server.map LayoutItem.i
      · exact Or.inl known
      · obtain ⟨item, member, rfl⟩ := List.mem_map.mp mine
        exact Or.inr (List.mem_map_of_mem (List.mem_filter.mpr ⟨member, decide_eq_true known⟩))

/-- **Each id once**, the server's first. -/
theorem rebaseLayout_unique (serverUnique : (server.map LayoutItem.i).Nodup)
    (unique : (ours.map LayoutItem.i).Nodup) :
    ((rebaseLayout server ours).map LayoutItem.i).Nodup := by
  rw [rebaseLayout_ids, List.nodup_append']
  refine ⟨serverUnique, unique.sublist (List.filter_sublist.map _), ?_⟩
  intro id known added
  obtain ⟨item, member, rfl⟩ := List.mem_map.mp added
  have unknown := List.of_mem_filter member
  rw [decide_eq_true_eq] at unknown
  exact unknown known

/-- **The entries** are ours, and of the server's those that we have none for. -/
theorem mem_rebaseLayout (unique : (ours.map LayoutItem.i).Nodup) :
    item ∈ rebaseLayout server ours ↔
      item ∈ ours ∨ item ∈ server ∧ item.i ∉ ours.map LayoutItem.i := by
  rw [rebaseLayout, List.mem_append, List.mem_map, List.mem_filter, decide_eq_true_eq]
  constructor
  · rintro (⟨theirs, member, rfl⟩ | ⟨mine, -⟩)
    · cases found : lastEntry ours theirs.i with
      | none => exact Or.inr ⟨member, lastEntry_eq_none_iff.mp found⟩
      | some mine => exact Or.inl (mem_of_lastEntry found)
    · exact Or.inl mine
  · rintro (mine | ⟨theirs, absent⟩)
    · by_cases known : item.i ∈ server.map LayoutItem.i
      · obtain ⟨theirs, member, same⟩ := List.mem_map.mp known
        exact Or.inl ⟨theirs, member, by rw [same, lastEntry_of_mem unique mine, Option.getD_some]⟩
      · exact Or.inr ⟨mine, known⟩
    · exact Or.inl ⟨item, theirs, by rw [lastEntry_eq_none_iff.mpr absent, Option.getD_none]⟩

/-! ## The merged layout -/

/-- No entry of ours lies on an entry that only the server has. -/
def ClearOfOthers (server ours : Layout) : Prop :=
  ∀ mine ∈ ours, ∀ theirs ∈ server, theirs.i ∉ ours.map LayoutItem.i →
    ¬ mine.toBox.Overlaps theirs.toBox

theorem rebaseLayout_fits (stored : WellFormed server) (saved : WellFormed ours)
    (member : item ∈ rebaseLayout server ours) : item.toBox.Fits gridColumns gridRows := by
  rcases (mem_rebaseLayout saved.unique).mp member with mine | ⟨theirs, -⟩
  · exact saved.fits mine
  · exact stored.fits theirs

/-- **The rebased layout is well formed** exactly when no entry of ours lies on one that
only the server has. -/
theorem rebaseLayout_wellFormed_iff (stored : WellFormed server) (saved : WellFormed ours) :
    WellFormed (rebaseLayout server ours) ↔ ClearOfOthers server ours := by
  have entries {item : LayoutItem} := @mem_rebaseLayout server ours item saved.unique
  constructor
  · intro formed mine inOurs theirs inServer absent overlap
    have same := formed.eq_of_overlaps (entries.mpr (Or.inl inOurs))
      (entries.mpr (Or.inr ⟨inServer, absent⟩)) overlap
    exact absent (same ▸ List.mem_map_of_mem inOurs)
  · intro clear
    have unique := rebaseLayout_unique stored.unique saved.unique
    refine ⟨⟨List.forall_mem_map.mpr fun item => rebaseLayout_fits stored saved,
      List.pairwise_map.mpr ?_⟩, unique⟩
    apply (List.Nodup.of_map _ unique).pairwise_of_forall_ne
    intro item member other among different overlap
    rcases entries.mp member with mine | ⟨theirs, absent⟩
    · rcases entries.mp among with alsoMine | ⟨theirs, absent⟩
      · exact different (saved.eq_of_overlaps mine alsoMine overlap)
      · exact clear item mine other theirs absent overlap
    · rcases entries.mp among with mine | ⟨alsoTheirs, -⟩
      · exact clear other mine item theirs absent overlap.symm
      · exact different (stored.eq_of_overlaps theirs alsoTheirs overlap)

/-- **A rebase merges two layouts** that the write path takes. Each entry of the server's
has one entry under its id, ours are placed as we placed them, the rest as the server has
them, and there is none for a widget that neither layout names. The write path takes the
result exactly when no entry of ours lies on one that only the server has. -/
theorem rebaseLayout_merges (stored : Accepted server) (saved : Accepted ours) :
    (∀ item ∈ server, ((rebaseLayout server ours).map LayoutItem.i).count item.i = 1) ∧
    (∀ item, item ∈ rebaseLayout server ours ↔
      item ∈ ours ∨ item ∈ server ∧ item.i ∉ ours.map LayoutItem.i) ∧
    ((rebaseLayout server ours).map LayoutItem.i).Nodup ∧
    (∀ item ∈ rebaseLayout server ours, item.toBox.Fits gridColumns gridRows) ∧
    (∀ widgets : List String, (∀ item ∈ rebaseLayout server ours, item.i ∈ widgets) ↔
      (∀ item ∈ server, item.i ∈ widgets) ∧ ∀ item ∈ ours, item.i ∈ widgets) ∧
    (Accepted (rebaseLayout server ours) ↔ ClearOfOthers server ours) := by
  rw [accepted_iff] at stored saved
  have unique := rebaseLayout_unique stored.unique saved.unique
  have entries {item : LayoutItem} := @mem_rebaseLayout server ours item saved.unique
  refine ⟨fun item member => ?_, fun item => entries, unique,
    fun item => rebaseLayout_fits stored saved, fun widgets => ?_,
    accepted_iff.trans (rebaseLayout_wellFormed_iff stored saved)⟩
  · have known := List.mem_map_of_mem (f := LayoutItem.i) member
    exact List.count_eq_one_of_mem unique (mem_rebaseLayout_ids.mpr (Or.inl known))
  · have byId (layout : Layout) : (∀ item ∈ layout, item.i ∈ widgets) ↔
        ∀ id ∈ layout.map LayoutItem.i, id ∈ widgets := List.forall_mem_map.symm
    simp only [byId, mem_rebaseLayout_ids, or_imp, forall_and]

/-- The client of a board with one widget, and the board after another editor put a second
one beside it and took a third one away. -/
def dragged : Layout := [⟨⟨4, 0, 4, 4⟩, "a"⟩, ⟨⟨12, 0, 4, 4⟩, "c"⟩]

def editedElsewhere : Layout := [⟨⟨0, 0, 4, 4⟩, "a"⟩, ⟨⟨4, 0, 4, 4⟩, "b"⟩]

/-- The dragged widget lands on the one that was added, and the one that was removed is
back in the layout. -/
theorem rebaseLayout_overlaps :
    Accepted editedElsewhere ∧ Accepted dragged ∧
      ¬ Accepted (rebaseLayout editedElsewhere dragged) ∧
      ∃ item ∈ rebaseLayout editedElsewhere dragged, item.i ∉ ["a", "b"] := by
  decide +kernel

/-- Dragged elsewhere, it is taken. -/
theorem rebaseLayout_merges_apart :
    Accepted (rebaseLayout editedElsewhere [⟨⟨0, 4, 4, 4⟩, "a"⟩]) := by
  have merges := @rebaseLayout_merges editedElsewhere [⟨⟨0, 4, 4, 4⟩, "a"⟩]
    (by decide +kernel) (by decide +kernel)
  exact merges.2.2.2.2.2.mpr (by unfold ClearOfOthers; decide +kernel)

/-! ## The rebase of the editor -/

/-- An entry of the editor, under the text of its widget's id. -/
def named (name : Nat → String) (item : Editor.LayoutItem) : LayoutItem :=
  ⟨⟨item.x, item.y, item.w, item.h⟩, name item.i⟩

theorem lastEntry_named {name : Nat → String} (injective : Function.Injective name)
    {items : List Editor.LayoutItem} (unique : (items.map (·.i)).Nodup) (id : Nat) :
    lastEntry (items.map (named name)) (name id) = (Editor.entry items id).map (named name) := by
  have uniqueNames : ((items.map (named name)).map LayoutItem.i).Nodup := by
    rw [List.map_map]
    have texts := unique.map injective
    rwa [List.map_map] at texts
  cases found : Editor.entry items id with
  | none =>
      rw [Option.map_none, lastEntry_eq_none_iff, List.map_map]
      intro member
      obtain ⟨item, among, same⟩ := List.mem_map.mp member
      have absent : id ∉ items.map (·.i) := by
        rw [← Editor.entry_isSome, found]
        nofun
      exact absent (injective same ▸ List.mem_map_of_mem (f := (·.i)) among)
  | some item =>
      have member := List.mem_map_of_mem (f := named name) (List.mem_of_find?_eq_some found)
      rw [Option.map_some, ← Editor.entry_i found]
      exact lastEntry_of_mem uniqueNames member

/-- **The rebase of the editor** is this one. -/
theorem rebase_named {name : Nat → String} (injective : Function.Injective name)
    (server ours : Editor.Arrangement) (unique : (ours.items.map (·.i)).Nodup) :
    (server.rebase ours).items.map (named name) =
      rebaseLayout (server.items.map (named name)) (ours.items.map (named name)) := by
  rw [Editor.Arrangement.rebase, rebaseLayout, List.map_append, List.map_map, List.map_map]
  congr 1
  · apply List.map_congr_left
    intro item _
    simp only [Function.comp_apply]
    change named name _ = (lastEntry _ (name item.i)).getD (named name item)
    rw [lastEntry_named injective unique]
    cases Editor.entry ours.items item.i <;> rfl
  · rw [List.filter_map]
    congr 1
    apply List.filter_congr
    intro item _
    have names : ((server.items.map (named name)).map LayoutItem.i) =
        (server.items.map (·.i)).map name := by
      rw [List.map_map, List.map_map]
      rfl
    simp only [Function.comp_apply, names, named, List.mem_map_of_injective injective]

end FrontDashboard.Boards
