import FrontDashboard.Lists.Aspects

/-! # What the page makes of its copy

After each patch the copy is wrong about what it was wrong about before and the
patch leaves alone, or about what the message behind the patch is wrong about.
-/

namespace FrontDashboard.Lists

variable {server items : List ListItem} {aspect : Aspect}

/-! ## Orders -/

theorem orderByIds_eq_some {orderedIds : List ItemId} {result : List ListItem}
    (ordered : orderByIds items orderedIds = some result) :
    ids result = orderedIds ∧ result.Perm items :=
  Reorder.byKeys_eq_some ordered

theorem perm_ordered (orderedIds : List ItemId) (detail : ListDetail) :
    (detail.ordered orderedIds).items.Perm detail.items := by
  rw [ListDetail.ordered]
  dsimp only
  cases ordered : orderByIds detail.items orderedIds with
  | none => exact .refl _
  | some result => exact (orderByIds_eq_some ordered).2

/-- A copy in another order is wrong about the order alone. -/
theorem Aspect.Differs.of_perm {copy : List ListItem} (differs : aspect.Differs server copy)
    (perm : copy.Perm items) :
    aspect.Differs server items ∨ ∃ first second, aspect = .order first second := by
  have sameIds : (ids copy).Perm (ids items) := perm.map _
  cases aspect with
  | missing itemId => exact .inl ⟨differs.1, fun held => differs.2 (sameIds.mem_iff.mpr held)⟩
  | extra itemId => exact .inl ⟨sameIds.mem_iff.mp differs.1, differs.2⟩
  | field itemId column =>
      obtain ⟨item, member, rest⟩ := differs
      exact .inl ⟨item, perm.mem_iff.mp member, rest⟩
  | order first second => exact .inr ⟨first, second, rfl⟩

/-! ## Frames -/

/-- What a patch from a frame leaves wrong. -/
def PatchedBy (change : Change) (server items : List ListItem) (aspect : Aspect) : Prop :=
  change.Denied server aspect ∨ aspect.Differs server items ∧ ¬ change.Touches aspect

theorem differs_merged {itemId : ItemId} {values : ListItemUpdate} {detail : ListDetail}
    (differs : aspect.Differs server (detail.merged itemId values).items) :
    PatchedBy (.updated itemId values) server detail.items aspect := by
  have sameIds : ids (detail.merged itemId values).items = ids detail.items := ids_patched _ _ _
  cases aspect with
  | missing other =>
      refine .inr ⟨⟨differs.1, ?_⟩, id⟩
      rw [← sameIds]
      exact differs.2
  | extra other =>
      refine .inr ⟨⟨?_, differs.2⟩, id⟩
      rw [← sameIds]
      exact differs.1
  | field other column =>
      obtain ⟨item, member, held, present, named, named', unequal⟩ := differs
      obtain ⟨old, before, rfl⟩ := List.mem_map.mp member
      by_cases hit : old.id = itemId
      · rw [if_pos hit] at named unequal
        have same : other = itemId := named.symm.trans hit
        cases isSet : values.set column with
        | none =>
            refine .inr ⟨⟨old, before, held, present, named, named', ?_⟩, ?_⟩
            · simpa [ListItem.patch, isSet] using unequal
            · rintro ⟨-, touched⟩
              rw [isSet] at touched
              cases touched
        | some value =>
            refine .inl ⟨same, held, present, named', value, isSet, fun agrees => unequal ?_⟩
            simp [ListItem.patch, isSet, agrees]
      · rw [if_neg hit] at named unequal
        refine .inr ⟨⟨old, before, held, present, named, named', unequal⟩, ?_⟩
        rintro ⟨same, -⟩
        exact hit (named.trans same)
  | order first second =>
      refine .inr ⟨⟨?_, differs.2⟩, id⟩
      rw [← sameIds]
      exact differs.1

theorem differs_ordered {body : ItemReorder} {detail : ListDetail}
    (fits : (orderByIds detail.items body.itemIds).isSome = true)
    (differs : aspect.Differs server (detail.ordered body.itemIds).items) :
    PatchedBy (.reordered body) server detail.items aspect := by
  cases aspect with
  | order first second =>
      obtain ⟨result, ordered⟩ := Option.isSome_iff_exists.mp fits
      have sameIds := (orderByIds_eq_some ordered).1
      rw [ListDetail.ordered, ordered] at differs
      have precedes : Precedes (ids result) first second := differs.1
      rw [sameIds] at precedes
      exact .inl ⟨precedes, differs.2⟩
  | _ =>
      rcases differs.of_perm (perm_ordered body.itemIds detail) with before | ⟨_, _, same⟩
      · exact .inr ⟨before, id⟩
      · cases same

/-! ## Responses -/

theorem differs_appended {item : ListItem} {detail : ListDetail}
    (absent : item.id ∉ ids detail.items)
    (differs : aspect.Differs server (detail.appended item).items) :
    aspect.About item.id ∧ aspect.Differs server [item] ∨
      (∃ other ∈ ids detail.items, aspect = .order other item.id ∧
        Precedes (ids server) item.id other) ∨
      aspect.Differs server detail.items ∧
        ∀ made : ListItem, made.id = item.id → ¬ (Change.created made).Touches aspect := by
  have split : ids (detail.appended item).items = ids detail.items ++ [item.id] :=
    List.map_append
  cases aspect with
  | missing other =>
      obtain ⟨held, lacks⟩ := differs
      rw [split, List.mem_append, List.mem_singleton, not_or] at lacks
      refine .inr (.inr ⟨⟨held, lacks.1⟩, fun made sameId touched => lacks.2 ?_⟩)
      exact Eq.trans touched sameId
  | extra other =>
      obtain ⟨shows, gone⟩ := differs
      rw [split, List.mem_append, List.mem_singleton] at shows
      rcases shows with before | rfl
      · exact .inr (.inr ⟨⟨before, gone⟩, fun _ _ => id⟩)
      · exact .inl ⟨rfl, List.mem_singleton.mpr rfl, gone⟩
  | field other column =>
      obtain ⟨shows, member, held, present, named, named', unequal⟩ := differs
      rcases List.mem_append.mp member with before | last
      · refine .inr (.inr ⟨⟨shows, before, held, present, named, named', unequal⟩, ?_⟩)
        intro made sameId touched
        apply absent
        have same : shows.id = item.id := named.trans (Eq.trans touched sameId)
        rw [← same]
        exact List.mem_map_of_mem before
      · have same := List.mem_singleton.mp last
        subst same
        exact .inl ⟨named.symm, shows, List.mem_singleton.mpr rfl, held, present, named, named',
          unequal⟩
  | order first second =>
      obtain ⟨precedes, converse⟩ := differs
      rw [split] at precedes
      rcases precedes.of_append_singleton with before | ⟨member, rfl⟩
      · refine .inr (.inr ⟨⟨before, converse⟩, fun made sameId touched => absent ?_⟩)
        rcases touched with same | same
        · exact sameId ▸ same ▸ before.mem_left
        · exact sameId ▸ same ▸ before.mem_right
      · exact .inr (.inl ⟨first, member, rfl, converse⟩)

theorem ids_replaced {itemId : ItemId} {item : ListItem} (sameId : item.id = itemId)
    (detail : ListDetail) : ids (detail.replaced itemId item).items = ids detail.items := by
  rw [ListDetail.replaced, ids, List.map_map]
  apply List.map_congr_left
  intro current _
  by_cases named : current.id = itemId <;> simp [named, sameId]

theorem differs_replaced {itemId : ItemId} {item : ListItem} {detail : ListDetail}
    (sameId : item.id = itemId)
    (differs : aspect.Differs server (detail.replaced itemId item).items) :
    itemId ∈ ids detail.items ∧ aspect.About itemId ∧ aspect.Differs server [item] ∨
      aspect.Differs server detail.items ∧
        ∀ values, ¬ (Change.updated itemId values).Touches aspect := by
  have sameIds := ids_replaced sameId detail
  cases aspect with
  | missing other =>
      refine .inr ⟨⟨differs.1, ?_⟩, fun _ => id⟩
      rw [← sameIds]
      exact differs.2
  | extra other =>
      refine .inr ⟨⟨?_, differs.2⟩, fun _ => id⟩
      rw [← sameIds]
      exact differs.1
  | field other column =>
      obtain ⟨shows, member, held, present, named, named', unequal⟩ := differs
      obtain ⟨old, before, rfl⟩ := List.mem_map.mp member
      by_cases hit : old.id = itemId
      · rw [if_pos hit] at named unequal
        refine .inl ⟨?_, named.symm.trans sameId, item, List.mem_singleton.mpr rfl, held, present,
          named, named', unequal⟩
        rw [← hit]
        exact List.mem_map_of_mem before
      · rw [if_neg hit] at named unequal
        refine .inr ⟨⟨old, before, held, present, named, named', unequal⟩, fun _ touched => ?_⟩
        exact hit (named.trans touched.1)
  | order first second =>
      refine .inr ⟨⟨?_, differs.2⟩, fun _ => id⟩
      rw [← sameIds]
      exact differs.1

theorem differs_without {itemId : ItemId} {detail : ListDetail} (gone : itemId ∉ ids server)
    (differs : aspect.Differs server (detail.without itemId).items) :
    aspect.Differs server detail.items ∧ ¬ (Change.deleted itemId).Touches aspect := by
  have within : (ids (detail.without itemId).items).Sublist (ids detail.items) :=
    List.filter_sublist.map _
  cases aspect with
  | missing other =>
      refine ⟨⟨differs.1, fun shows => differs.2 ?_⟩, id⟩
      obtain ⟨item, member, rfl⟩ := List.mem_map.mp shows
      have other : item.id ≠ itemId := fun same => gone (same ▸ differs.1)
      exact List.mem_map_of_mem (List.mem_filter.mpr ⟨member, decide_eq_true other⟩)
  | extra other =>
      refine ⟨⟨within.subset differs.1, differs.2⟩, fun same => ?_⟩
      obtain ⟨item, member, rfl⟩ := List.mem_map.mp differs.1
      exact of_decide_eq_true (List.mem_filter.mp member).2 same
  | field other column =>
      obtain ⟨item, member, rest⟩ := differs
      exact ⟨⟨item, (List.mem_filter.mp member).1, rest⟩, id⟩
  | order first second => exact ⟨⟨differs.1.of_sublist within, differs.2⟩, id⟩

end FrontDashboard.Lists
