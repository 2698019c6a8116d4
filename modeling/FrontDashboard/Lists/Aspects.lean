import FrontDashboard.Library.Precedence
import FrontDashboard.Lists.System

/-! # What a copy of a list can be wrong about

A copy may lack an item, hold one that is gone, hold an old value of a field, or
have two items the wrong way round. A change touches some of these aspects, and
leaves the server's side of every other as it was.
-/

namespace FrontDashboard.Lists

/-- Something a copy of a list can be wrong about. -/
inductive Aspect
  | missing (itemId : ItemId)
  | extra (itemId : ItemId)
  | field (itemId : ItemId) (column : Field)
  | order (first second : ItemId)

/-- The copy is wrong about the aspect. -/
def Aspect.Differs (server copy : List ListItem) : Aspect → Prop
  | .missing itemId => itemId ∈ ids server ∧ itemId ∉ ids copy
  | .extra itemId => itemId ∈ ids copy ∧ itemId ∉ ids server
  | .field itemId column => ∃ item ∈ copy, ∃ held ∈ server,
      item.id = itemId ∧ held.id = itemId ∧ item.values column ≠ held.values column
  | .order first second => Precedes (ids copy) first second ∧ Precedes (ids server) second first

/-- The aspect concerns a single item. -/
def Aspect.About (itemId : ItemId) : Aspect → Prop
  | .missing other | .extra other | .field other _ => other = itemId
  | .order _ _ => False

def Change.Touches : Change → Aspect → Prop
  | .created item, .missing itemId => itemId = item.id
  | .created item, .field itemId _ => itemId = item.id
  | .created item, .order first second => first = item.id ∨ second = item.id
  | .updated target values, .field itemId column =>
      itemId = target ∧ (values.set column).isSome = true
  | .deleted target, .extra itemId => itemId = target
  | .reordered body, .order first second => first ∈ body.itemIds ∧ second ∈ body.itemIds
  | _, _ => False

/-- What the frame of a change says of the aspect is not so. -/
def Change.Denied (server : List ListItem) : Change → Aspect → Prop
  | .updated target values, .field itemId column => itemId = target ∧ ∃ held ∈ server,
      held.id = itemId ∧ ∃ value, values.set column = some value ∧ held.values column ≠ value
  | .reordered body, .order first second =>
      Precedes body.itemIds first second ∧ Precedes (ids server) second first
  | _, _ => False

/-- The server's side of the aspect gives a copy no new way to be wrong. -/
def Aspect.Kept (before after : List ListItem) : Aspect → Prop
  | .missing itemId => itemId ∈ ids after → itemId ∈ ids before
  | .extra itemId => itemId ∈ ids before → itemId ∈ ids after
  | .field itemId column => ∀ held ∈ after, held.id = itemId →
      ∃ old ∈ before, old.id = itemId ∧ old.values column = held.values column
  | .order first second => Precedes (ids after) second first → Precedes (ids before) second first

/-- Every aspect is kept where nothing changes. -/
theorem Aspect.Kept.refl (items : List ListItem) (aspect : Aspect) : aspect.Kept items items := by
  cases aspect with
  | field itemId column => exact fun held present named => ⟨held, present, named, rfl⟩
  | _ => exact id

/-- A copy that differs from the list still does where the aspect is kept. -/
theorem Aspect.Differs.of_kept {before after copy : List ListItem} {aspect : Aspect}
    (differs : aspect.Differs after copy) (kept : aspect.Kept before after) :
    aspect.Differs before copy := by
  cases aspect with
  | missing itemId => exact ⟨kept differs.1, differs.2⟩
  | extra itemId => exact ⟨differs.1, fun present => differs.2 (kept present)⟩
  | field itemId column =>
      obtain ⟨item, member, held, present, named, named', unequal⟩ := differs
      obtain ⟨old, before, oldNamed, same⟩ := kept held present named'
      exact ⟨item, member, old, before, named, oldNamed, by rwa [same]⟩
  | order first second => exact ⟨differs.1, kept differs.2⟩

/-- A change that the list denies is still denied where the aspect is kept. -/
theorem Change.Denied.of_kept {before after : List ListItem} {change : Change} {aspect : Aspect}
    (denied : change.Denied after aspect) (kept : aspect.Kept before after) :
    change.Denied before aspect := by
  cases aspect with
  | field itemId column =>
      cases change with
      | updated target values =>
          obtain ⟨same, held, present, named, value, isSet, unequal⟩ := denied
          obtain ⟨old, before, oldNamed, unchanged⟩ := kept held present named
          exact ⟨same, old, before, oldNamed, value, isSet, by rwa [unchanged]⟩
      | _ => exact denied.elim
  | order first second =>
      cases change with
      | reordered body => exact ⟨denied.1, kept denied.2⟩
      | _ => exact denied.elim
  | _ => cases change <;> exact denied.elim

/-- A frame speaks of what its change touched. -/
theorem Change.Denied.touches {server : List ListItem} {change : Change} {aspect : Aspect}
    (denied : change.Denied server aspect) : change.Touches aspect := by
  cases aspect with
  | field itemId column =>
      cases change with
      | updated target values =>
          obtain ⟨same, -, -, -, value, isSet, -⟩ := denied
          exact ⟨same, by rw [isSet]; rfl⟩
      | _ => exact denied.elim
  | order first second =>
      cases change with
      | reordered body => exact ⟨denied.1.mem_left, denied.1.mem_right⟩
      | _ => exact denied.elim
  | _ => cases change <;> exact denied.elim

/-- A list is wrong about itself in nothing. -/
theorem Aspect.not_differs_self {server : List ListItem} (nodup : (ids server).Nodup)
    (aspect : Aspect) : ¬ aspect.Differs server server := by
  cases aspect with
  | missing itemId => exact fun differs => differs.2 differs.1
  | extra itemId => exact fun differs => differs.2 differs.1
  | field itemId column =>
      rintro ⟨item, member, held, present, named, named', unequal⟩
      have same : item = held := List.inj_on_of_nodup_map nodup member present
        (named.trans named'.symm)
      exact unequal (by rw [same])
  | order first second => exact fun differs => differs.1.not_converse nodup differs.2

/-- **A copy that is wrong about nothing is the server's list.** -/
theorem eq_of_not_differs {server copy : List ListItem} (nodup : (ids server).Nodup)
    (nodup' : (ids copy).Nodup) (none : ∀ aspect : Aspect, ¬ aspect.Differs server copy) :
    copy = server := by
  have sameIds : ids copy = ids server := by
    apply Precedes.eq_of_agree nodup' nodup
    · intro itemId
      constructor
      · exact fun held => by_contra fun absent => none (.extra itemId) ⟨held, absent⟩
      · exact fun held => by_contra fun absent => none (.missing itemId) ⟨held, absent⟩
    · exact fun first second before after => none (.order first second) ⟨before, after⟩
  have length : copy.length = server.length := by
    simpa using congrArg List.length sameIds
  apply List.ext_getElem length
  intro place inCopy inServer
  have sameId : copy[place].id = server[place].id := by
    have mapped : (ids copy)[place]? = (ids server)[place]? := by rw [sameIds]
    simpa [List.getElem?_eq_getElem inCopy, List.getElem?_eq_getElem inServer] using mapped
  have sameValues : copy[place].values = server[place].values := by
    funext column
    by_contra unequal
    exact none (.field copy[place].id column) ⟨copy[place], List.getElem_mem inCopy,
      server[place], List.getElem_mem inServer, rfl, sameId.symm, unequal⟩
  exact ListItem.ext sameId sameValues

/-! ## The change a request makes -/

/-- The items before and after a change. -/
inductive Became (before : List ListItem) : List ListItem → Change → Prop
  | created (front back : List ListItem) (item : ListItem) (split : before = front ++ back) :
      Became before (front ++ item :: back) (.created item)
  | updated (itemId : ItemId) (values : ListItemUpdate) :
      Became before (before.map fun item => if item.id = itemId then item.patch values else item)
        (.updated itemId values)
  | deleted (itemId : ItemId) :
      Became before (before.filter fun item => item.id ≠ itemId) (.deleted itemId)
  | reordered (after : List ListItem) (body : ItemReorder) (sameIds : ids after = body.itemIds)
      (old : ∀ item ∈ after, item ∈ before) (whole : ∀ itemId ∈ ids before, itemId ∈ body.itemIds) :
      Became before after (.reordered body)

/-- What an update sets equals what its handler loaded only where the row still holds
it. -/
def Write.Current (items : List ListItem) : Write → Prop
  | .update itemId body loaded => ∀ item ∈ items, item.id = itemId →
      ∀ column value, body.set column = some value → value = loaded column →
        item.values column = value
  | _ => True

/-- A patched item keeps its place. -/
theorem ids_patched (itemId : ItemId) (values : ListItemUpdate) (items : List ListItem) :
    ids (items.map fun item => if item.id = itemId then item.patch values else item) =
      ids items := by
  rw [ids, List.map_map]
  apply List.map_congr_left
  intro item _
  by_cases named : item.id = itemId <;> simp [named, ListItem.patch]

/-- A new item is put in somewhere. -/
theorem shown_createItem (item : ListItem) (startedAt : Nat) (rows : List Row) :
    ∃ front back, shown rows = front ++ back ∧
      shown (createItem item startedAt rows) = front ++ item :: back := by
  rw [createItem, List.orderedInsert_eq_take_drop]
  refine ⟨_, _, ?_, by rw [shown, List.map_append, List.map_cons]⟩
  rw [← List.map_append, List.takeWhile_append_dropWhile]

/-- An update of the values that are current is a patch. -/
theorem write_eq_patch {body : ListItemUpdate} {loaded : Values} {item : ListItem}
    (current : ∀ column value, body.set column = some value → value = loaded column →
      item.values column = value) : item.write body loaded = item.patch body := by
  have sameValues : (item.write body loaded).values = (item.patch body).values := by
    funext column
    rw [ListItem.write, ListItem.patch]
    dsimp only
    cases isSet : body.set column with
    | none => rfl
    | some value =>
        dsimp only
        split
        next same => exact current column value isSet same
        next => rfl
  exact ListItem.ext rfl sameValues

theorem shown_updateItem {itemId : ItemId} {body : ListItemUpdate} {loaded : Values}
    {rows : List Row} (current : (Write.update itemId body loaded).Current (shown rows)) :
    shown (updateItem itemId body loaded rows) =
      (shown rows).map fun item => if item.id = itemId then item.patch body else item := by
  rw [updateItem, shown, List.map_map, List.map_map]
  apply List.map_congr_left
  intro row member
  dsimp only [Function.comp]
  split
  next named =>
    exact write_eq_patch (current row.item (List.mem_map_of_mem member) named)
  next => rfl

/-- A deleted item leaves its place. -/
theorem shown_deleteItem (itemId : ItemId) (rows : List Row) :
    shown (deleteItem itemId rows) = (shown rows).filter fun item => item.id ≠ itemId := by
  rw [deleteItem, shown, List.filter_map]
  rfl

/-- Renumbered items stand as asked. -/
theorem ids_renumber {rows : List Row} (itemIds : List ItemId)
    (present : ∀ itemId ∈ itemIds, itemId ∈ ids (shown rows)) :
    ids (shown (renumber rows itemIds)) = itemIds := by
  have from_ : ∀ start, ids (shown ((itemIds.zipIdx start).filterMap fun entry =>
      (rows.find? fun row => row.item.id = entry.1).map fun row =>
        { row with sortOrder := entry.2 })) = itemIds := by
    induction itemIds with
    | nil => exact fun _ => rfl
    | cons itemId rest ih =>
        intro start
        obtain ⟨item, member, named⟩ := List.mem_map.mp (present itemId List.mem_cons_self)
        obtain ⟨row, inRows, rfl⟩ := List.mem_map.mp member
        cases found : rows.find? fun row => decide (row.item.id = itemId) with
        | none =>
            rw [List.find?_eq_none] at found
            exact absurd (decide_eq_true named) (found row inRows)
        | some other =>
            have sameId : other.item.id = itemId := by simpa using List.find?_some found
            have later := ih (fun other member => present other (List.mem_cons_of_mem _ member))
              (start + 1)
            rw [List.zipIdx_cons, List.filterMap_cons]
            simp only [found, Option.map_some, List.map_cons]
            rw [sameId]
            exact congrArg (itemId :: ·) later
  exact from_ 0

/-- Renumbered items were items before. -/
theorem mem_renumber {rows : List Row} {itemIds : List ItemId} {item : ListItem}
    (member : item ∈ shown (renumber rows itemIds)) : item ∈ shown rows := by
  obtain ⟨row, inRows, rfl⟩ := List.mem_map.mp member
  obtain ⟨⟨itemId, position⟩, -, found⟩ := List.mem_filterMap.mp inRows
  obtain ⟨old, sought, rfl⟩ := Option.map_eq_some_iff.mp found
  have present : old ∈ rows := List.mem_of_find?_eq_some sought
  exact List.mem_map.mpr ⟨old, present, rfl⟩

/-- **What a request changes**, unless a handler had loaded values that others have
replaced. -/
theorem Write.became {write : Write} {fresh : ItemId} {rows rows' : List Row} {change : Change}
    (current : write.Current (shown rows)) (ran : write.run fresh rows = some (rows', change)) :
    Became (shown rows) (shown rows') change ∧
      ∀ item, change = .created item → item.id = fresh := by
  cases write with
  | create body startedAt =>
      cases ran
      obtain ⟨front, back, before, after⟩ := shown_createItem ⟨fresh, body.values⟩ startedAt rows
      rw [after]
      refine ⟨.created front back _ before, fun item same => ?_⟩
      cases same
      rfl
  | update itemId body loaded =>
      rw [Write.run] at ran
      split at ran
      next =>
        cases ran
        rw [shown_updateItem current]
        exact ⟨.updated itemId body, fun item same => by cases same⟩
      next => cases ran
  | delete itemId =>
      rw [Write.run] at ran
      split at ran
      next =>
        cases ran
        rw [shown_deleteItem]
        exact ⟨.deleted itemId, fun item same => by cases same⟩
      next => cases ran
  | reorder body =>
      obtain ⟨after, reordered, same⟩ := Option.map_eq_some_iff.mp ran
      cases same
      unfold reorderItems at reordered
      split at reordered
      next whole =>
        cases reordered
        exact ⟨.reordered _ body (ids_renumber _ whole.1) (fun item => mem_renumber) whole.2,
          fun item same => by cases same⟩
      next => cases reordered

namespace Became

variable {before after : List ListItem} {change : Change}

/-- **A change leaves alone what it does not touch.** -/
theorem kept (became : Became before after change) {aspect : Aspect}
    (untouched : ¬ change.Touches aspect) : aspect.Kept before after := by
  cases became with
  | created front back item split =>
      subst split
      cases aspect with
      | missing itemId =>
          intro present
          simpa [ids, show itemId ≠ item.id from untouched] using present
      | extra itemId =>
          intro present
          simp only [ids, List.map_append, List.map_cons, List.mem_append, List.mem_cons]
            at present ⊢
          exact present.imp_right .inr
      | field itemId column =>
          intro held present named
          have other : held ≠ item := by
            rintro rfl
            exact untouched named.symm
          exact ⟨held, by simpa [other] using present, named, rfl⟩
      | order first second =>
          intro precedes
          rw [ids, List.map_append, List.map_cons] at precedes
          rw [ids, List.map_append]
          exact precedes.of_inserted (fun same => untouched (.inr same))
            fun same => untouched (.inl same)
  | updated target values =>
      cases aspect with
      | missing itemId => exact fun present => by rwa [ids_patched] at present
      | extra itemId => exact fun present => by rwa [ids_patched]
      | field itemId column =>
          intro held present named
          obtain ⟨old, inBefore, rfl⟩ := List.mem_map.mp present
          by_cases hit : old.id = target
          · rw [if_pos hit] at named ⊢
            have unset : values.set column = none := by
              rw [← Option.not_isSome_iff_eq_none]
              exact fun isSet => untouched ⟨named.symm.trans hit, isSet⟩
            exact ⟨old, inBefore, named, by simp [ListItem.patch, unset]⟩
          · rw [if_neg hit] at named ⊢
            exact ⟨old, inBefore, named, rfl⟩
      | order first second => exact fun precedes => by rwa [ids_patched] at precedes
  | deleted target =>
      have within : (ids (before.filter fun item => item.id ≠ target)).Sublist (ids before) :=
        List.filter_sublist.map _
      cases aspect with
      | missing itemId => exact fun present => within.subset present
      | extra itemId =>
          intro present
          obtain ⟨item, inBefore, rfl⟩ := List.mem_map.mp present
          exact List.mem_map_of_mem (List.mem_filter.mpr ⟨inBefore, decide_eq_true untouched⟩)
      | field itemId column =>
          exact fun held present named => ⟨held, (List.mem_filter.mp present).1, named, rfl⟩
      | order first second => exact fun precedes => precedes.of_sublist within
  | reordered _ body sameIds old whole =>
      cases aspect with
      | missing itemId =>
          intro present
          obtain ⟨item, inAfter, rfl⟩ := List.mem_map.mp present
          exact List.mem_map_of_mem (old item inAfter)
      | extra itemId =>
          intro present
          rw [sameIds]
          exact whole itemId present
      | field itemId column =>
          exact fun held present named => ⟨held, old held present, named, rfl⟩
      | order first second =>
          intro precedes
          rw [sameIds] at precedes
          exact absurd ⟨precedes.mem_right, precedes.mem_left⟩ untouched

/-- A change leaves the ids distinct. -/
theorem nodup (became : Became before after change) (distinct : (ids before).Nodup)
    (fresh : ∀ item, change = .created item → item.id ∉ ids before) : (ids after).Nodup := by
  cases became with
  | created front back item split =>
      have absent := fresh item rfl
      subst split
      rw [ids, List.map_append] at distinct absent
      rw [ids, List.map_append, List.map_cons, List.nodup_middle]
      exact List.nodup_cons.mpr ⟨absent, distinct⟩
  | updated target values => rwa [ids_patched]
  | deleted target => exact distinct.sublist (List.filter_sublist.map _)
  | reordered _ body sameIds _ _ =>
      rw [sameIds]
      exact body.nodup

/-- A change adds the created id alone. -/
theorem mem_ids (became : Became before after change) {itemId : ItemId}
    (present : itemId ∈ ids after) :
    itemId ∈ ids before ∨ ∃ item, change = .created item ∧ item.id = itemId := by
  by_cases touched : change.Touches (.missing itemId)
  · cases change with
    | created item => exact .inr ⟨item, rfl, Eq.symm touched⟩
    | _ => exact touched.elim
  · exact .inl (became.kept touched present)

/-- What a frame says is so when it is sent. -/
theorem not_denied (became : Became before after change) (aspect : Aspect) :
    ¬ change.Denied after aspect := by
  cases became with
  | updated target values =>
      cases aspect with
      | field itemId column =>
          rintro ⟨same, held, present, named, value, isSet, unequal⟩
          obtain ⟨old, inBefore, rfl⟩ := List.mem_map.mp present
          by_cases hit : old.id = target
          · rw [if_pos hit] at unequal
            exact unequal (by simp [ListItem.patch, isSet])
          · rw [if_neg hit] at named
            exact hit (named.trans same)
      | _ => exact id
  | reordered _ body sameIds _ _ =>
      cases aspect with
      | order first second =>
          rintro ⟨precedes, converse⟩
          rw [sameIds] at converse
          exact precedes.not_converse body.nodup converse
      | _ => exact id
  | _ => cases aspect <;> exact id

/-- A deleted item is gone. -/
theorem not_mem_of_deleted {itemId : ItemId} (became : Became before after (.deleted itemId)) :
    itemId ∉ ids after := by
  cases became
  intro present
  obtain ⟨item, kept, rfl⟩ := List.mem_map.mp present
  simpa using (List.mem_filter.mp kept).2

end Became

end FrontDashboard.Lists
