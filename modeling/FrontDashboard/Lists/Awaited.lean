import FrontDashboard.Library.Places
import FrontDashboard.Lists.Copies
import FrontDashboard.Query.Standing

/-! # What the page is still to be told

A commit is pending while its frame, or the response to the mutation behind it, is
on its way. A copy of a list may be wrong about what a pending commit touches,
and about the order of the items that an outstanding reordering of the page names.
-/

namespace FrontDashboard.Lists

open Query

/-- The place in the log of the mutation's commit. -/
def Progress.serial? : Progress → Option Nat
  | .committed serial | .answered serial _ => some serial
  | .sent | .refused _ => none

namespace World

/-- The commit's frame, or the response to the page's own request, is on its way. -/
def Pending (serial : Nat) (world : World) : Prop :=
  (∃ commit, world.log[serial]? = some commit ∧ commit.own = false ∧ world.delivered ≤ serial) ∨
    ∃ mutation ∈ world.mutations, mutation.progress.serial? = some serial

end World

/-- The order of these items among each other. -/
def Aspect.Among (names : List ItemId) : Aspect → Prop
  | .order first second => first ∈ names ∧ second ∈ names
  | _ => False

/-- The mutation puts both items in an order. -/
def Request.Arranges (first second : ItemId) : Request → Prop
  | .reorderListItems orderedIds _ => first ∈ orderedIds ∧ second ∈ orderedIds
  | _ => False

namespace World

/-- The page will be told of the aspect. -/
def Awaited (list : ListId) (aspect : Aspect) (world : World) : Prop :=
  (∃ serial commit, world.log[serial]? = some commit ∧ commit.list = list ∧
      commit.change.Touches aspect ∧ world.Pending serial) ∨
    ∃ first second, aspect = .order first second ∧
      ∃ mutation ∈ world.mutations, mutation.list = list ∧ mutation.request.Arranges first second

/-- The aspect was touched after the log had the length `since`. -/
def ChangedSince (list : ListId) (since : Nat) (aspect : Aspect) (world : World) : Prop :=
  ∃ serial commit, since ≤ serial ∧ world.log[serial]? = some commit ∧ commit.list = list ∧
    commit.change.Touches aspect

/-- Every commit since then that touches one of these aspects is pending. -/
def StillPending (list : ListId) (aspects : Aspect → Prop) (since : Nat) (world : World) : Prop :=
  ∀ serial commit, since ≤ serial → world.log[serial]? = some commit → commit.list = list →
    ∀ aspect, aspects aspect → commit.change.Touches aspect → world.Pending serial

/-- A commit since then that touches the aspect is pending. -/
def PendingSince (list : ListId) (since : Nat) (aspect : Aspect) (world : World) : Prop :=
  ∃ serial commit, since ≤ serial ∧ world.log[serial]? = some commit ∧ commit.list = list ∧
    commit.change.Touches aspect ∧ world.Pending serial

/-- The copy is wrong only about what the page will be told of. -/
def Mirrors (list : ListId) (copy : List ListItem) (world : World) : Prop :=
  (ids copy).Nodup ∧
    ∀ aspect : Aspect, aspect.Differs (shown (world.rows list)) copy → world.Awaited list aspect

/-- The copy has the server's order, or will be told of another. -/
def OrderMirrored (list : ListId) (copy : List ListItem) (world : World) : Prop :=
  ∀ first second, (Aspect.order first second).Differs (shown (world.rows list)) copy →
    world.Awaited list (.order first second)

/-- The cache holds this data of the list, and nothing will replace it. -/
def Stands (list : ListId) (detail : ListDetail) (world : World) : Prop :=
  ∃ entry, world.cache.entries.get list = some entry ∧ entry.Standing ∧
    entry.state.data = some detail

end World

/-! ## The steps that keep the copies -/

/-- The frame of the change patches the copy and does not invalidate it. -/
def Change.Patches (detail : ListDetail) : Change → Prop
  | .updated itemId _ => itemId ∈ ids detail.items
  | .reordered body => (orderByIds detail.items body.itemIds).isSome = true
  | _ => False

/-- From when on a reordering that has this number, and was committed in this place, needs other
commits to be pending: from its own on, while the items stand as it put them, or from the rows
that put them otherwise. Where a later one of the page put them, that one is still to come. -/
def Basis.floor (number serial : Nat) : Basis → Option Nat
  | .own other => if other = number then some (serial + 1) else none
  | .asOf since => some since

/-- The outcome of a mutation may be applied to standing data, in a world without the
mutation. An item in a response is appended only where it is new and comes last, and used
only if every commit about it since it was read is pending. Where a reordering has
succeeded, the items it names were last arranged together, and each commit since then that
moves them is pending; where it has failed, nothing has arrived for the list meanwhile. -/
def Request.MayApply (world : World) (list : ListId) (detail : ListDetail) (note : Note) :
    Request → Progress → Prop
  | .addListItem _, .answered _ (.item item seen) =>
      item.id ∉ ids detail.items ∧ world.StillPending list (Aspect.About item.id) seen ∧
        ∀ other ∈ ids detail.items, Precedes (ids (shown (world.rows list))) item.id other →
          world.PendingSince list seen (.order other item.id)
  | .updateListItem itemId _, .answered _ (.item _ seen) =>
      itemId ∈ ids detail.items → world.StillPending list (Aspect.About itemId) seen
  | .reorderListItems orderedIds _, .answered serial _ =>
      let arranged := world.journal.arranged list
      (∀ itemId ∈ orderedIds, itemId ∈ ids detail.items → itemId ∈ arranged.names) ∧
        ∀ since, arranged.basis.floor note.number serial = some since →
          world.StillPending list (Aspect.Among orderedIds) since
  | .reorderListItems _ _, .refused false => world.journal.arrivals list = note.arrivals
  | _, _ => True

/-- The steps that keep the copies. An update reaches all the columns it sets; a frame
that patches standing data, an item in a response and a whole response are used
only while every later commit that touches what they tell is pending. -/
def Admitted (world : World) : Action → Prop
  | .write list write => write.Current (shown (world.rows list))
  | .carryOut index startedAt loaded => ∀ mutation write,
      world.mutations[index]? = some mutation →
        mutation.request.write startedAt loaded = some write →
          write.Current (shown (world.rows mutation.list))
  | .deliver => ∀ commit detail, world.log[world.delivered]? = some commit → commit.own = false →
      world.Stands commit.list detail → commit.change.Patches detail →
        world.advanced.StillPending commit.list commit.change.Touches (world.delivered + 1)
  | .settle index => ∀ mutation detail, world.mutations[index]? = some mutation →
      world.Stands mutation.list detail → mutation.request.MayApply (world.dropped index)
        mutation.list detail mutation.note mutation.progress
  | .load list => ∀ entry answer, world.cache.entries.get list = some entry →
      world.answers list = some answer → (entry.listeners = 0 → entry.stale = false) →
        world.StillPending list (fun _ => True) answer.seen
  | _ => True

/-! ## Growth -/

/-- The server's side has moved on, and nothing has reached the page. -/
structure World.Grows (world next : World) : Prop where
  logged : ∀ (serial : Nat) commit, world.log[serial]? = some commit →
    next.log[serial]? = some commit
  delivered : next.delivered = world.delivered
  outstanding : ∀ mutation ∈ world.mutations, ∃ mutation' ∈ next.mutations,
    mutation'.list = mutation.list ∧ mutation'.request = mutation.request ∧
      mutation'.note = mutation.note ∧ ∀ serial, mutation.progress.serial? = some serial →
        mutation'.progress.serial? = some serial

namespace World

variable {world next : World} {list : ListId} {aspect : Aspect}

theorem Pending.grow {serial : Nat} (pending : world.Pending serial) (grows : world.Grows next) :
    next.Pending serial := by
  rcases pending with ⟨commit, logged, foreign, ahead⟩ | ⟨mutation, member, named⟩
  · refine .inl ⟨commit, grows.logged serial commit logged, foreign, ?_⟩
    rw [grows.delivered]
    exact ahead
  · obtain ⟨mutation', member', -, -, -, keeps⟩ := grows.outstanding mutation member
    exact .inr ⟨mutation', member', keeps serial named⟩

theorem Awaited.grow (awaited : world.Awaited list aspect) (grows : world.Grows next) :
    next.Awaited list aspect := by
  rcases awaited with ⟨serial, commit, logged, here, touches, pending⟩ |
    ⟨first, second, isOrder, mutation, member, here, arranges⟩
  · exact .inl ⟨serial, commit, grows.logged serial commit logged, here, touches,
      pending.grow grows⟩
  · obtain ⟨mutation', member', sameList, sameRequest, -⟩ := grows.outstanding mutation member
    refine .inr ⟨first, second, isOrder, mutation', member', sameList.trans here, ?_⟩
    rw [sameRequest]
    exact arranges

theorem ChangedSince.grow {since : Nat} (changed : world.ChangedSince list since aspect)
    (grows : world.Grows next) : next.ChangedSince list since aspect := by
  obtain ⟨serial, commit, after, logged, here, touches⟩ := changed
  exact ⟨serial, commit, after, grows.logged serial commit logged, here, touches⟩

theorem ChangedSince.mono {earlier later : Nat} (changed : world.ChangedSince list later aspect)
    (before : earlier ≤ later) : world.ChangedSince list earlier aspect := by
  obtain ⟨serial, commit, after, rest⟩ := changed
  exact ⟨serial, commit, before.trans after, rest⟩

/-- What was touched meanwhile is awaited, if those commits are pending. -/
theorem ChangedSince.awaited {since : Nat} {aspects : Aspect → Prop}
    (changed : world.ChangedSince list since aspect)
    (still : world.StillPending list aspects since) (within : aspects aspect) :
    world.Awaited list aspect := by
  obtain ⟨serial, commit, after, logged, here, touches⟩ := changed
  exact .inl ⟨serial, commit, logged, here, touches,
    still serial commit after logged here aspect within touches⟩

theorem PendingSince.awaited {since : Nat} (pending : world.PendingSince list since aspect) :
    world.Awaited list aspect := by
  obtain ⟨serial, commit, _, logged, here, touches, pending⟩ := pending
  exact .inl ⟨serial, commit, logged, here, touches, pending⟩

/-! ## Arrivals -/

/-- A frame that has arrived is no longer awaited. -/
theorem Awaited.advance (awaited : world.Awaited list aspect) :
    world.advanced.Awaited list aspect ∨ ∃ commit, world.log[world.delivered]? = some commit ∧
      commit.own = false ∧ commit.list = list ∧ commit.change.Touches aspect := by
  rcases awaited with ⟨serial, commit, logged, here, touches, pending⟩ | reordering
  · rcases pending with ⟨other, found, foreign, ahead⟩ | outstanding
    · rw [logged] at found
      cases found
      by_cases arrived : world.delivered = serial
      · rw [arrived]
        exact .inr ⟨commit, logged, foreign, here, touches⟩
      · have later : world.delivered + 1 ≤ serial := by omega
        exact .inl (.inl ⟨serial, commit, logged, here, touches,
          .inl ⟨commit, logged, foreign, later⟩⟩)
    · exact .inl (.inl ⟨serial, commit, logged, here, touches, .inr outstanding⟩)
  · exact .inl (.inr reordering)

/-- All mutations but one are still there. -/
structure Loses (world : World) (mutation : Mutation) (next : World) : Prop where
  log : next.log = world.log
  delivered : next.delivered = world.delivered
  left : ∀ other ∈ world.mutations, other = mutation ∨ other ∈ next.mutations

theorem loses_dropped {index : Nat} {mutation : Mutation}
    (found : world.mutations[index]? = some mutation) :
    world.Loses mutation (world.dropped index) :=
  ⟨rfl, rfl, fun _ member => Places.eq_or_mem_eraseIdx found member⟩

/-- A mutation whose outcome has arrived is no longer awaited. -/
theorem Awaited.drop (awaited : world.Awaited list aspect) {mutation : Mutation}
    (loses : world.Loses mutation next) :
    next.Awaited list aspect ∨
      (∃ serial commit, mutation.progress.serial? = some serial ∧
        world.log[serial]? = some commit ∧ commit.list = list ∧ commit.change.Touches aspect) ∨
      mutation.list = list ∧
        ∃ first second, aspect = .order first second ∧ mutation.request.Arranges first second := by
  rcases awaited with ⟨serial, commit, logged, here, touches, pending⟩ |
    ⟨first, second, isOrder, other, member, here, arranges⟩
  · have logged' : next.log[serial]? = some commit := by rwa [loses.log]
    rcases pending with ⟨other, found, foreign, ahead⟩ | ⟨other, member, named⟩
    · rw [← loses.log] at found
      rw [← loses.delivered] at ahead
      exact .inl
        (.inl ⟨serial, commit, logged', here, touches, .inl ⟨other, found, foreign, ahead⟩⟩)
    · rcases loses.left other member with rfl | left
      · exact .inr (.inl ⟨serial, commit, named, logged, here, touches⟩)
      · exact .inl (.inl ⟨serial, commit, logged', here, touches, .inr ⟨other, left, named⟩⟩)
  · rcases loses.left other member with rfl | left
    · exact .inr (.inr ⟨here, first, second, isOrder, arranges⟩)
    · exact .inl (.inr ⟨first, second, isOrder, other, left, here, arranges⟩)

end World

end FrontDashboard.Lists
