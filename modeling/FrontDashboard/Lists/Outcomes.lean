import FrontDashboard.Lists.Mirrored

/-! # What the outcomes of mutations do to copies

A response or a refusal that lands leaves the standing data wrong only about what the page
will be told of, given that the order is mirrored without the mutation.
-/

namespace FrontDashboard.Lists

open Query

variable {world next : World} {list : ListId}

/-! ## Responses -/

/-- What the outcome of a mutation needs of standing data, in a world without the mutation: where
it arranged items, their order is mirrored without it. -/
def Request.Keeps (world : World) (list : ListId) (detail : ListDetail) :
    Request → Progress → Prop
  | .addListItem _, .answered _ (.item item seen) =>
      item.id ∉ ids detail.items ∧ world.StillPending list (Aspect.About item.id) seen ∧
        ∀ other ∈ ids detail.items, Precedes (ids (shown (world.rows list))) item.id other →
          world.PendingSince list seen (.order other item.id)
  | .updateListItem itemId _, .answered _ (.item _ seen) =>
      itemId ∈ ids detail.items → world.StillPending list (Aspect.About itemId) seen
  | .reorderListItems orderedIds _, .answered _ _ => ∀ first ∈ orderedIds, ∀ second ∈ orderedIds,
      (Aspect.order first second).Differs (shown (world.rows list)) detail.items →
        world.Awaited list (.order first second)
  | .reorderListItems _ previous, .refused false => ∃ items, previous = some items ∧
      items.Perm detail.items ∧ world.OrderMirrored list items
  | _, _ => True

theorem World.Sound.dropped (sound : world.Sound) (index : Nat) : (world.dropped index).Sound :=
  sound.withMutations fun mutation member =>
    sound.mutations mutation (List.mem_of_mem_eraseIdx member)

/-- A change that is answered with its item's absence touches nothing that can
differ. -/
theorem not_touches_of_gone {change : Change} {itemId : ItemId} {server copy : List ListItem}
    {aspect : Aspect} (subject : change.subject = some itemId) (gone : itemId ∉ ids server)
    (differs : aspect.Differs server copy) : ¬ change.Touches aspect := by
  intro touches
  cases change with
  | created item =>
      cases subject
      cases aspect with
      | missing other => exact gone (touches ▸ differs.1)
      | extra other => exact touches
      | field other column =>
          obtain ⟨-, -, held, present, -, named, -⟩ := differs
          exact gone (List.mem_map.mpr ⟨held, present, named.trans touches⟩)
      | order first second =>
          rcases touches with same | same
          · exact gone (same ▸ differs.2.mem_right)
          · exact gone (same ▸ differs.2.mem_left)
  | updated target values =>
      cases subject
      cases aspect with
      | field other column =>
          obtain ⟨-, -, held, present, -, named, -⟩ := differs
          exact gone (List.mem_map.mpr ⟨held, present, named.trans touches.1⟩)
      | _ => exact touches
  | deleted target => cases subject
  | reordered body => cases subject

theorem Request.Made.created {text : String} {change : Change}
    (made : (Request.addListItem text).Made change) : ∃ item, change = .created item := by
  cases change with
  | created item => exact ⟨item, rfl⟩
  | _ => exact made.elim

theorem Request.Made.updated {itemId : ItemId} {body : ListItemUpdate} {change : Change}
    (made : (Request.updateListItem itemId body).Made change) :
    ∃ values, change = .updated itemId values := by
  cases change with
  | updated target values =>
      cases made
      exact ⟨values, rfl⟩
  | _ => exact made.elim

theorem Request.Made.deleted {itemId : ItemId} {change : Change}
    (made : (Request.deleteListItem itemId).Made change) : change = .deleted itemId := by
  cases change with
  | deleted target =>
      cases made
      rfl
  | _ => exact made.elim

theorem Request.Made.reordered {orderedIds : List ItemId} {previous : Option (List ListItem)}
    {change : Change} (made : (Request.reorderListItems orderedIds previous).Made change) :
    ∃ body, change = .reordered body ∧ orderedIds = body.itemIds := by
  cases change with
  | reordered body => exact ⟨body, rfl, made⟩
  | _ => exact made.elim

section Settling

variable {index : Nat} {mutation : Mutation} {copy copy' : List ListItem}

/-- The outcome of a mutation matters to no other list. -/
theorem World.Mirrors.drop_elsewhere (mirrors : world.Mirrors list copy) (sound : world.Sound)
    (found : world.mutations[index]? = some mutation) (elsewhere : mutation.list ≠ list) :
    (world.dropped index).Mirrors list copy := by
  refine ⟨mirrors.1, fun aspect differs => ?_⟩
  rcases (mirrors.2 aspect differs).drop (World.loses_dropped found) with
    kept | ⟨serial, commit, carried, logged, here, -⟩ | ⟨here, -⟩
  · exact kept
  · obtain ⟨commit', logged', sameList, -⟩ :=
      sound.mutations mutation (List.mem_of_getElem? found) serial carried
    rw [logged] at logged'
    cases logged'
    exact absurd (sameList.symm.trans here) elsewhere
  · exact absurd here elsewhere

/-- A mutation with no commit and no order of its own was not waited for. -/
theorem World.Mirrors.drop_idle (mirrors : world.Mirrors list copy)
    (found : world.mutations[index]? = some mutation)
    (idle : mutation.progress.serial? = none)
    (inPlace : ∀ first second, ¬ mutation.request.Arranges first second) :
    (world.dropped index).Mirrors list copy := by
  refine ⟨mirrors.1, fun aspect differs => ?_⟩
  rcases (mirrors.2 aspect differs).drop (World.loses_dropped found) with
    kept | ⟨serial, commit, carried, -⟩ | ⟨-, first, second, -, arranges⟩
  · exact kept
  · rw [idle] at carried
    cases carried
  · exact absurd arranges (inPlace first second)

/-- What a commit does not touch is still awaited when the response to it has
arrived. -/
theorem World.Mirrors.drop_untouched (mirrors : world.Mirrors list copy)
    (found : world.mutations[index]? = some mutation) {serial : Nat} {commit : Commit}
    (carried : mutation.progress.serial? = some serial)
    (logged : world.log[serial]? = some commit)
    (inPlace : ∀ first second, ¬ mutation.request.Arranges first second)
    {aspect : Aspect} (differs : aspect.Differs (shown (world.rows list)) copy)
    (untouched : ¬ commit.change.Touches aspect) : (world.dropped index).Awaited list aspect := by
  rcases (mirrors.2 aspect differs).drop (World.loses_dropped found) with
    kept | ⟨serial', commit', carried', logged', -, touches⟩ | ⟨-, first, second, -, arranges⟩
  · exact kept
  · rw [carried] at carried'
    cases carried'
    rw [logged] at logged'
    cases logged'
    exact absurd touches untouched
  · exact absurd arranges (inPlace first second)

/-- A reordering that has succeeded leaves the order of what it names to be mirrored. -/
theorem World.Mirrors.drop_reordered {orderedIds : List ItemId}
    {previous : Option (List ListItem)} (mirrors : world.Mirrors list copy)
    (found : world.mutations[index]? = some mutation)
    (request : mutation.request = .reorderListItems orderedIds previous)
    (made : ∀ serial commit, mutation.progress.serial? = some serial →
      world.log[serial]? = some commit →
        ∃ body, commit.change = .reordered body ∧ orderedIds = body.itemIds)
    (mirrored : ∀ first ∈ orderedIds, ∀ second ∈ orderedIds,
      (Aspect.order first second).Differs (shown (world.rows list)) copy →
        (world.dropped index).Awaited list (.order first second)) :
    (world.dropped index).Mirrors list copy := by
  refine ⟨mirrors.1, fun aspect differs => ?_⟩
  rcases (mirrors.2 aspect differs).drop (World.loses_dropped found) with
    kept | ⟨serial, commit, carried, logged, -, touches⟩ | ⟨-, first, second, rfl, arranges⟩
  · exact kept
  · obtain ⟨body, reordered, rfl⟩ := made serial commit carried logged
    rw [reordered] at touches
    cases aspect with
    | order first second => exact mirrored first touches.1 second touches.2 differs
    | _ => exact touches.elim
  · rw [request] at arranges
    exact mirrored first arranges.1 second arranges.2 differs

/-- A reordering that is rolled back leaves the order to be mirrored without it. -/
theorem World.Mirrors.drop_rolledBack (mirrors : world.Mirrors list copy)
    (found : world.mutations[index]? = some mutation)
    (uncommitted : mutation.progress.serial? = none)
    (perm : copy'.Perm copy) (mirrored : (world.dropped index).OrderMirrored list copy') :
    (world.dropped index).Mirrors list copy' := by
  refine ⟨(perm.map _).nodup_iff.mpr mirrors.1, fun aspect differs => ?_⟩
  rcases differs.of_perm perm with before | ⟨first, second, rfl⟩
  · rcases (mirrors.2 aspect before).drop (World.loses_dropped found) with
      kept | ⟨serial, commit, carried, -⟩ | ⟨-, first, second, rfl, -⟩
    · exact kept
    · rw [uncommitted] at carried
      cases carried
    · exact mirrored first second differs
  · exact mirrored first second differs

end Settling

section Outcomes

variable {index : Nat} {request : Request} {note : Note}

section Replies

variable {serial : Nat} {commit : Commit} {detail : ListDetail} {held : ListItem} {seen : Nat}

/-- An item that is gone differs in nothing that was asked for. -/
theorem World.Mirrors.drop_gone {copy : List ListItem} (mirrors : world.Mirrors list copy)
    (found : world.mutations[index]? = some ⟨list, request, .answered serial .gone, note⟩)
    (logged : world.log[serial]? = some commit)
    (inPlace : ∀ first second, ¬ request.Arranges first second)
    (sound : Reply.Sound world list commit.change .gone) :
    (world.dropped index).Mirrors list copy := by
  obtain ⟨itemId, subject, -, gone⟩ := sound
  refine ⟨mirrors.1, fun aspect differs => ?_⟩
  exact mirrors.drop_untouched found rfl logged inPlace differs
    (not_touches_of_gone subject gone differs)

/-- A created item is appended as it was read. -/
theorem World.Mirrors.drop_created {text : String} {item : ListItem}
    (mirrors : world.Mirrors list detail.items)
    (found : world.mutations[index]? =
      some ⟨list, .addListItem text, .answered serial (.item held seen), note⟩)
    (logged : world.log[serial]? = some commit) (change : commit.change = .created item)
    (sound : Reply.Sound world list commit.change (.item held seen))
    (admitted : (Request.addListItem text).Keeps (world.dropped index) list detail
      (.answered serial (.item held seen))) :
    (world.dropped index).Mirrors list (detail.appended held).items := by
  rw [change] at sound
  obtain ⟨subject, -, accurate⟩ := sound
  have sameId : item.id = held.id := Option.some.inj subject
  obtain ⟨absent, still, last⟩ := admitted
  refine ⟨?_, fun aspect differs => ?_⟩
  · have split : ids (detail.appended held).items = ids detail.items ++ [held.id] :=
      List.map_append
    rw [split, List.nodup_append_comm]
    exact List.nodup_cons.mpr ⟨absent, mirrors.1⟩
  · rcases differs_appended absent differs with
      ⟨about, told⟩ | ⟨other, member, rfl, before⟩ | ⟨old, untouched⟩
    · have changed : (world.dropped index).ChangedSince list seen aspect :=
        accurate aspect about told
      exact changed.awaited still about
    · exact (last other member before).awaited
    · apply mirrors.drop_untouched found rfl logged (fun _ _ => id) old
      rw [change]
      exact untouched item sameId

/-- An updated item is replaced as it was read. -/
theorem World.Mirrors.drop_updated {itemId : ItemId} {body values : ListItemUpdate}
    (mirrors : world.Mirrors list detail.items)
    (found : world.mutations[index]? =
      some ⟨list, .updateListItem itemId body, .answered serial (.item held seen), note⟩)
    (logged : world.log[serial]? = some commit) (change : commit.change = .updated itemId values)
    (sound : Reply.Sound world list commit.change (.item held seen))
    (admitted : (Request.updateListItem itemId body).Keeps (world.dropped index) list detail
      (.answered serial (.item held seen))) :
    (world.dropped index).Mirrors list (detail.replaced itemId held).items := by
  rw [change] at sound
  obtain ⟨subject, -, accurate⟩ := sound
  have sameId : itemId = held.id := Option.some.inj subject
  have sameIds := ids_replaced sameId.symm detail
  refine ⟨by rw [sameIds]; exact mirrors.1, fun aspect differs => ?_⟩
  rcases differs_replaced sameId.symm differs with ⟨shows, about, told⟩ | ⟨old, untouched⟩
  · have changed : (world.dropped index).ChangedSince list seen aspect :=
      accurate aspect (sameId ▸ about) told
    exact changed.awaited (admitted shows) about
  · apply mirrors.drop_untouched found rfl logged (fun _ _ => id) old
    rw [change]
    exact untouched values

/-- A deleted item is taken out. -/
theorem World.Mirrors.drop_deleted {itemId : ItemId} (mirrors : world.Mirrors list detail.items)
    (found : world.mutations[index]? =
      some ⟨list, .deleteListItem itemId, .answered serial .noContent, note⟩)
    (logged : world.log[serial]? = some commit) (change : commit.change = .deleted itemId)
    (gone : itemId ∉ ids (shown (world.rows list))) :
    (world.dropped index).Mirrors list (detail.without itemId).items := by
  refine ⟨mirrors.1.sublist (List.filter_sublist.map _), fun aspect differs => ?_⟩
  obtain ⟨old, untouched⟩ := differs_without gone differs
  apply mirrors.drop_untouched found rfl logged (fun _ _ => id) old
  rw [change]
  exact untouched

end Replies

/-- The response to a mutation that was carried out. -/
theorem World.Good.onReply (good : world.Good) {serial : Nat} {reply : Reply}
    (found : world.mutations[index]? = some ⟨list, request, .answered serial reply, note⟩)
    (admitted : ∀ detail, world.Stands list detail →
      request.Keeps (world.dropped index) list detail (.answered serial reply)) :
    AllTrusted listDetailQuery
      (fun list detail => (world.dropped index).Mirrors list detail.items)
      (request.onReply list world.cache reply) := by
  obtain ⟨commit, logged, here, made, answered⟩ :=
    good.sound.mutations _ (List.mem_of_getElem? found) serial rfl
  have sound := answered reply rfl
  have others : ∀ other detail, other ≠ list →
      world.Mirrors other detail.items ∧ world.Stands other detail →
        (world.dropped index).Mirrors other detail.items := by
    rintro other detail elsewhere ⟨mirrors, -⟩
    exact mirrors.drop_elsewhere good.sound found (Ne.symm elsewhere)
  cases request with
  | addListItem text =>
      obtain ⟨item, change⟩ := made.created
      cases reply with
      | item held seen =>
          apply TrustedBut.ensureEntry
          apply trusted_patch good.standing others
          rintro - detail - - ⟨mirrors, stands⟩
          exact mirrors.drop_created found logged change sound (admitted detail stands)
      | noContent =>
          rw [change] at sound
          cases sound
      | gone =>
          apply trusted_untouched good.standing others
          exact fun detail ⟨mirrors, _⟩ => mirrors.drop_gone found logged (fun _ _ => id) sound
  | updateListItem itemId body =>
      obtain ⟨values, change⟩ := made.updated
      cases reply with
      | item held seen =>
          apply TrustedBut.ensureEntry
          apply trusted_patch good.standing others
          rintro - detail - - ⟨mirrors, stands⟩
          exact mirrors.drop_updated found logged change sound (admitted detail stands)
      | noContent =>
          rw [change] at sound
          cases sound
      | gone =>
          apply trusted_untouched good.standing others
          exact fun detail ⟨mirrors, _⟩ => mirrors.drop_gone found logged (fun _ _ => id) sound
  | deleteListItem itemId =>
      have change := made.deleted
      rw [change] at sound
      cases reply with
      | item held seen => cases sound.1
      | noContent =>
          have gone : itemId ∉ ids (shown (world.rows list)) := by
            have deleted := good.sound.deleted serial commit itemId logged change
            rwa [here] at deleted
          apply trusted_patch good.standing others
          rintro - detail - - ⟨mirrors, -⟩
          exact mirrors.drop_deleted found logged change gone
      | gone =>
          obtain ⟨_, subject, -⟩ := sound
          cases subject
  | reorderListItems orderedIds previous =>
      apply trusted_untouched good.standing others
      rintro detail ⟨mirrors, stands⟩
      apply mirrors.drop_reordered found rfl _ (admitted detail stands)
      intro serial' commit' carried logged'
      cases carried
      rw [logged] at logged'
      cases logged'
      exact made.reordered

/-- The refusal of a mutation. -/
theorem World.Good.onRefusal (good : world.Good) {conflict : Bool}
    (found : world.mutations[index]? = some ⟨list, request, .refused conflict, note⟩)
    (admitted : ∀ detail, world.Stands list detail →
      request.Keeps (world.dropped index) list detail (.refused conflict)) :
    AllTrusted listDetailQuery
      (fun list detail => (world.dropped index).Mirrors list detail.items)
      (request.onRefusal list conflict world.cache) := by
  have others : ∀ other detail, other ≠ list →
      world.Mirrors other detail.items ∧ world.Stands other detail →
        (world.dropped index).Mirrors other detail.items := by
    rintro other detail elsewhere ⟨mirrors, -⟩
    exact mirrors.drop_elsewhere good.sound found (Ne.symm elsewhere)
  have idle : (∀ first second, ¬ request.Arranges first second) → AllTrusted listDetailQuery
      (fun list detail => (world.dropped index).Mirrors list detail.items) world.cache := by
    intro inPlace
    apply trusted_untouched good.standing others
    rintro detail ⟨mirrors, -⟩
    exact mirrors.drop_idle found rfl inPlace
  cases request with
  | addListItem text => exact idle fun _ _ => id
  | updateListItem itemId body => exact idle fun _ _ => id
  | deleteListItem itemId => exact idle fun _ _ => id
  | reorderListItems orderedIds previous =>
      cases conflict with
      | true =>
          have elsewhere : AllTrusted listDetailQuery
              (fun other detail => other ≠ list → (world.dropped index).Mirrors other detail.items)
              world.cache := by
            apply good.standing.imp
            exact fun other _ detail _ _ _ trusted differ => others other detail differ trusted
          have spared : ∀ other (detail : ListDetail), other ≠ list →
              (other ≠ list → (world.dropped index).Mirrors other detail.items) →
                (world.dropped index).Mirrors other detail.items :=
            fun _ _ differ trusted => trusted differ
          cases previous with
          | none => exact trusted_invalidate elsewhere spared
          | some items =>
              have restored : AllTrusted listDetailQuery
                  (fun other detail => other ≠ list →
                    (world.dropped index).Mirrors other detail.items)
                  (world.cache.patchListDetailById list fun detail =>
                    { detail with items := items }) :=
                trusted_patch elsewhere (fun _ _ _ => id) fun _ _ _ _ _ differ => absurd rfl differ
              exact trusted_invalidate restored spared
      | false =>
          cases previous with
          | none =>
              apply trusted_untouched good.standing others
              rintro detail ⟨mirrors, stands⟩
              obtain ⟨items, held, -⟩ := admitted detail stands
              cases held
          | some items =>
              apply trusted_patch good.standing others
              rintro - detail - - ⟨mirrors, stands⟩
              obtain ⟨_, same, perm, mirrored⟩ := admitted detail stands
              cases same
              exact mirrors.drop_rolledBack found rfl perm mirrored

end Outcomes

/-- An outcome that lands keeps the copies, given what it needs of them. -/
theorem World.Good.settle (good : world.Good) {index : Nat}
    (keeps : ∀ mutation detail, world.mutations[index]? = some mutation →
      world.Stands mutation.list detail → mutation.request.Keeps (world.dropped index)
        mutation.list detail mutation.progress)
    (moved : world.settle index = some next) : next.Good := by
  unfold World.settle at moved
  split at moved
  next found =>
    cases moved
    exact ⟨((good.sound.dropped index).noted _ _).withCache _,
      good.onReply found fun detail => keeps _ detail found⟩
  next found =>
    cases moved
    exact ⟨((good.sound.dropped index).noted _ _).withCache _,
      good.onRefusal found fun detail => keeps _ detail found⟩
  next => cases moved

end FrontDashboard.Lists
