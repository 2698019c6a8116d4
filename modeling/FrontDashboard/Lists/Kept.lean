import FrontDashboard.Lists.Arranged

/-! # The steps that keep the copies

Each step keeps the standing data of every list wrong only about what the page will be told of,
and the journal right about how the list is arranged.
-/

namespace FrontDashboard.Lists

open Query

variable {world next : World} {list : ListId} {detail : ListDetail} {index : Nat}

/-- The invariant of the runs that keep the copies. -/
structure World.Kept (world : World) : Prop where
  good : world.Good
  numbered : world.Numbered
  tracks : AllTrusted listDetailQuery world.Tracks world.cache

/-- What is known of the standing data. -/
structure World.Holds (world : World) (list : ListId) (detail : ListDetail) : Prop where
  mirrors : world.Mirrors list detail.items
  stands : world.Stands list detail
  tracks : world.Tracks list detail

/-- In a kept world what is trusted holds. -/
theorem World.Kept.holds (kept : world.Kept) :
    AllTrusted listDetailQuery world.Holds world.cache := by
  apply (AllTrusted.both kept.good.standing kept.tracks).imp
  exact fun _ _ _ _ _ _ ⟨⟨mirrors, stands⟩, tracks⟩ => ⟨mirrors, stands, tracks⟩

/-- In a kept world what stands is tracked. -/
theorem World.Kept.tracks_of_stands (kept : world.Kept) (stands : world.Stands list detail) :
    world.Tracks list detail := by
  obtain ⟨entry, present, standing, loaded⟩ := stands
  exact ((kept.tracks list entry present).2 id standing).1 detail loaded

/-! ## Numbers -/

/-- The lists and the notes of the mutations. -/
def World.noted? (world : World) : List (ListId × Note) :=
  world.mutations.map fun mutation => (mutation.list, mutation.note)

/-- No mutation is issued, and nothing that has arrived is forgotten. -/
theorem World.Numbered.of_sublist (numbered : world.Numbered)
    (notes : next.noted?.Sublist world.noted?) (issued : next.journal.issued = world.journal.issued)
    (arrivals : ∀ list, world.journal.arrivals list ≤ next.journal.arrivals list) :
    next.Numbered := by
  have back : ∀ mutation ∈ next.mutations, ∃ before ∈ world.mutations,
      before.list = mutation.list ∧ before.note = mutation.note := by
    intro mutation member
    obtain ⟨before, present, same⟩ := List.mem_map.mp (notes.subset (List.mem_map_of_mem member))
    exact ⟨before, present, congrArg Prod.fst same, congrArg Prod.snd same⟩
  constructor
  case issued =>
    intro mutation member
    obtain ⟨before, present, -, note⟩ := back mutation member
    rw [← note, issued]
    exact numbered.issued before present
  case distinct =>
    have numbers := notes.map fun pair : ListId × Note => pair.2.number
    rw [World.noted?, World.noted?, List.map_map, List.map_map] at numbers
    exact numbered.distinct.sublist numbers
  case arrivals =>
    intro mutation member
    obtain ⟨before, present, here, note⟩ := back mutation member
    rw [← note, ← here]
    exact (numbered.arrivals before present).trans (arrivals _)

/-- A request just made has no serial number yet. -/
theorem World.Numbered.issue (numbered : world.Numbered) (request : Request) :
    (world.issue list request).Numbered := by
  constructor
  case issued =>
    intro mutation member
    rcases List.mem_append.mp member with old | new
    · exact Nat.lt_succ_of_lt (numbered.issued mutation old)
    · cases List.mem_singleton.mp new
      exact Nat.lt_succ_self _
  case distinct =>
    have split : (world.issue list request).mutations.map (fun mutation => mutation.note.number) =
        world.mutations.map (fun mutation => mutation.note.number) ++ [world.journal.issued] :=
      List.map_append
    rw [split, List.nodup_append_comm]
    refine List.nodup_cons.mpr ⟨fun member => ?_, numbered.distinct⟩
    obtain ⟨mutation, old, same⟩ := List.mem_map.mp member
    exact absurd same (Nat.ne_of_lt (numbered.issued mutation old))
  case arrivals =>
    intro mutation member
    rcases List.mem_append.mp member with old | new
    · exact numbered.arrivals mutation old
    · cases List.mem_singleton.mp new
      exact Nat.le_refl _

/-- What arrives for a list is counted. -/
theorem World.Numbered.noted (numbered : world.Numbered) (list : ListId) (arranged : Arrangement) :
    (world.noted list arranged).Numbered := by
  refine numbered.of_sublist (.refl _) rfl fun other => ?_
  have counts : (world.noted list arranged).journal.arrivals =
      Function.update world.journal.arrivals list (world.journal.arrivals list + 1) := rfl
  rw [counts]
  by_cases here : other = list
  · subst here
    rw [Function.update_self]
    exact Nat.le_succ _
  · rw [Function.update_of_ne here]

theorem World.Numbered.dropped (numbered : world.Numbered) (index : Nat) :
    (world.dropped index).Numbered :=
  numbered.of_sublist ((List.eraseIdx_sublist _ _).map _) rfl fun _ => Nat.le_refl _

/-! ## The server -/

/-- A step that nothing of has reached the page. -/
theorem World.Kept.evolve (kept : world.Kept) (good : next.Good) (numbered : next.Numbered)
    (evolves : world.Evolves next) (unseen : world.Unseen next)
    (carries : ∀ list, world.Carries list next) : next.Kept := by
  refine ⟨good, numbered, ?_⟩
  rw [unseen.cache]
  apply kept.tracks.imp
  intro list _ _ _ _ _ tracks
  exact tracks.evolve evolves (by rw [unseen.journal]) (by rw [unseen.journal]) (carries list)

/-- A write by another user keeps the world. -/
theorem World.Kept.write (kept : world.Kept) {write : Write}
    (current : write.Current (shown (world.rows list)))
    (committed : world.commit list false write = some next) : next.Kept := by
  obtain ⟨change, wrote, mutations, unseen⟩ := kept.good.sound.written current committed
  have numbered : next.Numbered := by
    refine kept.numbered.of_sublist ?_ (by rw [unseen.journal]) fun _ => by rw [unseen.journal]
    rw [World.noted?, World.noted?, mutations]
  apply kept.evolve (kept.good.write current committed) numbered wrote.evolves unseen
  apply wrote.carries
  intro mutation member _
  refine ⟨mutations ▸ member, .inl ⟨_, wrote.logged_last, rfl, ?_⟩⟩
  change next.delivered ≤ _
  rw [wrote.grows.delivered]
  exact kept.good.sound.bounded

/-- The mutation at an index gets further, without a commit. -/
def World.Progresses (world next : World) : Prop :=
  ∃ index mutation progress, world.mutations[index]? = some mutation ∧
    next = world.progressed index mutation progress ∧
      progress.serial? = mutation.progress.serial?

/-- The numbers stay right when one request progresses. -/
theorem World.Numbered.progressed (numbered : world.Numbered) {mutation : Mutation}
    {progress : Progress}
    (found : world.mutations[index]? = some mutation)
    (same : next.mutations = world.mutations.set index { mutation with progress := progress })
    (journal : next.journal = world.journal) : next.Numbered := by
  have notes : next.noted? = world.noted? := by
    rw [World.noted?, World.noted?, same]
    exact Places.map_set _ found rfl
  exact numbered.of_sublist (notes ▸ .refl _) (by rw [journal]) fun _ => by rw [journal]

/-- A request that progresses keeps the world. -/
theorem World.Kept.progress (kept : world.Kept) (good : next.Good)
    (progresses : world.Progresses next) : next.Kept := by
  obtain ⟨index, mutation, progress, found, rfl, serial⟩ := progresses
  have grows : world.Grows (world.progressed index mutation progress) :=
    .progressed found fun other same => serial.trans same
  have numbered : (world.progressed index mutation progress).Numbered :=
    kept.numbered.progressed found rfl rfl
  apply kept.evolve good numbered (grows.evolves rfl rfl rfl) ⟨rfl, rfl, rfl⟩
  intro list
  apply World.carries_of_grows grows rfl rfl rfl
  intro other member _ _ uncommitted
  rcases List.mem_or_eq_of_mem_set member with old | rfl
  · exact ⟨other, old, rfl, rfl, rfl, uncommitted⟩
  · exact ⟨mutation, List.mem_of_getElem? found, rfl, rfl, rfl, serial.symm.trans uncommitted⟩

/-- A request that is refused progresses. -/
theorem World.progresses_of_refuse (moved : world.refuse index = some next) :
    world.Progresses next := by
  unfold World.refuse at moved
  split at moved
  next list request note found =>
    cases moved
    exact ⟨index, _, _, found, rfl, rfl⟩
  next => cases moved

/-- A request that is answered progresses. -/
theorem World.progresses_of_answer (moved : world.answer index = some next) :
    world.Progresses next := by
  unfold World.answer at moved
  split at moved
  next list request serial note found =>
    split at moved
    next commit logged =>
      cases moved
      exact ⟨index, _, _, found, rfl, rfl⟩
    next => cases moved
  next => cases moved

/-- The server carries out a mutation: it is committed, and the others wait as before. -/
theorem World.Kept.carryOut (kept : world.Kept) {startedAt : Nat} {loaded : Values}
    (admitted : Admitted world (.carryOut index startedAt loaded))
    (moved : world.carryOut index startedAt loaded = some next) : next.Kept := by
  have good := kept.good.carryOut admitted moved
  obtain ⟨list, request, note, found, ⟨change, -, wrote, unseen, mutations⟩ | rfl⟩ :=
    kept.good.sound.carried admitted moved
  · have numbered : next.Numbered := kept.numbered.progressed found mutations unseen.journal
    apply kept.evolve good numbered wrote.evolves unseen
    apply wrote.carries
    intro other member uncommitted
    have own : ⟨list, request, .committed world.log.length, note⟩ ∈ next.mutations := by
      rw [mutations]
      exact Places.mem_set_self found
    have before : other ∈ world.mutations := by
      rw [mutations] at member
      refine (List.mem_or_eq_of_mem_set member).resolve_right ?_
      rintro rfl
      cases uncommitted
    refine ⟨before, .inr ⟨_, World.mem_without.mpr ⟨own, fun same => ?_⟩, rfl⟩⟩
    have one := numbered.eq_of_number own member same
    subst one
    cases uncommitted
  · exact kept.progress good ⟨index, _, _, found, rfl, rfl⟩

/-- A request made grows the world. -/
theorem World.grows_issue (world : World) (list : ListId) (request : Request) :
    world.Grows (world.issue list request) :=
  ⟨fun _ _ => id, rfl, fun mutation member =>
    ⟨mutation, List.mem_append_left _ member, rfl, rfl, rfl, fun _ => id⟩⟩

/-- A mutation that is issued matters to its own list alone, and only where it reorders. -/
theorem World.Tracks.issue {other : ListId} {request : Request}
    (tracks : world.Tracks other detail) (apart : list = other → request.reorders = false) :
    (world.issue list request).Tracks other detail := by
  have grows := world.grows_issue list request
  apply tracks.evolve (grows.evolves rfl rfl rfl) rfl rfl
  apply World.carries_of_grows grows rfl rfl rfl
  intro mutation member here reorders uncommitted
  rcases List.mem_append.mp member with old | new
  · exact ⟨mutation, old, rfl, rfl, rfl, uncommitted⟩
  · cases List.mem_singleton.mp new
    rw [apart here] at reorders
    cases reorders

/-- A request that is no reorder keeps the world. -/
theorem World.Kept.issue (kept : world.Kept) {request : Request}
    (inPlace : request.reorders = false) : (world.issue list request).Kept := by
  refine ⟨kept.good.issue request, kept.numbered.issue request, ?_⟩
  apply kept.tracks.imp
  exact fun _ _ _ _ _ _ tracks => tracks.issue fun _ => inPlace

/-! ## Dragging -/

/-- Whether an order is taken is read off the entry that is loaded. -/
theorem takesOrder_eq {cache : ListCache} {orderedIds : List ItemId} {entry : ListEntry}
    (present : (cache.ensureEntry listDetailQuery list).entries.get list = some entry)
    (loaded : entry.state.data = some detail) :
    cache.takesOrder list orderedIds = (orderByIds detail.items orderedIds).isSome ∧
      cache.previousItems list = some detail.items := by
  have data : ListCache.dataOf list (cache.ensureEntry listDetailQuery list) = some detail := by
    rw [ListCache.dataOf, present, Option.bind_some, loaded]
  constructor
  · rw [ListCache.takesOrder, data]
    rfl
  · rw [ListCache.previousItems, data]
    rfl

/-- A drag grows the world. -/
theorem World.grows_drag (world : World) (list : ListId) (orderedIds : List ItemId)
    (previous : Option (List ListItem)) : world.Grows (world.drag list orderedIds previous) :=
  ⟨fun _ _ => id, rfl, fun mutation member =>
    ⟨mutation, List.mem_append_left _ member, rfl, rfl, rfl, fun _ => id⟩⟩

/-- **A list that is dragged** shows the order that is asked for, if it is one of its items, and
could go back to the order before. -/
theorem World.Holds.drag {orderedIds : List ItemId} (holds : world.Holds list detail)
    (numbered : world.Numbered)
    (takes : world.cache.takesOrder list orderedIds = (orderByIds detail.items orderedIds).isSome) :
    (world.drag list orderedIds (some detail.items)).Tracks list (detail.ordered orderedIds) := by
  have grows := world.grows_drag list orderedIds (some detail.items)
  have perm := perm_ordered orderedIds detail
  constructor
  case arranged =>
    cases ordered : orderByIds detail.items orderedIds with
    | none =>
        have same : (detail.ordered orderedIds).items = detail.items := by
          rw [ListDetail.ordered, ordered]
          rfl
        rw [ordered] at takes
        have refused : ¬ world.cache.takesOrder list orderedIds = true := by
          rw [takes]
          exact Bool.false_ne_true
        have journal : (world.drag list orderedIds (some detail.items)).journal.arranged =
            world.journal.arranged := if_neg refused
        rw [same, journal]
        exact holds.tracks.arranged.evolve (grows.evolves rfl rfl rfl)
    | some result =>
        have sameIds : ids (detail.ordered orderedIds).items = orderedIds := by
          rw [ListDetail.ordered, ordered]
          exact (orderByIds_eq_some ordered).1
        rw [ordered] at takes
        have journal : (world.drag list orderedIds (some detail.items)).journal.arranged list =
            ⟨orderedIds, .own world.journal.issued⟩ :=
          (congrFun (if_pos takes) list).trans (Function.update_self _ _ _)
        rw [journal]
        refine ⟨_, List.mem_append_right _ List.mem_cons_self, rfl, rfl, orderedIds, _, rfl,
          fun _ => id, fun first _ second _ before => ?_⟩
        rwa [sameIds] at before
  case previous =>
    intro mutation member here undisturbed orderedIds' previous request
    rcases List.mem_append.mp member with old | new
    · obtain ⟨items, held, back⟩ := holds.tracks.previous mutation old here
        ⟨undisturbed.uncommitted, undisturbed.arrivals⟩ orderedIds' previous request
      have evolves := (grows.without mutation.note.number).evolves rfl rfl rfl
      exact ⟨items, held, back.perm.trans perm.symm, back.mirrored.evolve evolves,
        back.arranged.evolve evolves⟩
    · cases List.mem_singleton.mp new
      cases request
      have others : world.Grows ((world.drag list orderedIds (some detail.items)).without
          world.journal.issued) := by
        refine ⟨fun _ _ => id, rfl, fun mutation member =>
          ⟨mutation, ?_, rfl, rfl, rfl, fun _ => id⟩⟩
        exact World.mem_without.mpr ⟨List.mem_append_left _ member,
          Nat.ne_of_lt (numbered.issued mutation member)⟩
      have evolves := others.evolves rfl rfl rfl
      have mirrored : world.OrderMirrored list detail.items := fun first second =>
        holds.mirrors.2 (.order first second)
      exact ⟨detail.items, rfl, perm.symm, mirrored.evolve evolves,
        holds.tracks.arranged.evolve evolves⟩

/-- A drag keeps the world, with the order shown at once. -/
theorem World.Kept.drag (kept : world.Kept) (orderedIds : List ItemId) :
    ((world.drag list orderedIds (world.cache.previousItems list)).withCache
      (world.cache.reorderOptimistically list orderedIds)).Kept := by
  have issued : (world.issue list (.reorderListItems orderedIds
      (world.cache.previousItems list))).Numbered := kept.numbered.issue _
  refine ⟨kept.good.reorder orderedIds _, ⟨issued.issued, issued.distinct, issued.arrivals⟩, ?_⟩
  have looked := TrustedBut.ensureEntry kept.holds list
  apply trusted_patch looked
  · intro other detail elsewhere holds
    have tracks : (world.issue list (.reorderListItems orderedIds
        (world.cache.previousItems list))).Tracks other detail :=
      holds.tracks.issue fun same => absurd same.symm elsewhere
    have arranged : (world.drag list orderedIds (world.cache.previousItems list)).journal.arranged
        other = world.journal.arranged other := by
      change (if _ then _ else _ : ListId → Arrangement) other = _
      split
      · exact Function.update_of_ne elsewhere _ _
      · rfl
    exact tracks.aside _ world.answers arranged rfl
  · intro entry detail present loaded holds
    obtain ⟨takes, previous⟩ :=
      @takesOrder_eq list detail world.cache orderedIds entry present loaded
    rw [previous]
    exact (holds.drag kept.numbered takes).aside _ world.answers rfl rfl

/-! ## Frames and fetches -/

/-- An arrangement is one of ids. -/
theorem World.Arranged.of_ids {items items' : List ListItem} {arranged : Arrangement}
    (holds : world.Arranged list items arranged) (same : ids items' = ids items) :
    world.Arranged list items' arranged := by
  unfold World.Arranged at holds ⊢
  split at holds
  next =>
    unfold World.PutBy
    rw [same]
    exact holds
  next =>
    refine ⟨holds.1, fun first named second named' differs => holds.2 first named second named' ?_⟩
    exact ⟨same ▸ differs.1, differs.2⟩

/-- A frame that arrives keeps the world. -/
theorem World.Kept.deliver (kept : world.Kept) (admitted : Admitted world .deliver)
    (moved : world.deliver = some next) : next.Kept := by
  have good := kept.good.deliver admitted moved
  obtain ⟨⟨list, own, change⟩, logged, rfl⟩ := Option.map_eq_some_iff.mp moved
  cases own with
  | true =>
      refine ⟨good, ⟨kept.numbered.issued, kept.numbered.distinct, kept.numbered.arrivals⟩, ?_⟩
      apply kept.tracks.imp
      exact fun _ _ _ _ _ _ tracks => tracks.advance logged (.inl rfl)
  | false =>
      have advanced : world.advanced.Numbered :=
        ⟨kept.numbered.issued, kept.numbered.distinct, kept.numbered.arrivals⟩
      have noted := advanced.noted list (world.arrangement ⟨list, false, change⟩)
      refine ⟨good, ⟨noted.issued, noted.distinct, noted.arrivals⟩, ?_⟩
      have others : ∀ other detail, other ≠ list → world.Tracks other detail →
          ((world.advanced.noted list (world.arrangement ⟨list, false, change⟩)).withCache
            (change.onFrame list world.cache)).Tracks other detail := by
        intro other detail elsewhere tracks
        have later := (tracks.advance logged (.inr (Ne.symm elsewhere))).noted elsewhere
          (world.arrangement ⟨list, false, change⟩)
        exact later.aside _ world.answers rfl rfl
      have here : ∀ detail : ListDetail, world.Arranged list detail.items
          (world.arrangement ⟨list, false, change⟩) →
          ((world.advanced.noted list (world.arrangement ⟨list, false, change⟩)).withCache
            (change.onFrame list world.cache)).Tracks list detail := by
        intro detail holds
        have arranged : world.advanced.Arranged list detail.items
            (world.arrangement ⟨list, false, change⟩) := holds
        exact (World.tracks_noted arranged advanced.arrivals).aside _ world.answers rfl rfl
      cases change with
      | created _ | deleted _ => exact trusted_invalidate kept.tracks others
      | updated itemId values =>
          apply trusted_patchOrInvalidate kept.tracks others
          rintro detail - tracks -
          apply here
          exact tracks.arranged.of_ids (ids_patched _ _ _)
      | reordered body =>
          apply trusted_patchOrInvalidate kept.tracks others
          rintro detail data - fits
          apply here
          have takes : world.cache.takesOrder list body.itemIds = true := by
            rw [ListCache.takesOrder, data]
            exact fits
          have arrangement : world.arrangement ⟨list, false, .reordered body⟩ =
              ⟨body.itemIds, .asOf (world.delivered + 1)⟩ := if_pos takes
          rw [arrangement]
          refine ⟨(List.getElem?_eq_some_iff.mp logged).1, ?_⟩
          intro first _ second _ differs
          obtain ⟨result, ordered⟩ := Option.isSome_iff_exists.mp fits
          have sameIds : ids (detail.ordered body.itemIds).items = body.itemIds := by
            rw [ListDetail.ordered, ordered]
            exact (orderByIds_eq_some ordered).1
          have denied : (Change.reordered body).Denied (shown (world.rows list))
              (.order first second) := ⟨sameIds ▸ differs.1, differs.2⟩
          exact kept.good.sound.told world.delivered _ _ logged denied

/-- A load that the server answers keeps the world. -/
theorem World.Kept.serve (kept : world.Kept) (moved : world.serve list = some next) :
    next.Kept := by
  have good := kept.good.serve moved
  unfold World.serve at moved
  split at moved
  next =>
    cases moved
    refine ⟨good, ⟨kept.numbered.issued, kept.numbered.distinct, kept.numbered.arrivals⟩, ?_⟩
    apply kept.tracks.imp
    exact fun _ _ _ _ _ _ tracks => tracks.aside _ _ rfl rfl
  next => cases moved

/-- A load that starts or lands keeps the world. -/
theorem World.Kept.load (kept : world.Kept) (admitted : Admitted world (.load list))
    (moved : world.load list = some next) : next.Kept := by
  have good := kept.good.load admitted moved
  unfold World.load at moved
  split at moved
  next request answer asked answered =>
    cases moved
    have noted := kept.numbered.noted list ⟨ids answer.detail.items, .asOf answer.seen⟩
    refine ⟨good, ⟨noted.issued, noted.distinct, noted.arrivals⟩, ?_⟩
    obtain ⟨bounded, -, accurate⟩ := kept.good.sound.answered list answer answered
    apply AllTrusted.succeed_asked kept.tracks
    · exact fun other detail elsewhere tracks =>
        (tracks.noted elsewhere _).aside _ _ rfl rfl
    · intro entry present
      rw [World.asked, present] at asked
      exact asked
    · intro entry present fresh
      have holds : world.Arranged list answer.detail.items
          ⟨ids answer.detail.items, .asOf answer.seen⟩ :=
        ⟨bounded, fun first _ second _ => accurate (.order first second)⟩
      exact (World.tracks_noted holds kept.numbered.arrivals).aside _ _ rfl rfl
  next => cases moved

/-- A load that fails keeps the world. -/
theorem World.Kept.failLoad (kept : world.Kept) {rejection : Option String}
    (moved : world.failLoad list rejection = some next) : next.Kept := by
  have good := kept.good.failLoad moved
  obtain ⟨request, -, rfl⟩ := Option.map_eq_some_iff.mp moved
  refine ⟨good, ⟨kept.numbered.issued, kept.numbered.distinct, kept.numbered.arrivals⟩, ?_⟩
  apply AllTrusted.fail
  apply kept.tracks.imp
  exact fun _ _ _ _ _ _ tracks => tracks.aside _ _ rfl rfl

/-! ## Outcomes -/

/-- Where fewer items are shown, those that are left stand as before. -/
theorem World.Arranged.of_sublist {items items' : List ListItem} {arranged : Arrangement}
    (holds : world.Arranged list items arranged) (within : (ids items').Sublist (ids items)) :
    world.Arranged list items' arranged := by
  unfold World.Arranged at holds ⊢
  split at holds
  next =>
    obtain ⟨mutation, member, numbered, here, orderedIds, previous, request, named, order⟩ := holds
    exact ⟨mutation, member, numbered, here, orderedIds, previous, request, named,
      fun first named second named' before => order first named second named'
        (before.of_sublist within)⟩
  next =>
    refine ⟨holds.1, fun first named second named' differs => holds.2 first named second named' ?_⟩
    exact ⟨differs.1.of_sublist within, differs.2⟩

/-- An item that is appended was not arranged with the others. -/
theorem World.Arranged.append {arranged : Arrangement}
    (holds : world.Arranged list detail.items arranged) (item : ListItem) :
    world.Arranged list (detail.appended item).items
      { arranged with names := arranged.names.filter fun itemId => itemId ≠ item.id } := by
  have split : ids (detail.appended item).items = ids detail.items ++ [item.id] := List.map_append
  have old : ∀ itemId ∈ arranged.names.filter (fun itemId => itemId ≠ item.id),
      itemId ∈ arranged.names ∧ itemId ≠ item.id := by
    intro itemId member
    exact ⟨(List.mem_filter.mp member).1, of_decide_eq_true (List.mem_filter.mp member).2⟩
  have before : ∀ first second, second ≠ item.id →
      Precedes (ids (detail.appended item).items) first second →
        Precedes (ids detail.items) first second := by
    intro first second other precedes
    rw [split] at precedes
    exact precedes.of_append_singleton.resolve_right fun last => other last.2
  unfold World.Arranged at holds ⊢
  dsimp only at holds ⊢
  split at holds
  next =>
    obtain ⟨mutation, member, numbered, here, orderedIds, previous, request, named, order⟩ := holds
    refine ⟨mutation, member, numbered, here, orderedIds, previous, request,
      fun itemId member => named itemId (old itemId member).1, ?_⟩
    intro first firstNamed second secondNamed precedes
    exact order first (old first firstNamed).1 second (old second secondNamed).1
      (before first second (old second secondNamed).2 precedes)
  next =>
    refine ⟨holds.1, fun first firstNamed second secondNamed differs => ?_⟩
    exact holds.2 first (old first firstNamed).1 second (old second secondNamed).1
      ⟨before first second (old second secondNamed).2 differs.1, differs.2⟩

section Outcomes

variable {request : Request} {note : Note}

/-- The outcome of a mutation is for its own list. -/
theorem World.Kept.elsewhere (kept : world.Kept) {mutation : Mutation}
    (found : world.mutations[index]? = some mutation) (arranged : Arrangement) (cache : ListCache)
    {other : ListId} (elsewhere : other ≠ mutation.list) (tracks : world.Tracks other detail) :
    (((world.dropped index).noted mutation.list arranged).withCache cache).Tracks other detail := by
  have left := tracks.drop_elsewhere kept.good.sound found (Ne.symm elsewhere)
  exact (left.noted elsewhere arranged).aside _ world.answers rfl rfl

/-- For its own list an outcome says how it is arranged. -/
theorem World.Kept.here (kept : world.Kept) {arranged : Arrangement} (cache : ListCache)
    (holds : (world.dropped index).Arranged list detail.items arranged) :
    (((world.dropped index).noted list arranged).withCache cache).Tracks list detail :=
  (World.tracks_noted holds (kept.numbered.dropped index).arrivals).aside _ world.answers rfl rfl

/-- A mutation that reorders nothing leaves its list arranged as it is. -/
theorem World.Arranged.drop {items : List ListItem} {arranged : Arrangement} {mutation : Mutation}
    (holds : world.Arranged list items arranged)
    (found : world.mutations[index]? = some mutation)
    (inPlace : mutation.request.reorders = false) :
    (world.dropped index).Arranged list items arranged := by
  refine holds.lose (World.loses_dropped found) rfl fun _ orderedIds previous reorders => ?_
  rw [reorders] at inPlace
  cases inPlace

/-- The response to a mutation that was carried out. -/
theorem World.Kept.onReply (kept : world.Kept) {serial : Nat} {reply : Reply}
    (found : world.mutations[index]? = some ⟨list, request, .answered serial reply, note⟩) :
    AllTrusted listDetailQuery
      (((world.dropped index).noted list (request.arrangement note (world.journal.arranged list)
        (.answered serial reply))).withCache (request.onReply list world.cache reply)).Tracks
      (request.onReply list world.cache reply) := by
  obtain ⟨commit, logged, here, made, answered⟩ :=
    kept.good.sound.mutations _ (List.mem_of_getElem? found) serial rfl
  have sound := answered reply rfl
  have others := fun (other : ListId) (detail : ListDetail) (elsewhere : other ≠ list)
      (tracks : world.Tracks other detail) =>
    kept.elsewhere found (request.arrangement note (world.journal.arranged list)
      (.answered serial reply)) (request.onReply list world.cache reply) elsewhere tracks
  cases request with
  | addListItem text =>
      cases reply with
      | item held seen =>
          apply TrustedBut.ensureEntry
          apply trusted_patch kept.tracks others
          intro _ detail _ _ tracks
          exact kept.here _ ((tracks.arranged.append held).drop found rfl)
      | _ =>
          apply trusted_untouched kept.tracks others
          exact fun detail tracks => kept.here _ (tracks.arranged.drop found rfl)
  | updateListItem itemId body =>
      cases reply with
      | item held seen =>
          obtain ⟨values, change⟩ := made.updated
          rw [change] at sound
          have sameId : itemId = held.id := Option.some.inj sound.1
          apply TrustedBut.ensureEntry
          apply trusted_patch kept.tracks others
          intro _ detail _ _ tracks
          exact kept.here
            _ ((tracks.arranged.of_ids (ids_replaced sameId.symm detail)).drop found rfl)
      | _ =>
          apply trusted_untouched kept.tracks others
          exact fun detail tracks => kept.here _ (tracks.arranged.drop found rfl)
  | deleteListItem itemId =>
      cases reply with
      | noContent =>
          apply trusted_patch kept.tracks others
          intro _ detail _ _ tracks
          exact kept.here
            _ ((tracks.arranged.of_sublist (List.filter_sublist.map _)).drop found rfl)
      | _ =>
          apply trusted_untouched kept.tracks others
          exact fun detail tracks => kept.here _ (tracks.arranged.drop found rfl)
  | reorderListItems orderedIds previous =>
      apply trusted_untouched kept.tracks others
      intro detail tracks
      apply kept.here
      rw [Request.arrangement]
      split
      next basis =>
        exact tracks.arranged.succeeded kept.good.sound kept.numbered found basis
      next other =>
        exact tracks.arranged.lose (World.loses_dropped found) rfl fun _ _ _ _ => other

/-- The refusal of a mutation. -/
theorem World.Kept.onRefusal (kept : world.Kept) {conflict : Bool}
    (found : world.mutations[index]? = some ⟨list, request, .refused conflict, note⟩)
    (admitted : ∀ detail, world.Stands list detail →
      request.MayApply (world.dropped index) list detail note (.refused conflict)) :
    AllTrusted listDetailQuery
      (((world.dropped index).noted list (request.arrangement note (world.journal.arranged list)
        (.refused conflict))).withCache (request.onRefusal list conflict world.cache)).Tracks
      (request.onRefusal list conflict world.cache) := by
  generalize arrangement : request.arrangement note (world.journal.arranged list)
    (.refused conflict) = arranged
  generalize same : ((world.dropped index).noted list arranged).withCache
    (request.onRefusal list conflict world.cache) = after
  have others : ∀ other (detail : ListDetail), other ≠ list → world.Tracks other detail →
      after.Tracks other detail := by
    intro other detail elsewhere tracks
    rw [← same]
    exact kept.elsewhere found arranged _ elsewhere tracks
  have here : ∀ detail : ListDetail, (world.dropped index).Arranged list detail.items arranged →
      after.Tracks list detail := by
    intro detail holds
    rw [← same]
    exact kept.here _ holds
  cases request with
  | reorderListItems orderedIds previous =>
      cases conflict with
      | true =>
          have elsewhere : AllTrusted listDetailQuery
              (fun other detail => other ≠ list → after.Tracks other detail) world.cache := by
            apply kept.tracks.imp
            exact fun other _ detail _ _ _ tracks differ => others other detail differ tracks
          have spared : ∀ other (detail : ListDetail), other ≠ list →
              (other ≠ list → after.Tracks other detail) → after.Tracks other detail :=
            fun _ _ differ tracks => tracks differ
          cases previous with
          | none => exact trusted_invalidate elsewhere spared
          | some items =>
              have restored : AllTrusted listDetailQuery
                  (fun other detail => other ≠ list → after.Tracks other detail)
                  (world.cache.patchListDetailById list fun detail =>
                    { detail with items := items }) :=
                trusted_patch elsewhere (fun _ _ _ => id) fun _ _ _ _ _ differ => absurd rfl differ
              exact trusted_invalidate restored spared
      | false =>
          have takenBack : ∀ detail, world.Holds list detail → ∃ items, previous = some items ∧
              (world.dropped index).Arranged list items arranged := by
            intro detail holds
            obtain ⟨items, held, back⟩ := holds.tracks.previous _ (List.mem_of_getElem? found) rfl
              ⟨rfl, admitted detail holds.stands⟩ orderedIds previous rfl
            refine ⟨items, held, ?_⟩
            rw [kept.numbered.dropped_eq_without found, ← arrangement]
            exact back.arranged
          have others := fun other detail elsewhere (holds : world.Holds other detail) =>
            others other detail elsewhere holds.tracks
          cases previous with
          | none =>
              apply trusted_untouched kept.holds others
              intro detail holds
              obtain ⟨items, held, -⟩ := takenBack detail holds
              cases held
          | some items =>
              apply trusted_patch kept.holds others
              intro _ detail _ _ holds
              obtain ⟨_, held, holds⟩ := takenBack detail holds
              cases held
              exact here _ holds
  | _ =>
      subst arrangement
      apply trusted_untouched kept.tracks others
      exact fun detail tracks => here detail (tracks.arranged.drop found rfl)

end Outcomes

/-- A request that settles keeps the world. -/
theorem World.Kept.settle (kept : world.Kept) (admitted : Admitted world (.settle index))
    (moved : world.settle index = some next) : next.Kept := by
  have good := kept.good.settle (fun mutation detail found stands =>
    keeps_of_mayApply kept.good.sound kept.numbered (kept.tracks_of_stands stands) found
      (admitted mutation detail found stands)) moved
  have numbered := fun list arranged => (kept.numbered.dropped index).noted list arranged
  unfold World.settle at moved
  split at moved
  next list request serial reply note found =>
    cases moved
    have noted := numbered list (request.arrangement note (world.journal.arranged list)
      (.answered serial reply))
    exact ⟨good, ⟨noted.issued, noted.distinct, noted.arrivals⟩, kept.onReply found⟩
  next list request conflict note found =>
    cases moved
    have noted := numbered list (request.arrangement note (world.journal.arranged list)
      (.refused conflict))
    exact ⟨good, ⟨noted.issued, noted.distinct, noted.arrivals⟩,
      kept.onRefusal found fun detail => admitted _ detail found⟩
  next => cases moved

end FrontDashboard.Lists
