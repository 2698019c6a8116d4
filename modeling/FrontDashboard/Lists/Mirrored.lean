import FrontDashboard.Lists.Messages

/-! # Copies that mirror the server

The page's standing data of a list is wrong only about what it will be told of. This is kept
by the server's steps, by the frames that are used while later commits on what they tell are
pending, and by fetches.
-/

namespace FrontDashboard.Lists

open Query

abbrev Trust := ListId → ListDetail → Prop

/-- The invariant: what is said is so, and the cache's standing data mirrors the
server's lists. -/
structure World.Good (world : World) : Prop where
  sound : world.Sound
  mirrors : AllTrusted listDetailQuery (fun list detail => world.Mirrors list detail.items)
    world.cache

/-! ## Patches of the cache -/

section Patches

variable {cache : ListCache} {trust trust' : Trust} {list : ListId}

/-- A patch of one list leaves what is trusted of the others. -/
theorem trusted_patch {change : ListDetail → ListDetail}
    (all : AllTrusted listDetailQuery trust cache)
    (others : ∀ other detail, other ≠ list → trust other detail → trust' other detail)
    (patched : ∀ entry detail, cache.entries.get list = some entry →
      entry.state.data = some detail → trust list detail → trust' list (change detail)) :
    AllTrusted listDetailQuery trust' (cache.patchListDetailById list change) := by
  apply AllTrusted.updateWhere all
  · intro other detail elsewhere
    exact others other detail (by simpa using elsewhere)
  · exact fun _ => rfl
  · intro key entry detail result present _ within loaded changed
    obtain ⟨keyed, -⟩ := all key entry present
    have here : key = list := keyed.symm.trans (beq_iff_eq.mp within)
    subst here
    cases changed
    exact patched entry detail present loaded

/-- Marking one list stale leaves what is trusted of the others. -/
theorem trusted_invalidate (all : AllTrusted listDetailQuery trust cache)
    (others : ∀ other detail, other ≠ list → trust other detail → trust' other detail) :
    AllTrusted listDetailQuery trust' (cache.invalidateList list) := by
  apply AllTrusted.invalidateWhere all
  intro other detail elsewhere
  exact others other detail (by simpa using elsewhere)

/-- A frame that patches has to be right about the copies it fits; the others are
fetched again. -/
theorem trusted_patchOrInvalidate {fits : ListDetail → Bool} {change : ListDetail → ListDetail}
    (all : AllTrusted listDetailQuery trust cache)
    (others : ∀ other detail, other ≠ list → trust other detail → trust' other detail)
    (patched : ∀ detail,
    ListCache.dataOf list (cache.ensureEntry listDetailQuery list) = some detail →
      trust list detail → fits detail = true → trust' list (change detail)) :
    AllTrusted listDetailQuery trust' (cache.patchOrInvalidate list fits change) := by
  have looked : AllTrusted listDetailQuery trust (cache.ensureEntry listDetailQuery list) :=
    TrustedBut.ensureEntry all list
  unfold ListCache.patchOrInvalidate
  dsimp only
  split
  next => exact trusted_invalidate looked others
  next detail data =>
    split
    next fit =>
      apply trusted_patch looked others
      intro entry shows present loaded trusted
      have same := data
      rw [ListCache.dataOf, present, Option.bind_some, loaded] at same
      cases same
      exact patched detail data trusted fit
    next =>
      apply trusted_invalidate _ others
      exact trusted_patch looked (fun _ _ _ => id) fun _ _ _ _ => id

theorem trusted_untouched (all : AllTrusted listDetailQuery trust cache)
    (others : ∀ other detail, other ≠ list → trust other detail → trust' other detail)
    (here : ∀ detail, trust list detail → trust' list detail) :
    AllTrusted listDetailQuery trust' cache := by
  apply all.imp
  intro key _ detail _ _ _ trusted
  by_cases same : key = list
  · subst same
    exact here detail trusted
  · exact others key detail same trusted

end Patches

variable {world next : World} {list : ListId}

/-- The standing data, as such. -/
theorem World.Good.standing (good : world.Good) :
    AllTrusted listDetailQuery (fun list detail =>
      world.Mirrors list detail.items ∧ world.Stands list detail) world.cache := by
  apply good.mirrors.imp
  exact fun key entry data present stands loaded mirrors =>
    ⟨mirrors, entry, present, stands, loaded⟩

/-! ## Steps of the server -/

/-- Replacing the requests under way keeps a world sound, where each of them is. -/
theorem World.Sound.withMutations (sound : world.Sound) {mutations : List Mutation}
    {journal : Journal} (kept : ∀ mutation ∈ mutations, mutation.Sound world) :
    ({ world with mutations := mutations, journal := journal } : World).Sound :=
  ⟨sound.bounded, sound.nodup, sound.fresh, sound.mentioned, sound.deleted, sound.told,
    sound.answered, kept⟩

/-- A note of how a list was arranged keeps a world sound. -/
theorem World.Sound.noted (sound : world.Sound) (list : ListId) (arranged : Arrangement) :
    (world.noted list arranged).Sound :=
  sound.withMutations sound.mutations

/-- A change to the cache keeps a world sound. -/
theorem World.Sound.withCache (sound : world.Sound) (cache : ListCache) :
    (world.withCache cache).Sound :=
  ⟨sound.bounded, sound.nodup, sound.fresh, sound.mentioned, sound.deleted, sound.told,
    sound.answered, sound.mutations⟩

/-- While the rows stay as they are, copies stay as good as they are. -/
theorem World.Grows.evolves (grows : world.Grows next) (rows : next.rows = world.rows)
    (counter : next.nextItem = world.nextItem) (log : next.log = world.log) :
    world.Evolves next where
  grows := grows
  kept := by
    intro other aspect
    rw [rows]
    exact .inl (Aspect.Kept.refl _ aspect)
  absent := by
    intro other itemId _ absent
    rw [rows]
    exact absent
  counter := Nat.le_of_eq counter.symm
  length := by rw [log]

/-- A good world that evolves and leaves the cache stays good. -/
theorem World.Good.evolve (good : world.Good) (sound : next.Sound) (evolves : world.Evolves next)
    (cache : next.cache = world.cache) : next.Good := by
  refine ⟨sound, ?_⟩
  rw [cache]
  apply good.mirrors.imp
  exact fun _ _ _ _ _ _ mirrors => mirrors.evolve evolves

/-- Nothing has reached the page. -/
structure World.Unseen (world next : World) : Prop where
  cache : next.cache = world.cache
  answers : next.answers = world.answers
  journal : next.journal = world.journal

/-- Another member's request is a commit. -/
theorem World.Sound.written (sound : world.Sound) {write : Write}
    (current : write.Current (shown (world.rows list)))
    (committed : world.commit list false write = some next) :
    ∃ change, world.Wrote list false change next ∧ next.mutations = world.mutations ∧
      world.Unseen next := by
  obtain ⟨⟨rows, change⟩, ran, rfl⟩ := Option.map_eq_some_iff.mp committed
  refine ⟨change, ?_, rfl, rfl, rfl, rfl⟩
  exact sound.wrote current ran rfl rfl rfl
    (.inl ⟨⟨list, false, change⟩, List.getElem?_concat_length, rfl, sound.bounded⟩) rfl
    fun mutation member => ⟨mutation, member, rfl, rfl, rfl, fun _ => id⟩

/-- Other members' requests. -/
theorem World.Good.write (good : world.Good) {write : Write}
    (current : write.Current (shown (world.rows list)))
    (committed : world.commit list false write = some next) : next.Good := by
  obtain ⟨change, wrote, mutations, unseen⟩ := good.sound.written current committed
  apply good.evolve _ wrote.evolves unseen.cache
  apply wrote.sound good.sound unseen.answers
  rw [mutations]
  exact fun mutation member => (good.sound.mutations mutation member).evolve wrote.evolves

/-- A request that progresses keeps the serial number it has. -/
theorem World.Grows.progressed {index : Nat} {mutation : Mutation} {progress : Progress}
    (found : world.mutations[index]? = some mutation)
    (keeps : ∀ serial, mutation.progress.serial? = some serial → progress.serial? = some serial) :
    world.Grows (world.progressed index mutation progress) where
  logged := fun _ _ => id
  delivered := rfl
  outstanding := by
    intro other member
    rcases Places.eq_or_mem_set { mutation with progress := progress } found member with rfl | kept
    · exact ⟨_, Places.mem_set_self found, rfl, rfl, rfl, keeps⟩
    · exact ⟨other, kept, rfl, rfl, rfl, fun _ => id⟩

/-- A mutation gets further, with nothing unsound said of it. -/
theorem World.Good.progressed (good : world.Good) {index : Nat} {mutation : Mutation}
    {progress : Progress} (found : world.mutations[index]? = some mutation)
    (keeps : ∀ serial, mutation.progress.serial? = some serial → progress.serial? = some serial)
    (sound : ({ mutation with progress := progress } : Mutation).Sound world) :
    (world.progressed index mutation progress).Good := by
  have grows := World.Grows.progressed found keeps
  apply good.evolve _ (grows.evolves rfl rfl rfl) rfl
  apply good.sound.withMutations
  intro other member
  rcases List.mem_or_eq_of_mem_set member with old | rfl
  · exact good.sound.mutations other old
  · exact sound

/-- A request made keeps the world good. -/
theorem World.Good.issue (good : world.Good) (request : Request) :
    (world.issue list request).Good := by
  have grows : world.Grows (world.issue list request) :=
    ⟨fun _ _ => id, rfl, fun mutation member =>
      ⟨mutation, List.mem_append_left _ member, rfl, rfl, rfl, fun _ => id⟩⟩
  apply good.evolve _ (grows.evolves rfl rfl rfl) rfl
  apply good.sound.withMutations
  intro mutation member
  rcases List.mem_append.mp member with old | new
  · exact good.sound.mutations mutation old
  · cases List.mem_singleton.mp new
    intro serial carried
    cases carried

/-- **A mutation that is carried out** is committed, or refused by its rows. -/
theorem World.Sound.carried (sound : world.Sound) {index startedAt : Nat} {loaded : Values}
    (admitted : Admitted world (.carryOut index startedAt loaded))
    (moved : world.carryOut index startedAt loaded = some next) :
    ∃ list request note, world.mutations[index]? = some ⟨list, request, .sent, note⟩ ∧
      ((∃ change, request.Made change ∧ world.Wrote list true change next ∧ world.Unseen next ∧
          next.mutations = world.mutations.set index
            ⟨list, request, .committed world.log.length, note⟩) ∨
        next = world.progressed index ⟨list, request, .sent, note⟩
          (.refused request.reorders)) := by
  unfold World.carryOut at moved
  split at moved
  next list request note found =>
    refine ⟨list, request, note, found, ?_⟩
    split at moved
    next => cases moved
    next write becomes =>
      have current := admitted _ write found becomes
      split at moved
      next written committed =>
        cases moved
        obtain ⟨⟨rows, change⟩, ran, same⟩ := Option.map_eq_some_iff.mp committed
        have grows : world.Grows (world.progressed index ⟨list, request, .sent, note⟩
            (.committed world.log.length)) :=
          .progressed found fun _ sent => by cases sent
        subst same
        refine .inl ⟨change, Request.made becomes ran, ?_, ⟨rfl, rfl, rfl⟩, rfl⟩
        exact sound.wrote current ran rfl rfl rfl
          (.inr ⟨⟨list, request, .committed world.log.length, note⟩,
          Places.mem_set_self found, rfl⟩)
          rfl grows.outstanding
      next =>
        cases moved
        exact .inr rfl
  next => cases moved

/-- The server carrying a request out keeps the world good. -/
theorem World.Good.carryOut (good : world.Good) {index startedAt : Nat} {loaded : Values}
    (admitted : Admitted world (.carryOut index startedAt loaded))
    (moved : world.carryOut index startedAt loaded = some next) : next.Good := by
  obtain ⟨list, request, note, found, ⟨change, made, wrote, unseen, mutations⟩ | rfl⟩ :=
    good.sound.carried admitted moved
  · apply good.evolve _ wrote.evolves unseen.cache
    apply wrote.sound good.sound unseen.answers
    rw [mutations]
    intro mutation present
    rcases List.mem_or_eq_of_mem_set present with old | rfl
    · exact (good.sound.mutations mutation old).evolve wrote.evolves
    · intro serial carried
      cases carried
      exact ⟨_, wrote.logged_last, rfl, made, fun _ same => by cases same⟩
  · apply good.progressed found
    · intro serial sent
      cases sent
    · intro serial carried
      cases carried

/-- The server refusing a request keeps the world good. -/
theorem World.Good.refuse (good : world.Good) {index : Nat}
    (moved : world.refuse index = some next) : next.Good := by
  unfold World.refuse at moved
  split at moved
  next list request note found =>
    cases moved
    apply good.progressed found
    · intro serial sent
      cases sent
    · intro serial carried
      cases carried
  next => cases moved

/-- An item of the server differs from itself in nothing. -/
theorem not_differs_of_mem {server : List ListItem} (nodup : (ids server).Nodup) {item : ListItem}
    (member : item ∈ server) {aspect : Aspect} (about : aspect.About item.id) :
    ¬ aspect.Differs server [item] := by
  cases aspect with
  | missing itemId =>
      cases about
      exact fun differs => differs.2 List.mem_cons_self
  | extra itemId =>
      cases about
      exact fun differs => differs.2 (List.mem_map_of_mem member)
  | field itemId column =>
      rintro ⟨copy, inCopy, rest⟩
      cases List.mem_singleton.mp inCopy
      exact Aspect.not_differs_self nodup (.field itemId column) ⟨item, member, rest⟩
  | order first second => exact about.elim

/-- A response is sound when it is read. -/
theorem World.Sound.reply (sound : world.Sound) {serial : Nat} {commit : Commit}
    (logged : world.log[serial]? = some commit) :
    (world.reply list commit.change).Sound world list commit.change := by
  unfold World.reply
  split
  next none => exact none
  next itemId subject =>
    split
    next item found =>
      have named : item.id = itemId := by simpa using List.find?_some found
      refine ⟨subject.trans (congrArg some named.symm), Nat.le_refl _, ?_⟩
      intro aspect about differs
      exact absurd differs
        (not_differs_of_mem (sound.nodup list) (List.mem_of_find?_eq_some found) about)
    next absent =>
      have mentions : commit.change.item? = some itemId := by
        cases same : commit.change with
        | created item => rwa [same] at subject
        | updated target values => rwa [same] at subject
        | deleted _ | reordered _ =>
            rw [same] at subject
            cases subject
      refine ⟨itemId, subject, sound.mentioned serial commit itemId logged mentions, ?_⟩
      intro present
      obtain ⟨item, member, named⟩ := List.mem_map.mp present
      exact absurd (decide_eq_true named) (List.find?_eq_none.mp absent item member)

theorem World.Good.answer (good : world.Good) {index : Nat}
    (moved : world.answer index = some next) : next.Good := by
  unfold World.answer at moved
  split at moved
  next list request serial note found =>
    split at moved
    next commit logged =>
      cases moved
      apply good.progressed found
      · exact fun _ => id
      · intro serial' carried
        cases carried
        obtain ⟨commit', logged', here, made, -⟩ :=
          good.sound.mutations _ (List.mem_of_getElem? found) serial rfl
        rw [logged] at logged'
        cases logged'
        refine ⟨commit, logged, here, made, fun reply same => ?_⟩
        cases same
        exact good.sound.reply logged
    next => cases moved
  next => cases moved

/-! ## Frames -/

/-- A frame that arrives keeps the world sound. -/
theorem World.Sound.advanced (sound : world.Sound) (arrived : world.delivered < world.log.length) :
    world.advanced.Sound :=
  ⟨arrived, sound.nodup, sound.fresh, sound.mentioned, sound.deleted, sound.told,
    sound.answered, sound.mutations⟩

/-- The arrival of a frame matters to no other list. -/
theorem World.Mirrors.advance {copy : List ListItem} (mirrors : world.Mirrors list copy)
    {commit : Commit} (logged : world.log[world.delivered]? = some commit)
    (elsewhere : commit.own = true ∨ commit.list ≠ list) : world.advanced.Mirrors list copy := by
  refine ⟨mirrors.1, fun aspect differs => ?_⟩
  rcases (mirrors.2 aspect differs).advance with later | ⟨other, found, foreign, here, -⟩
  · exact later
  · rw [logged] at found
    cases found
    rcases elsewhere with own | differ
    · rw [own] at foreign
      cases foreign
    · exact absurd here differ

/-- A copy that a frame has patched is wrong about nothing the frame tells, unless a
later commit has touched it. -/
theorem World.Mirrors.patched {copy copy' : List ListItem} {commit : Commit}
    (mirrors : world.Mirrors commit.list copy) (sound : world.Sound) (nodup : (ids copy').Nodup)
    (logged : world.log[world.delivered]? = some commit)
    (still : world.advanced.StillPending commit.list commit.change.Touches (world.delivered + 1))
    (wrong : ∀ aspect : Aspect, aspect.Differs (shown (world.rows commit.list)) copy' →
      PatchedBy commit.change (shown (world.rows commit.list)) copy aspect) :
    world.advanced.Mirrors commit.list copy' := by
  refine ⟨nodup, fun aspect differs => ?_⟩
  rcases wrong aspect differs with denied | ⟨before, untouched⟩
  · have changed : world.advanced.ChangedSince commit.list (world.delivered + 1) aspect :=
      sound.told world.delivered commit aspect logged denied
    exact changed.awaited still denied.touches
  · rcases (mirrors.2 aspect before).advance with later | ⟨other, found, -, -, touches⟩
    · exact later
    · rw [logged] at found
      cases found
      exact absurd touches untouched

/-- A frame that arrives keeps the world good. -/
theorem World.Good.deliver (good : world.Good) (admitted : Admitted world .deliver)
    (moved : world.deliver = some next) : next.Good := by
  obtain ⟨⟨list, own, change⟩, logged, rfl⟩ := Option.map_eq_some_iff.mp moved
  have arrived := (List.getElem?_eq_some_iff.mp logged).1
  have sound := good.sound.advanced arrived
  have others : ∀ other detail, other ≠ list →
      world.Mirrors other detail.items ∧ world.Stands other detail →
        world.advanced.Mirrors other detail.items := by
    rintro other detail elsewhere ⟨mirrors, -⟩
    exact mirrors.advance logged (.inr (Ne.symm elsewhere))
  have standing := good.standing
  cases own with
  | true =>
      refine ⟨sound, ?_⟩
      apply good.mirrors.imp
      exact fun key _ _ _ _ _ mirrors => mirrors.advance logged (.inl rfl)
  | false =>
      refine ⟨(sound.noted list _).withCache _, ?_⟩
      cases change with
      | created _ | deleted _ => exact trusted_invalidate standing others
      | updated itemId values =>
          apply trusted_patchOrInvalidate standing others
          rintro detail - ⟨mirrors, stands⟩ fits
          have shows : itemId ∈ ids detail.items := by
            obtain ⟨item, member, named⟩ := List.any_eq_true.mp fits
            exact List.mem_map.mpr ⟨item, member, of_decide_eq_true named⟩
          apply mirrors.patched good.sound _ logged (admitted _ detail logged rfl stands shows)
          · exact fun aspect differs => differs_merged differs
          · have sameIds : ids (detail.merged itemId values).items = ids detail.items :=
              ids_patched _ _ _
            rw [sameIds]
            exact mirrors.1
      | reordered body =>
          apply trusted_patchOrInvalidate standing others
          rintro detail - ⟨mirrors, stands⟩ fits
          apply mirrors.patched good.sound _ logged (admitted _ detail logged rfl stands fits)
          · exact fun aspect differs => differs_ordered fits differs
          · exact ((perm_ordered body.itemIds detail).map _).nodup_iff.mpr mirrors.1

/-! ## Fetches -/

/-- Loads answered by the server keep it sound. -/
theorem World.Sound.withAnswers (sound : world.Sound) (cache : ListCache)
    {answers : ListId → Option Answer} {journal : Journal}
    (answered : ∀ list answer, answers list = some answer →
      answer.seen ≤ world.log.length ∧ (ids answer.detail.items).Nodup ∧
        ∀ aspect : Aspect, aspect.Differs (shown (world.rows list)) answer.detail.items →
          world.ChangedSince list answer.seen aspect) :
    ({ world with cache := cache, answers := answers, journal := journal } : World).Sound :=
  ⟨sound.bounded, sound.nodup, sound.fresh, sound.mentioned, sound.deleted, sound.told, answered,
    sound.mutations⟩

theorem World.Good.serve (good : world.Good) (moved : world.serve list = some next) :
    next.Good := by
  unfold World.serve at moved
  split at moved
  next =>
    cases moved
    refine ⟨good.sound.withAnswers world.cache ?_, good.mirrors⟩
    intro other answer found
    by_cases here : other = list
    · subst here
      rw [Function.update_self] at found
      cases found
      refine ⟨Nat.le_refl _, good.sound.nodup other, fun aspect differs => ?_⟩
      exact absurd differs (Aspect.not_differs_self (good.sound.nodup other) aspect)
    · rw [Function.update_of_ne here] at found
      exact good.sound.answered other answer found
  next => cases moved

/-- The answer for a list is used up. -/
theorem World.Sound.withoutAnswer (sound : world.Sound) (list : ListId) (cache : ListCache)
    (journal : Journal) :
    ({ world with
        cache := cache
        answers := Function.update world.answers list none
        journal := journal } : World).Sound := by
  apply sound.withAnswers
  intro other answer found
  by_cases here : other = list
  · subst here
    rw [Function.update_self] at found
    cases found
  · rw [Function.update_of_ne here] at found
    exact sound.answered other answer found

/-- A load that starts or lands keeps the world good. -/
theorem World.Good.load (good : world.Good) (admitted : Admitted world (.load list))
    (moved : world.load list = some next) : next.Good := by
  unfold World.load at moved
  split at moved
  next request answer asked answered =>
    cases moved
    refine ⟨good.sound.withoutAnswer list _ _, ?_⟩
    obtain ⟨-, distinct, accurate⟩ := good.sound.answered list answer answered
    apply AllTrusted.succeed good.mirrors
    intro entry present fresh
    have still := admitted entry answer present answered fresh
    exact ⟨distinct, fun aspect differs => (accurate aspect differs).awaited still trivial⟩
  next => cases moved

/-- A load that fails keeps the world good. -/
theorem World.Good.failLoad (good : world.Good) {rejection : Option String}
    (moved : world.failLoad list rejection = some next) : next.Good := by
  obtain ⟨request, -, rfl⟩ := Option.map_eq_some_iff.mp moved
  exact ⟨good.sound.withoutAnswer list _ _, AllTrusted.fail good.mirrors request _⟩

/-! ## Dragging -/

/-- Dragging an item leaves the order of its list to be told. -/
theorem World.Good.reorder (good : world.Good) (orderedIds : List ItemId)
    (previous : Option (List ListItem)) :
    ((world.drag list orderedIds previous).withCache
      (world.cache.reorderOptimistically list orderedIds)).Good := by
  have issued : (world.issue list (.reorderListItems orderedIds previous)).Good := good.issue _
  refine ⟨(issued.sound.withMutations issued.sound.mutations).withCache _, ?_⟩
  have looked := TrustedBut.ensureEntry issued.mirrors list
  apply trusted_patch looked
  · exact fun _ _ _ => id
  · intro _ detail _ _ mirrors
    have perm := perm_ordered orderedIds detail
    refine ⟨(perm.map _).nodup_iff.mpr mirrors.1, fun aspect differs => ?_⟩
    cases ordered : orderByIds detail.items orderedIds with
    | none =>
        have same : (detail.ordered orderedIds).items = detail.items := by
          rw [ListDetail.ordered, ordered]
          rfl
        rw [same] at differs
        exact mirrors.2 aspect differs
    | some result =>
        rcases differs.of_perm perm with before | ⟨first, second, rfl⟩
        · exact mirrors.2 aspect before
        · have sameIds : ids (detail.ordered orderedIds).items = orderedIds := by
            rw [ListDetail.ordered, ordered]
            exact (orderByIds_eq_some ordered).1
          have names := differs.1
          rw [sameIds] at names
          exact .inr ⟨first, second, rfl, _, List.mem_append_right _ List.mem_cons_self, rfl,
            names.mem_left, names.mem_right⟩

end FrontDashboard.Lists
