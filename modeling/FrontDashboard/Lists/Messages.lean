import FrontDashboard.Lists.Awaited

/-! # What frames and responses say

What a frame or a response says of an aspect is so, unless a later commit has
touched it. This is kept by everything the server does.
-/

namespace FrontDashboard.Lists

open Query

/-! ## What messages say -/

/-- The item a change is about. -/
def Change.item? : Change → Option ItemId
  | .created item => some item.id
  | .updated itemId _ | .deleted itemId => some itemId
  | .reordered _ => none

/-- The change is of the kind the mutation asks for. -/
def Request.Made : Request → Change → Prop
  | .addListItem _, .created _ => True
  | .updateListItem itemId _, .updated other _ => itemId = other
  | .deleteListItem itemId, .deleted other => itemId = other
  | .reorderListItems orderedIds _, .reordered body => orderedIds = body.itemIds
  | _, _ => False

/-- What a response says is so, unless a later commit has touched it. -/
def Reply.Sound (world : World) (list : ListId) (change : Change) : Reply → Prop
  | .item held seen => change.subject = some held.id ∧ seen ≤ world.log.length ∧
      ∀ aspect : Aspect, aspect.About held.id → aspect.Differs (shown (world.rows list)) [held] →
        world.ChangedSince list seen aspect
  | .noContent => change.subject = none
  | .gone => ∃ itemId, change.subject = some itemId ∧ itemId < world.nextItem ∧
      itemId ∉ ids (shown (world.rows list))

/-- A mutation that was carried out has a commit of its kind, and a sound response. -/
def Mutation.Sound (world : World) (mutation : Mutation) : Prop :=
  ∀ serial, mutation.progress.serial? = some serial →
    ∃ commit, world.log[serial]? = some commit ∧ commit.list = mutation.list ∧
      mutation.request.Made commit.change ∧
        ∀ reply, mutation.progress = .answered serial reply →
          reply.Sound world mutation.list commit.change

/-- The invariant of the server and of what it has sent. -/
structure World.Sound (world : World) : Prop where
  bounded : world.delivered ≤ world.log.length
  nodup : ∀ list, (ids (shown (world.rows list))).Nodup
  fresh : ∀ list, ∀ itemId ∈ ids (shown (world.rows list)), itemId < world.nextItem
  mentioned : ∀ (serial : Nat) commit itemId, world.log[serial]? = some commit →
    commit.change.item? = some itemId → itemId < world.nextItem
  deleted : ∀ (serial : Nat) commit itemId, world.log[serial]? = some commit →
    commit.change = .deleted itemId → itemId ∉ ids (shown (world.rows commit.list))
  told : ∀ (serial : Nat) commit aspect, world.log[serial]? = some commit →
    commit.change.Denied (shown (world.rows commit.list)) aspect →
      world.ChangedSince commit.list (serial + 1) aspect
  answered : ∀ list answer, world.answers list = some answer →
    answer.seen ≤ world.log.length ∧ (ids answer.detail.items).Nodup ∧
      ∀ aspect : Aspect, aspect.Differs (shown (world.rows list)) answer.detail.items →
        world.ChangedSince list answer.seen aspect
  mutations : ∀ mutation ∈ world.mutations, mutation.Sound world

/-! ## Evolution of the server -/

/-- Whatever has become different on the server was touched, and is awaited. -/
structure World.Evolves (world next : World) : Prop where
  grows : world.Grows next
  kept : ∀ list (aspect : Aspect),
    aspect.Kept (shown (world.rows list)) (shown (next.rows list)) ∨
      next.ChangedSince list world.log.length aspect ∧ next.Awaited list aspect
  absent : ∀ list itemId, itemId < world.nextItem →
    itemId ∉ ids (shown (world.rows list)) → itemId ∉ ids (shown (next.rows list))
  counter : world.nextItem ≤ next.nextItem
  length : world.log.length ≤ next.log.length

namespace World

variable {world next : World} {list : ListId}

theorem Evolves.differs (evolves : world.Evolves next) {aspect : Aspect} {copy : List ListItem}
    (differs : aspect.Differs (shown (next.rows list)) copy) :
    aspect.Differs (shown (world.rows list)) copy ∨
      next.ChangedSince list world.log.length aspect ∧ next.Awaited list aspect :=
  (evolves.kept list aspect).imp_left differs.of_kept

theorem Mirrors.evolve {copy : List ListItem} (mirrors : world.Mirrors list copy)
    (evolves : world.Evolves next) : next.Mirrors list copy := by
  refine ⟨mirrors.1, fun aspect differs => ?_⟩
  rcases evolves.differs differs with before | ⟨-, awaited⟩
  · exact (mirrors.2 aspect before).grow evolves.grows
  · exact awaited

/-- What was so when it was read is so, or was touched since. -/
theorem Evolves.seen (evolves : world.Evolves next) {since : Nat} {aspect : Aspect}
    {copy : List ListItem} (bounded : since ≤ world.log.length)
    (accurate : aspect.Differs (shown (world.rows list)) copy →
      world.ChangedSince list since aspect)
    (differs : aspect.Differs (shown (next.rows list)) copy) :
    next.ChangedSince list since aspect := by
  rcases evolves.differs differs with before | ⟨changed, -⟩
  · exact (accurate before).grow evolves.grows
  · exact changed.mono bounded

end World

variable {world next : World} {list : ListId}

theorem Reply.Sound.evolve {reply : Reply} {change : Change}
    (sound : reply.Sound world list change) (evolves : world.Evolves next) :
    reply.Sound next list change := by
  cases reply with
  | item held seen =>
      obtain ⟨subject, bounded, accurate⟩ := sound
      exact ⟨subject, bounded.trans evolves.length, fun aspect about =>
        evolves.seen bounded (accurate aspect about)⟩
  | noContent => exact sound
  | gone =>
      obtain ⟨itemId, subject, known, absent⟩ := sound
      exact ⟨itemId, subject, known.trans_le evolves.counter,
        evolves.absent list itemId known absent⟩

theorem Mutation.Sound.evolve {mutation : Mutation} (sound : mutation.Sound world)
    (evolves : world.Evolves next) : mutation.Sound next := by
  intro serial carried
  obtain ⟨commit, logged, here, made, answered⟩ := sound serial carried
  exact ⟨commit, evolves.grows.logged serial commit logged, here, made,
    fun reply same => (answered reply same).evolve evolves⟩

/-! ## Commits -/

/-- A request has been committed: its frame or its response is on its way. -/
structure World.Wrote (world : World) (list : ListId) (own : Bool) (change : Change)
    (next : World) : Prop where
  became : Became (shown (world.rows list)) (shown (next.rows list)) change
  others : ∀ other, other ≠ list → next.rows other = world.rows other
  fresh : ∀ item, change = .created item → item.id = world.nextItem
  mentioned : ∀ itemId, change.item? = some itemId → itemId < next.nextItem
  counter : next.nextItem = world.nextItem + 1
  log : next.log = world.log ++ [⟨list, own, change⟩]
  pending : next.Pending world.log.length
  grows : world.Grows next

namespace World.Wrote

variable {own : Bool} {change : Change}

theorem logged_last (wrote : world.Wrote list own change next) :
    next.log[world.log.length]? = some ⟨list, own, change⟩ := by
  rw [wrote.log]
  exact List.getElem?_concat_length

theorem logged_cases (wrote : world.Wrote list own change next) {serial : Nat} {commit : Commit}
    (logged : next.log[serial]? = some commit) :
    world.log[serial]? = some commit ∨ serial = world.log.length ∧
      commit = ⟨list, own, change⟩ := by
  rw [wrote.log] at logged
  by_cases within : serial < world.log.length
  · rw [List.getElem?_append_left within] at logged
    exact .inl logged
  · have bounded := (List.getElem?_eq_some_iff.mp logged).1
    rw [List.length_append, List.length_singleton] at bounded
    have last : serial = world.log.length := by omega
    rw [last, List.getElem?_concat_length] at logged
    exact .inr ⟨last, (Option.some.inj logged).symm⟩

theorem evolves (wrote : world.Wrote list own change next) : world.Evolves next where
  grows := wrote.grows
  kept := by
    intro other aspect
    by_cases here : other = list
    · subst here
      by_cases touched : change.Touches aspect
      · exact .inr ⟨⟨_, _, Nat.le_refl _, wrote.logged_last, rfl, touched⟩,
          .inl ⟨_, _, wrote.logged_last, rfl, touched, wrote.pending⟩⟩
      · exact .inl (wrote.became.kept touched)
    · rw [wrote.others other here]
      exact .inl (Aspect.Kept.refl _ aspect)
  absent := by
    intro other itemId known absent present
    by_cases here : other = list
    · subst here
      rcases wrote.became.mem_ids present with before | ⟨item, made, rfl⟩
      · exact absent before
      · exact absurd (wrote.fresh item made) (Nat.ne_of_lt known)
    · rw [wrote.others other here] at present
      exact absent present
  counter := by
    rw [wrote.counter]
    exact Nat.le_succ _
  length := by
    rw [wrote.log, List.length_append]
    exact Nat.le_add_right _ _

/-- **A commit keeps everything that was said true**, or touches it. -/
theorem sound (wrote : world.Wrote list own change next) (sound : world.Sound)
    (answers : next.answers = world.answers)
    (mutations : ∀ mutation ∈ next.mutations, mutation.Sound next) : next.Sound where
  bounded := by
    rw [wrote.grows.delivered]
    exact sound.bounded.trans wrote.evolves.length
  nodup := by
    intro other
    by_cases here : other = list
    · subst here
      apply wrote.became.nodup (sound.nodup other)
      intro item made present
      exact absurd (wrote.fresh item made) (Nat.ne_of_lt (sound.fresh other item.id present))
    · rw [wrote.others other here]
      exact sound.nodup other
  fresh := by
    intro other itemId present
    rw [wrote.counter]
    by_cases here : other = list
    · subst here
      rcases wrote.became.mem_ids present with before | ⟨item, made, rfl⟩
      · exact Nat.lt_succ_of_lt (sound.fresh other itemId before)
      · rw [wrote.fresh item made]
        exact Nat.lt_succ_self _
    · rw [wrote.others other here] at present
      exact Nat.lt_succ_of_lt (sound.fresh other itemId present)
  mentioned := by
    intro serial commit itemId logged mentions
    rcases wrote.logged_cases logged with before | ⟨-, rfl⟩
    · rw [wrote.counter]
      exact Nat.lt_succ_of_lt (sound.mentioned serial commit itemId before mentions)
    · exact wrote.mentioned itemId mentions
  deleted := by
    intro serial commit itemId logged deletes
    rcases wrote.logged_cases logged with before | ⟨-, rfl⟩
    · apply wrote.evolves.absent _ _ _ (sound.deleted serial commit itemId before deletes)
      apply sound.mentioned serial commit itemId before
      rw [deletes]
      rfl
    · subst deletes
      exact wrote.became.not_mem_of_deleted
  told := by
    intro serial commit aspect logged denied
    rcases wrote.logged_cases logged with before | ⟨-, rfl⟩
    · rcases wrote.evolves.kept commit.list aspect with kept | ⟨changed, -⟩
      · exact (sound.told serial commit aspect before (denied.of_kept kept)).grow wrote.grows
      · exact changed.mono (List.getElem?_eq_some_iff.mp before).1
    · exact absurd denied (wrote.became.not_denied aspect)
  answered := by
    intro other answer found
    rw [answers] at found
    obtain ⟨bounded, distinct, accurate⟩ := sound.answered other answer found
    exact ⟨bounded.trans wrote.evolves.length, distinct, fun aspect =>
      wrote.evolves.seen bounded (accurate aspect)⟩
  mutations := mutations

end World.Wrote

/-- A request mentions an item of the list, or the one it creates. -/
theorem Write.mentions {write : Write} {newId : ItemId} {rows rows' : List Row} {change : Change}
    (ran : write.run newId rows = some (rows', change)) {itemId : ItemId}
    (mentioned : change.item? = some itemId) : itemId = newId ∨ itemId ∈ ids (shown rows) := by
  cases write with
  | create body startedAt =>
      cases ran
      cases mentioned
      exact .inl rfl
  | update target body loaded =>
      rw [Write.run] at ran
      split at ran
      next present =>
        cases ran
        cases mentioned
        exact .inr present
      next => cases ran
  | delete target =>
      rw [Write.run] at ran
      split at ran
      next present =>
        cases ran
        cases mentioned
        exact .inr present
      next => cases ran
  | reorder body =>
      obtain ⟨after, -, same⟩ := Option.map_eq_some_iff.mp ran
      cases same
      cases mentioned

/-- A mutation is carried out by a change of its kind. -/
theorem Request.made {request : Request} {startedAt : Nat} {loaded : Values} {write : Write}
    {newId : ItemId} {rows rows' : List Row} {change : Change}
    (becomes : request.write startedAt loaded = some write)
    (ran : write.run newId rows = some (rows', change)) : request.Made change := by
  cases request with
  | addListItem text =>
      cases becomes
      cases ran
      trivial
  | updateListItem itemId body =>
      cases becomes
      rw [Write.run] at ran
      split at ran
      next =>
        cases ran
        rfl
      next => cases ran
  | deleteListItem itemId =>
      cases becomes
      rw [Write.run] at ran
      split at ran
      next =>
        cases ran
        rfl
      next => cases ran
  | reorderListItems orderedIds previous =>
      obtain ⟨body, valid, rfl⟩ := Option.map_eq_some_iff.mp becomes
      obtain ⟨after, -, same⟩ := Option.map_eq_some_iff.mp ran
      cases same
      exact ItemReorder.of_validate valid

/-- **What a committed request does.** -/
theorem World.Sound.wrote (sound : world.Sound) {own : Bool} {write : Write} {rows : List Row}
    {change : Change} (current : write.Current (shown (world.rows list)))
    (ran : write.run world.nextItem (world.rows list) = some (rows, change))
    (sameRows : next.rows = Function.update world.rows list rows)
    (counter : next.nextItem = world.nextItem + 1)
    (log : next.log = world.log ++ [⟨list, own, change⟩])
    (pending : next.Pending world.log.length) (delivered : next.delivered = world.delivered)
    (outstanding : ∀ mutation ∈ world.mutations, ∃ mutation' ∈ next.mutations,
      mutation'.list = mutation.list ∧ mutation'.request = mutation.request ∧
        mutation'.note = mutation.note ∧ ∀ serial, mutation.progress.serial? = some serial →
          mutation'.progress.serial? = some serial) :
    world.Wrote list own change next := by
  obtain ⟨became, fresh⟩ := Write.became current ran
  refine ⟨?_, ?_, fresh, ?_, counter, log, pending, ?_, delivered, outstanding⟩
  · rw [sameRows, Function.update_self]
    exact became
  · intro other elsewhere
    rw [sameRows, Function.update_of_ne elsewhere]
  · intro itemId mentioned
    rw [counter]
    rcases Write.mentions ran mentioned with rfl | present
    · exact Nat.lt_succ_self _
    · exact Nat.lt_succ_of_lt (sound.fresh list itemId present)
  · intro serial commit logged
    rw [log, List.getElem?_append_left (List.getElem?_eq_some_iff.mp logged).1]
    exact logged

end FrontDashboard.Lists
