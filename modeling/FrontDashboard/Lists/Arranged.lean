import FrontDashboard.Lists.Outcomes

/-! # How lists come to be arranged

The journal says how each list was last arranged: as a reordering of the page asks for, which is
outstanding, or as the server's rows were. What the page would go back to if a reordering failed
is arranged in the same sense, in the world without it, until something arrives for the list.
-/

namespace FrontDashboard.Lists

open Query

variable {world next : World} {list : ListId} {index number : Nat}

namespace World

/-! ## Arrangements -/

/-- The world without the mutation of a number. -/
def without (number : Nat) (world : World) : World :=
  { world with mutations := world.mutations.filter fun mutation => mutation.note.number ≠ number }

/-- A reordering that is outstanding names the items, in the order in which they are shown. -/
def PutBy (list : ListId) (items : List ListItem) (names : List ItemId) (number : Nat)
    (world : World) : Prop :=
  ∃ mutation ∈ world.mutations, mutation.note.number = number ∧ mutation.list = list ∧
    ∃ orderedIds previous, mutation.request = .reorderListItems orderedIds previous ∧
      (∀ itemId ∈ names, itemId ∈ orderedIds) ∧
        ∀ first ∈ names, ∀ second ∈ names,
          Precedes (ids items) first second → Precedes orderedIds first second

/-- The items are shown in the server's order, but for what has been moved since. -/
def ReadAt (list : ListId) (items : List ListItem) (names : List ItemId) (serial : Nat)
    (world : World) : Prop :=
  serial ≤ world.log.length ∧ ∀ first ∈ names, ∀ second ∈ names,
    (Aspect.order first second).Differs (shown (world.rows list)) items →
      world.ChangedSince list serial (.order first second)

/-- The items are arranged as the journal says. -/
def Arranged (list : ListId) (items : List ListItem) (arranged : Arrangement) (world : World) :
    Prop :=
  match arranged.basis with
  | .own number => world.PutBy list items arranged.names number
  | .asOf serial => world.ReadAt list items arranged.names serial

/-- The mutation is not committed, and nothing has arrived for its list since it was issued. -/
structure Undisturbed (world : World) (mutation : Mutation) : Prop where
  uncommitted : mutation.progress.serial? = none
  arrivals : world.journal.arrivals mutation.list = mutation.note.arrivals

/-- What a reordering that fails goes back to: the items that are shown, in an order that is
mirrored and arranged without it. -/
structure GoesBack (world : World) (list : ListId) (mutation : Mutation)
    (items shows : List ListItem) :
    Prop where
  perm : items.Perm shows
  mirrored : (world.without mutation.note.number).OrderMirrored list items
  arranged : (world.without mutation.note.number).Arranged list items mutation.note.arranged

/-- **The journal is right** about the data of a list, and so are the notes of the reorderings that
may still be taken back. -/
structure Tracks (world : World) (list : ListId) (detail : ListDetail) : Prop where
  arranged : world.Arranged list detail.items (world.journal.arranged list)
  previous : ∀ mutation ∈ world.mutations, mutation.list = list → world.Undisturbed mutation →
    ∀ orderedIds previous, mutation.request = .reorderListItems orderedIds previous →
      ∃ items, previous = some items ∧ world.GoesBack list mutation items detail.items

/-- Mutations are numbered in the order in which they are issued. -/
structure Numbered (world : World) : Prop where
  issued : ∀ mutation ∈ world.mutations, mutation.note.number < world.journal.issued
  distinct : (world.mutations.map fun mutation => mutation.note.number).Nodup
  arrivals : ∀ mutation ∈ world.mutations,
    mutation.note.arrivals ≤ world.journal.arrivals mutation.list

theorem Numbered.eq_of_number (numbered : world.Numbered) {first second : Mutation}
    (member : first ∈ world.mutations) (member' : second ∈ world.mutations)
    (same : first.note.number = second.note.number) : first = second :=
  List.inj_on_of_nodup_map numbered.distinct member member' same

theorem mem_without {mutation : Mutation} :
    mutation ∈ (world.without number).mutations ↔
      mutation ∈ world.mutations ∧ mutation.note.number ≠ number := by
  simp [without]

/-- What is there of a mutation besides its outcome. -/
theorem Numbered.dropped_eq_without (numbered : world.Numbered) {mutation : Mutation}
    (found : world.mutations[index]? = some mutation) :
    world.dropped index = world.without mutation.note.number := by
  have others : ∀ other ∈ world.mutations.eraseIdx index,
      other.note.number ≠ mutation.note.number := by
    intro other member same
    have distinct := numbered.distinct
    rw [Places.eq_around found, List.map_append, List.map_cons] at distinct
    have absent := (List.nodup_cons.mp (List.nodup_middle.mp distinct)).1
    rw [List.eraseIdx_eq_take_drop_succ] at member
    apply absent
    rw [← List.map_append]
    exact same ▸ List.mem_map_of_mem member
  have kept : (world.mutations.eraseIdx index).filter
      (fun other => other.note.number ≠ mutation.note.number) = world.mutations.eraseIdx index :=
    List.filter_eq_self.mpr fun other member => decide_eq_true (others other member)
  rw [dropped, without, ← kept, Places.filter_eraseIdx,
    Places.filter_eq_around _ found]
  simp

/-! ## What the server does -/

variable {items : List ListItem} {names : List ItemId} {arranged : Arrangement}
  {detail : ListDetail}

theorem Grows.without (grows : world.Grows next) (number : Nat) :
    (world.without number).Grows (next.without number) where
  logged := grows.logged
  delivered := grows.delivered
  outstanding := by
    intro mutation member
    obtain ⟨present, other⟩ := mem_without.mp member
    obtain ⟨mutation', present', here, request, note, keeps⟩ := grows.outstanding mutation present
    refine ⟨mutation', mem_without.mpr ⟨present', ?_⟩, here, request, note, keeps⟩
    rw [note]
    exact other

/-- A commit is one in a world without another mutation as well. -/
theorem Wrote.without {own : Bool} {change : Change} (wrote : world.Wrote list own change next)
    (pending : (next.without number).Pending world.log.length) :
    (world.without number).Wrote list own change (next.without number) :=
  ⟨wrote.became, wrote.others, wrote.fresh, wrote.mentioned, wrote.counter, wrote.log, pending,
    wrote.grows.without number⟩

theorem PutBy.grow (put : world.PutBy list items names number) (grows : world.Grows next) :
    next.PutBy list items names number := by
  obtain ⟨mutation, member, numbered, here, orderedIds, previous, request, named, order⟩ := put
  obtain ⟨mutation', member', sameList, sameRequest, sameNote, -⟩ :=
    grows.outstanding mutation member
  refine ⟨mutation', member', ?_, sameList.trans here, orderedIds, previous,
    sameRequest.trans request, named, order⟩
  rw [sameNote, numbered]

theorem Arranged.evolve (holds : world.Arranged list items arranged)
    (evolves : world.Evolves next) : next.Arranged list items arranged := by
  unfold Arranged at holds ⊢
  split at holds
  next => exact PutBy.grow holds evolves.grows
  next =>
    refine ⟨holds.1.trans evolves.length, fun first named second named' => ?_⟩
    exact evolves.seen holds.1 (holds.2 first named second named')

theorem OrderMirrored.evolve (mirrored : world.OrderMirrored list items)
    (evolves : world.Evolves next) : next.OrderMirrored list items := by
  intro first second differs
  rcases evolves.differs differs with before | ⟨-, awaited⟩
  · exact (mirrored first second before).grow evolves.grows
  · exact awaited

theorem GoesBack.evolve {mutation mutation' : Mutation}
    (back : world.GoesBack list mutation items detail.items) (note : mutation'.note = mutation.note)
    (evolves : (world.without mutation.note.number).Evolves (next.without mutation.note.number)) :
    next.GoesBack list mutation' items detail.items := by
  refine ⟨back.perm, ?_, ?_⟩
  · rw [note]
    exact back.mirrored.evolve evolves
  · rw [note]
    exact back.arranged.evolve evolves

/-- The reorderings of a list that are not committed were there before, and the rest of the world
has evolved. -/
def Carries (list : ListId) (world next : World) : Prop :=
  ∀ mutation' ∈ next.mutations, mutation'.list = list → mutation'.request.reorders = true →
    mutation'.progress.serial? = none →
      ∃ mutation ∈ world.mutations, mutation'.list = mutation.list ∧
      mutation'.request = mutation.request ∧ mutation'.note = mutation.note ∧
        mutation.progress.serial? = none ∧
          (world.without mutation.note.number).Evolves (next.without mutation.note.number)

/-- **The server's steps** keep what the journal says. -/
theorem Tracks.evolve (tracks : world.Tracks list detail) (evolves : world.Evolves next)
    (arranged : next.journal.arranged list = world.journal.arranged list)
    (arrivals : next.journal.arrivals list = world.journal.arrivals list)
    (carries : world.Carries list next) : next.Tracks list detail := by
  constructor
  case arranged =>
    rw [arranged]
    exact tracks.arranged.evolve evolves
  case previous =>
    intro mutation' member' here undisturbed orderedIds previous request
    obtain ⟨mutation, member, sameList, sameRequest, sameNote, uncommitted, others⟩ :=
      carries mutation' member' here (by rw [request]; rfl) undisturbed.uncommitted
    have before : world.Undisturbed mutation := by
      refine ⟨uncommitted, ?_⟩
      rw [← sameNote, ← sameList, here, ← arrivals, ← here]
      exact undisturbed.arrivals
    obtain ⟨items, held, back⟩ := tracks.previous mutation member (sameList ▸ here) before
      orderedIds previous (sameRequest ▸ request)
    exact ⟨items, held, back.evolve sameNote others⟩

/-- A world in which only mutations get further. -/
theorem carries_of_grows (grows : world.Grows next) (rows : next.rows = world.rows)
    (counter : next.nextItem = world.nextItem) (log : next.log = world.log)
    (back : ∀ mutation' ∈ next.mutations, mutation'.list = list →
    mutation'.request.reorders = true →
      mutation'.progress.serial? = none → ∃ mutation ∈ world.mutations,
        mutation'.list = mutation.list ∧ mutation'.request = mutation.request ∧
          mutation'.note = mutation.note ∧ mutation.progress.serial? = none) :
    world.Carries list next := by
  intro mutation' member' here reorders uncommitted
  obtain ⟨mutation, member, sameList, sameRequest, sameNote, before⟩ :=
    back mutation' member' here reorders uncommitted
  exact ⟨mutation, member, sameList, sameRequest, sameNote, before,
    (grows.without _).evolves rows counter log⟩

/-- A commit leaves the mutations that it is not for as they are. -/
theorem Wrote.carries {own : Bool} {change : Change} (wrote : world.Wrote list own change next)
    (back : ∀ mutation' ∈ next.mutations, mutation'.progress.serial? = none →
      mutation' ∈ world.mutations ∧
        (next.without mutation'.note.number).Pending world.log.length) (other : ListId) :
    world.Carries other next := by
  intro mutation' member' _ _ uncommitted
  obtain ⟨member, pending⟩ := back mutation' member' uncommitted
  exact ⟨mutation', member, rfl, rfl, rfl, uncommitted, (wrote.without pending).evolves⟩

/-! ## What arrives -/

/-- An arrangement outlasts the mutations it does not rest on. -/
theorem Arranged.lose {mutation : Mutation} (holds : world.Arranged list items arranged)
    (loses : world.Loses mutation next) (rows : next.rows = world.rows)
    (other : mutation.list = list → ∀ orderedIds previous,
      mutation.request = .reorderListItems orderedIds previous →
        arranged.basis ≠ .own mutation.note.number) :
    next.Arranged list items arranged := by
  unfold Arranged at holds ⊢
  split at holds
  next number basis =>
    obtain ⟨own, member, numbered, here, orderedIds, previous, request, rest⟩ := holds
    rcases loses.left own member with rfl | left
    · exact absurd (numbered ▸ basis) (other here orderedIds previous request)
    · exact ⟨own, left, numbered, here, orderedIds, previous, request, rest⟩
  next =>
    obtain ⟨bounded, accurate⟩ := holds
    refine ⟨by rw [loses.log]; exact bounded, fun first named second named' differs => ?_⟩
    rw [rows] at differs
    obtain ⟨serial, commit, after, logged, rest⟩ := accurate first named second named' differs
    exact ⟨serial, commit, after, by rwa [loses.log], rest⟩

theorem Loses.without {mutation : Mutation} (loses : world.Loses mutation next) (number : Nat) :
    (world.without number).Loses mutation (next.without number) := by
  refine ⟨loses.log, loses.delivered, fun other member => ?_⟩
  obtain ⟨present, differs⟩ := mem_without.mp member
  exact (loses.left other present).imp_right fun left => mem_without.mpr ⟨left, differs⟩

/-- The outcome of a mutation of another list leaves an order to be mirrored. -/
theorem OrderMirrored.lose {mutation : Mutation} (mirrored : world.OrderMirrored list items)
    (loses : world.Loses mutation next) (rows : next.rows = world.rows)
    (elsewhere : mutation.list ≠ list)
    (commits : ∀ serial commit, mutation.progress.serial? = some serial →
      world.log[serial]? = some commit → commit.list = mutation.list) :
    next.OrderMirrored list items := by
  intro first second differs
  rw [rows] at differs
  rcases (mirrored first second differs).drop loses with
    kept | ⟨serial, commit, carried, logged, here, -⟩ | ⟨here, -⟩
  · exact kept
  · exact absurd ((commits serial commit carried logged).symm.trans here) elsewhere
  · exact absurd here elsewhere

/-- An echo, or a frame for another list, leaves an order to be mirrored. -/
theorem OrderMirrored.advance (mirrored : world.OrderMirrored list items) {commit : Commit}
    (logged : world.log[world.delivered]? = some commit)
    (elsewhere : commit.own = true ∨ commit.list ≠ list) :
    world.advanced.OrderMirrored list items := by
  intro first second differs
  rcases (mirrored first second differs).advance with later | ⟨other, found, foreign, here, -⟩
  · exact later
  · rw [logged] at found
    cases found
    rcases elsewhere with own | differ
    · rw [own] at foreign
      cases foreign
    · exact absurd here differ

/-- What the page does with its caches, and what the journal says of other lists, matters to no
copy. -/
theorem Tracks.aside (tracks : world.Tracks list detail) (cache : ListCache)
    (answers : ListId → Option Answer) {journal : Journal}
    (arranged : journal.arranged list = world.journal.arranged list)
    (arrivals : journal.arrivals list = world.journal.arrivals list) :
    ({ world with cache := cache, answers := answers, journal := journal } : World).Tracks list
      detail := by
  have grows : world.Grows { world with cache := cache, answers := answers, journal := journal } :=
    ⟨fun _ _ => id, rfl, fun mutation member => ⟨mutation, member, rfl, rfl, rfl, fun _ => id⟩⟩
  apply tracks.evolve (grows.evolves rfl rfl rfl) arranged arrivals
  apply carries_of_grows grows rfl rfl rfl
  exact fun mutation member _ _ uncommitted => ⟨mutation, member, rfl, rfl, rfl, uncommitted⟩

/-- What arrives for one list leaves the journal of another as it is. -/
theorem Tracks.noted {other : ListId} (tracks : world.Tracks list detail) (elsewhere : list ≠ other)
    (arranged : Arrangement) : (world.noted other arranged).Tracks list detail :=
  tracks.aside world.cache world.answers (Function.update_of_ne elsewhere _ _)
    (Function.update_of_ne elsewhere _ _)

/-- Where something has arrived for a list, no reordering of it can be taken back. -/
theorem tracks_noted (holds : world.Arranged list detail.items arranged)
    (arrivals : ∀ mutation ∈ world.mutations,
      mutation.note.arrivals ≤ world.journal.arrivals mutation.list) :
    (world.noted list arranged).Tracks list detail := by
  constructor
  case arranged =>
    have same : (world.noted list arranged).journal.arranged list = arranged :=
      Function.update_self _ _ _
    rw [same]
    exact holds
  case previous =>
    intro mutation member here undisturbed
    have before := arrivals mutation member
    have after : world.journal.arrivals list + 1 = mutation.note.arrivals := by
      rw [← undisturbed.arrivals, here]
      exact (Function.update_self list _ world.journal.arrivals).symm
    rw [here] at before
    omega

/-- An echo, or a frame for another list, leaves what the journal says as it is. -/
theorem Tracks.advance (tracks : world.Tracks list detail) {commit : Commit}
    (logged : world.log[world.delivered]? = some commit)
    (elsewhere : commit.own = true ∨ commit.list ≠ list) :
    world.advanced.Tracks list detail := by
  refine ⟨tracks.arranged, fun mutation member here undisturbed orderedIds previous request => ?_⟩
  obtain ⟨items, held, back⟩ := tracks.previous mutation member here
    ⟨undisturbed.uncommitted, undisturbed.arrivals⟩ orderedIds previous request
  refine ⟨items, held, back.perm, ?_, back.arranged⟩
  have mirrored := back.mirrored
  exact mirrored.advance logged elsewhere

/-- The outcome of a mutation of another list leaves what the journal says as it is. -/
theorem Tracks.drop_elsewhere {mutation : Mutation} (tracks : world.Tracks list detail)
    (sound : world.Sound) (found : world.mutations[index]? = some mutation)
    (elsewhere : mutation.list ≠ list) : (world.dropped index).Tracks list detail := by
  have loses := loses_dropped found
  have commits : ∀ serial commit, mutation.progress.serial? = some serial →
      world.log[serial]? = some commit → commit.list = mutation.list := by
    intro serial commit carried logged
    obtain ⟨commit', logged', here, -⟩ :=
      sound.mutations mutation (List.mem_of_getElem? found) serial carried
    rw [logged] at logged'
    cases logged'
    exact here
  refine ⟨tracks.arranged.lose loses rfl fun here => absurd here elsewhere, ?_⟩
  intro other member here undisturbed orderedIds previous request
  obtain ⟨items, held, back⟩ := tracks.previous other (List.mem_of_mem_eraseIdx member) here
    ⟨undisturbed.uncommitted, undisturbed.arrivals⟩ orderedIds previous request
  refine ⟨items, held, back.perm, ?_, ?_⟩
  · exact back.mirrored.lose (loses.without _) rfl elsewhere commits
  · exact back.arranged.lose (loses.without _) rfl fun here => absurd here elsewhere

end World

/-! ## What outcomes need -/

section Outcomes

variable {items : List ListItem} {arranged : Arrangement} {detail : ListDetail}
  {orderedIds : List ItemId} {previous : Option (List ListItem)} {serial : Nat} {reply : Reply}
  {note : Note}

/-- **A reordering that has succeeded** put the items in the order of the server, as of its own
commit. -/
theorem World.Arranged.succeeded (holds : world.Arranged list items arranged)
    (sound : world.Sound) (numbered : world.Numbered)
    (found : world.mutations[index]? =
      some ⟨list, .reorderListItems orderedIds previous, .answered serial reply, note⟩)
    (basis : arranged.basis = .own note.number) :
    world.ReadAt list items arranged.names (serial + 1) := by
  obtain ⟨commit, logged, here, made, -⟩ :=
    sound.mutations _ (List.mem_of_getElem? found) serial rfl
  obtain ⟨body, reordered, ids⟩ := made.reordered
  unfold World.Arranged at holds
  rw [basis] at holds
  obtain ⟨mutation, member, number, -, orderedIds', previous', request, named, order⟩ := holds
  have same := numbered.eq_of_number member (List.mem_of_getElem? found) number
  subst same
  cases request
  refine ⟨(List.getElem?_eq_some_iff.mp logged).1, ?_⟩
  intro first firstNamed second secondNamed differs
  have denied : commit.change.Denied (shown (world.rows commit.list)) (.order first second) := by
    have before := order first firstNamed second secondNamed differs.1
    rw [ids] at before
    rw [reordered, here]
    exact ⟨before, differs.2⟩
  have changed := sound.told serial commit _ logged denied
  rw [here] at changed
  exact changed

/-- **The condition on what has arrived** gives an outcome what it needs. -/
theorem keeps_of_mayApply {request : Request} {progress : Progress}
    (sound : world.Sound) (numbered : world.Numbered) (tracks : world.Tracks list detail)
    (found : world.mutations[index]? = some ⟨list, request, progress, note⟩)
    (mayApply : request.MayApply (world.dropped index) list detail note progress) :
    request.Keeps (world.dropped index) list detail progress := by
  cases request with
  | addListItem _ | updateListItem _ _ =>
      cases progress with
      | answered serial reply => cases reply <;> exact mayApply
      | _ => trivial
  | deleteListItem itemId => trivial
  | reorderListItems orderedIds previous =>
      cases progress with
      | sent => trivial
      | committed serial => trivial
      | refused conflict =>
          cases conflict with
          | true => trivial
          | false =>
              obtain ⟨items, held, back⟩ := tracks.previous _ (List.mem_of_getElem? found) rfl
                ⟨rfl, mayApply⟩ orderedIds previous rfl
              refine ⟨items, held, back.perm, ?_⟩
              rw [numbered.dropped_eq_without found]
              exact back.mirrored
      | answered serial reply =>
          obtain ⟨together, pending⟩ := mayApply
          intro first firstNamed second secondNamed differs
          have firstIn := together first firstNamed differs.1.mem_left
          have secondIn := together second secondNamed differs.1.mem_right
          have holds := tracks.arranged
          have awaited : ∀ since, world.ReadAt list detail.items
              (world.journal.arranged list).names since →
                (world.journal.arranged list).basis.floor note.number serial = some since →
                  (world.dropped index).Awaited list (.order first second) := by
            intro since readAt floor
            have changed : (world.dropped index).ChangedSince list since (.order first second) :=
              readAt.2 first firstIn second secondIn differs
            exact changed.awaited (pending since floor) ⟨firstNamed, secondNamed⟩
          cases basis : (world.journal.arranged list).basis with
          | asOf since =>
              unfold World.Arranged at holds
              rw [basis] at holds
              exact awaited since holds (by rw [basis]; rfl)
          | own number =>
              by_cases same : number = note.number
              · subst same
                apply awaited (serial + 1) (holds.succeeded sound numbered found basis)
                rw [basis]
                exact if_pos rfl
              · unfold World.Arranged at holds
                rw [basis] at holds
                obtain ⟨mutation, member, isNumber, here, orderedIds', previous', request, named,
                  -⟩ := holds
                rcases Places.eq_or_mem_eraseIdx found member with rfl | left
                · exact absurd isNumber.symm same
                · refine .inr ⟨first, second, rfl, mutation, left, here, ?_⟩
                  rw [request]
                  exact ⟨named first firstIn, named second secondIn⟩

end Outcomes

end FrontDashboard.Lists
