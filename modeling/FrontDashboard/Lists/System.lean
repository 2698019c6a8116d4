import FrontDashboard.Lists.Resource

/-! # One page, its lists and the members who share them

The server commits the requests of other members and of this page. Each commit
is announced to the page by a frame, and the frames come in the order of the
commits. The page's requests are answered whenever the server gets to it; an
answer may be read from rows that later requests have changed already, and lands
in a step of its own.
-/

namespace FrontDashboard.Lists

open Query

/-- What a commit changed, as its frame tells it. -/
inductive Change
  | created (item : ListItem)
  | updated (itemId : ItemId) (values : ListItemUpdate)
  | deleted (itemId : ItemId)
  | reordered (body : ItemReorder)

/-- A committed request; `own` says that this page issued it. -/
structure Commit where
  list : ListId
  own : Bool
  change : Change

/-- A request on the items of a list as its transaction runs it: when it began, or
what it had loaded. -/
inductive Write
  | create (body : ListItemCreate) (startedAt : Nat)
  | update (itemId : ItemId) (body : ListItemUpdate) (loaded : Values)
  | delete (itemId : ItemId)
  | reorder (body : ItemReorder)

/-- A mutation of this page. -/
inductive Request
  | addListItem (text : String)
  | updateListItem (itemId : ItemId) (body : ListItemUpdate)
  | deleteListItem (itemId : ItemId)
  | reorderListItems (orderedIds : List ItemId) (previous : Option (List ListItem))

/-- The body of a response: the item as it was when the log had the length `seen`,
nothing, or the error of a handler that no longer finds its item. -/
inductive Reply
  | item (item : ListItem) (seen : Nat)
  | noContent
  | gone

/-- How far a mutation has come. Its commit is named by its place in the log. -/
inductive Progress
  | sent
  | committed (serial : Nat)
  | answered (serial : Nat) (reply : Reply)
  | refused (conflict : Bool)

/-! What follows up to `Journal` is kept for the record, and nothing that happens depends on it:
on what the order of a list rests, and how much has arrived for it. -/

/-- What says how items are arranged: a reordering of the page's own, or the server's rows as of
this length of the log. -/
inductive Basis
  | own (number : Nat)
  | asOf (serial : Nat)
  deriving DecidableEq

/-- The items that were last arranged together, and on what basis. -/
structure Arrangement where
  names : List ItemId
  basis : Basis

/-- What there was when a mutation was issued: those issued before it, what had arrived for its
list, and how the list was arranged. -/
structure Note where
  number : Nat
  arrivals : Nat
  arranged : Arrangement

structure Journal where
  issued : Nat
  arrivals : ListId → Nat
  arranged : ListId → Arrangement

structure Mutation where
  list : ListId
  request : Request
  progress : Progress
  note : Note

/-- A response to `apiGetList`, read when the log had the length `seen`. -/
structure Answer where
  detail : ListDetail
  seen : Nat

structure World where
  rows : ListId → List Row
  nextItem : ItemId
  log : List Commit
  delivered : Nat
  cache : ListCache
  answers : ListId → Option Answer
  mutations : List Mutation
  journal : Journal

/-- The rows after a request, unless it is refused with 404 or 409. -/
def Write.run (fresh : ItemId) (rows : List Row) : Write → Option (List Row × Change)
  | .create body startedAt =>
      some (createItem ⟨fresh, body.values⟩ startedAt rows, .created ⟨fresh, body.values⟩)
  | .update itemId body loaded =>
      if itemId ∈ ids (shown rows) then
        some (updateItem itemId body loaded rows, .updated itemId body)
      else none
  | .delete itemId =>
      if itemId ∈ ids (shown rows) then some (deleteItem itemId rows, .deleted itemId) else none
  | .reorder body => (reorderItems body rows).map fun rows => (rows, .reordered body)

/-- What a request of the page becomes on the server, if it passes validation. -/
def Request.write (startedAt : Nat) (loaded : Values) : Request → Option Write
  | .addListItem text => some (.create (.ofText text) startedAt)
  | .updateListItem itemId body => some (.update itemId body loaded)
  | .deleteListItem itemId => some (.delete itemId)
  | .reorderListItems orderedIds _ => (ItemReorder.validate orderedIds).map .reorder

/-- The rows refuse a reordering with 409 and anything else with 404. -/
def Request.reorders : Request → Bool
  | .reorderListItems _ _ => true
  | _ => false

/-- The item a handler reads back for its response. -/
def Change.subject : Change → Option ItemId
  | .created item => some item.id
  | .updated itemId _ => some itemId
  | .deleted _ | .reordered _ => none

namespace World

def commit (list : ListId) (own : Bool) (write : Write) (world : World) : Option World :=
  (write.run world.nextItem (world.rows list)).map fun (rows, change) =>
    { world with
      rows := Function.update world.rows list rows
      nextItem := world.nextItem + 1
      log := world.log ++ [⟨list, own, change⟩] }

/-- What is noted of a mutation on a list. -/
def note (list : ListId) (world : World) : Note where
  number := world.journal.issued
  arrivals := world.journal.arrivals list
  arranged := world.journal.arranged list

def issue (list : ListId) (request : Request) (world : World) : World :=
  { world with
    mutations := world.mutations ++ [⟨list, request, .sent, world.note list⟩]
    journal := { world.journal with issued := world.journal.issued + 1 } }

def progressed (index : Nat) (mutation : Mutation) (progress : Progress) (world : World) : World :=
  { world with mutations := world.mutations.set index { mutation with progress := progress } }

/-- The server runs a mutation of the page. -/
def carryOut (index : Nat) (startedAt : Nat) (loaded : Values) (world : World) : Option World :=
  match world.mutations[index]? with
  | some ⟨list, request, .sent, note⟩ =>
      match request.write startedAt loaded with
      | none => none
      | some write =>
          match world.commit list true write with
          | some next => some (next.progressed index ⟨list, request, .sent, note⟩
              (.committed world.log.length))
          | none => some (world.progressed index ⟨list, request, .sent, note⟩
              (.refused request.reorders))
  | _ => none

/-- A mutation is refused before it reaches its rows: it is malformed, not permitted,
above a limit, or never arrives. -/
def refuse (index : Nat) (world : World) : Option World :=
  match world.mutations[index]? with
  | some ⟨list, request, .sent, note⟩ => some (world.progressed index ⟨list, request, .sent, note⟩
      (.refused false))
  | _ => none

/-- `_item_response`, for the handlers that answer with their item. -/
def reply (list : ListId) (change : Change) (world : World) : Reply :=
  match change.subject with
  | none => .noContent
  | some itemId =>
      match (shown (world.rows list)).find? fun item => item.id = itemId with
      | some item => .item item world.log.length
      | none => .gone

/-- The server answers a mutation it has carried out. -/
def answer (index : Nat) (world : World) : Option World :=
  match world.mutations[index]? with
  | some ⟨list, request, .committed serial, note⟩ =>
      match world.log[serial]? with
      | some commit => some (world.progressed index ⟨list, request, .committed serial, note⟩
          (.answered serial (world.reply list commit.change)))
      | none => none
  | _ => none

end World

/-- What the page does with a response to a mutation. -/
def Request.onReply (list : ListId) (cache : ListCache) : Request → Reply → ListCache
  | .addListItem _, .item item _ => cache.onItemAdded list item
  | .updateListItem itemId _, .item item _ => cache.onItemResponse list itemId item
  | .deleteListItem itemId, .noContent => cache.onItemDeleted list itemId
  | _, _ => cache

/-- What the page does when a mutation is refused. -/
def Request.onRefusal (list : ListId) (conflict : Bool) (cache : ListCache) :
    Request → ListCache
  | .reorderListItems _ previous => cache.rollBack list previous conflict
  | _ => cache

/-- How the outcome of a mutation leaves its list arranged. An order that succeeded is the
server's, as of its own commit; one that failed goes back to the order before it. -/
def Request.arrangement (note : Note) (arranged : Arrangement) : Request → Progress → Arrangement
  | .addListItem _, .answered _ (.item item _) =>
      { arranged with names := arranged.names.filter fun itemId => itemId ≠ item.id }
  | .reorderListItems _ _, .answered serial _ =>
      if arranged.basis = .own note.number then { arranged with basis := .asOf (serial + 1) }
      else arranged
  | .reorderListItems _ _, .refused false => note.arranged
  | _, _ => arranged

/-- `handleListResourceEvent`, for a frame that is no echo of this page. -/
def Change.onFrame (list : ListId) (cache : ListCache) : Change → ListCache
  | .created _ | .deleted _ => cache.invalidateList list
  | .updated itemId values => cache.onItemUpdated list itemId values
  | .reordered body => cache.onItemReordered list body

namespace World

def withCache (cache : ListCache) (world : World) : World := { world with cache := cache }

/-- The world without a mutation. -/
def dropped (index : Nat) (world : World) : World :=
  { world with mutations := world.mutations.eraseIdx index }

/-- The journal where something has arrived for a list. -/
def noted (list : ListId) (arranged : Arrangement) (world : World) : World :=
  { world with
    journal := { world.journal with
      arrivals := Function.update world.journal.arrivals list (world.journal.arrivals list + 1)
      arranged := Function.update world.journal.arranged list arranged } }

/-- The response to a mutation lands. -/
def settle (index : Nat) (world : World) : Option World :=
  match world.mutations[index]? with
  | some ⟨list, request, .answered serial reply, note⟩ =>
      some (((world.dropped index).noted list
        (request.arrangement note (world.journal.arranged list) (.answered serial reply))).withCache
          (request.onReply list world.cache reply))
  | some ⟨list, request, .refused conflict, note⟩ =>
      some (((world.dropped index).noted list
        (request.arrangement note (world.journal.arranged list) (.refused conflict))).withCache
          (request.onRefusal list conflict world.cache))
  | _ => none

/-- How the frame of a commit, read by the list that it patches, leaves its list arranged. -/
def arrangement (commit : Commit) (world : World) : Arrangement :=
  match commit.change with
  | .reordered body =>
      if world.cache.takesOrder commit.list body.itemIds then
        ⟨body.itemIds, .asOf (world.delivered + 1)⟩
      else world.journal.arranged commit.list
  | _ => world.journal.arranged commit.list

/-- The world with one more frame delivered. -/
def advanced (world : World) : World := { world with delivered := world.delivered + 1 }

/-- The next frame arrives. An echo of this page is ignored. -/
def deliver (world : World) : Option World :=
  world.log[world.delivered]?.map fun commit =>
    if commit.own then world.advanced
    else (world.advanced.noted commit.list (world.arrangement commit)).withCache
      (commit.change.onFrame commit.list world.cache)

/-- The request in flight for a list. -/
def asked (list : ListId) (world : World) : Option RequestId :=
  (world.cache.entries.get list).bind Entry.inFlight

/-- `get_list` answers the request in flight. -/
def serve (list : ListId) (world : World) : Option World :=
  match world.asked list, world.answers list with
  | some _, none =>
      let items := shown (world.rows list)
      let answer : Answer := ⟨⟨items.length, items⟩, world.log.length⟩
      some { world with answers := Function.update world.answers list (some answer) }
  | _, _ => none

/-- The answer arrives. -/
def load (list : ListId) (world : World) : Option World :=
  match world.asked list, world.answers list with
  | some request, some answer =>
      some { world.noted list ⟨ids answer.detail.items, .asOf answer.seen⟩ with
        cache := world.cache.modify list (.succeed request answer.detail)
        answers := Function.update world.answers list none }
  | _, _ => none

/-- The request in flight fails. -/
def failLoad (list : ListId) (rejection : Option String) (world : World) : Option World :=
  (world.asked list).map fun request => { world with
    cache := world.cache.modify list (.fail request (toError listDetailQuery rejection))
    answers := Function.update world.answers list none }

end World

/-- A reordering is issued, and the list is arranged by it if the page can show the order. -/
def World.drag (list : ListId) (orderedIds : List ItemId) (previous : Option (List ListItem))
    (world : World) : World :=
  let issued := world.issue list (.reorderListItems orderedIds previous)
  { issued with
    journal := { issued.journal with
      arranged :=
        if world.cache.takesOrder list orderedIds then
          Function.update world.journal.arranged list ⟨orderedIds, .own world.journal.issued⟩
        else world.journal.arranged } }

/-- `write` is a request of another member; the mutations up to `reorderListItems` are
this page's, and the rest is what happens to them, to frames and to fetches. -/
inductive Action
  | mount (list : ListId)
  | unmount (list : ListId)
  | write (list : ListId) (write : Write)
  | addListItem (list : ListId) (text : String)
  | updateListItem (list : ListId) (itemId : ItemId) (body : ListItemUpdate)
  | deleteListItem (list : ListId) (itemId : ItemId)
  | reorderListItems (list : ListId) (orderedIds : List ItemId)
  | carryOut (index : Nat) (startedAt : Nat) (loaded : Values)
  | refuse (index : Nat)
  | answer (index : Nat)
  | settle (index : Nat)
  | deliver
  | serve (list : ListId)
  | load (list : ListId)
  | failLoad (list : ListId) (rejection : Option String)

def step (world : World) : Action → Option World
  | .mount list => some (world.withCache (world.cache.mount listDetailQuery list))
  | .unmount list => some (world.withCache (world.cache.unmount list))
  | .write list write => world.commit list false write
  | .addListItem list text => some (world.issue list (.addListItem text))
  | .updateListItem list itemId body => some (world.issue list (.updateListItem itemId body))
  | .deleteListItem list itemId => some (world.issue list (.deleteListItem itemId))
  | .reorderListItems list orderedIds =>
      let previous := world.cache.previousItems list
      some ((world.drag list orderedIds previous).withCache
        (world.cache.reorderOptimistically list orderedIds))
  | .carryOut index startedAt loaded => world.carryOut index startedAt loaded
  | .refuse index => world.refuse index
  | .answer index => world.answer index
  | .settle index => world.settle index
  | .deliver => world.deliver
  | .serve list => world.serve list
  | .load list => world.load list
  | .failLoad list rejection => world.failLoad list rejection

/-- The page has just opened: nothing is cached, issued or announced. -/
def World.Fresh (world : World) : Prop :=
  world.log = [] ∧ world.delivered = 0 ∧ world.cache = .empty ∧
    (∀ list, world.answers list = none) ∧ world.mutations = [] ∧
    ∀ list, (ids (shown (world.rows list))).Nodup ∧
      ∀ itemId ∈ ids (shown (world.rows list)), itemId < world.nextItem

def system : TransitionSystem World Action where
  Initial := World.Fresh
  step := step

/-- Every frame and every response has been processed. -/
def World.Settled (world : World) : Prop :=
  world.delivered = world.log.length ∧ world.mutations = [] ∧
    ∀ entry ∈ world.cache.entries.values, entry.inFlight = none

/-- Once everything has been processed, each list on screen that shows no error has
the server's items in the server's order. -/
def World.Converges (world : World) : Prop :=
  world.Settled → ∀ entry ∈ world.cache.entries.values,
    0 < entry.listeners → entry.state.error = none →
      entry.state.data.map ListDetail.items = some (shown (world.rows entry.scope))

end FrontDashboard.Lists
