import FrontDashboard.Overview.Summaries

/-! # The summaries of a tab that looks on

What the tab shows is what the server has, once nothing is under way, in every run in which each
commit is told, no frame is applied ahead of an answer that was drawn before it and stays the last,
a stream that is opened again makes up for what was lost, and no load fails for good.
-/

namespace FrontDashboard.Overview

open Calendar (TimezoneName Zone)
open Listing (Summaries)
open Resync
open FrontDashboard.Stream (resyncNeeded)

variable {zoneInfo : TimezoneName → Zone} {settings : Settings} {user : UserId}
  {world next : World} {frame : Frame}

/-! ## Steps -/

/-- What holds beside. -/
structure Tidy (world : World) : Prop where
  constrained : world.tables.Constrained
  bound : world.tables.Bound
  attached : world.tables.Attached
  loading : world.page.summariesLoading = world.page.flight.awaiting.isSome
  blank : world.page.summariesLoaded = false → world.page.summaries = []
  drawn : world.answer.isSome = true → world.page.flight.awaiting.isSome = true
  arranged : Arranged world.page.summaries
  answer : ∀ answer ∈ world.answer, Listed answer.dashboards

/-- A forced load insists. -/
theorem follower_loadSummaries_true
    (drawn : world.answer.isSome = true → world.page.flight.awaiting.isSome = true) :
    World.follower user { world with page := world.page.loadSummaries true } =
      (world.follower user).insist := by
  rw [Summaries.loadSummaries, Follower.insist]
  by_cases flying : world.page.flight.awaiting.isSome = true
  · simp [World.follower, fetchOf, flying, Flight.join]
  · have none : world.answer = none := by
      rw [← Option.not_isSome_iff_eq_none]
      exact fun some => flying (drawn some)
    simp [World.follower, fetchOf, flying, Flight.begin, none]

/-- Any other load insists where it is the first, and changes nothing otherwise. -/
theorem follower_loadSummaries_false
    (drawn : world.answer.isSome = true → world.page.flight.awaiting.isSome = true) :
    World.follower user { world with page := world.page.loadSummaries false } =
        world.follower user ∨
      World.follower user { world with page := world.page.loadSummaries false } =
        (world.follower user).insist := by
  rw [← follower_loadSummaries_true drawn, Summaries.loadSummaries, Summaries.loadSummaries]
  by_cases loaded : (!false && world.page.summariesLoaded && !world.page.summariesLoading) = true
  · left
    rw [if_pos loaded]
    rfl
  · have forced :
        ¬ (!true && world.page.summariesLoaded && !world.page.summariesLoading) = true := by
      simp
    rw [if_neg loaded, if_neg forced]
    by_cases flying : world.page.flight.awaiting.isSome = true
    · left
      simp [World.follower, fetchOf, Flight.join, flying]
    · right
      rw [if_neg flying, if_neg flying]

/-- An answer that lands is one the follower takes. -/
theorem follower_answered (world : World) (answer : Answer) (drawn : world.answer = some answer)
    (flying : world.page.flight.awaiting.isSome = true) :
    (world.follower user).Step following (World.follower user { world with
      page := world.page.answered (answer.dashboards.map .answered), answer := none }) := by
  have fetched : (world.follower user).fetch =
      some (.answered (answer.dashboards : Multiset Tables.DashboardSummary) answer.known) := by
    simp [World.follower, fetchOf, flying, drawn]
  have landed : (world.follower user).Step following _ := .landed fetched
  rw [Summaries.answered]
  by_cases queued : world.page.flight.queued = true
  · simpa [World.follower, fetchOf, queued, Flight.again, flying, held_answered] using landed
  · simpa [World.follower, fetchOf, queued, Flight.finish, Summaries.finish, held_answered]
      using landed

/-- What a request sends that is not about dashboards. -/
theorem contents_eq (tables : Tables) (step : Commit) :
    contents zoneInfo settings user tables step = [] ∨
      contents zoneInfo settings user tables step = [.content step.eventId] := by
  rw [contents]
  split
  · split
    · split_ifs
      · exact .inr rfl
      · exact .inl rfl
    · exact .inl rfl
  · exact .inl rfl

/-- A commit that is announced has no message of contents. -/
theorem contents_of_announced {tables : Tables} {step : Commit}
    (announced : announcement step.request ≠ none) :
    contents zoneInfo settings user tables step = [] := by
  obtain ⟨event, announced⟩ := Option.ne_none_iff_exists'.mp announced
  rw [contents]
  split
  · simp only [announced]
  · rfl

/-- A commit is one piece of news at most. -/
theorem messages_eq {tables made : Tables} {createdAt : Time} {step : Commit} {id : DashboardId}
    (performed : perform zoneInfo settings tables step.request = some (id, .ok (some made))) :
    (fanout user tables made id createdAt step.request = [] ∧
      (messages zoneInfo settings user tables createdAt step = [] ∨
        messages zoneInfo settings user tables createdAt step = [.content step.eventId])) ∨
    ∃ frame, fanout user tables made id createdAt step.request = [frame] ∧
      messages zoneInfo settings user tables createdAt step = [.dashboard step.eventId frame] := by
  rw [messages, frames_of_perform performed]
  obtain quiet | ⟨frame, sent⟩ := (fanout_eq_nil_or :
    fanout user tables made id createdAt step.request = [] ∨ _)
  · rw [quiet]
    exact .inl ⟨rfl, contents_eq tables step⟩
  · have announced : announcement step.request ≠ none := by
      obtain ⟨_, _, _, announced, -⟩ := mem_fanout.mp (sent ▸ List.mem_cons_self)
      exact announced ▸ Option.some_ne_none _
    rw [sent, contents_of_announced announced]
    exact .inr ⟨frame, rfl, rfl⟩

/-- A commit is news to the follower, or none. -/
theorem follower_commit (tidy : Tidy world) {request : Commit} {createdAt : Time}
    (told : ¬ Untold user world.tables request.request)
    (dated : ∀ now ∈ stampedAt request.request, now = createdAt) {after : Tables}
    (committed : commit zoneInfo settings world.tables request = some after) :
    (world.follower user).Step following (World.follower user { world with
      tables := after
      queue := world.queue ++
        messages zoneInfo settings user world.tables createdAt request }) := by
  obtain ⟨-, id, made, performed, rfl⟩ := commit_eq_some committed
  have tells := told_of_perform tidy.constrained tidy.bound tidy.attached performed dated told
  rw [frames_of_perform performed] at tells
  have shows : ∀ {queue : List Message} {server : Multiset Tables.DashboardSummary},
      (made.listDashboards user : Multiset Tables.DashboardSummary) = server →
        World.follower user { world with
          tables := { made with log := world.tables.log ++
            [⟨request.eventId, request.request.entityType.text, some id⟩] }, queue } =
          { world.follower user with server, queue } := by
    rintro queue _ rfl
    rfl
  obtain ⟨quiet, none | content⟩ | ⟨frame, sent, news⟩ :=
    (messages_eq performed : (fanout user _ _ _ createdAt _ = [] ∧ _) ∨ _)
  · rw [none, List.append_nil, shows (congrArg _ (tells.quiet quiet))]
    exact .idle
  · rw [content, shows (congrArg _ (tells.quiet quiet))]
    exact .wrote (Message.content request.eventId) rfl
  · rw [news]
    by_cases skips : canSkipDashboardSummaryReload frame = true
    · have applied := Multiset.coe_eq_coe.mpr
        (tells.applied frame (by rw [sent]; exact List.mem_cons_self) skips)
      have made : ((updated (world.tables.listDashboards user) frame : List _) :
          Multiset Tables.DashboardSummary) = followed frame (world.tables.listDashboards user) :=
        (held_applyLocalDashboardSummaryUpdate _ frame).trans
          (congrArg (followed frame) (held_answered _))
      rw [shows (applied.trans made)]
      exact .wrote (Message.dashboard request.eventId frame)
        (by simp [following, Message.reloads, skips])
    · rw [shows rfl]
      exact .changed (Message.dashboard request.eventId frame) _
        (by simp [following, Message.reloads, skips])

/-- A frame that is told to a fetch is heard by it. -/
theorem follower_heard (world : World) (rest : List Message) (mark : Option Nat) :
    World.follower user { world with queue := rest, answer := world.answer.map .heard, mark } =
      { world.follower user with
        queue := rest, fetch := (world.follower user).fetch.map .heard } := by
  rw [World.follower, fetchOf_heard]
  rfl

/-- News that changes nothing is followed by doing nothing. -/
theorem follower_idle {message : Message} {rest : List Message}
    (told : world.queue = message :: rest) (idle : following.Idle message) (mark : Option Nat) :
    (world.follower user).Step following (World.follower user
      { world with queue := rest, answer := world.answer.map .heard, mark }) := by
  have step : (world.follower user).Step following _ :=
    .followed told idle.1 (.inr fun summaries _ => idle.2 summaries)
  rw [follower_heard]
  have same : (world.follower user).view.map (following.apply message) =
      (world.follower user).view := by
    cases (world.follower user).view with
    | none => rfl
    | some summaries => exact congrArg some (idle.2 summaries)
  rwa [same] at step

/-- A frame that is applied is applied in time. -/
theorem follower_frame {eventId : Nat} {rest : List Message}
    (told : world.queue = .dashboard eventId frame :: rest)
    (skips : canSkipDashboardSummaryReload frame = true) (timely : Timely world frame rest)
    (mark : Option Nat) :
    (world.follower user).Step following (World.follower user
      { world with
        queue := rest
        answer := world.answer.map .heard
        mark
        page := { world.page with
          summaries := applyLocalDashboardSummaryUpdate world.page.summaries frame } }) := by
  have known : (world.follower user).Timely following (.dashboard eventId frame) rest := by
    refine timely.imp_right fun unknown summaries answered => ?_
    obtain ⟨answer, drawn, rfl, none⟩ := fetchOf_eq_answered answered
    have untouched := unknown answer drawn none
    change followed frame answer.dashboards = answer.dashboards
    rw [followed]
    split_ifs with touches
    · rw [Multiset.map_coe]
      refine congrArg _ ((List.map_congr_left fun dashboard member => ?_).trans (List.map_id _))
      exact stamped_of_not_says (untouched touches dashboard member)
    · rfl
  have viewed : (if world.page.summariesLoaded = true then
      some (held (applyLocalDashboardSummaryUpdate world.page.summaries frame)) else none) =
      (world.follower user).view.map (followed frame) := by
    rw [World.follower, held_applyLocalDashboardSummaryUpdate]
    split_ifs <;> rfl
  have step : (world.follower user).Step following _ :=
    .followed told (by simp [following, Message.reloads, skips]) known
  rw [World.follower, World.follower]
  dsimp only
  rw [viewed, fetchOf_heard]
  exact step

/-- A page that does not list dashboards ignores what it is told of them. -/
theorem follower_ignored (tidy : Tidy world) {message : Message} {rest : List Message}
    (told : world.queue = message :: rest) (blank : ¬ world.listing = true) (mark : Option Nat) :
    (world.follower user).Step following (World.follower user
      { world with queue := rest, answer := world.answer.map .heard, mark }) := by
  simp only [World.listing, Bool.or_eq_true, not_or] at blank
  have still : world.page.flight.awaiting.isSome = false := by
    rw [← tidy.loading]
    exact eq_false_of_ne_true blank.1.2
  have nothing : (world.follower user).fetch = none := by simp [World.follower, fetchOf, still]
  have ignored : (world.follower user).Step following _ :=
    .ignored told (by simp [World.follower, blank.1.1]) nothing
  rwa [follower_heard, nothing, Option.map_none, ← nothing]

/-- A resync, the server's or the page's own. -/
theorem follower_resync (tidy : Tidy world) {message : Message} {rest : List Message}
    (told : world.queue = message :: rest) (mark : Option Nat) :
    (world.follower user).Step following (World.follower user (handleDashboardEvent
      { world with queue := rest, answer := world.answer.map .heard, mark } none)) := by
  rw [handleDashboardEvent]
  split_ifs with listing
  · rw [@follower_loadSummaries_true user
        { world with queue := rest, answer := world.answer.map .heard, mark }
        (fun drawn => tidy.drawn (by rwa [Option.isSome_map] at drawn)), follower_heard]
    exact .insisted told
  · exact follower_ignored tidy told listing mark

/-- A message that arrives. -/
theorem follower_deliver (tidy : Tidy world) {message : Message} {rest : List Message}
    (told : world.queue = message :: rest) (admitted : Admits user world .deliver) :
    (world.follower user).Step following (World.follower user (receive
      { world with queue := rest, answer := world.answer.map .heard } message)) := by
  cases message with
  | dashboard eventId sent =>
      rw [receive, handleDashboardEvent]
      split_ifs with blank skips
      · have unlisted : (!world.listing) = true := blank
        exact follower_ignored tidy told (by simpa using unlisted) _
      · rw [Admits, told] at admitted
        exact follower_frame told skips (admitted skips) _
      · change (world.follower user).Step following { World.follower user
          { world with queue := rest, answer := world.answer.map .heard
                       mark := _ } with due := true }
        rw [follower_heard]
        exact .scheduled told
  | content eventId => exact follower_idle told (idle_of_not_bears rfl) _
  | connected head resyncs =>
      rw [receive]
      split_ifs with again
      · exact follower_resync tidy told _
      · exact follower_idle told (idle_of_not_bears (by simp [Message.bears, Message.reloads,
          again])) _
  | resync head scopes =>
      rw [receive]
      split_ifs with wanted
      · exact follower_resync tidy told _
      · exact follower_idle told (idle_of_not_bears (by simp [Message.bears, Message.reloads,
          wanted])) _

/-- A resync that reaches the summaries wants the dashboards. -/
theorem wantsDashboards_of_mem {scopes : Option (List String)}
    (reached : .summaries ∈ onResync (resyncRoutes scopes) [.summaries]) :
    wantsDashboards scopes = true := by
  rw [wantsDashboards]
  cases routes : resyncRoutes scopes with
  | none => rfl
  | some routes' =>
      rw [routes, mem_onResync_some] at reached
      obtain ⟨-, route, member, heeded⟩ := reached
      cases route with
      | dashboard => exact decide_eq_true member
      | list => cases heeded
      | calendar => cases heeded

/-- What a stream begins with. -/
theorem greeting_eq (user : UserId) (tables : Tables) (mark : Option Nat) :
    ∃ head, greeting user tables mark = [.connected head true] ∨
      greeting user tables mark = [.connected head false] ∨
        ∃ scopes, greeting user tables mark = [.connected head false, .resync none scopes] := by
  refine ⟨tables.currentEventId, ?_⟩
  cases mark with
  | none => exact .inl rfl
  | some mark =>
      cases needed : resyncNeeded (some mark) tables.currentEventId with
      | false =>
          simp only [greeting, Tables.connectState, needed]
          exact .inr (.inl rfl)
      | true =>
          simp only [greeting, Tables.connectState, needed]
          exact .inr (.inr ⟨_, rfl⟩)

/-- A greeting asks for a reload in its last message, if at all. -/
theorem beside_of_greeting {tables : Tables} {mark : Option Nat} {message : Message}
    (still : ¬ ∃ earlier message,
      greeting user tables mark = earlier ++ [message] ∧ message.reloads = true)
    (member : message ∈ greeting user tables mark) : message.bears = false := by
  obtain ⟨head, greets | greets | ⟨scopes, greets⟩⟩ := greeting_eq user tables mark
  · exact absurd ⟨[], _, greets, rfl⟩ still
  · rw [greets, List.mem_singleton] at member
    rw [member]
    rfl
  · rw [greets, List.mem_pair] at member
    obtain rfl | rfl := member
    · rfl
    · have unwanted : wantsDashboards scopes = false :=
        eq_false_of_ne_true fun wanted => still ⟨[_], _, greets, wanted⟩
      simp [Message.bears, Message.reloads, unwanted]

/-- Some event since the mark calls for a resync. -/
theorem needed_of_missed {client : Client} {tables : Tables}
    (missed : client.Unscoped tables ∨ client.Announced tables .summaries) :
    ∀ mark ∈ client.mark, resyncNeeded (some mark) tables.currentEventId = true := by
  intro mark holds
  have later : ∃ event ∈ tables.log, mark < event.eventId := by
    have of_missed : ∀ {event : ActivityEvent}, client.Missed tables event →
        ∃ event ∈ tables.log, mark < event.eventId := by
      rintro event ⟨logged, ⟨other, same, after⟩, -⟩
      obtain rfl : mark = other := Option.some.inj (holds.symm.trans same)
      exact ⟨event, logged, after⟩
    obtain (unmarked | ⟨other, same, many⟩ | ⟨event, lost, -⟩) | ⟨event, lost, -⟩ := missed
    · rw [unmarked] at holds
      cases holds
    · obtain rfl : mark = other := Option.some.inj (holds.symm.trans same)
      obtain ⟨event, since⟩ := List.exists_mem_of_length_pos (Nat.zero_lt_of_lt many)
      obtain ⟨logged, after⟩ := List.mem_filter.mp since
      exact ⟨event, logged, of_decide_eq_true after⟩
    · exact of_missed lost
    · exact of_missed lost
  obtain ⟨event, logged, after⟩ := later
  have reached : event.eventId ≤ tables.currentEventId.getD 0 :=
    List.le_max?_getD_of_mem (List.mem_map_of_mem logged)
  have passed := after.trans_le reached
  cases head : tables.currentEventId with
  | none =>
      rw [head] at passed
      exact absurd passed (Nat.not_lt_zero mark)
  | some head' =>
      rw [head] at passed
      exact decide_eq_true passed

/-- A frame that is lost leaves the follower adrift. -/
theorem follower_adrift (world : World) (queue : List Message) :
    World.follower user { world with queue, answer := world.answer.map .adrift } =
      { world.follower user with
        queue, fetch := (world.follower user).fetch.map .adrift } := by
  rw [World.follower, fetchOf_adrift]
  rfl

/-- What was logged since the mark has the summaries refetched. -/
theorem greeting_of_missed {tables : Tables} {mark : Option Nat}
    (missed : Client.Unscoped ⟨user, mark, [.summaries]⟩ tables ∨
      Client.Announced ⟨user, mark, [.summaries]⟩ tables .summaries) :
    ∃ earlier message, greeting user tables mark = earlier ++ [message] ∧
      message.reloads = true := by
  have needed := needed_of_missed missed
  have reloaded : Resource.summaries ∈ _ := (mem_reconnect needed).mpr ⟨List.mem_cons_self, missed⟩
  cases mark with
  | none => exact ⟨[], .connected tables.currentEventId true, rfl, rfl⟩
  | some mark =>
      simp only [Client.reconnect, Tables.connectState, needed mark rfl] at reloaded
      refine ⟨[.connected tables.currentEventId false], _,
        by simp only [greeting, Tables.connectState, needed mark rfl]; rfl, ?_⟩
      exact wantsDashboards_of_mem reloaded

/-- A stream that is opened again. -/
theorem follower_reconnect (makesUp : MakesUp user world) :
    (world.follower user).Step following (World.follower user { world with
      queue := greeting user world.tables world.mark, answer := world.answer.map .adrift }) := by
  rw [follower_adrift]
  by_cases reloads : ∃ earlier message,
      greeting user world.tables world.mark = earlier ++ [message] ∧ message.reloads = true
  · obtain ⟨earlier, message, greets, reloads⟩ := reloads
    rw [greets]
    exact .lost earlier message reloads
  · have beside := makesUp.resolve_right fun missed => reloads (greeting_of_missed missed)
    refine .missed _ (fun message member => idle_of_not_bears (beside message member)) ?_
    intro message member
    exact idle_of_not_bears (beside_of_greeting reloads member)

/-- **The tab follows the server.** -/
theorem follower_step (tidy : Tidy world) {action : Action}
    (admitted : Admits user world action)
    (moved : step zoneInfo settings user world action = some next) :
    (world.follower user).Step following (next.follower user) := by
  cases action with
  | commit request createdAt =>
      rw [step] at moved
      split_ifs at moved with stamped
      obtain ⟨after, committed, rfl⟩ := Option.map_eq_some_iff.mp moved
      exact follower_commit tidy admitted stamped committed
  | overflow reads =>
      cases moved
      rw [follower_adrift]
      exact .lost [] (Message.resync _ none) rfl
  | reconnect =>
      cases moved
      exact follower_reconnect admitted
  | deliver =>
      rw [step] at moved
      split at moved
      next => cases moved
      next message rest told =>
        cases moved
        exact follower_deliver tidy told admitted
  | loadSummaries force =>
      cases moved
      cases force with
      | true =>
          rw [follower_loadSummaries_true tidy.drawn]
          exact .forced
      | false =>
          rcases (follower_loadSummaries_false tidy.drawn :
            World.follower user _ = world.follower user ∨ _) with same | insists
          · rw [same]
            exact .idle
          · rw [insists]
            exact .forced
  | refresh =>
      rw [step] at moved
      split_ifs at moved with due
      cases moved
      rw [@follower_loadSummaries_true user { world with due := false } tidy.drawn]
      exact .fired
  | draw =>
      rw [step] at moved
      split_ifs at moved with asked
      cases moved
      obtain ⟨flying, undrawn⟩ := asked
      have fetched : (world.follower user).fetch = some .asked := by
        simp [World.follower, fetchOf, flying, Option.isNone_iff_eq_none.mp undrawn]
      have served : (world.follower user).Step following _ := .served fetched
      simpa [World.follower, fetchOf, flying] using served
  | land =>
      obtain ⟨answer, drawn, rfl⟩ := Option.map_eq_some_iff.mp moved
      exact follower_answered world answer drawn (tidy.drawn (by rw [drawn]; rfl))
  | fail =>
      rw [step] at moved
      split_ifs at moved with flying
      cases moved
      have queued : world.page.flight.queued = true := admitted
      have failed : (world.follower user).Step following _ :=
        .failed queued (by simp [World.follower, fetchOf, flying])
      rw [Summaries.failed, if_pos queued]
      simpa [World.follower, fetchOf, Flight.again, flying] using failed

/-! ## Runs -/

/-- A load keeps the page tidy. -/
theorem Tidy.loadSummaries (tidy : Tidy world) (force : Bool) :
    Tidy { world with page := world.page.loadSummaries force } := by
  rw [Summaries.loadSummaries]
  split_ifs with loaded flying
  · exact ⟨tidy.constrained, tidy.bound, tidy.attached, tidy.loading, tidy.blank, tidy.drawn,
      tidy.arranged, tidy.answer⟩
  · exact ⟨tidy.constrained, tidy.bound, tidy.attached, tidy.loading.trans flying, tidy.blank,
      fun _ => rfl, tidy.arranged, tidy.answer⟩
  · exact ⟨tidy.constrained, tidy.bound, tidy.attached, rfl, tidy.blank, fun _ => rfl,
      tidy.arranged, tidy.answer⟩

/-- Messages may come, and an answer know less of them. -/
theorem Tidy.told (tidy : Tidy world) (queue : List Message) (mark : Option Nat)
    (change : Answer → Answer)
    (same : ∀ answer, (change answer).dashboards = answer.dashboards) :
    Tidy { world with queue, mark, answer := world.answer.map change } where
  constrained := tidy.constrained
  bound := tidy.bound
  attached := tidy.attached
  loading := tidy.loading
  blank := tidy.blank
  drawn := fun drawn => tidy.drawn (by rwa [Option.isSome_map] at drawn)
  arranged := tidy.arranged
  answer := by
    intro answer changed
    obtain ⟨origin, drawn, rfl⟩ := Option.map_eq_some_iff.mp changed
    rw [same]
    exact tidy.answer origin drawn

/-- A frame keeps the page tidy. -/
theorem Tidy.handleDashboardEvent (tidy : Tidy world) (event : Option Frame) :
    Tidy (handleDashboardEvent world event) := by
  cases event with
  | none =>
      rw [Overview.handleDashboardEvent]
      split_ifs
      · exact tidy.loadSummaries true
      · exact tidy
  | some sent =>
      rw [Overview.handleDashboardEvent]
      split_ifs
      · exact tidy
      · refine ⟨tidy.constrained, tidy.bound, tidy.attached, tidy.loading, fun unloaded => ?_,
          tidy.drawn, arranged_applyLocalDashboardSummaryUpdate tidy.arranged sent, tidy.answer⟩
        dsimp only
        rw [tidy.blank unloaded, applyLocalDashboardSummaryUpdate]
        simp
      · exact ⟨tidy.constrained, tidy.bound, tidy.attached, tidy.loading, tidy.blank, tidy.drawn,
          tidy.arranged, tidy.answer⟩

/-- A message is received, while nothing else changes but the mark. -/
theorem Tidy.receive (tidy : Tidy world) (rest : List Message) (message : Message) :
    Tidy (receive { world with queue := rest, answer := world.answer.map .heard } message) := by
  have told := fun mark => tidy.told rest mark Answer.heard fun _ => rfl
  cases message with
  | dashboard eventId sent => exact (told _).handleDashboardEvent (some sent)
  | content eventId => exact told _
  | connected _ _ | resync _ _ =>
      rw [Overview.receive]
      split_ifs
      · exact (told _).handleDashboardEvent none
      · exact told _

/-- **Every step** keeps the page tidy. -/
theorem Tidy.step (tidy : Tidy world) {action : Action}
    (moved : step zoneInfo settings user world action = some next) : Tidy next := by
  cases action with
  | commit request createdAt =>
      rw [Overview.step] at moved
      split_ifs at moved with dated
      obtain ⟨after, committed, rfl⟩ := Option.map_eq_some_iff.mp moved
      obtain ⟨-, id, made, performed, rfl⟩ := commit_eq_some committed
      have constrained := (footprint_of_perform tidy.constrained performed).constrained
      have bound := bound_of_perform tidy.constrained tidy.bound performed
      have attached := attached_of_perform tidy.constrained tidy.attached performed
      exact ⟨⟨constrained.dashboards, constrained.lists, constrained.events⟩, bound, attached,
        tidy.loading, tidy.blank, tidy.drawn, tidy.arranged, tidy.answer⟩
  | overflow _ | reconnect =>
      cases moved
      exact tidy.told _ world.mark Answer.adrift fun _ => rfl
  | deliver =>
      rw [Overview.step] at moved
      split at moved
      next => cases moved
      next message rest told =>
        cases moved
        exact tidy.receive rest message
  | loadSummaries force =>
      cases moved
      exact tidy.loadSummaries force
  | refresh =>
      rw [Overview.step] at moved
      split_ifs at moved with due
      cases moved
      exact (⟨tidy.constrained, tidy.bound, tidy.attached, tidy.loading, tidy.blank, tidy.drawn,
        tidy.arranged, tidy.answer⟩ : Tidy { world with due := false }).loadSummaries true
  | draw =>
      rw [Overview.step] at moved
      split_ifs at moved with asked
      cases moved
      refine ⟨tidy.constrained, tidy.bound, tidy.attached, tidy.loading, tidy.blank,
        fun _ => asked.1, tidy.arranged, fun answer drawn => ?_⟩
      cases drawn
      exact listed_listDashboards user world.tables
  | land =>
      obtain ⟨answer, drawn, rfl⟩ := Option.map_eq_some_iff.mp moved
      have flying := tidy.drawn (by rw [drawn]; rfl)
      have listed := arranged_answered (tidy.answer answer drawn)
      rw [Summaries.answered]
      split_ifs
      · exact ⟨tidy.constrained, tidy.bound, tidy.attached, tidy.loading, fun unloaded =>
          (Bool.noConfusion unloaded), fun drawn => (Bool.noConfusion drawn), listed,
          fun _ none => by cases none⟩
      · exact ⟨tidy.constrained, tidy.bound, tidy.attached, rfl, fun unloaded =>
          (Bool.noConfusion unloaded), fun drawn => (Bool.noConfusion drawn), listed,
          fun _ none => by cases none⟩
  | fail =>
      rw [Overview.step] at moved
      split_ifs at moved with flying
      cases moved
      rw [Summaries.failed]
      split_ifs
      · exact ⟨tidy.constrained, tidy.bound, tidy.attached, tidy.loading, tidy.blank,
          fun drawn => (Bool.noConfusion drawn), tidy.arranged, fun _ none => by cases none⟩
      · exact ⟨tidy.constrained, tidy.bound, tidy.attached, rfl, tidy.blank,
          fun drawn => (Bool.noConfusion drawn), tidy.arranged, fun _ none => by cases none⟩

/-- The invariant of runs whose steps are all admitted. -/
structure Sound (user : UserId) (world : World) : Prop where
  tidy : Tidy world
  follows : (world.follower user).Sound following

/-- **In every run** the page and the follower are sound. -/
theorem sound_of_reached
    (reached : (system zoneInfo settings user).ReachedWithin (Admits user) world) :
    Sound user world := by
  refine reached.invariant ?_ ?_
  · rintro world ⟨constrained, bound, attached, queue, mark, page, answer, due⟩
    obtain ⟨tables, queue', mark', page', answer', due'⟩ := world
    dsimp only at constrained bound attached queue mark page answer due
    subst queue mark page answer due
    refine ⟨⟨constrained, bound, attached, rfl, fun _ => rfl, fun drawn => ?_, .inr .nil,
      fun _ drawn => ?_⟩, Follower.sound_initial (fun message first => ?_) rfl rfl rfl⟩
    · cases drawn
    · cases drawn
    · rw [List.mem_singleton.mp first]
      exact idle_of_not_bears rfl
  · intro world action next sound admitted moved
    exact ⟨sound.tidy.step moved, sound.follows.step (follower_step sound.tidy admitted moved)⟩

/-- Nothing is under way. -/
structure Calm (world : World) : Prop where
  queue : world.queue = []
  due : world.due = false
  flight : world.page.flight.awaiting = none

/-- **The summaries converge.** In every run whose steps are all admitted, a tab that has loaded
them and that nothing is under way for shows what the server lists, and where the texts of the
times tell them apart, in its order. -/
theorem summaries_converge
    (reached : (system zoneInfo settings user).ReachedWithin (Admits user) world)
    (calm : Calm world) (loaded : world.page.summariesLoaded = true) :
    (world.page.summaries.map Summary.dashboard).Perm (world.tables.listDashboards user) ∧
      (TextsTell (world.tables.listDashboards user) →
        OrderedBy ListedFirst (world.tables.listDashboards user)
          (world.page.summaries.map Summary.dashboard)) := by
  have sound := sound_of_reached reached
  have still : (world.follower user).fetch = none := by
    simp [World.follower, fetchOf, calm.flight]
  have shown : (world.follower user).view = some (held world.page.summaries) := by
    simp [World.follower, loaded]
  have same : (world.page.summaries.map Summary.dashboard).Perm
      (world.tables.listDashboards user) :=
    Multiset.coe_eq_coe.mp (sound.follows.view_eq calm.queue calm.due still shown)
  refine ⟨same, fun tell => ⟨same, sound.tidy.arranged.listed ?_⟩⟩
  exact fun dashboard member other member' =>
    tell dashboard (same.mem_iff.mp member) other (same.mem_iff.mp member')

/-- The page of whom a dashboard is shared with. -/
def sharedPage : World :=
  ⟨sharedTables, [.connected sharedTables.currentEventId false], none, .empty, none, false⟩

/-- A page of a shared dashboard opens. -/
theorem opened_sharedPage : Opened sharedPage where
  constrained := constrained_sharedTables
  bound := fun _ shown => (List.not_mem_nil shown).elim
  attached := by
    intro id absent
    refine if_neg fun here => absent ?_
    exact here ▸ List.mem_cons_self
  queue := rfl
  mark := rfl
  page := rfl
  answer := rfl
  due := rfl

/-- A layout is saved while the page looks on, which applies the frame; then the dashboard is
renamed while the stream is down, and the page reloads because of the scopes that it is sent. -/
theorem renamed_dashboard_is_shown : ∃ world : World,
    (world.page.summaries.map fun summary =>
        (summary.dashboard.name, summary.dashboard.version)) = [("House", 1)] ∧
      OrderedBy ListedFirst (world.tables.listDashboards 2)
        (world.page.summaries.map Summary.dashboard) := by
  have begins : (system Calendar.utc sharedSettings 2).Initial sharedPage := opened_sharedPage
  obtain ⟨world, reached, shape⟩ := TransitionSystem.exists_reachedWithin_of_run (Admits 2) begins
    [.deliver, .loadSummaries false, .draw, .land,
      .commit ⟨2, .updateLayout 1 1 ⟨[], 0, rfl⟩ 5⟩ 5, .deliver,
      .commit ⟨3, .updateDashboardMeta 1 1 (some "House") 6⟩ 6, .reconnect, .deliver, .deliver,
      .draw, .land]
    (fun world => decide ((world.page.summaries.map fun summary =>
      (summary.dashboard.name, summary.dashboard.version)) = [("House", 1)] ∧
        world.queue.isEmpty = true ∧ world.due = false ∧ world.page.flight.awaiting = none ∧
          world.page.summariesLoaded = true ∧
            TextsTell (world.tables.listDashboards 2))) (by decide)
  obtain ⟨shows, told, due, still, loaded, tell⟩ := of_decide_eq_true shape
  exact ⟨world, shows, (summaries_converge reached
    ⟨List.isEmpty_iff.mp told, due, still⟩ loaded).2 tell⟩

/-- A removal while the stream is down is never made up for: no event of a dashboard that can still
be seen tells of it. -/
theorem lost_removal_stays : ∃ world : World,
    (system Calendar.utc sharedSettings 2).Reachable world ∧ Calm world ∧
      world.page.summaries.length = 1 ∧ world.tables.listDashboards 2 = [] := by
  have begins : (system Calendar.utc sharedSettings 2).Initial sharedPage := opened_sharedPage
  obtain ⟨world, reached, shape⟩ := TransitionSystem.exists_reachable_of_run begins
    [.deliver, .loadSummaries false, .draw, .land, .commit ⟨2, .deleteDashboardShare 1 1 1⟩ 5,
      .reconnect, .deliver, .deliver]
    (fun world => decide (world.page.summaries.length = 1 ∧
      (world.tables.listDashboards 2).isEmpty = true ∧ world.queue.isEmpty = true ∧
        world.due = false ∧ world.page.flight.awaiting = none)) (by decide)
  obtain ⟨shows, lists, told, due, still⟩ := of_decide_eq_true shape
  exact ⟨world, reached, ⟨List.isEmpty_iff.mp told, due, still⟩, shows, List.isEmpty_iff.mp lists⟩

end FrontDashboard.Overview
