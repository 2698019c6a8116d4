import Mathlib.Data.List.Infix

/-! # Views that follow what is announced

A server announces its writes in their order. A follower applies some of what it is told to its
view, and asks again because of the rest; an answer replaces the view by what the server had when
it was drawn. Applying a piece of news over again must change nothing, also after other news.
-/

/-- How a view follows: news that is applied to it, and news that it is asked for again by. -/
structure Following (News State : Type*) where
  apply : News → State → State
  reloads : News → Bool
  apply_self : ∀ news state, apply news (apply news state) = apply news state
  apply_between : ∀ news other state,
    apply news (apply other (apply news state)) = apply news (apply other state)

/-- A piece of news that asks for nothing and changes no state. -/
def Following.Idle {News State : Type*} (following : Following News State) (news : News) : Prop :=
  following.reloads news = false ∧ ∀ state, following.apply news state = state

/-- A request for the state, or the answer to it, with how much of what was still to be told then
it was drawn after. -/
inductive Fetch (State : Type*)
  | asked
  | answered (state : State) (known : Nat)

namespace Fetch

variable {State : Type*}

/-- A piece of news arrives. -/
def heard : Fetch State → Fetch State
  | asked => asked
  | answered state known => answered state (known - 1)

/-- The news on its way is lost. -/
def adrift : Fetch State → Fetch State
  | asked => asked
  | answered state _ => answered state 0

end Fetch

/-- The server's state and the news on its way; the view, whether it is due to be asked for, the
fetch in flight, and whether there is one to follow it. -/
structure Follower (News State : Type*) where
  server : State
  queue : List News
  view : Option State
  due : Bool
  fetch : Option (Fetch State)
  again : Bool

namespace Follower

variable {News State : Type*} (following : Following News State)
  (follower next : Follower News State)

/-- All the news, one after the other. -/
def applyAll (queue : List News) (state : State) : State :=
  queue.foldl (fun state news => following.apply news state) state

/-- A reload is still to come. -/
def Pending (queue : List News) : Prop :=
  follower.due = true ∨ follower.again = true ∨ ∃ news ∈ queue, following.reloads news = true

/-- The state is asked for, at the latest when the fetch in flight has landed. -/
def insist : Follower News State :=
  if follower.fetch.isSome then { follower with again := true }
  else { follower with fetch := some .asked, again := false }

/-- The news is not applied ahead of an answer that does not know of it and stays the last. -/
def Timely (news : News) (rest : List News) : Prop :=
  follower.Pending following rest ∨
    ∀ state, follower.fetch = some (.answered state 0) → following.apply news state = state

/-- What a server and its follower do. -/
inductive Step : Follower News State → Prop
  | idle : Step follower
  /-- A write that is told by news to be applied. -/
  | wrote (news : News) (applied : following.reloads news = false) :
      Step { follower with
        server := following.apply news follower.server, queue := follower.queue ++ [news] }
  /-- Any other write. -/
  | changed (news : News) (server : State) (reloads : following.reloads news = true) :
      Step { follower with server, queue := follower.queue ++ [news] }
  /-- What was on its way is lost, and a reload is asked for instead. -/
  | lost (earlier : List News) (news : News) (reloads : following.reloads news = true) :
      Step { follower with queue := earlier ++ [news], fetch := follower.fetch.map .adrift }
  /-- What is lost changes nothing, nor does what comes instead. -/
  | missed (queue : List News) (lost : ∀ news ∈ follower.queue, following.Idle news)
      (idle : ∀ news ∈ queue, following.Idle news) :
      Step { follower with queue, fetch := follower.fetch.map .adrift }
  | ignored {news : News} {rest : List News} (told : follower.queue = news :: rest)
      (blank : follower.view = none) (still : follower.fetch = none) :
      Step { follower with queue := rest }
  | followed {news : News} {rest : List News} (told : follower.queue = news :: rest)
      (applied : following.reloads news = false)
      (timely : follower.Timely following news rest) :
      Step { follower with
        queue := rest
        view := follower.view.map (following.apply news)
        fetch := follower.fetch.map .heard }
  | scheduled {news : News} {rest : List News} (told : follower.queue = news :: rest) :
      Step { follower with queue := rest, due := true, fetch := follower.fetch.map .heard }
  | insisted {news : News} {rest : List News} (told : follower.queue = news :: rest) :
      Step (insist { follower with queue := rest, fetch := follower.fetch.map .heard })
  | forced : Step follower.insist
  | fired : Step (insist { follower with due := false })
  | served (asked : follower.fetch = some .asked) :
      Step { follower with
        fetch := some (.answered follower.server follower.queue.length) }
  | landed {state : State} {known : Nat}
      (answered : follower.fetch = some (.answered state known)) :
      Step { follower with
        view := some state
        fetch := if follower.again then some .asked else none
        again := false }
  | failed (queued : follower.again = true) (flying : follower.fetch.isSome = true) :
      Step { follower with fetch := some .asked, again := false }

/-! ## News that is applied twice -/

variable {following follower next} {news : News} {queue rest : List News}

/-- News of two batches is applied one after the other. -/
theorem applyAll_append (first last : List News) (state : State) :
    applyAll following (first ++ last) state =
      applyAll following last (applyAll following first state) :=
  List.foldl_append

/-- A piece of news that comes after others is all that counts of it. -/
theorem apply_applyAll_apply (following : Following News State) (news : News)
    (between : List News) (state : State) :
    following.apply news (applyAll following between (following.apply news state)) =
      following.apply news (applyAll following between state) := by
  induction between generalizing state with
  | nil => exact following.apply_self news state
  | cons other between ih =>
      calc following.apply news (applyAll following between
            (following.apply other (following.apply news state)))
          = following.apply news (applyAll following between
              (following.apply news (following.apply other (following.apply news state)))) :=
            (ih _).symm
        _ = following.apply news (applyAll following between
              (following.apply news (following.apply other state))) := by
            rw [following.apply_between]
        _ = following.apply news (applyAll following between (following.apply other state)) :=
            ih _

/-- So it is with news in a row. -/
theorem applyAll_between (following : Following News State) (queue between : List News)
    (state : State) :
    applyAll following queue (applyAll following between (applyAll following queue state)) =
      applyAll following queue (applyAll following between state) := by
  induction queue generalizing between state with
  | nil => rfl
  | cons news rest ih =>
      change applyAll following rest (following.apply news (applyAll following between
          (applyAll following rest (following.apply news state)))) =
        applyAll following rest (following.apply news (applyAll following between state))
      have once := apply_applyAll_apply following news (rest ++ between) state
      rw [applyAll_append, applyAll_append] at once
      have last := ih (between ++ [news]) state
      rw [applyAll_append, applyAll_append] at last
      rw [once]
      exact last

/-- News that changes nothing, in a row. -/
theorem applyAll_of_idle (idle : ∀ news ∈ queue, following.Idle news) (state : State) :
    applyAll following queue state = state := by
  induction queue generalizing state with
  | nil => rfl
  | cons news rest ih =>
      have first := (idle news List.mem_cons_self).2 state
      change applyAll following rest (following.apply news state) = state
      rw [first]
      exact ih (fun other member => idle other (List.mem_cons_of_mem _ member)) state

/-- News applied a second time changes nothing. -/
theorem applyAll_self (following : Following News State) (queue : List News) (state : State) :
    applyAll following queue (applyAll following queue state) = applyAll following queue state :=
  applyAll_between following queue [] state

/-! ## The invariant -/

/-- The news still to be told, from some point on, says nothing that the state does not have
already. -/
def UpToDate (following : Following News State) (queue : List News) (state : State) : Prop :=
  ∀ last, last <:+ queue → (∀ news ∈ last, following.reloads news = false) →
    applyAll following last state = state

namespace UpToDate

variable {state : State}

/-- With no news a state is up to date. -/
theorem nil : UpToDate following [] state := by
  intro last suffix _
  rw [List.suffix_nil.mp suffix]
  rfl

/-- With news that changes nothing a state is up to date. -/
theorem of_idle (idle : ∀ news ∈ queue, following.Idle news) : UpToDate following queue state :=
  fun _ suffix _ => applyAll_of_idle (fun news member => idle news (suffix.subset member)) state

/-- What is up to date with news is so with the rest of them. -/
theorem suffix (upToDate : UpToDate following queue state) (tail : rest <:+ queue) :
    UpToDate following rest state :=
  fun last suffix applied => upToDate last (suffix.trans tail) applied

/-- A state is up to date with one more news once that is applied. -/
theorem wrote (upToDate : UpToDate following queue state) (news : News) :
    UpToDate following (queue ++ [news]) (following.apply news state) := by
  intro last suffix applied
  obtain rfl | ⟨earlier, rfl, tail⟩ := List.suffix_concat_iff.mp suffix
  · rfl
  have settled := upToDate earlier tail fun other member =>
    applied other (List.mem_append_left _ member)
  have once := applyAll_self following (earlier ++ [news]) state
  rw [applyAll_append earlier [news] state, settled] at once
  exact once

/-- News that asks for a reload ends what is known. -/
theorem changed (news : News) (reloads : following.reloads news = true) (state : State) :
    UpToDate following (queue ++ [news]) state := by
  intro last suffix applied
  obtain rfl | ⟨earlier, rfl, -⟩ := List.suffix_concat_iff.mp suffix
  · rfl
  · exact absurd (applied news (List.mem_append_right _ List.mem_cons_self)) (by simp [reloads])

/-- The first piece of news that is known to be applied already may be applied once more. -/
theorem applyAll_apply (upToDate : UpToDate following (news :: rest) state)
    (applied : ∀ other ∈ news :: rest, following.reloads other = false) :
    applyAll following rest (following.apply news state) = applyAll following rest state :=
  (upToDate (news :: rest) (List.suffix_refl _) applied).trans
    (upToDate rest (List.suffix_cons _ _)
      fun other member => applied other (List.mem_cons_of_mem _ member)).symm

end UpToDate

/-- The state becomes the server's with the news to come. -/
def Follows (following : Following News State) (follower : Follower News State) (state : State) :
    Prop :=
  applyAll following follower.queue state = follower.server

/-- An answer has the news that it was drawn after. -/
def Knows (following : Following News State) (fetch : Option (Fetch State)) (queue : List News) :
    Prop :=
  ∀ state known, fetch = some (.answered state known) →
    known ≤ queue.length ∧ UpToDate following (queue.take known) state

/-- The invariant: the server has what it tells; an answer, and a view that none replaces,
becomes its state with the news to come, unless a reload is still to come. -/
structure Sound (following : Following News State) (follower : Follower News State) : Prop where
  told : UpToDate following follower.queue follower.server
  knows : Knows following follower.fetch follower.queue
  quiet : follower.fetch = none → follower.again = false
  answer : ∀ state known, follower.fetch = some (.answered state known) →
    follower.Pending following follower.queue ∨ follower.Follows following state
  view : ∀ state, follower.view = some state → follower.fetch.isSome = true ∨
    follower.Pending following follower.queue ∨ follower.Follows following state

/-- A follower that has shown nothing is sound. -/
theorem sound_initial (told : ∀ news ∈ follower.queue, following.Idle news)
    (blank : follower.view = none) (still : follower.fetch = none)
    (quiet : follower.again = false) : Sound following follower where
  told := .of_idle told
  knows _ _ answered := by rw [still] at answered; cases answered
  quiet _ := quiet
  answer _ _ answered := by rw [still] at answered; cases answered
  view _ shown := by rw [blank] at shown; cases shown

/-! ## Steps -/

/-- What is pending stays so with more news. -/
theorem Pending.append (pending : follower.Pending following queue) (news : News) :
    follower.Pending following (queue ++ [news]) := by
  obtain due | again | ⟨other, member, reloads⟩ := pending
  · exact .inl due
  · exact .inr (.inl again)
  · exact .inr (.inr ⟨other, List.mem_append_left _ member, reloads⟩)

/-- What is pending beside a piece of news that is applied. -/
theorem Pending.tail (pending : follower.Pending following (news :: rest))
    (applied : following.reloads news = false) : follower.Pending following rest := by
  obtain due | again | ⟨other, member, reloads⟩ := pending
  · exact .inl due
  · exact .inr (.inl again)
  · obtain rfl | later := List.mem_cons.mp member
    · simp [applied] at reloads
    · exact .inr (.inr ⟨other, later, reloads⟩)

/-- A view that follows still does when the server writes and says so. -/
theorem Follows.wrote {state : State} (follows : follower.Follows following state) (news : News) :
    applyAll following (follower.queue ++ [news]) state =
      following.apply news follower.server := by
  rw [applyAll_append, follows]
  rfl

namespace Knows

variable {fetch : Option (Fetch State)} {state : State} {known : Nat}

/-- What a fetch knows it knows with more news. -/
theorem append (knows : Knows following fetch queue) (news : News) :
    Knows following fetch (queue ++ [news]) := by
  intro state known answered
  obtain ⟨short, upToDate⟩ := knows state known answered
  rw [List.take_append_of_le_length short, List.length_append]
  exact ⟨short.trans (Nat.le_add_right _ _), upToDate⟩

/-- What a fetch knows it knows with news that it hears. -/
theorem heard (knows : Knows following fetch (news :: rest)) :
    Knows following (fetch.map .heard) rest := by
  intro state known answered
  obtain ⟨before, flying, after⟩ := Option.map_eq_some_iff.mp answered
  cases before with
  | asked => cases after
  | answered drawn count =>
      cases after
      obtain ⟨short, upToDate⟩ := knows state count flying
      cases count with
      | zero => exact ⟨Nat.zero_le _, .nil⟩
      | succ count =>
          exact ⟨Nat.le_of_succ_le_succ short, upToDate.suffix (List.suffix_cons _ _)⟩

/-- A fetch that is adrift has nothing to know. -/
theorem adrift (fetch : Option (Fetch State)) (queue : List News) :
    Knows following (fetch.map .adrift) queue := by
  intro state known answered
  obtain ⟨before, -, after⟩ := Option.map_eq_some_iff.mp answered
  cases before with
  | asked => cases after
  | answered drawn count =>
      cases after
      exact ⟨Nat.zero_le _, .nil⟩

/-- An answer that knows of the first piece of news does not need it. -/
theorem applyAll_apply (knows : Knows following fetch (news :: rest))
    (answered : fetch = some (.answered state (known + 1)))
    (applied : ∀ other ∈ news :: rest, following.reloads other = false) :
    applyAll following rest (following.apply news state) = applyAll following rest state := by
  obtain ⟨-, upToDate⟩ := knows state (known + 1) answered
  rw [List.take_succ_cons] at upToDate
  have once := upToDate.applyAll_apply fun other member =>
    applied other (List.cons_subset_cons _ (List.take_subset _ _) member)
  calc applyAll following rest (following.apply news state)
      = applyAll following (rest.drop known)
          (applyAll following (rest.take known) (following.apply news state)) := by
        rw [← applyAll_append, List.take_append_drop]
    _ = applyAll following rest state := by
        rw [once, ← applyAll_append, List.take_append_drop]

end Knows

/-- Whoever asks again gets what the server has. -/
theorem sound_insist (told : UpToDate following follower.queue follower.server)
    (knows : Knows following follower.fetch follower.queue) :
    Sound following follower.insist := by
  rw [insist]
  split_ifs with flying
  · refine ⟨told, knows, fun still => ?_, fun _ _ _ => ?_, fun _ _ => .inl flying⟩
    · rw [still] at flying
      cases flying
    · exact .inl (.inr (.inl rfl))
  · refine ⟨told, fun _ _ answered => ?_, fun still => ?_, fun _ _ answered => ?_,
      fun _ _ => .inl rfl⟩
    · cases answered
    · cases still
    · cases answered

variable {state : State} {known : Nat}

/-- A write that is told keeps the follower sound. -/
theorem Sound.wrote (sound : Sound following follower) (news : News) :
    Sound following { follower with
      server := following.apply news follower.server, queue := follower.queue ++ [news] } where
  told := sound.told.wrote news
  knows := sound.knows.append news
  quiet := sound.quiet
  answer state known answered := by
    obtain pending | follows := sound.answer state known answered
    · exact .inl (pending.append news)
    · exact .inr (follows.wrote news)
  view state shown := by
    obtain flying | pending | follows := sound.view state shown
    · exact .inl flying
    · exact .inr (.inl (pending.append news))
    · exact .inr (.inr (follows.wrote news))

/-- Any change that is told as a reload keeps the follower sound. -/
theorem Sound.changed (sound : Sound following follower) (news : News) (server : State)
    (reloads : following.reloads news = true) :
    Sound following { follower with server, queue := follower.queue ++ [news] } := by
  have pending : Pending following follower (follower.queue ++ [news]) :=
    .inr (.inr ⟨news, List.mem_append_right _ List.mem_cons_self, reloads⟩)
  exact ⟨.changed news reloads server, sound.knows.append news, sound.quiet,
    fun _ _ _ => .inl pending, fun _ _ => .inr (.inl pending)⟩

/-- News that are lost for a reload in their place keep the follower sound. -/
theorem Sound.lost (sound : Sound following follower) (earlier : List News) (news : News)
    (reloads : following.reloads news = true) : Sound following
      { follower with queue := earlier ++ [news], fetch := follower.fetch.map .adrift } := by
  have pending : Pending following follower (earlier ++ [news]) :=
    .inr (.inr ⟨news, List.mem_append_right _ List.mem_cons_self, reloads⟩)
  refine ⟨.changed news reloads _, .adrift _ _, fun still => ?_, fun _ _ _ => .inl pending,
    fun _ _ => .inr (.inl pending)⟩
  exact sound.quiet (Option.map_eq_none_iff.mp still)

/-- What is pending while nothing on its way asks for a reload. -/
theorem Pending.of_idle (pending : follower.Pending following queue)
    (idle : ∀ news ∈ queue, following.Idle news) (others : List News) :
    follower.Pending following others := by
  obtain due | again | ⟨news, member, reloads⟩ := pending
  · exact .inl due
  · exact .inr (.inl again)
  · rw [(idle news member).1] at reloads
    cases reloads

/-- Where nothing is lost that counts, all that holds of a state holds on. -/
theorem Sound.missed (sound : Sound following follower)
    (lost : ∀ news ∈ follower.queue, following.Idle news)
    (idle : ∀ news ∈ queue, following.Idle news) :
    Sound following { follower with queue, fetch := follower.fetch.map .adrift } := by
  have follows : ∀ {state : State}, follower.Follows following state →
      applyAll following queue state = follower.server := by
    intro state follows
    rw [Follows, applyAll_of_idle lost] at follows
    rw [applyAll_of_idle idle, follows]
  refine ⟨.of_idle idle, .adrift _ _, fun still => ?_, fun state known answered => ?_,
    fun state shown => ?_⟩
  · exact sound.quiet (Option.map_eq_none_iff.mp still)
  · obtain ⟨before, flying, after⟩ := Option.map_eq_some_iff.mp answered
    cases before with
    | asked => cases after
    | answered drawn count =>
        cases after
        exact (sound.answer state count flying).imp (·.of_idle lost queue) follows
  · obtain flying | pending | kept := sound.view state shown
    · exact .inl (by rwa [Option.isSome_map])
    · exact .inr (.inl (pending.of_idle lost queue))
    · exact .inr (.inr (follows kept))

/-- News is applied to the view, and the answer on its way knows of it or is not the last. -/
theorem Sound.followed (sound : Sound following follower) (told : follower.queue = news :: rest)
    (applied : following.reloads news = false) (timely : follower.Timely following news rest) :
    Sound following { follower with
      queue := rest
      view := follower.view.map (following.apply news)
      fetch := follower.fetch.map .heard } := by
  have knows := sound.knows
  rw [told] at knows
  refine ⟨sound.told.suffix (told ▸ List.suffix_cons news rest), knows.heard,
    fun still => sound.quiet (Option.map_eq_none_iff.mp still), ?_, ?_⟩
  · intro state known answered
    obtain ⟨before, flying, after⟩ := Option.map_eq_some_iff.mp answered
    cases before with
    | asked => cases after
    | answered drawn count =>
        cases after
        obtain pending | unknown := timely
        · exact .inl pending
        by_cases pending : follower.Pending following (news :: rest)
        · exact .inl (pending.tail applied)
        have follows := (sound.answer state count flying).resolve_left (told ▸ pending)
        rw [Follows, told] at follows
        refine .inr (Eq.trans (Eq.symm ?_) follows)
        cases count with
        | zero => exact congrArg (applyAll following rest) (unknown state flying)
        | succ count =>
            refine knows.applyAll_apply flying fun other member => ?_
            exact eq_false_of_ne_true fun reloads =>
              pending (.inr (.inr ⟨other, member, reloads⟩))
  · intro shown viewed
    obtain ⟨state, view, rfl⟩ := Option.map_eq_some_iff.mp viewed
    obtain flying | pending | follows := sound.view state view
    · exact .inl (by rwa [Option.isSome_map])
    · exact .inr (.inl ((told ▸ pending : Pending following follower (news :: rest)).tail applied))
    · rw [Follows, told] at follows
      exact .inr (.inr follows)

/-- **The invariant is kept.** -/
theorem Sound.step (sound : Sound following follower) (moved : follower.Step following next) :
    Sound following next := by
  cases moved with
  | idle => exact sound
  | wrote news => exact sound.wrote news
  | changed news server reloads => exact sound.changed news server reloads
  | lost earlier news reloads => exact sound.lost earlier news reloads
  | missed queue lost idle => exact sound.missed lost idle
  | ignored told blank still =>
      refine ⟨sound.told.suffix (told ▸ List.suffix_cons _ _), ?_, sound.quiet, ?_, ?_⟩
      · intro _ _ answered
        rw [still] at answered
        cases answered
      · intro _ _ answered
        rw [still] at answered
        cases answered
      · intro _ shown
        rw [blank] at shown
        cases shown
  | followed told applied timely => exact sound.followed told applied timely
  | scheduled told =>
      have knows := sound.knows
      rw [told] at knows
      exact ⟨sound.told.suffix (told ▸ List.suffix_cons _ _), knows.heard,
        fun still => sound.quiet (Option.map_eq_none_iff.mp still),
        fun _ _ _ => .inl (.inl rfl), fun _ _ => .inr (.inl (.inl rfl))⟩
  | insisted told =>
      have knows := sound.knows
      rw [told] at knows
      exact sound_insist (sound.told.suffix (told ▸ List.suffix_cons _ _)) knows.heard
  | forced => exact sound_insist sound.told sound.knows
  | fired => exact sound_insist sound.told sound.knows
  | served asked =>
      refine ⟨sound.told, fun state known answered => ?_, fun still => ?_,
        fun state known answered => ?_, fun _ _ => .inl rfl⟩
      · cases answered
        exact ⟨le_rfl, by rw [List.take_length]; exact sound.told⟩
      · cases still
      · cases answered
        by_cases reload : ∃ news ∈ follower.queue, following.reloads news = true
        · exact .inl (.inr (.inr reload))
        · refine .inr (sound.told _ (List.suffix_refl _) fun news member => ?_)
          exact eq_false_of_ne_true fun reloads => reload ⟨news, member, reloads⟩
  | @landed state known answered =>
      refine ⟨sound.told, fun _ _ again => ?_, fun _ => rfl, fun _ _ again => ?_,
        fun shown view => ?_⟩
      · dsimp only at again
        split_ifs at again
        cases again
      · dsimp only at again
        split_ifs at again
        cases again
      · cases view
        by_cases queued : follower.again = true
        · exact .inl (by simp [queued])
        · obtain pending | follows := sound.answer state known answered
          · obtain due | again | reload := pending
            · exact .inr (.inl (.inl due))
            · exact absurd again queued
            · exact .inr (.inl (.inr (.inr reload)))
          · exact .inr (.inr follows)
  | failed queued flying =>
      refine ⟨sound.told, fun _ _ answered => ?_, fun still => ?_, fun _ _ answered => ?_,
        fun _ _ => .inl rfl⟩
      · cases answered
      · cases still
      · cases answered

/-- **Where nothing is under way**, the view is what the server has. -/
theorem Sound.view_eq (sound : Sound following follower) (told : follower.queue = [])
    (calm : follower.due = false) (still : follower.fetch = none)
    (shown : follower.view = some state) : state = follower.server := by
  obtain flying | pending | follows := sound.view state shown
  · rw [still] at flying
    cases flying
  · obtain due | again | ⟨news, member, -⟩ := pending
    · rw [calm] at due
      cases due
    · rw [sound.quiet still] at again
      cases again
    · rw [told] at member
      cases member
  · rw [Follows, told] at follows
    exact follows

end Follower
