import FrontDashboard.Links.Routes
import Mathlib.Data.List.Nodup

/-! # A change of address closes the old reset path

In every run, each reset link that can still be spent was mailed to the account's present
address after its last change, so was each that sets the password, and no link takes
effect twice.
-/

namespace FrontDashboard.Links

open ReadCommitted
open Auth (AccountLock Failure)

/-- What holds between requests. -/
structure Closed (rows : Rows) : Prop where
  live : ∀ token ∈ rows.resets, token.usedAt = none → token.mailedTo = rows.mailing
  resetsDrawn : ∀ token ∈ rows.resets, token.id ∈ rows.drawn
  changesDrawn : ∀ token ∈ rows.changes, token.id ∈ rows.drawn
  matched : ∀ set ∈ rows.passwordSets, set.mailedTo = set.address
  setsDrawn : ∀ set ∈ rows.passwordSets, set.token ∈ rows.drawn
  setsSpent : ∀ set ∈ rows.passwordSets, ∀ token ∈ rows.resets, token.id = set.token →
    token.usedAt.isSome = true
  setsOnce : (rows.passwordSets.map (·.token)).Nodup
  changedDrawn : ∀ id ∈ rows.emailsChanged, id ∈ rows.drawn
  changedSpent : ∀ id ∈ rows.emailsChanged, ∀ token ∈ rows.changes, token.id = id →
    token.usedAt.isSome = true
  changedOnce : rows.emailsChanged.Nodup

/-! ## Writes -/

@[simp] theorem PasswordResetToken.spend_id (ids : List TokenId) (moment : Time)
    (token : PasswordResetToken) : (token.spend ids moment).id = token.id := by
  unfold PasswordResetToken.spend
  split <;> rfl

@[simp] theorem PasswordResetToken.spend_mailedTo (ids : List TokenId) (moment : Time)
    (token : PasswordResetToken) : (token.spend ids moment).mailedTo = token.mailedTo := by
  unfold PasswordResetToken.spend
  split <;> rfl

/-- A reset link is used up when it is named or was before. -/
theorem PasswordResetToken.spend_isSome {ids : List TokenId} {moment : Time}
    {token : PasswordResetToken} :
    (token.spend ids moment).usedAt.isSome = true ↔ token.id ∈ ids ∨
    token.usedAt.isSome = true := by
  unfold PasswordResetToken.spend
  split
  next spent => simp [spent]
  next kept => simp [kept]

@[simp] theorem EmailChangeToken.spend_id (ids : List TokenId) (moment : Time)
    (token : EmailChangeToken) : (token.spend ids moment).id = token.id := by
  unfold EmailChangeToken.spend
  split <;> rfl

/-- A link for a new address is used up when it is named or was before. -/
theorem EmailChangeToken.spend_isSome {ids : List TokenId} {moment : Time}
    {token : EmailChangeToken} :
    (token.spend ids moment).usedAt.isSome = true ↔ token.id ∈ ids ∨
    token.usedAt.isSome = true := by
  unfold EmailChangeToken.spend
  split
  next spent => simp [spent]
  next kept => simp [kept]

namespace Closed

variable {rows : Rows}

/-- Rows stay closed when reset links are used up. -/
theorem spendResets (closed : Closed rows) (ids : List TokenId) (moment : Time) :
    Closed (rows.perform (.spendResets ids moment)) :=
  { closed with
    live := by
      intro token present unused
      obtain ⟨old, before, rfl⟩ := List.mem_map.mp present
      have still : old.usedAt = none := by
        by_contra used
        have spent := (@PasswordResetToken.spend_isSome ids moment old).mpr
          (.inr (Option.isSome_iff_ne_none.mpr used))
        rw [unused] at spent
        cases spent
      rw [PasswordResetToken.spend_mailedTo]
      exact closed.live old before still
    resetsDrawn := by
      intro token present
      obtain ⟨old, before, rfl⟩ := List.mem_map.mp present
      rw [PasswordResetToken.spend_id]
      exact closed.resetsDrawn old before
    setsSpent := by
      intro set member token present same
      obtain ⟨old, before, rfl⟩ := List.mem_map.mp present
      rw [PasswordResetToken.spend_id] at same
      exact PasswordResetToken.spend_isSome.mpr
        (.inr (closed.setsSpent set member old before same)) }

/-- Rows stay closed when links for a new address are used up. -/
theorem spendChanges (closed : Closed rows) (ids : List TokenId) (moment : Time) :
    Closed (rows.perform (.spendChanges ids moment)) :=
  { closed with
    changesDrawn := by
      intro token present
      obtain ⟨old, before, rfl⟩ := List.mem_map.mp present
      rw [EmailChangeToken.spend_id]
      exact closed.changesDrawn old before
    changedSpent := by
      intro id member token present same
      obtain ⟨old, before, rfl⟩ := List.mem_map.mp present
      rw [EmailChangeToken.spend_id] at same
      exact EmailChangeToken.spend_isSome.mpr
        (.inr (closed.changedSpent id member old before same)) }

theorem insertReset (closed : Closed rows) {token : PasswordResetToken}
    (new : token.id ∉ rows.drawn) (own : token.mailedTo = rows.mailing) :
    Closed (rows.perform (.insertReset token)) :=
  { closed with
    live := by
      intro other present unused
      rcases List.mem_append.mp present with before | added
      · exact closed.live other before unused
      · rw [List.mem_singleton.mp added]
        exact own
    resetsDrawn := by
      intro other present
      rcases List.mem_append.mp present with before | added
      · exact List.mem_cons_of_mem _ (closed.resetsDrawn other before)
      · rw [List.mem_singleton.mp added]
        exact List.mem_cons_self
    changesDrawn := fun other present => List.mem_cons_of_mem _ (closed.changesDrawn other present)
    setsDrawn := fun set member => List.mem_cons_of_mem _ (closed.setsDrawn set member)
    setsSpent := by
      intro set member other present same
      rcases List.mem_append.mp present with before | added
      · exact closed.setsSpent set member other before same
      · rw [List.mem_singleton.mp added] at same
        rw [same] at new
        exact absurd (closed.setsDrawn set member) new
    changedDrawn := fun id member => List.mem_cons_of_mem _ (closed.changedDrawn id member) }

theorem insertChange (closed : Closed rows) {token : EmailChangeToken}
    (new : token.id ∉ rows.drawn) : Closed (rows.perform (.insertChange token)) :=
  { closed with
    resetsDrawn := fun other present => List.mem_cons_of_mem _ (closed.resetsDrawn other present)
    changesDrawn := by
      intro other present
      rcases List.mem_append.mp present with before | added
      · exact List.mem_cons_of_mem _ (closed.changesDrawn other before)
      · rw [List.mem_singleton.mp added]
        exact List.mem_cons_self
    setsDrawn := fun set member => List.mem_cons_of_mem _ (closed.setsDrawn set member)
    changedDrawn := fun id member => List.mem_cons_of_mem _ (closed.changedDrawn id member)
    changedSpent := by
      intro id member other present same
      rcases List.mem_append.mp present with before | added
      · exact closed.changedSpent id member other before same
      · rw [List.mem_singleton.mp added] at same
        rw [same] at new
        exact absurd (closed.changedDrawn id member) new }

/-- A link that was mailed to the present address, and is spent, sets the password. -/
theorem setPassword (closed : Closed rows) {link : PasswordResetToken}
    (own : link.mailedTo = rows.mailing) (drawn : link.id ∈ rows.drawn)
    (first : link.id ∉ rows.passwordSets.map (·.token))
    (spent : ∀ token ∈ rows.resets, token.id = link.id → token.usedAt.isSome = true)
    (password : String) : Closed (rows.perform (.setPassword link password)) :=
  { closed with
    matched := by
      intro set member
      rcases List.mem_append.mp member with before | added
      · exact closed.matched set before
      · rw [List.mem_singleton.mp added]
        exact own
    setsDrawn := by
      intro set member
      rcases List.mem_append.mp member with before | added
      · exact closed.setsDrawn set before
      · rw [List.mem_singleton.mp added]
        exact drawn
    setsSpent := by
      intro set member
      rcases List.mem_append.mp member with before | added
      · exact closed.setsSpent set before
      · rw [List.mem_singleton.mp added]
        exact spent
    setsOnce := by
      rw [Rows.perform, List.map_append, List.map_singleton, ← List.concat_eq_append]
      exact List.Nodup.concat first closed.setsOnce }

/-- A change link that is spent renames the account once no reset link can be spent. -/
theorem setEmail (closed : Closed rows) {link : EmailChangeToken}
    (voided : ∀ token ∈ rows.resets, token.usedAt.isSome = true) (drawn : link.id ∈ rows.drawn)
    (first : link.id ∉ rows.emailsChanged)
    (spent : ∀ token ∈ rows.changes, token.id = link.id → token.usedAt.isSome = true) :
    Closed (rows.perform (.setEmail link)) :=
  { closed with
    live := by
      intro token present unused
      have used := voided token present
      rw [unused] at used
      cases used
    changedDrawn := by
      intro id member
      rcases List.mem_append.mp member with before | added
      · exact closed.changedDrawn id before
      · rw [List.mem_singleton.mp added]
        exact drawn
    changedSpent := by
      intro id member
      rcases List.mem_append.mp member with before | added
      · exact closed.changedSpent id before
      · rw [List.mem_singleton.mp added]
        exact spent
    changedOnce := by
      rw [Rows.perform, ← List.concat_eq_append]
      exact List.Nodup.concat first closed.changedOnce }

theorem deleteResets (closed : Closed rows) : Closed (rows.perform .deleteResets) :=
  { closed with
    live := nofun
    resetsDrawn := nofun
    setsSpent := fun _ _ => nofun }

theorem deleteChanges (closed : Closed rows) : Closed (rows.perform .deleteChanges) :=
  { closed with
    changesDrawn := nofun
    changedSpent := fun _ _ => nofun }

/-- Rows stay closed when an account without reset links is deleted. -/
theorem tombstone (closed : Closed rows) (none_ : rows.resets = []) (moment : Time) :
    Closed (rows.perform (.tombstone moment)) :=
  { closed with
    live := by
      intro token present
      change token ∈ rows.resets at present
      rw [none_] at present
      cases present }

end Closed

/-! ## The account's lock -/

/-- What others leave alone while a request holds the account's lock. -/
structure Untouched (before after : Rows) : Prop where
  user : after.user = before.user
  resets : after.resets = before.resets
  changes : after.changes = before.changes
  drawn : after.drawn = before.drawn
  passwordSets : after.passwordSets = before.passwordSets
  emailsChanged : after.emailsChanged = before.emailsChanged

/-- Nothing is touched. -/
theorem Untouched.refl (rows : Rows) : Untouched rows rows := ⟨rfl, rfl, rfl, rfl, rfl, rfl⟩

/-- What is untouched twice is untouched. -/
theorem Untouched.trans {first second third : Rows} (earlier : Untouched first second)
    (later : Untouched second third) : Untouched first third where
  user := later.user.trans earlier.user
  resets := later.resets.trans earlier.resets
  changes := later.changes.trans earlier.changes
  drawn := later.drawn.trans earlier.drawn
  passwordSets := later.passwordSets.trans earlier.passwordSets
  emailsChanged := later.emailsChanged.trans earlier.emailsChanged

/-- Requests keep the invariant, and change the account only under its lock. -/
def locked : Interference Rows AccountLock where
  invariant := Closed
  rely := fun held before after => .account ∈ held → Untouched before after
  refl := fun _ rows _ => .refl rows
  trans := fun _ _ _ _ earlier later holds => (earlier holds).trans (later holds)

/-- The program keeps the invariant, started in a given transaction. -/
abbrev Kept {α : Type} (post : α → List Write → Set AccountLock → Rows → Prop)
    (program : Handler α) (pending : List Write) (held : Set AccountLock) (rows : Rows) : Prop :=
  Ensures Rows.perform locked (fun _ _ => True) post program pending held rows

/-- A commit under the lock concerns nobody else. -/
theorem kept_commit {pending : List Write} {held : Set AccountLock} {rows : Rows}
    (holds : .account ∈ held)
    (closes : ∀ later, Untouched rows later → Closed later →
      Closed (performAll Rows.perform later pending)) :
    Kept (fun _ _ _ _ => True) Program.commitTransaction pending held rows := by
  apply Ensures.commitTransaction
  intro later relied closed _
  refine ⟨closes later (relied holds) closed, fun others apart theirs => ?_, trivial⟩
  exact absurd theirs (Set.disjoint_left.mp apart holds)

/-- The account that is locked is the current one. -/
theorem kept_lockLiveUser (rows : Rows) :
    Kept (fun user pending held later => pending = [] ∧ .account ∈ held ∧
        ∀ live ∈ user, live = later.user)
      lockLiveUser [] ∅ rows := by
  apply Ensures.acquire
  intro locked _ _ later _ _
  refine ⟨rfl, Set.mem_insert _ _, ?_⟩
  intro live found
  rw [Option.mem_def, Option.ite_none_right_eq_some] at found
  exact (Option.some.inj found.2).symm

/-! ## The handlers -/

/-- **Issuing a link**: the address is read again under the lock. -/
theorem kept_issuePasswordResetLink (settings : Settings) (email : String) (token : TokenId)
    (rows : Rows) :
    Kept (fun _ _ _ _ => True) (issuePasswordResetLink settings email token) [] ∅ rows := by
  apply Ensures.query
  intro asked _ _
  split
  · trivial
  apply Ensures.bind _ (kept_lockLiveUser asked)
  rintro live _ held found ⟨rfl, holds, same⟩
  split
  next => trivial
  next user =>
    split
    · trivial
    apply Ensures.update
    intro voided toVoided _
    apply Ensures.updateReturning
    intro minted toMinted _
    split
    · trivial
    next new =>
      apply kept_commit holds
      intro later toLater closed
      have untouched := ((toVoided holds).trans (toMinted holds)).trans toLater
      apply (closed.spendResets _ _).insertReset
      · change token ∉ later.drawn
        rw [toLater.drawn]
        exact fun member => new (decide_eq_true member)
      · change Mailing.mk user.email _ = later.mailing
        rw [same user rfl, Rows.mailing, untouched.user, toLater.emailsChanged]
        rfl

/-- A reset link that can be spent is unused. -/
theorem mem_spendableReset {token : TokenId} {now : Time} {rows : Rows}
    {link : PasswordResetToken} (found : link ∈ spendableReset token now rows) :
    link ∈ rows.resets ∧ link.usedAt = none := by
  obtain ⟨present, spendable⟩ := List.mem_filter.mp found
  simp only [PasswordResetToken.live, Bool.and_eq_true, Option.isNone_iff_eq_none] at spendable
  exact ⟨present, spendable.2.1⟩

/-- A link for a new address that can be spent is unused. -/
theorem mem_spendableChange {token : TokenId} {now : Time} {rows : Rows}
    {link : EmailChangeToken} (found : link ∈ spendableChange token now rows) :
    link ∈ rows.changes ∧ link.usedAt = none := by
  obtain ⟨present, spendable⟩ := List.mem_filter.mp found
  simp only [EmailChangeToken.live, Bool.and_eq_true, Option.isNone_iff_eq_none] at spendable
  exact ⟨present, spendable.2.1⟩

/-- A reset link is spent under the lock, once. -/
theorem kept_consumePasswordResetToken (token : TokenId) (rows : Rows) :
    Kept (fun spent pending held later => ∀ link ∈ spent, .account ∈ held ∧
        link ∈ later.resets ∧ link.usedAt = none ∧
        ∃ ids moment, pending = [.spendResets ids moment] ∧ link.id ∈ ids)
      (consumePasswordResetToken token) [] ∅ rows := by
  apply Ensures.query
  intro begun _ _
  apply Ensures.query
  intro asked _ _
  split
  · exact nofun
  apply Ensures.bind _ (kept_lockLiveUser asked)
  rintro live _ held found ⟨rfl, holds, -⟩
  intro later _ _ link spent
  have inside := List.mem_of_mem_head? spent
  obtain ⟨present, unused⟩ := mem_spendableReset inside
  exact ⟨holds, present, unused, _, _, rfl, List.mem_map_of_mem inside⟩

/-- An unused reset link was mailed to the current address. -/
theorem Closed.spendOwn {rows : Rows} (closed : Closed rows) {link : PasswordResetToken}
    (present : link ∈ rows.resets) (unused : link.usedAt = none) :
    link.mailedTo = rows.mailing ∧ link.id ∈ rows.drawn ∧
      link.id ∉ rows.passwordSets.map (·.token) := by
  refine ⟨closed.live link present unused, closed.resetsDrawn link present, ?_⟩
  intro before
  obtain ⟨set, member, same⟩ := List.mem_map.mp before
  have used := closed.setsSpent set member link present same.symm
  rw [unused] at used
  cases used

/-- **Confirming a reset** sets the password by a link that was mailed to the address. -/
theorem kept_confirmPasswordReset (settings : Settings) (token : TokenId) (newPassword : String)
    (rows : Rows) :
    Kept (fun _ _ _ _ => True) (confirmPasswordReset settings token newPassword) [] ∅ rows := by
  unfold confirmPasswordReset
  split
  · trivial
  apply Ensures.bind _ (kept_consumePasswordResetToken token rows)
  intro spent pending held consumed spends
  split
  next => trivial
  next link =>
    obtain ⟨holds, present, unused, ids, moment, rfl, named⟩ := spends link rfl
    apply Ensures.query
    intro asked toAsked _
    split
    · trivial
    apply Ensures.update
    intro voided toVoided _
    apply Ensures.update
    intro written toWritten _
    apply kept_commit holds
    intro later toLater closed
    have untouched :=
      (((toAsked holds).trans (toVoided holds)).trans (toWritten holds)).trans toLater
    rw [← untouched.resets] at present
    obtain ⟨own, drawn, first⟩ := closed.spendOwn present unused
    apply ((closed.spendResets ids moment).spendChanges _ _).setPassword own drawn first
    intro row member same
    obtain ⟨old, -, rfl⟩ := List.mem_map.mp member
    rw [PasswordResetToken.spend_id] at same
    rw [← same] at named
    exact PasswordResetToken.spend_isSome.mpr (.inl named)

/-- Asking for a new address keeps the rows closed. -/
theorem kept_requestEmailChange (settings : Settings) (newEmail password : String)
    (token : TokenId) (rows : Rows) :
    Kept (fun _ _ _ _ => True) (requestEmailChange settings newEmail password token) [] ∅ rows := by
  unfold requestEmailChange
  split
  · trivial
  apply Ensures.bind _ (kept_lockLiveUser rows)
  rintro live _ held found ⟨rfl, holds, -⟩
  split
  next => trivial
  next user =>
    split
    · trivial
    apply Ensures.update
    intro voided _ _
    apply Ensures.updateReturning
    intro minted _ _
    split
    · trivial
    next new =>
      apply kept_commit holds
      intro later toLater closed
      apply (closed.spendChanges _ _).insertChange
      change token ∉ later.drawn
      rw [toLater.drawn]
      exact fun member => new (decide_eq_true member)

/-- An unused link for a new address has set none. -/
theorem Closed.spendOwnChange {rows : Rows} (closed : Closed rows) {link : EmailChangeToken}
    (present : link ∈ rows.changes) (unused : link.usedAt = none) :
    link.id ∈ rows.drawn ∧ link.id ∉ rows.emailsChanged := by
  refine ⟨closed.changesDrawn link present, ?_⟩
  intro before
  have used := closed.changedSpent link.id before link present rfl
  rw [unused] at used
  cases used

/-- A change link renames the account when the reset links are spent with it. -/
theorem Closed.confirmEmailChange {rows : Rows} (closed : Closed rows) {link : EmailChangeToken}
    (present : link ∈ rows.changes) (unused : link.usedAt = none) {ids changeIds : List TokenId}
    (voids : ∀ token ∈ rows.resets, token.usedAt = none → token.id ∈ ids)
    (named : link.id ∈ changeIds) (moment : Time) :
    Closed (((rows.perform (.spendResets ids moment)).perform
      (.spendChanges changeIds moment)).perform (.setEmail link)) := by
  obtain ⟨drawn, first⟩ := closed.spendOwnChange present unused
  have voided : ∀ token ∈ (rows.perform (.spendResets ids moment)).resets,
      token.usedAt.isSome = true := by
    intro token member
    obtain ⟨old, before, rfl⟩ := List.mem_map.mp member
    rw [PasswordResetToken.spend_isSome]
    by_cases open_ : old.usedAt = none
    · exact .inl (voids old before open_)
    · exact .inr (Option.isSome_iff_ne_none.mpr open_)
  apply ((closed.spendResets ids moment).spendChanges changeIds moment).setEmail voided drawn first
  intro row member same
  obtain ⟨old, -, rfl⟩ := List.mem_map.mp member
  rw [EmailChangeToken.spend_id] at same
  rw [← same] at named
  exact EmailChangeToken.spend_isSome.mpr (.inl named)

/-- The unused reset links are those found. -/
theorem mem_unspentResets {rows : Rows} {token : PasswordResetToken} (present : token ∈ rows.resets)
    (unused : token.usedAt = none) : token.id ∈ unspentResets rows := by
  apply List.mem_map_of_mem
  rw [List.mem_filter, unused]
  exact ⟨present, rfl⟩

/-- **Confirming a change of address** voids the reset links that were not spent. -/
theorem kept_confirmEmailChange (token : TokenId) (rows : Rows) :
    Kept (fun _ _ _ _ => True) (confirmEmailChange token) [] ∅ rows := by
  apply Ensures.query
  intro begun _ _
  apply Ensures.query
  intro named _ _
  split
  · trivial
  apply Ensures.bind _ (kept_lockLiveUser named)
  rintro live _ held found ⟨rfl, holds, -⟩
  split
  next => trivial
  next =>
    apply Ensures.update
    intro voided toVoided _
    apply Ensures.updateReturning
    intro spent toSpent _
    split
    next => trivial
    next link found =>
      apply Ensures.query
      intro asked toAsked _
      split
      · trivial
      apply Ensures.updateReturning
      intro renamed toRenamed _
      split
      · trivial
      next live =>
        apply kept_commit holds
        intro later toLater closed
        have sinceVoided :=
          ((((toSpent holds).trans (toAsked holds)).trans (toRenamed holds)).trans toLater)
        obtain ⟨present, unused⟩ := mem_spendableChange (List.mem_of_mem_head? found)
        have listed : link ∈ later.changes := by
          rw [(((toAsked holds).trans (toRenamed holds)).trans toLater).changes]
          exact present
        simp only [List.nil_append, performAll_append, performAll_cons, performAll_nil]
        split
        · apply closed.confirmEmailChange listed unused
          · intro token member open_
            rw [sinceVoided.resets] at member
            exact mem_unspentResets member open_
          · exact List.mem_map_of_mem (List.mem_of_mem_head? found)
        · exact (closed.spendResets _ _).spendChanges _ _

/-- A deletion keeps the rows closed. -/
theorem kept_deleteOwnAccount (password : String) (shared : List String) (rows : Rows) :
    Kept (fun _ _ _ _ => True) (deleteOwnAccount password shared) [] ∅ rows := by
  apply Ensures.query
  intro asked _ _
  split
  · trivial
  apply Ensures.bind _ (kept_lockLiveUser asked)
  rintro live _ held found ⟨rfl, holds, -⟩
  split
  next => trivial
  next =>
    split
    · trivial
    apply Ensures.update
    intro first _ _
    apply Ensures.update
    intro second _ _
    apply Ensures.update
    intro third _ _
    apply kept_commit holds
    intro later _ closed
    exact closed.deleteResets.deleteChanges.tombstone rfl _

/-- **Every request** keeps the rows closed. -/
theorem kept_handler (settings : Settings) (request : Request) (rows : Rows) :
    Kept (fun _ _ _ _ => True) (handler settings request) [] ∅ rows := by
  cases request with
  | issuePasswordResetLink email token =>
    exact kept_issuePasswordResetLink settings email token rows
  | confirmPasswordReset token newPassword =>
      exact kept_confirmPasswordReset settings token newPassword rows
  | requestEmailChange newEmail password token =>
      exact kept_requestEmailChange settings newEmail password token rows
  | confirmEmailChange token => exact kept_confirmEmailChange token rows
  | deleteOwnAccount password shared => exact kept_deleteOwnAccount password shared rows

/-! ## Runs -/

/-- The rows begin closed. -/
theorem closed_of_initial {rows : Rows} (initial : Rows.Initial rows) : Closed rows where
  live := initial.live
  resetsDrawn := fun _ present =>
    initial.drawn _ (List.mem_append_left _ (List.mem_map_of_mem present))
  changesDrawn := fun _ present =>
    initial.drawn _ (List.mem_append_right _ (List.mem_map_of_mem present))
  matched := by simp [initial.unset]
  setsDrawn := by simp [initial.unset]
  setsSpent := by simp [initial.unset]
  setsOnce := by simp [initial.unset]
  changedDrawn := by simp [initial.unchanged]
  changedSpent := by simp [initial.unchanged]
  changedOnce := by simp [initial.unchanged]

/-- Every request of the service keeps them so. -/
theorem verified (settings : Settings) :
    Service.Verified (service settings) locked (fun _ _ => True) where
  initially := fun _ => closed_of_initial
  handlers := fun _ request rows _ => kept_handler settings request rows
  keeps := fun _ _ closed => { closed with }
  leaves := fun _ _ _ _ => ⟨rfl, rfl, rfl, rfl, rfl, rfl⟩

/-- **A change of address closes the old reset path.** In every run a link sets the password
only if it was mailed to the account's address after the last change, every other link is
spent, and no link takes effect twice. -/
theorem reset_path_closed (settings : Settings) {state : State Rows Write AccountLock Failure Unit}
    (reached : (service settings).system.Reachable state) :
    (∀ set ∈ state.database.passwordSets, set.mailedTo = set.address) ∧
      (∀ token ∈ state.database.resets, token.mailedTo ≠ state.database.mailing →
        token.usedAt.isSome = true) ∧
      (state.database.passwordSets.map (·.token)).Nodup ∧
      state.database.emailsChanged.Nodup := by
  have closed : Closed state.database :=
    Service.invariant_of_reachable (verified settings) reached
  refine ⟨closed.matched, ?_, closed.setsOnce, closed.changedOnce⟩
  intro token present elsewhere
  rw [Option.isSome_iff_ne_none]
  exact fun unused => elsewhere (closed.live token present unused)

def hourLong : Settings where
  passwordResetExpire := 3600000000
  emailChangeExpire := 3600000000
  commonPassword := fun _ => false
  disposableEmail := fun _ => false

/-- An account that no link was mailed for. -/
def signedUp : State Rows Write AccountLock Failure Unit where
  database :=
    { now := 0, user := ⟨1, "ada@example.org", some "first", none⟩, otherEmails := []
      resets := [], changes := [], drawn := [], passwordSets := [], emailsChanged := [] }
  holder := fun _ => none
  processes := fun _ => none

theorem signedUp_initial (settings : Settings) : (service settings).system.Initial signedUp :=
  ⟨⟨rfl, rfl, by simp [signedUp], by simp [signedUp]⟩, fun _ => rfl, fun _ => rfl⟩

/-- The link that was mailed to the old address is refused after the change, and the link
that is mailed to the new address sets the password. -/
theorem reset_after_change :
    ∃ state : State Rows Write AccountLock Failure Unit,
      (state.database.emailsChanged = [1] ∧ state.database.passwordSets =
        [⟨3, ⟨"ada@example.net", 1⟩, ⟨"ada@example.net", 1⟩⟩]) ∧
      ∀ set ∈ state.database.passwordSets, set.mailedTo = set.address := by
  obtain ⟨state, reached, shape⟩ := TransitionSystem.exists_reachable_of_run
    (signedUp_initial hourLong)
    (runs 0 (.requestEmailChange "ada@example.net" "first" 1) 6 ++
      runs 1 (.issuePasswordResetLink "ada@example.org" 2) 7 ++ runs 2 (.confirmEmailChange 1) 10 ++
      runs 3 (.confirmPasswordReset 2 "second") 9 ++
      runs 4 (.issuePasswordResetLink "ada@example.net" 3) 7 ++
      runs 5 (.confirmPasswordReset 3 "third") 9)
    (fun state => decide (state.database.emailsChanged = [1] ∧ state.database.passwordSets =
      [⟨3, ⟨"ada@example.net", 1⟩, ⟨"ada@example.net", 1⟩⟩])) (by decide)
  exact ⟨state, of_decide_eq_true shape, (reset_path_closed hourLong reached).1⟩

end FrontDashboard.Links
