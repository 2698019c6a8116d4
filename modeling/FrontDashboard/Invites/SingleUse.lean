import FrontDashboard.Invites.Steps

/-! # An invite is used once and only ever raises

Whatever redemptions and revocations of a dashboard's invites run beside each other, its
tables are those that a lawful journal of atomic steps leads to.
-/

namespace FrontDashboard.Invites

open ReadCommitted ReadCommitted.Program Journal
open FrontDashboard.Membership (Failure Time isAtLeast)

/-! ## Interference -/

/-- What others leave alone: the share rows under the dashboard's lock, an invite under
its own. -/
structure Relies (held : Set Lock) (before after : Rows) : Prop where
  opening : after.opening = before.opening
  owner : after.owner = before.owner
  now : before.now ≤ after.now
  shares : .dashboard ∈ held → after.tables.shares = before.tables.shares
  invites : ∀ invite ∈ before.tables.invites, .invite invite.id ∈ held →
    invite ∈ after.tables.invites

theorem Relies.refl (held : Set Lock) (rows : Rows) : Relies held rows rows where
  opening := rfl
  owner := rfl
  now := Int.le_refl _
  shares := fun _ => rfl
  invites := fun _ present _ => present

theorem Relies.trans {held : Set Lock} {first second third : Rows}
    (earlier : Relies held first second) (later : Relies held second third) :
    Relies held first third where
  opening := later.opening.trans earlier.opening
  owner := later.owner.trans earlier.owner
  now := Int.le_trans earlier.now later.now
  shares := fun holds => (later.shares holds).trans (earlier.shares holds)
  invites := fun invite present holds =>
    later.invites invite (earlier.invites invite present holds) holds

/-- Holding more only adds to what others leave alone. -/
theorem Relies.mono {held more : Set Lock} {before after : Rows}
    (relied : Relies more before after) (fewer : held ⊆ more) : Relies held before after :=
  { relied with
    shares := fun holds => relied.shares (fewer holds)
    invites := fun invite present holds => relied.invites invite present (fewer holds) }

def locked : Interference Rows Lock where
  invariant := Sound
  rely := Relies
  refl := Relies.refl
  trans := fun _ _ _ _ => Relies.trans

/-- The program keeps the invariant, started in a given transaction. -/
abbrev Safe {α : Type} (post : α → List Write → Set Lock → Rows → Prop) (program : Handler α)
    (pending : List Write) (held : Set Lock) (rows : Rows) : Prop :=
  Ensures Rows.perform locked (fun _ _ => True) post program pending held rows

/-! ## Commits -/

/-- The writes of a transaction that amount to a step. -/
def Step.writes : Step → List Write
  | .redeemed redemption =>
      [.useInvite redemption.invite redemption.user redemption.moment, .upsertShare redemption]
  | .revoked id moment => [.revokeInvite id moment]

theorem performAll_writes (rows : Rows) (step : Step) :
    performAll Rows.perform rows step.writes =
      { rows with tables := rows.tables.take step, history := rows.history ++ [step] } := by
  cases step <;> rfl

/-- **Every transaction takes one permitted step.** -/
theorem Sound.take {rows : Rows} (sound : Sound rows) {step : Step}
    (permitted : Permits rows.owner rows.tables step) :
    Sound (performAll Rows.perform rows step.writes) := by
  rw [performAll_writes]
  rw [sound.tables] at permitted
  refine { sound with tables := ?_, lawful := sound.lawful.concat permitted }
  change rows.tables.take step = replay Tables.take rows.opening (rows.history ++ [step])
  rw [replay_concat, sound.tables]
  rfl

/-- A redemption writes a share, so it needs the dashboard's lock. -/
def Step.locks : Step → Set Lock
  | .redeemed redemption => {.dashboard, .invite redemption.invite}
  | .revoked id _ => {.invite id}

theorem relies_take {rows : Rows} {step : Step} {others : Set Lock}
    (apart : Disjoint step.locks others) :
    Relies others rows (performAll Rows.perform rows step.writes) := by
  rw [performAll_writes]
  have spares : .invite step.invite ∉ others := by
    apply Set.disjoint_left.mp apart
    cases step <;> simp [Step.locks, Step.invite]
  refine ⟨rfl, rfl, Int.le_refl _, ?_, ?_⟩
  · intro holds
    cases step with
    | redeemed redemption =>
        exact absurd holds (Set.disjoint_left.mp apart (Set.mem_insert _ _))
    | revoked id moment => rfl
  · intro invite present holds
    apply mem_take_of_ne present
    intro same
    rw [same] at holds
    exact spares holds

/-- A transaction that ends in a permitted step. -/
theorem safe_commit {held : Set Lock} {rows : Rows} {step : Step} (answer : Answer)
    (holds : step.locks ⊆ held)
    (permitted : ∀ later, Relies held rows later → Sound later →
      Permits later.owner later.tables step) :
    Safe (fun _ _ _ _ => True) (do Program.commitTransaction; pure answer) step.writes held
      rows := by
  intro later relied sound _
  refine ⟨sound.take (permitted later relied sound), ?_, trivial⟩
  intro others apart
  exact relies_take (Set.disjoint_of_subset_left holds apart)

/-! ## The handlers -/

/-- **One UPDATE**: the row it changes is locked and as the condition selects it. -/
theorem safe_updateInvite (selects : DashboardInvite → Bool) (change : Nat → Write)
    (held : Set Lock) (rows : Rows) :
    Safe (fun changed pending holds later => held ⊆ holds ∧ Relies held rows later ∧
        ∀ id ∈ changed, pending = [change id] ∧ .invite id ∈ holds ∧
          ∃ invite ∈ later.tables.invites, invite.id = id ∧ selects invite = true)
      (updateInvite selects change) [] held rows := by
  apply Ensures.query
  intro read relied₁ _
  split
  · exact ⟨subset_rfl, relied₁, by simp⟩
  next invite _ =>
    apply Ensures.acquire
    intro waited relied₂ _
    apply Ensures.updateReturning
    intro updated relied₃ _
    have fewer : held ⊆ insert (.invite invite.id) held := Set.subset_insert _ _
    refine ⟨fewer, relied₁.trans (relied₂.trans (relied₃.mono fewer)), ?_⟩
    intro id changed
    change (if stillSelects selects invite.id updated then some invite.id else none) = some id
      at changed
    obtain ⟨still, same⟩ := Option.ite_none_right_eq_some.mp changed
    cases same
    have wrote : (if stillSelects selects invite.id updated then [change invite.id] else []) =
        [change invite.id] := if_pos still
    unfold stillSelects at still
    obtain ⟨row, present, matched⟩ := List.any_eq_true.mp still
    rw [Bool.and_eq_true, beq_iff_eq] at matched
    exact ⟨wrote, Set.mem_insert _ _, row, present, matched⟩

theorem redeemable_iff {code : Nat} {now : Time} {invite : DashboardInvite} :
    redeemable code now invite = true ↔ invite.code = code ∧ invite.usedAt = none ∧
      invite.revokedAt = none ∧ now < invite.expiresAt := by
  simp [redeemable, Membership.DashboardInvite.live, and_assoc]

/-- `consume_invite` holds the invite it took, which was live at the moment it answers. -/
theorem safe_consumeInvite (code redeemedBy : Nat) (held : Set Lock) (rows : Rows) :
    Safe (fun taken pending holds later => held ⊆ holds ∧ Relies held rows later ∧
        ∀ claim ∈ taken, pending = [.useInvite claim.1 redeemedBy claim.2] ∧
          .invite claim.1 ∈ holds ∧ rows.now ≤ claim.2 ∧
            ∃ invite ∈ later.tables.invites, invite.id = claim.1 ∧
              redeemable code claim.2 invite = true)
      (consumeInvite code redeemedBy) [] held rows := by
  apply Ensures.query
  intro clock relied₁ _
  apply Ensures.bind _ (safe_updateInvite _ _ held clock)
  intro changed pending holds later ⟨fewer, relied₂, found⟩
  refine ⟨fewer, relied₁.trans relied₂, ?_⟩
  intro claim claimed
  obtain ⟨id, taken, rfl⟩ := Option.map_eq_some_iff.mp claimed
  obtain ⟨wrote, locks, invite, present, same, live⟩ := found id taken
  exact ⟨wrote, locks, relied₁.now, invite, present, same, live⟩

/-- **Redeeming**: the roles compared are those at the commit, by the dashboard's lock, and
the invite is claimed as it was read, by its own. -/
theorem safe_acceptInvite (caller code : Nat) (rows : Rows) :
    Safe (fun _ _ _ _ => True) (acceptInvite caller code) [] ∅ rows := by
  apply Ensures.query
  intro asked _ sound₀
  dsimp only [performAll_nil]
  split
  · trivial
  next invite found =>
    have issued : invite ∈ asked.tables.invites := List.mem_of_find?_eq_some found
    obtain ⟨named, -⟩ := redeemable_iff.mp (List.find?_some found)
    apply Ensures.acquire
    intro waited relied₁ _
    apply Ensures.query
    intro read relied₂ _
    split
    · trivial
    next owner owned =>
      obtain ⟨-, same⟩ := Option.ite_none_right_eq_some.mp owned
      cases same
      split
      · trivial
      next other =>
        apply Ensures.query
        intro listed relied₃ _
        split
        · trivial
        next lacks =>
          apply Ensures.bind _ (safe_consumeInvite code caller _ listed)
          intro taken pending holds claimed ⟨fewer, relied₄, consumed⟩
          split
          · trivial
          next id moment =>
            obtain ⟨rfl, locks, inOrder, row, present, sameId, live⟩ := consumed _ rfl
            apply Ensures.update
            intro written relied₅ _
            have holdsDashboard : Lock.dashboard ∈ insert Lock.dashboard (∅ : Set Lock) :=
              Set.mem_insert _ _
            let redemption : Redemption :=
              ⟨id, code, caller, invite.role, invite.createdBy, asked.now, moment⟩
            apply @safe_commit _ _ (.redeemed redemption) (.role invite.role.effective)
            · exact Set.insert_subset (fewer holdsDashboard) (Set.singleton_subset_iff.mpr locks)
            intro later relied₆ sound
            have since := relied₅.trans relied₆
            have shares : later.tables.shares = listed.tables.shares :=
              (since.shares (fewer holdsDashboard)).trans (relied₄.shares holdsDashboard)
            have opening : later.opening = asked.opening :=
              since.opening.trans (relied₄.opening.trans (relied₃.opening.trans
                (relied₂.opening.trans relied₁.opening)))
            have claims : row ∈ later.tables.invites := by
              apply since.invites row present
              rw [sameId]
              exact locks
            obtain ⟨sameCode, unused, unrevoked, unexpired⟩ := redeemable_iff.mp live
            have terms := sound₀.terms_eq sound opening issued claims (named.trans sameCode.symm)
            refine ⟨⟨row, claims, sameId, sameCode, ?_, unused, unrevoked, unexpired⟩, ?_, ?_, ?_⟩
            · exact (congrArg Terms.role terms).symm
            · have waiting := relied₁.now.trans (relied₂.now.trans relied₃.now)
              exact waiting.trans inOrder
            · intro held holdsRole
              rw [shares] at holdsRole
              have weaker := Option.filter_eq_none_iff.mp lacks held holdsRole
              simpa [isAtLeast] using weaker
            · intro mine
              have kept : later.owner = read.owner :=
                since.owner.trans (relied₄.owner.trans relied₃.owner)
              exact other (kept.symm.trans mine.symm)

/-- Revoking asks who manages the shares, then makes its one UPDATE. -/
theorem safe_dashboardForShareManagement (user : Nat) (rows : Rows) :
    Safe (fun _ pending held _ => pending = [] ∧ held = ∅) (dashboardForShareManagement user) []
      ∅ rows := by
  apply Ensures.query
  intro read _ _
  split
  · trivial
  apply Ensures.query
  intro listed _ _
  split
  · trivial
  split
  · exact ⟨rfl, rfl⟩
  · trivial

/-- `revoke_invite` holds the invite it revokes, neither used nor revoked before. -/
theorem safe_revokeInvite (id : Nat) (held : Set Lock) (rows : Rows) :
    Safe (fun revoked pending holds later => revoked = true →
        ∃ moment, pending = (Step.revoked id moment).writes ∧ .invite id ∈ holds ∧
          ∃ invite ∈ later.tables.invites, invite.id = id ∧ invite.usedAt = none ∧
            invite.revokedAt = none)
      (revokeInvite id) [] held rows := by
  apply Ensures.query
  intro clock _ _
  apply Ensures.bind _ (safe_updateInvite _ _ held clock)
  intro changed pending holds later ⟨_, _, found⟩ revoked
  obtain ⟨chosen, taken⟩ := Option.isSome_iff_exists.mp revoked
  obtain ⟨wrote, locks, invite, present, same, selected⟩ := found chosen taken
  simp only [Bool.and_eq_true, beq_iff_eq, Option.isNone_iff_eq_none] at selected
  obtain ⟨⟨named, unused⟩, unrevoked⟩ := selected
  obtain rfl : chosen = id := same.symm.trans named
  exact ⟨clock.now, wrote, locks, invite, present, named, unused, unrevoked⟩

theorem safe_deleteInvite (caller id : Nat) (rows : Rows) :
    Safe (fun _ _ _ _ => True) (deleteInvite caller id) [] ∅ rows := by
  apply Ensures.bind _ (safe_dashboardForShareManagement caller rows)
  rintro _ pending held managed ⟨rfl, rfl⟩
  apply Ensures.bind _ (safe_revokeInvite id ∅ managed)
  intro revoked pending holds updated found
  split
  next done =>
    obtain ⟨moment, rfl, locks, invite, present, same, unused, unrevoked⟩ := found done
    apply safe_commit .noContent (Set.singleton_subset_iff.mpr locks)
    intro later relied _
    rw [← same] at locks
    exact ⟨invite, relied.invites invite present locks, same, unused, unrevoked⟩
  · trivial

/-! ## Runs -/

theorem sound_of_initial {rows : Rows} (begins : rows.Initial) : Sound rows where
  tables := by
    rw [begins.history, Rows.after, begins.opening]
    rfl
  lawful := by
    rw [begins.history]
    trivial
  ids := by
    rw [begins.opening]
    exact begins.ids
  codes := by
    rw [begins.opening]
    exact begins.codes
  owner := by
    rw [begins.opening]
    exact begins.owner

theorem verified : Service.Verified service locked (fun _ _ => True) where
  initially := fun _ => sound_of_initial
  handlers := by
    intro process request rows _
    cases request with
    | acceptInvite caller code => exact safe_acceptInvite caller code rows
    | deleteInvite caller id => exact safe_deleteInvite caller id rows
  keeps := fun _ _ sound => { sound with }
  leaves := by
    intro rows span held
    refine { Relies.refl held rows with now := ?_ }
    exact Int.le_add_of_nonneg_right (Int.natCast_nonneg span)

/-- **Invites are single-use and never lower access**, in every interleaving. -/
theorem single_use {state : State Rows Write Lock Failure Answer}
    (reached : service.system.Reachable state) : SingleUse state.database := by
  have sound : Sound state.database := Service.invariant_of_reachable verified reached
  exact sound.singleUse

/-- Owner 0 has two codes for viewers and editors; user 1 views the dashboard. -/
def sharedDashboard : State Rows Write Lock Failure Answer where
  database :=
    { now := 0, owner := 0, deletedAt := none
      tables := ⟨[⟨0, 1, .viewer, 0⟩], 1,
        [⟨⟨7, .viewer, 0, 1000, none, none, none⟩, 0⟩,
          ⟨⟨8, .editor, 0, 1000, none, none, none⟩, 1⟩]⟩
      opening := ⟨[⟨0, 1, .viewer, 0⟩], 1,
        [⟨⟨7, .viewer, 0, 1000, none, none, none⟩, 0⟩,
          ⟨⟨8, .editor, 0, 1000, none, none, none⟩, 1⟩]⟩
      history := [] }
  holder := fun _ => none
  processes := fun _ => none

theorem sharedDashboard_initial : service.system.Initial sharedDashboard :=
  ⟨⟨by decide, by decide, by decide, rfl, rfl⟩, fun _ => rfl, fun _ => rfl⟩

/-- User 1 asks with both codes while user 2 asks with the second: one of them becomes an
editor, the viewers' code stays live, and it is revoked in the end. -/
theorem single_use_of_two_codes :
    ∃ state : State Rows Write Lock Failure Answer,
      (state.database.history.map Step.invite = [1, 0] ∧
        state.database.tables.shares = [⟨0, 1, .editor, 0⟩]) ∧ SingleUse state.database := by
  obtain ⟨state, reached, shape⟩ := TransitionSystem.exists_reachable_of_run
    sharedDashboard_initial
    (runs 0 (.acceptInvite 2 8) 1 ++ runs 1 (.acceptInvite 1 8) 12 ++
      runs 2 (.acceptInvite 1 7) 6 ++ List.replicate 6 (.advance 0) ++ runs 3 (.deleteInvite 0 0) 9)
    (fun state => decide (state.database.history.map Step.invite = [1, 0] ∧
      state.database.tables.shares = [⟨0, 1, .editor, 0⟩])) (by decide)
  exact ⟨state, of_decide_eq_true shape, single_use reached⟩

end FrontDashboard.Invites
