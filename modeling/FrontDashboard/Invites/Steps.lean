import FrontDashboard.Invites.Routes

/-! # Journals of redemptions and revocations

Where each step met its invite live, and each redemption its user with less than the
invite grants, every invite is settled at most once and a redemption only raises.
-/

namespace FrontDashboard.Invites

open Journal
open FrontDashboard.Membership (heldRole)

/-! ## The atomic steps -/

/-- What a redemption finds when it takes effect. -/
structure Redeems (owner : Nat) (tables : Tables) (redemption : Redemption) : Prop where
  live : ∃ invite ∈ tables.invites, invite.id = redemption.invite ∧
    invite.code = redemption.code ∧ invite.role = redemption.role ∧
      invite.usedAt = none ∧ invite.revokedAt = none ∧ redemption.moment < invite.expiresAt
  inOrder : redemption.asked ≤ redemption.moment
  raises : ∀ held ∈ heldRole redemption.user tables.shares,
    held.effective.rank < redemption.role.effective.rank
  another : redemption.user ≠ owner

/-- When a step may be taken. -/
def Permits (owner : Nat) (tables : Tables) : Step → Prop
  | .redeemed redemption => Redeems owner tables redemption
  | .revoked id _ => ∃ invite ∈ tables.invites, invite.id = id ∧
      invite.usedAt = none ∧ invite.revokedAt = none

/-- The tables after the first of the steps on record. -/
def Rows.after (rows : Rows) (steps : List Step) : Tables :=
  replay Tables.take rows.opening steps

/-- The invite is used or revoked. -/
def Closed (tables : Tables) (id : Nat) : Prop :=
  ∀ invite ∈ tables.invites, invite.id = id →
    invite.usedAt.isSome = true ∨ invite.revokedAt.isSome = true

theorem not_closed_of_permits {owner : Nat} {tables : Tables} {step : Step}
    (permitted : Permits owner tables step) : ¬ Closed tables step.invite := by
  intro closed
  cases step with
  | redeemed redemption =>
      obtain ⟨invite, present, same, -, -, unused, unrevoked, -⟩ := permitted.live
      have settled := closed invite present same
      simp [unused, unrevoked] at settled
  | revoked id moment =>
      obtain ⟨invite, present, same, unused, unrevoked⟩ := permitted
      have settled := closed invite present same
      simp [unused, unrevoked] at settled

theorem mem_invites_take {tables : Tables} {step : Step} {invite : DashboardInvite} :
    invite ∈ (tables.take step).invites ↔ ∃ before ∈ tables.invites,
      match step with
      | .redeemed redemption =>
          before.use redemption.invite redemption.user redemption.moment = invite
      | .revoked id moment => before.revoke id moment = invite := by
  cases step <;> simp [Tables.take, Tables.useInvite, Tables.revokeInvite]

/-- A step closes its own invite, and reopens none. -/
theorem closed_take {tables : Tables} {step : Step} {id : Nat}
    (settled : id = step.invite ∨ Closed tables id) : Closed (tables.take step) id := by
  intro invite present same
  obtain ⟨before, earlier, made⟩ := mem_invites_take.mp present
  cases step with
  | redeemed redemption =>
      dsimp only at made
      subst made
      unfold DashboardInvite.use at same ⊢
      split
      · exact .inl rfl
      · next other =>
          rw [if_neg other] at same
          exact (settled.resolve_left fun own => other (same.trans own)) before earlier same
  | revoked chosen moment =>
      dsimp only at made
      subst made
      unfold DashboardInvite.revoke at same ⊢
      split
      · exact .inr rfl
      · next other =>
          rw [if_neg other] at same
          exact (settled.resolve_left fun own => other (same.trans own)) before earlier same

/-- A step leaves the other invites as they were. -/
theorem mem_take_of_ne {tables : Tables} {step : Step} {invite : DashboardInvite}
    (present : invite ∈ tables.invites) (other : invite.id ≠ step.invite) :
    invite ∈ (tables.take step).invites := by
  refine mem_invites_take.mpr ⟨invite, present, ?_⟩
  cases step with
  | redeemed redemption => exact if_neg other
  | revoked id moment => exact if_neg other

/-! ## What holds of a lawful journal -/

/-- What one redemption changed, from the tables it met to those it left. -/
structure Raised (owner : Nat) (before after : Tables) (redemption : Redemption) : Prop
    extends Redeems owner before redemption where
  granted : heldRole redemption.user after.shares = some redemption.role
  others : ∀ user, user ≠ redemption.user →
    heldRole user after.shares = heldRole user before.shares

/-- **Invites are single-use and never lower access.** -/
structure SingleUse (rows : Rows) : Prop where
  tables : rows.tables = rows.after rows.history
  once : (rows.history.map Step.invite).Nodup
  code : ∀ first second, .redeemed first ∈ rows.history → .redeemed second ∈ rows.history →
    first.code = second.code → first.invite = second.invite
  redeemed : ∀ before redemption after, rows.history = before ++ .redeemed redemption :: after →
    Raised rows.owner (rows.after before) (rows.after (before ++ [.redeemed redemption])) redemption
  revoked : ∀ before id moment after, rows.history = before ++ .revoked id moment :: after →
    (rows.after (before ++ [.revoked id moment])).shares = (rows.after before).shares
  untouched : ∀ invite ∈ rows.opening.invites, invite.id ∉ rows.history.map Step.invite →
    invite ∈ rows.tables.invites
  owner : ∀ share ∈ rows.tables.shares, share.principal ≠ rows.owner

/-- The invariant. -/
structure Sound (rows : Rows) : Prop where
  tables : rows.tables = rows.after rows.history
  lawful : Lawful Tables.take (Permits rows.owner) rows.opening rows.history
  ids : (rows.opening.invites.map (·.id)).Nodup
  codes : (rows.opening.invites.map (·.code)).Nodup
  owner : ∀ share ∈ rows.opening.shares, share.principal ≠ rows.owner

/-- Every invite there is was issued before. -/
theorem terms_after (rows : Rows) (steps : List Step) :
    (rows.after steps).invites.map (·.terms) = rows.opening.invites.map (·.terms) := by
  unfold Rows.after
  induction steps generalizing rows with
  | nil => rfl
  | cons step rest ih =>
      rw [replay_cons]
      exact (ih { rows with opening := rows.opening.take step }).trans (terms_take _ _)

theorem exists_opening {rows : Rows} {steps : List Step} {invite : DashboardInvite}
    (present : invite ∈ (rows.after steps).invites) :
    ∃ first ∈ rows.opening.invites, first.terms = invite.terms := by
  have issued := List.mem_map_of_mem (f := DashboardInvite.terms) present
  rw [terms_after] at issued
  exact List.mem_map.mp issued

/-- A code names one invite, with one role. -/
theorem terms_eq_of_code {rows : Rows} (codes : (rows.opening.invites.map (·.code)).Nodup)
    {before after : List Step} {first second : DashboardInvite}
    (earlier : first ∈ (rows.after before).invites) (later : second ∈ (rows.after after).invites)
    (same : first.code = second.code) : first.terms = second.terms := by
  obtain ⟨origin, issued, sameTerms⟩ := exists_opening earlier
  obtain ⟨origin', issued', sameTerms'⟩ := exists_opening later
  have code : origin.code = origin'.code :=
    (congrArg Terms.code sameTerms).trans (same.trans (congrArg Terms.code sameTerms').symm)
  rw [← sameTerms, ← sameTerms', List.inj_on_of_nodup_map codes issued issued' code]

/-- It still does at a later moment. -/
theorem Sound.terms_eq {before after : Rows} (sound : Sound before) (later : Sound after)
    (opening : after.opening = before.opening) {first second : DashboardInvite}
    (present : first ∈ before.tables.invites) (present' : second ∈ after.tables.invites)
    (same : first.code = second.code) : first.terms = second.terms := by
  have replayed : after.after after.history = before.after after.history := by
    unfold Rows.after
    rw [opening]
  rw [sound.tables] at present
  rw [later.tables, replayed] at present'
  exact terms_eq_of_code sound.codes present present' same

theorem Sound.singleUse {rows : Rows} (sound : Sound rows) : SingleUse rows where
  tables := sound.tables
  once := sound.lawful.nodup Step.invite Closed (fun _ _ => not_closed_of_permits)
    (fun _ _ _ => closed_take (.inl rfl)) fun _ _ _ closed => closed_take (.inr closed)
  code := by
    intro first second here there same
    obtain ⟨before, after, split⟩ := List.append_of_mem here
    obtain ⟨before', after', split'⟩ := List.append_of_mem there
    have lawful := sound.lawful
    rw [split] at lawful
    have lawful' := sound.lawful
    rw [split'] at lawful'
    obtain ⟨invite, present, sameId, sameCode, -⟩ := lawful.permitted.live
    obtain ⟨invite', present', sameId', sameCode', -⟩ := lawful'.permitted.live
    have terms := terms_eq_of_code sound.codes present present'
      (sameCode.trans (same.trans sameCode'.symm))
    exact sameId.symm.trans ((congrArg Terms.id terms).trans sameId')
  redeemed := by
    intro before redemption after split
    have lawful := sound.lawful
    rw [split] at lawful
    refine ⟨lawful.permitted, ?_, ?_⟩
    · simp [Rows.after, Tables.take, heldRole_upsertShare]
    · intro user other
      simp [Rows.after, Tables.take, heldRole_upsertShare, other, Tables.useInvite]
  revoked := by
    intro before id moment after _
    simp [Rows.after, Tables.take, Tables.revokeInvite]
  untouched := by
    intro invite present idle
    rw [sound.tables]
    apply sound.lawful.preserves (p := fun tables => invite ∈ tables.invites) _ present
    intro tables step member _ here
    apply mem_take_of_ne here
    intro same
    exact idle (List.mem_map.mpr ⟨step, member, same.symm⟩)
  owner := by
    rw [sound.tables]
    apply sound.lawful.preserves
      (p := fun tables => ∀ share ∈ tables.shares, share.principal ≠ rows.owner) _ sound.owner
    intro tables step _ permitted without share present
    cases step with
    | redeemed redemption =>
        rcases principal_of_mem_upsertShare present with mine | ⟨earlier, there, same⟩
        · rw [mine]
          exact permitted.another
        · rw [← same]
          exact without earlier there
    | revoked id moment => exact without share present

end FrontDashboard.Invites
