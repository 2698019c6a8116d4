import Mathlib.Data.List.Nodup
import FrontDashboard.Membership.Routes

/-! # One owner, and nobody shut out

The dashboard has one owner, the owner holds no share row, and whoever has gained
access keeps it until removed or gone. This holds in every run in which a transfer
commits only while its caller still owns the dashboard and the new owner holds no
other share row than the one that goes with it. The transfer reads both without the
dashboard's row lock, which redeeming an invite takes.
-/

namespace FrontDashboard.Membership

open ReadCommitted

/-- What the membership of a dashboard should always be. -/
structure Orderly (rows : Rows) : Prop where
  oneOwner : ∃! user, effectiveRole rows.owner user rows.shares = some .owner
  ownerHoldsNoShare : ∀ share ∈ rows.shares, share.principal ≠ rows.owner
  keepsAccess : ∀ user ∈ rows.standing, (effectiveRole rows.owner user rows.shares).isSome = true

/-- A transfer is admitted while the caller owns the dashboard, or the new owner does
already, and the new owner holds no share row but the one that goes. -/
def AdmitsTransfer (rows : Rows) : Write → Prop
  | .setOwner user caller share => (rows.owner = caller ∨ rows.owner = user) ∧
      ∀ held ∈ rows.shares, held.principal = user → held.id = share
  | _ => True

def AdmitsTransfers (rows : Rows) (pending : List Write) : Prop :=
  ∀ write ∈ pending, AdmitsTransfer rows write

instance (rows : Rows) (write : Write) : Decidable (AdmitsTransfer rows write) := by
  unfold AdmitsTransfer
  split <;> infer_instance

instance (rows : Rows) (pending : List Write) : Decidable (AdmitsTransfers rows pending) :=
  inferInstanceAs (Decidable (∀ write ∈ pending, AdmitsTransfer rows write))

/-! ## The invariant -/

/-- What holds of the share rows beside their owner. -/
structure Granted (rows : Rows) : Prop where
  ids : (rows.shares.map (·.id)).Nodup
  fresh : ∀ share ∈ rows.shares, share.id < rows.nextShareId
  principals : (rows.shares.map (·.principal)).Nodup
  owner : ∀ share ∈ rows.shares, share.principal ≠ rows.owner

/-- The invariant. -/
structure Sound (rows : Rows) : Prop extends Granted rows where
  standing : ∀ user ∈ rows.standing, user ∈ members rows.owner rows.shares

/-- Sound rows are orderly. -/
theorem Sound.orderly {rows : Rows} (sound : Sound rows) : Orderly rows where
  oneOwner := by
    refine ⟨rows.owner, effectiveRole_eq_owner.mpr rfl, ?_⟩
    intro user owns
    exact (effectiveRole_eq_owner.mp owns).symm
  ownerHoldsNoShare := sound.owner
  keepsAccess := by
    intro user stands
    exact effectiveRole_isSome.mpr (sound.standing user stands)

/-- The rows begin sound. -/
theorem sound_of_initial {rows : Rows} (begins : rows.Initial) : Sound rows where
  ids := begins.ids
  fresh := begins.fresh
  principals := begins.principals
  owner := begins.owner
  standing := by
    intro user stands
    rw [begins.standing] at stands
    exact stands

/-- A share row under an old id is the row it was. -/
structure Kept (before after : Rows) : Prop where
  grows : before.nextShareId ≤ after.nextShareId
  known : ∀ share ∈ after.shares, share.id < before.nextShareId →
    ∃ earlier ∈ before.shares, earlier.id = share.id ∧ earlier.principal = share.principal

/-- Nothing has gone. -/
theorem Kept.refl (rows : Rows) : Kept rows rows :=
  ⟨Nat.le_refl _, fun share present _ => ⟨share, present, rfl, rfl⟩⟩

/-- What is kept twice is kept. -/
theorem Kept.trans {first second third : Rows} (earlier : Kept first second)
    (later : Kept second third) : Kept first third := by
  refine ⟨Nat.le_trans earlier.grows later.grows, ?_⟩
  intro share present old
  obtain ⟨middle, between, sameId, samePrincipal⟩ :=
    later.known share present (Nat.lt_of_lt_of_le old earlier.grows)
  have older : middle.id < first.nextShareId := by
    rw [sameId]
    exact old
  obtain ⟨origin, first, sameId', samePrincipal'⟩ := earlier.known middle between older
  exact ⟨origin, first, sameId'.trans sameId, samePrincipal'.trans samePrincipal⟩

/-- The dashboard's row lock guards the owner. -/
def interference : Interference Rows Lock where
  invariant := Sound
  rely := fun held before after =>
    Kept before after ∧ (.dashboard ∈ held → after.owner = before.owner)
  refl := fun _ rows => ⟨.refl rows, fun _ => rfl⟩
  trans := fun _ _ _ _ earlier later =>
    ⟨earlier.1.trans later.1, fun holds => (later.2 holds).trans (earlier.2 holds)⟩

/-- A share row once read: whatever is found under its id is its principal's. -/
structure Known (share : ResourceShare) (rows : Rows) : Prop where
  old : share.id < rows.nextShareId
  same : ∀ other ∈ rows.shares, other.id = share.id → other.principal = share.principal

/-- A share row that is there is known. -/
theorem Sound.known {rows : Rows} (sound : Sound rows) {share : ResourceShare}
    (present : share ∈ rows.shares) : Known share rows := by
  refine ⟨sound.fresh share present, ?_⟩
  intro other found same
  rw [List.inj_on_of_nodup_map sound.ids found present same]

/-- A share row that is known stays known. -/
theorem Known.kept {share : ResourceShare} {before after : Rows} (known : Known share before)
    (kept : Kept before after) : Known share after := by
  refine ⟨Nat.lt_of_lt_of_le known.old kept.grows, ?_⟩
  intro other found same
  have old : other.id < before.nextShareId := by
    rw [same]
    exact known.old
  obtain ⟨earlier, present, sameId, samePrincipal⟩ := kept.known other found old
  rw [← samePrincipal]
  exact known.same earlier present (sameId.trans same)

/-! ## Commits -/

/-- The same grants have the same ids. -/
theorem ids_of_grants {first second : List ResourceShare}
    (grants : first.map (fun share => (share.id, share.principal)) =
      second.map fun share => (share.id, share.principal)) :
    first.map (·.id) = second.map (·.id) := by
  have ids := congrArg (List.map Prod.fst) grants
  rw [List.map_map, List.map_map] at ids
  exact ids

theorem principals_of_grants {first second : List ResourceShare}
    (grants : first.map (fun share => (share.id, share.principal)) =
      second.map fun share => (share.id, share.principal)) :
    first.map (·.principal) = second.map (·.principal) := by
  have principals := congrArg (List.map Prod.snd) grants
  rw [List.map_map, List.map_map] at principals
  exact principals

theorem Granted.of_grants {rows changed : Rows} (granted : Granted rows)
    (grants : changed.shares.map (fun share => (share.id, share.principal)) =
      rows.shares.map fun share => (share.id, share.principal))
    (next : changed.nextShareId = rows.nextShareId) (owner : changed.owner = rows.owner) :
    Granted changed := by
  have ids := ids_of_grants grants
  have principals := principals_of_grants grants
  constructor
  · rw [ids]
    exact granted.ids
  · intro share present
    have named : share.id ∈ rows.shares.map (·.id) := by
      rw [← ids]
      exact List.mem_map_of_mem present
    obtain ⟨before, member, same⟩ := List.mem_map.mp named
    rw [next, ← same]
    exact granted.fresh before member
  · rw [principals]
    exact granted.principals
  · intro share present
    have named : share.principal ∈ rows.shares.map (·.principal) := by
      rw [← principals]
      exact List.mem_map_of_mem present
    obtain ⟨before, member, same⟩ := List.mem_map.mp named
    rw [owner, ← same]
    exact granted.owner before member

/-- Rows with the same grants, owner and standing are as sound. -/
theorem Sound.of_grants {rows changed : Rows} (sound : Sound rows)
    (grants : changed.shares.map (fun share => (share.id, share.principal)) =
      rows.shares.map fun share => (share.id, share.principal))
    (next : changed.nextShareId = rows.nextShareId) (owner : changed.owner = rows.owner)
    (standing : changed.standing = rows.standing) : Sound changed := by
  refine ⟨sound.toGranted.of_grants grants next owner, ?_⟩
  unfold members
  rw [standing, owner, principals_of_grants grants]
  exact sound.standing

theorem Kept.of_grants {rows changed : Rows}
    (grants : changed.shares.map (fun share => (share.id, share.principal)) =
      rows.shares.map fun share => (share.id, share.principal))
    (next : rows.nextShareId ≤ changed.nextShareId) : Kept rows changed := by
  refine ⟨next, ?_⟩
  intro share present _
  have granted : (share.id, share.principal) ∈
      rows.shares.map fun share => (share.id, share.principal) := by
    rw [← grants]
    exact List.mem_map_of_mem present
  obtain ⟨before, member, same⟩ := List.mem_map.mp granted
  exact ⟨before, member, congrArg Prod.fst same, congrArg Prod.snd same⟩

/-- Changing roles changes no grant. -/
theorem grants_map (shares : List ResourceShare) {chosen : ResourceShare → Prop}
    [DecidablePred chosen] (role : ShareRole) :
    (shares.map fun share => if chosen share then { share with role } else share).map
        (fun share => (share.id, share.principal)) =
      shares.map fun share => (share.id, share.principal) := by
  rw [List.map_map]
  refine List.map_congr_left fun share _ => ?_
  simp only [Function.comp_apply]
  split <;> rfl

/-- A new role keeps the rows sound. -/
theorem Sound.setShareRole {rows : Rows} (sound : Sound rows) (id : Nat) (role : ShareRole) :
    Sound (rows.perform (.setShareRole id role)) :=
  sound.of_grants (grants_map rows.shares role) rfl rfl rfl

theorem kept_setShareRole (rows : Rows) (id : Nat) (role : ShareRole) :
    Kept rows (rows.perform (.setShareRole id role)) :=
  .of_grants (grants_map rows.shares role) (Nat.le_refl _)

/-- A deletion keeps the other share rows. -/
theorem kept_deleteShare (rows : Rows) (id : Nat) (cause : Cause) :
    Kept rows (rows.perform (.deleteShare id cause)) := by
  refine ⟨Nat.le_refl _, ?_⟩
  intro share present _
  exact ⟨share, (List.mem_filter.mp present).1, rfl, rfl⟩

/-- A grant keeps all share rows. -/
theorem kept_upsert (rows : Rows) (principal : Nat) (role : ShareRole) (grantedBy : Nat) :
    Kept rows (rows.upsert principal role grantedBy) := by
  unfold Rows.upsert
  split
  · exact .of_grants (grants_map rows.shares role) (Nat.le_refl _)
  · refine ⟨Nat.le_succ _, ?_⟩
    intro share present old
    rcases List.mem_append.mp present with before | added
    · exact ⟨share, before, rfl, rfl⟩
    · rw [List.mem_singleton.mp added] at old
      exact absurd old (Nat.lt_irrefl _)

theorem kept_upsertShare (rows : Rows) (principal : Nat) (role : ShareRole) (grantedBy : Nat) :
    Kept rows (rows.perform (.upsertShare principal role grantedBy)) :=
  ⟨(kept_upsert rows principal role grantedBy).grows,
    (kept_upsert rows principal role grantedBy).known⟩

/-- The members are the owner and those with a share row. -/
theorem mem_members {owner user : Nat} {shares : List ResourceShare} :
    user ∈ members owner shares ↔ user = owner ∨ ∃ share ∈ shares, share.principal = user := by
  simp [members]

/-- The others are as well granted after a deletion. -/
theorem Granted.deleteShare {rows : Rows} (granted : Granted rows) (id : Nat) (cause : Cause) :
    Granted (rows.perform (.deleteShare id cause)) where
  ids := granted.ids.sublist ((List.filter_sublist).map _)
  fresh := fun share present => granted.fresh share (List.mem_filter.mp present).1
  principals := granted.principals.sublist ((List.filter_sublist).map _)
  owner := fun share present => granted.owner share (List.mem_filter.mp present).1

/-- A removal or a leave ends the standing of the row's principal. -/
theorem Sound.deleteShare {rows : Rows} (sound : Sound rows) (id : Nat) {cause : Cause}
    (ends : cause ≠ .transferred) : Sound (rows.perform (.deleteShare id cause)) := by
  refine ⟨sound.toGranted.deleteShare id cause, ?_⟩
  intro user stands
  have filtered : user ∈ rows.standing ∧
      ¬ ∃ share ∈ rows.shares, share.id = id ∧ share.principal = user := by
    cases cause with
    | transferred => exact absurd rfl ends
    | removed | left => simpa [Rows.perform, Rows.write, Cause.standing] using stands
  rcases mem_members.mp (sound.standing user filtered.1) with owns | ⟨share, present, same⟩
  · exact mem_members.mpr (.inl owns)
  · refine mem_members.mpr (.inr ⟨share, List.mem_filter.mpr ⟨present, ?_⟩, same⟩)
    have other : share.id ≠ id := fun gone => filtered.2 ⟨share, present, gone, same⟩
    simpa using other

/-- A grant makes its principal a member. -/
theorem mem_members_upsert (rows : Rows) (principal : Nat) (role : ShareRole) (grantedBy : Nat)
    {owner user : Nat} : user ∈ members owner (rows.upsert principal role grantedBy).shares ↔
      user = principal ∨ user ∈ members owner rows.shares := by
  unfold Rows.upsert members
  split
  next held =>
    rw [principals_of_grants (grants_map rows.shares role)]
    constructor
    · exact .inr
    · rintro (rfl | found)
      · exact List.mem_cons_of_mem _ held
      · exact found
  next absent =>
    simp only [List.map_append, List.map_cons, List.map_nil, List.mem_cons, List.mem_append,
      List.not_mem_nil, or_false]
    tauto

@[simp]
theorem upsert_owner (rows : Rows) (principal : Nat) (role : ShareRole) (grantedBy : Nat) :
    (rows.upsert principal role grantedBy).owner = rows.owner := by
  unfold Rows.upsert
  split <;> rfl

/-- A grant to someone else than the owner. -/
theorem Granted.upsertShare {rows : Rows} (granted : Granted rows) {principal : Nat}
    (role : ShareRole) (grantedBy : Nat) (other : principal ≠ rows.owner) :
    Granted (rows.perform (.upsertShare principal role grantedBy)) := by
  have after : Granted (rows.upsert principal role grantedBy) := by
    unfold Rows.upsert
    split
    next held => exact granted.of_grants (grants_map rows.shares role) rfl rfl
    next absent =>
      constructor
      · rw [List.map_append, List.nodup_append]
        refine ⟨granted.ids, List.nodup_singleton _, ?_⟩
        intro id present added new same
        obtain ⟨share, member, rfl⟩ := List.mem_map.mp present
        have older := granted.fresh share member
        rw [same, List.mem_singleton.mp new] at older
        exact Nat.lt_irrefl _ older
      · intro share present
        rcases List.mem_append.mp present with before | added
        · exact Nat.lt_succ_of_lt (granted.fresh share before)
        · rw [List.mem_singleton.mp added]
          exact Nat.lt_succ_self _
      · rw [List.map_append, List.nodup_append]
        refine ⟨granted.principals, List.nodup_singleton _, ?_⟩
        intro user present added new same
        rw [same, List.mem_singleton.mp new] at present
        exact absent present
      · intro share present
        rcases List.mem_append.mp present with before | added
        · exact granted.owner share before
        · rw [List.mem_singleton.mp added]
          exact other
  exact ⟨after.ids, after.fresh, after.principals, after.owner⟩

/-- A grant that is written makes its principal a member. -/
theorem mem_members_upsertShare (rows : Rows) (principal : Nat) (role : ShareRole)
    (grantedBy : Nat) {user : Nat} :
    user ∈ members (rows.perform (.upsertShare principal role grantedBy)).owner
        (rows.perform (.upsertShare principal role grantedBy)).shares ↔
      user = principal ∨ user ∈ members rows.owner rows.shares := by
  have same := upsert_owner rows principal role grantedBy
  change user ∈ members (rows.upsert principal role grantedBy).owner
    (rows.upsert principal role grantedBy).shares ↔ _
  rw [same, mem_members_upsert]

/-- A grant to another than the owner keeps the rows sound. -/
theorem Sound.upsertShare {rows : Rows} (sound : Sound rows) {principal : Nat}
    (role : ShareRole) (grantedBy : Nat) (other : principal ≠ rows.owner) :
    Sound (rows.perform (.upsertShare principal role grantedBy)) := by
  refine ⟨sound.toGranted.upsertShare role grantedBy other, ?_⟩
  intro user stands
  rw [mem_members_upsertShare]
  rcases List.mem_cons.mp stands with rfl | before
  · exact .inl rfl
  · exact .inr (sound.standing user before)

/-- **The transfer.** The owner's column moves, the new owner's grant goes, and the old
owner gets one. -/
theorem Sound.transfer {rows : Rows} (sound : Sound rows) {user caller share : Nat}
    (different : user ≠ caller)
    (admitted : AdmitsTransfer rows (.setOwner user caller share))
    (own : ∀ other ∈ rows.shares, other.id = share → other.principal = user) :
    Sound (((rows.perform (.setOwner user caller share)).perform
      (.deleteShare share .transferred)).perform (.upsertShare caller .editor user)) := by
  obtain ⟨owned, only⟩ := admitted
  have handed : Granted ((rows.perform (.setOwner user caller share)).perform
      (.deleteShare share .transferred)) := by
    refine ⟨sound.ids.sublist ((List.filter_sublist).map _),
      fun other present => sound.fresh other (List.mem_filter.mp present).1,
      sound.principals.sublist ((List.filter_sublist).map _), ?_⟩
    intro other present mine
    obtain ⟨member, kept⟩ := List.mem_filter.mp present
    have gone := only other member mine
    simp [gone] at kept
  refine ⟨handed.upsertShare .editor user different.symm, ?_⟩
  intro stander stands
  rw [mem_members_upsertShare]
  rcases List.mem_cons.mp stands with rfl | stands
  · exact .inl rfl
  rcases List.mem_cons.mp stands with rfl | before
  · exact .inr (mem_members.mpr (.inl rfl))
  rcases mem_members.mp (sound.standing stander before) with rfl | ⟨other, present, rfl⟩
  · rcases owned with handsOver | owns
    · exact .inl handsOver
    · exact .inr (mem_members.mpr (.inl owns))
  · by_cases gone : other.id = share
    · exact .inr (mem_members.mpr (.inl (own other present gone)))
    · refine .inr (mem_members.mpr (.inr ⟨other, List.mem_filter.mpr ⟨present, ?_⟩, rfl⟩))
      simpa using gone

/-! ## The statements of the routes -/

/-- The routes' code, started in a given transaction, keeps the invariant. -/
abbrev Safe {α : Type} (post : α → List Write → Set Lock → Rows → Prop) (program : Handler α)
    (pending : List Write) (held : Set Lock) (rows : Rows) : Prop :=
  Ensures Rows.perform interference AdmitsTransfers post program pending held rows

/-- A transaction that has only read. -/
def Reading (pending : List Write) (held : Set Lock) : Prop :=
  pending = [] ∧ held = ∅

/-- The access that is loaded has share rows that are known. -/
theorem safe_loadDashboardAccess (user : Nat) (rows : Rows) :
    Safe (fun access pending held later => Reading pending held ∧
      ∀ share ∈ access.shares, Known share later) (loadDashboardAccess user) [] ∅ rows := by
  refine Ensures.query fun read _ _ => ?_
  split
  next => trivial
  next owner _ =>
    refine Ensures.query fun listed _ sound => ?_
    dsimp only
    split
    next => trivial
    next role _ => exact ⟨⟨rfl, rfl⟩, fun share present => sound.known present⟩

/-- A commit keeps the invariant, the known rows and, unless it holds the dashboard's
lock, the owner. -/
theorem Safe.commit {pending : List Write} {held : Set Lock} {rows : Rows}
    (commits : ∀ later, interference.rely held rows later → Sound later →
      AdmitsTransfers later pending → Sound (performAll Rows.perform later pending) ∧
        Kept later (performAll Rows.perform later pending) ∧
          (.dashboard ∉ held → (performAll Rows.perform later pending).owner = later.owner)) :
    Safe (fun _ _ _ _ => True) Program.commitTransaction pending held rows := by
  refine Ensures.commitTransaction fun later relied sound admitted => ?_
  obtain ⟨after, kept, owner⟩ := commits later relied sound admitted
  refine ⟨after, fun others apart => ⟨kept, fun theirs => owner ?_⟩, trivial⟩
  exact Set.disjoint_right.mp apart theirs

/-- What `lock_live_user` leaves known is known still. -/
theorem safe_lockLiveUser (user : Nat) {share : ResourceShare} {rows : Rows}
    (known : Known share rows) :
    Safe (fun _ pending _ later => pending = [] ∧ Known share later) (lockLiveUser user) [] ∅
      rows := by
  refine Ensures.acquire fun asked relied₁ _ => ?_
  intro answered relied₂ _
  exact ⟨rfl, known.kept (relied₁.1.trans relied₂.1)⟩

/-- **A transfer** is safe. -/
theorem safe_transferDashboardOwnership (caller user : Nat) (rows : Rows) :
    Safe (fun _ _ _ _ => True) (transferDashboardOwnership caller user) [] ∅ rows := by
  refine Ensures.bind ?_ (safe_loadDashboardAccess caller rows)
  rintro access pending held read ⟨⟨rfl, rfl⟩, known⟩
  refine Ensures.check ?_
  split
  · trivial
  next different =>
    split
    next => trivial
    next share found =>
      have target : share.principal = user := by simpa using List.find?_some found
      have knows := known share (List.mem_of_find?_eq_some found)
      refine Ensures.bind ?_ (safe_lockLiveUser user knows)
      rintro live pending held answered ⟨rfl, knows⟩
      split
      · trivial
      intro waited relied₁ _ moved relied₂ _ cleared relied₃ _ dropped relied₄ _ granted relied₅ _
      refine Safe.commit fun later relied₆ sound admitted => ?_
      have kept := relied₁.1.trans (relied₂.1.trans (relied₃.1.trans (relied₄.1.trans
        (relied₅.1.trans relied₆.1))))
      have own := (knows.kept kept).same
      rw [target] at own
      simp only [List.nil_append, List.cons_append, performAll_cons, performAll_nil]
      refine ⟨?_, ?_, fun without => absurd ?_ without⟩
      · exact sound.transfer different (admitted _ List.mem_cons_self) own
      · have handed : Kept later (later.perform (.setOwner user caller share.id)) :=
          .of_grants rfl (Nat.le_refl _)
        exact (handed.trans (kept_deleteShare _ _ _)).trans (kept_upsertShare _ _ _ _)
      · simp

theorem safe_acceptInvite (caller code : Nat) (rows : Rows) :
    Safe (fun _ _ _ _ => True) (acceptInvite caller code) [] ∅ rows := by
  refine Ensures.query fun found _ _ => ?_
  split
  next => trivial
  next invite _ =>
    refine Ensures.acquire fun locked _ _ => Ensures.query fun read _ _ => ?_
    split
    next => trivial
    next owner owned =>
      obtain ⟨-, same⟩ := Option.ite_none_right_eq_some.mp owned
      cases same
      split
      · trivial
      next other =>
        refine Ensures.query fun listed relied₁ _ => ?_
        split
        · trivial
        refine Ensures.updateReturning fun taken relied₂ _ => ?_
        split
        · trivial
        next matched =>
          have matched : consumable code taken = true := by simpa using matched
          refine Ensures.update fun granted relied₃ _ =>
            Safe.commit fun later relied₄ sound _ => ?_
          have holds : Lock.dashboard ∈ insert Lock.dashboard (∅ : Set Lock) :=
            Set.mem_insert _ _
          have owner := (relied₄.2 holds).trans ((relied₃.2 holds).trans
            ((relied₂.2 holds).trans (relied₁.2 holds)))
          have another : caller ≠ later.owner := fun mine => other (owner.symm.trans mine.symm)
          simp only [List.nil_append, performAll_nil, matched, if_true, List.cons_append,
            performAll_cons]
          have used : Sound (later.perform (.useInvite code caller taken.now)) :=
            sound.of_grants rfl rfl rfl rfl
          have unchanged : Kept later (later.perform (.useInvite code caller taken.now)) :=
            .of_grants rfl (Nat.le_refl _)
          exact ⟨used.upsertShare _ _ another, unchanged.trans (kept_upsertShare _ _ _ _),
            fun _ => upsert_owner _ _ _ _⟩

theorem safe_updateDashboardShare (caller shareId : Nat) (role : ShareRole) (rows : Rows) :
    Safe (fun _ _ _ _ => True) (updateDashboardShare caller shareId role) [] ∅ rows := by
  refine Ensures.bind ?_ (safe_loadDashboardAccess caller rows)
  rintro access pending held read ⟨⟨rfl, rfl⟩, -⟩
  refine Ensures.check ?_
  refine Ensures.query fun found _ _ => ?_
  split
  next => trivial
  next share _ =>
    split
    · trivial
    refine Ensures.acquire fun locked _ _ => Ensures.updateReturning fun changed _ _ => ?_
    split
    · trivial
    refine Safe.commit fun later _ sound _ => ?_
    exact ⟨sound.setShareRole shareId role, kept_setShareRole later shareId role, fun _ => rfl⟩

/-- Deleting a member's share row, whoever's it is by now, and committing. -/
theorem safe_deleteShare (id : Nat) (cause : Cause) (ends : cause ≠ .transferred) (rows : Rows) :
    Safe (fun _ _ _ _ => True) (do deleteShare id cause; Program.commitTransaction) [] ∅ rows := by
  intro locked _ _ deleted _ _
  refine Safe.commit fun later _ sound _ => ?_
  exact ⟨sound.deleteShare id ends, kept_deleteShare later id cause, fun _ => rfl⟩

theorem safe_deleteDashboardShare (caller shareId : Nat) (rows : Rows) :
    Safe (fun _ _ _ _ => True) (deleteDashboardShare caller shareId) [] ∅ rows := by
  refine Ensures.bind ?_ (safe_loadDashboardAccess caller rows)
  rintro access pending held read ⟨⟨rfl, rfl⟩, -⟩
  refine Ensures.check ?_
  refine Ensures.query fun found _ _ => ?_
  split
  next => trivial
  next => exact safe_deleteShare shareId .removed nofun found

/-- A member who leaves does so safely, whatever the share row is by then. -/
theorem safe_leaveDashboard (caller : Nat) (rows : Rows) :
    Safe (fun _ _ _ _ => True) (leaveDashboard caller) [] ∅ rows := by
  refine Ensures.bind ?_ (safe_loadDashboardAccess caller rows)
  rintro access pending held read ⟨⟨rfl, rfl⟩, -⟩
  split
  · trivial
  · split
    next => trivial
    next share _ => exact safe_deleteShare share.id .left nofun read

/-! ## Content -/

/-- Writes of content, which no statement about the membership reads. -/
def Write.ofContent : Write → Bool
  | .setItem _ _ _ | .deleteItem _ | .sendFrame _ _ => true
  | _ => false

/-- Writes of content leave owner and share rows. -/
theorem Sound.ofContent {pending : List Write} {rows : Rows} (sound : Sound rows)
    (content : ∀ write ∈ pending, write.ofContent = true) :
    Sound (performAll Rows.perform rows pending) ∧
      Kept rows (performAll Rows.perform rows pending) ∧
        (performAll Rows.perform rows pending).owner = rows.owner := by
  induction pending generalizing rows with
  | nil => exact ⟨sound, .refl rows, rfl⟩
  | cons write rest ih =>
      have one : (rows.perform write).shares = rows.shares ∧
          (rows.perform write).nextShareId = rows.nextShareId ∧
            (rows.perform write).owner = rows.owner ∧
              (rows.perform write).standing = rows.standing := by
        have mine := content write List.mem_cons_self
        cases write with
        | setItem | deleteItem | sendFrame => exact ⟨rfl, rfl, rfl, rfl⟩
        | _ => cases mine
      obtain ⟨shares, next, owner, standing⟩ := one
      have grants : (rows.perform write).shares.map (fun share => (share.id, share.principal)) =
          rows.shares.map fun share => (share.id, share.principal) := by
        rw [shares]
      obtain ⟨after, kept, same⟩ := ih (sound.of_grants grants next owner standing)
        fun other member => content other (List.mem_cons_of_mem _ member)
      exact ⟨after, (Kept.of_grants grants (Nat.le_of_eq next.symm)).trans kept, same.trans owner⟩

/-- A commit of writes of content is safe. -/
theorem safe_commitContent {pending : List Write} {held : Set Lock} {rows : Rows}
    (content : ∀ write ∈ pending, write.ofContent = true) :
    Safe (fun _ _ _ _ => True) Program.commitTransaction pending held rows := by
  refine Safe.commit fun later _ sound _ => ?_
  obtain ⟨after, kept, owner⟩ := sound.ofContent content
  exact ⟨after, kept, fun _ => owner⟩

/-- Finding a list writes nothing. -/
theorem safe_getListAccess (listId caller : Nat) (rows : Rows) :
    Safe (fun _ pending held _ => Reading pending held)
      (getListAccess listId caller) [] ∅ rows := by
  refine Ensures.query fun found _ _ => ?_
  split
  next => trivial
  next list _ =>
    refine Ensures.bind ?_ (safe_loadDashboardAccess caller found)
    rintro access pending held later ⟨reading, -⟩
    exact reading

/-- An item is changed safely. -/
theorem safe_updateItem (caller listId itemId : Nat) (fields : List ItemField) (rows : Rows) :
    Safe (fun _ _ _ _ => True) (updateItem caller listId itemId fields) [] ∅ rows := by
  refine Ensures.bind ?_ (safe_getListAccess listId caller rows)
  rintro ⟨list, access⟩ pending held read ⟨rfl, rfl⟩
  refine Ensures.query fun found _ _ => ?_
  split
  next => trivial
  next item _ =>
    refine Ensures.check ?_
    refine Ensures.updateReturning fun changed _ _ => ?_
    split
    · trivial
    intro sent _ _
    apply safe_commitContent
    intro write member
    simp only [List.nil_append, List.mem_append, List.mem_singleton] at member
    rcases member with changes | rfl
    · split at changes
      · cases changes
      · rw [List.mem_singleton.mp changes]
        rfl
    · rfl

/-- An item is deleted safely. -/
theorem safe_deleteItem (caller listId itemId : Nat) (rows : Rows) :
    Safe (fun _ _ _ _ => True) (deleteItem caller listId itemId) [] ∅ rows := by
  refine Ensures.bind ?_ (safe_getListAccess listId caller rows)
  rintro ⟨list, access⟩ pending held read ⟨rfl, rfl⟩
  refine Ensures.check ?_
  refine Ensures.query fun found _ _ => ?_
  split
  next => trivial
  next item _ =>
    intro deleted _ _ sent _ _
    apply safe_commitContent
    intro write member
    simp only [List.nil_append, List.mem_append, List.mem_singleton] at member
    rcases member with rfl | rfl <;> rfl

/-! ## Runs -/

/-- Every route keeps the invariant, whatever runs beside it. -/
theorem verified : Service.Verified service interference AdmitsTransfers where
  initially := fun _ => sound_of_initial
  handlers := by
    intro process request rows _
    cases request with
    | transferDashboardOwnership caller user =>
        exact safe_transferDashboardOwnership caller user rows
    | acceptInvite caller code => exact safe_acceptInvite caller code rows
    | updateDashboardShare caller share role =>
        exact safe_updateDashboardShare caller share role rows
    | deleteDashboardShare caller share => exact safe_deleteDashboardShare caller share rows
    | leaveDashboard caller => exact safe_leaveDashboard caller rows
    | updateItem caller list item fields => exact safe_updateItem caller list item fields rows
    | deleteItem caller list item => exact safe_deleteItem caller list item rows
  keeps := fun _ _ sound => sound.of_grants rfl rfl rfl rfl
  leaves := fun rows _ _ => ⟨.of_grants rfl (Nat.le_refl rows.nextShareId), fun _ => rfl⟩

/-- The membership of the first dashboard, of which user 0 is the owner and users 1 and 2
are members; user 3 has a link. -/
def sharedDashboard : State Rows Write Lock Failure Unit where
  database :=
    { now := 0, owner := 0, deletedAt := none,
      shares := [⟨0, 1, .editor, 0⟩, ⟨1, 2, .viewer, 0⟩], nextShareId := 2,
      invites := [⟨9, .viewer, 0, 1000, none, none, none⟩], tombstones := [],
      lists := [⟨5, "Groceries"⟩],
      items := [⟨6, 5, "Milk", false, none, none, none, none, 0⟩],
      standing := [0, 1, 2], frames := [], transfers := 0, turns := [] }
  holder := fun _ => none
  processes := fun _ => none

theorem sharedDashboard_initial : service.system.Initial sharedDashboard :=
  ⟨⟨by decide, by decide, by decide, by decide, rfl, rfl⟩, fun _ => rfl, fun _ => rfl⟩

/-- The owner hands the dashboard to user 1 and, from another tab, to user 2: user 1
owned it in between and is shut out. -/
theorem second_transfer_shuts_owner_out :
    ¬ ∀ state, service.system.Reachable state → Orderly state.database := by
  intro orderly
  obtain ⟨state, reached, bad⟩ := TransitionSystem.exists_reachable_of_run sharedDashboard_initial
    (runs 0 (.transferDashboardOwnership 0 2) 4 ++ runs 1 (.transferDashboardOwnership 0 1) 10 ++
      List.replicate 6 (.advance 0))
    (fun state => state.database.standing.any fun user =>
      !(effectiveRole state.database.owner user state.database.shares).isSome) (by decide)
  obtain ⟨user, stands, shutOut⟩ := List.any_eq_true.mp bad
  rw [(orderly state reached).keepsAccess user stands] at shutOut
  cases shutOut

/-- **One owner, and nobody shut out**, in every run whose transfers are admitted. -/
theorem orderly_of_admitted {state : State Rows Write Lock Failure Unit}
    (reached : service.system.ReachedWithin (Service.CommitsWithin AdmitsTransfers) state) :
    Orderly state.database :=
  (Service.invariant_of_ensures verified reached).orderly

/-- A transfer and a redeemed link, statement by statement beside each other. -/
theorem orderly_after_transfer :
    ∃ state : State Rows Write Lock Failure Unit,
      (state.database.owner = 2 ∧ state.database.shares.map (·.principal) = [1, 3, 0]) ∧
        Orderly state.database := by
  obtain ⟨state, reached, shape⟩ := TransitionSystem.exists_reachedWithin_of_run
    (Service.CommitsWithin AdmitsTransfers) sharedDashboard_initial
    (runs 0 (.transferDashboardOwnership 0 2) 4 ++ runs 1 (.acceptInvite 3 9) 8 ++
      List.replicate 6 (.advance 0))
    (fun state => decide (state.database.owner = 2 ∧
      state.database.shares.map (·.principal) = [1, 3, 0])) (by decide)
  exact ⟨state, of_decide_eq_true shape, orderly_of_admitted reached⟩

end FrontDashboard.Membership
