import FrontDashboard.Membership.OneOwner

/-! # Who a content frame is addressed to

The audience of a content frame is computed from the dashboard and share rows read
when the request began. It is who has access when the write commits as long as no
transfer commits between these two reads, and no other request begins or ends
anybody's access between the second one and the commit.
-/

namespace FrontDashboard.Membership

open ReadCommitted

/-- Every content frame was addressed to those who had access when its write committed,
and to nobody else. -/
def Addressed (rows : Rows) : Prop :=
  ∀ sent ∈ rows.frames, ∀ user, user ∈ sent.frame.audience ↔ user ∈ sent.entitled

/-- The users whose access began or ended after so many turns each came back to what they
had. -/
def ComeBack (turns : Nat) (rows : Rows) : Prop :=
  ∀ user ∈ rows.turns.drop turns, (rows.turns.drop turns).count user % 2 = 0

/-- A content write is admitted when no transfer was committed between the reads of the
dashboard and of its shares, and since then nobody's access has begun or ended, unless it
has changed back. -/
def AdmitsFrame (rows : Rows) : Write → Prop
  | .sendFrame _ access =>
      access.transfersThen = access.transfersBefore ∧ ComeBack access.turnsThen rows
  | _ => True

def AdmitsFrames (rows : Rows) (pending : List Write) : Prop :=
  ∀ write ∈ pending, AdmitsFrame rows write

instance (turns : Nat) (rows : Rows) : Decidable (ComeBack turns rows) :=
  inferInstanceAs (Decidable (∀ user ∈ rows.turns.drop turns, _))

instance (rows : Rows) (write : Write) : Decidable (AdmitsFrame rows write) := by
  unfold AdmitsFrame
  split <;> infer_instance

instance (rows : Rows) (pending : List Write) : Decidable (AdmitsFrames rows pending) :=
  inferInstanceAs (Decidable (∀ write ∈ pending, AdmitsFrame rows write))

/-! ## What others do -/

/-- The user has access. -/
def Rows.Entitles (rows : Rows) (user : Nat) : Prop := user ∈ members rows.owner rows.shares

/-- Users take turns: whoever took an even number of them has access as before. The owner
changes with transfers only. -/
structure Follows (before after : Rows) : Prop where
  turned : ∃ turns, after.turns = before.turns ++ turns ∧
    ∀ user, (after.Entitles user ↔ before.Entitles user) ↔ turns.count user % 2 = 0
  transfers : before.transfers ≤ after.transfers
  owner : after.transfers = before.transfers → after.owner = before.owner

/-- Nothing has changed. -/
theorem Follows.refl (rows : Rows) : Follows rows rows where
  turned := ⟨[], (List.append_nil _).symm, fun user => by simp⟩
  transfers := Nat.le_refl _
  owner := fun _ => rfl

/-- Two changes of an access, each told by parity, are told by the parity of both. -/
theorem parity_trans {first second third : Prop} {earlier later : Nat}
    (before : (second ↔ first) ↔ earlier % 2 = 0) (after : (third ↔ second) ↔ later % 2 = 0) :
    (third ↔ first) ↔ (earlier + later) % 2 = 0 := by
  have even : (earlier + later) % 2 = 0 ↔ (earlier % 2 = 0 ↔ later % 2 = 0) := by omega
  rw [even, ← before, ← after]
  tauto

/-- Rows follow over two stretches. -/
theorem Follows.trans {first second third : Rows} (earlier : Follows first second)
    (later : Follows second third) : Follows first third where
  turned := by
    obtain ⟨some, logged, kept⟩ := earlier.turned
    obtain ⟨more, further, still⟩ := later.turned
    refine ⟨some ++ more, ?_, fun user => ?_⟩
    · rw [further, logged, List.append_assoc]
    · rw [List.count_append]
      exact parity_trans (kept user) (still user)
  transfers := earlier.transfers.trans later.transfers
  owner := by
    intro same
    have between := earlier.transfers
    have after := later.transfers
    rw [later.owner (by omega), earlier.owner (by omega)]

/-- Rows after a write follow those before. -/
theorem follows_perform (rows : Rows) (write : Write) : Follows rows (rows.perform write) where
  turned := by
    refine ⟨turned rows (rows.write write), rfl, fun user => ?_⟩
    change (user ∈ members (rows.write write).owner (rows.write write).shares ↔
      user ∈ members rows.owner rows.shares) ↔ _
    unfold turned
    rw [List.Nodup.count ((List.nodup_dedup _).filter _)]
    simp only [List.mem_filter, List.mem_dedup, List.mem_append, bne_iff_ne, ne_eq,
      decide_eq_decide]
    split <;> tauto
  transfers := by
    cases write with
    | setOwner => exact Nat.le_succ _
    | upsertShare principal role grantedBy =>
        simp only [Rows.perform, Rows.write, Rows.upsert]
        split <;> exact Nat.le_refl _
    | _ => exact Nat.le_refl _
  owner := by
    intro same
    cases write with
    | setOwner => exact absurd same (Nat.succ_ne_self _)
    | upsertShare principal role grantedBy => exact upsert_owner rows principal role grantedBy
    | _ => rfl

theorem follows_performAll (rows : Rows) (pending : List Write) :
    Follows rows (performAll Rows.perform rows pending) := by
  induction pending generalizing rows with
  | nil => exact .refl rows
  | cons write rest ih => exact (follows_perform rows write).trans (ih _)

/-- Any request may do anything to the rows beside another, and it is on record. -/
def freely : Interference Rows Lock where
  invariant := Addressed
  rely := fun _ => Follows
  refl := fun _ => Follows.refl
  trans := fun _ _ _ _ => Follows.trans

/-- A write that sends no frame. -/
def Silent (write : Write) : Prop :=
  ∀ frame access, write ≠ .sendFrame frame access

/-- Silent writes send no frame. -/
theorem Addressed.silent {pending : List Write} {rows : Rows} (addressed : Addressed rows)
    (silent : ∀ write ∈ pending, Silent write) :
    Addressed (performAll Rows.perform rows pending) := by
  have frames : (performAll Rows.perform rows pending).frames = rows.frames := by
    induction pending generalizing rows with
    | nil => rfl
    | cons write rest ih =>
        have mine := silent write List.mem_cons_self
        have one : (rows.perform write).frames = rows.frames := by
          cases write with
          | sendFrame frame access => exact absurd rfl (mine frame access)
          | upsertShare principal role grantedBy =>
              change (rows.upsert principal role grantedBy).frames = rows.frames
              unfold Rows.upsert
              split <;> rfl
          | _ => rfl
        have addressed' : Addressed (rows.perform write) := by
          unfold Addressed
          rw [one]
          exact addressed
        exact (ih addressed' fun other member =>
          silent other (List.mem_cons_of_mem _ member)).trans one
  unfold Addressed
  rw [frames]
  exact addressed

/-! ## A content write -/

/-- What an access says of the users who have access now: those it names, but for whoever
took an odd number of turns since. -/
def Access.Tells (access : Access) (rows : Rows) : Prop :=
  access.transfersThen = access.transfersBefore → access.turnsThen ≤ rows.turns.length ∧
    ∀ user, (rows.Entitles user ↔ user ∈ dashboardAudienceUserIds access.owner access.shares) ↔
      (rows.turns.drop access.turnsThen).count user % 2 = 0

/-- What was read of the access tells of it later too. -/
theorem Access.Tells.later {access : Access} {before after : Rows} (tells : access.Tells before)
    (follows : Follows before after) : access.Tells after := by
  intro unmoved
  obtain ⟨known, told⟩ := tells unmoved
  obtain ⟨turns, logged, kept⟩ := follows.turned
  rw [logged, List.length_append]
  refine ⟨by omega, fun user => ?_⟩
  rw [List.drop_append_of_le_length known, List.count_append]
  exact parity_trans (told user) (kept user)

/-- **What is read tells who has access**, if no transfer came between the reads. -/
theorem tells_of_read {before rows : Rows} (follows : Follows before rows) (role : EffectiveRole) :
    Access.Tells ⟨before.owner, rows.shares, role, before.transfers, rows.transfers,
      rows.turns.length⟩ rows := by
  intro unmoved
  refine ⟨Nat.le_refl _, fun user => ?_⟩
  rw [List.drop_length, List.count_nil]
  change (user ∈ members rows.owner rows.shares ↔ user ∈ members before.owner rows.shares) ↔ _
  rw [follows.owner unmoved]
  simp

/-- A change of the content, then the frame that announces it. -/
structure Composed (access : Access) (pending : List Write) : Prop where
  content : ∀ write ∈ pending, write.ofContent = true
  frames : ∀ frame read, .sendFrame frame read ∈ pending → read = access ∧
    frame.audience = dashboardAudienceUserIds access.owner access.shares

/-- A write of content leaves owner and share rows. -/
theorem ofContent_perform {write : Write} (content : write.ofContent = true) (rows : Rows) :
    (rows.perform write).owner = rows.owner ∧ (rows.perform write).shares = rows.shares := by
  cases write with
  | setItem | deleteItem | sendFrame => exact ⟨rfl, rfl⟩
  | _ => cases content

/-- **A content commit** that is admitted addresses those who have access. -/
theorem Addressed.composed {access : Access} {pending : List Write} {rows : Rows}
    (addressed : Addressed rows) (composed : Composed access pending)
    (entitled : ∀ frame, .sendFrame frame access ∈ pending → ∀ user,
      user ∈ dashboardAudienceUserIds access.owner access.shares ↔ rows.Entitles user) :
    Addressed (performAll Rows.perform rows pending) := by
  induction pending generalizing rows with
  | nil => exact addressed
  | cons write rest ih =>
      obtain ⟨owner, shares⟩ := ofContent_perform (composed.content write List.mem_cons_self) rows
      refine @ih (rows.perform write) ?_ ⟨?_, ?_⟩ ?_
      · cases write with
        | sendFrame frame read =>
            obtain ⟨rfl, audience⟩ := composed.frames frame read List.mem_cons_self
            intro sent present user
            rcases List.mem_append.mp present with before | added
            · exact addressed sent before user
            · rw [List.mem_singleton.mp added, audience]
              exact entitled frame List.mem_cons_self user
        | setItem | deleteItem => exact addressed
        | _ => cases composed.content _ List.mem_cons_self
      · exact fun other member => composed.content other (List.mem_cons_of_mem _ member)
      · exact fun frame read member => composed.frames frame read (List.mem_cons_of_mem _ member)
      · intro frame member user
        unfold Rows.Entitles
        rw [owner, shares]
        exact entitled frame (List.mem_cons_of_mem _ member) user

/-! ## The routes -/

section Routes

variable {allowed : Write → Prop}

/-- A query writes nothing. -/
theorem writes_query {α : Type} (read : Rows → α) :
    (Program.query read : Handler α).Writes allowed :=
  fun _ => trivial

/-- An update writes what its statement says. -/
theorem writes_update {statement : Rows → List Write}
    (allows : ∀ rows, ∀ write ∈ statement rows, allowed write) :
    (Program.update statement : Handler Unit).Writes allowed :=
  fun rows => ⟨allows rows, trivial⟩

theorem writes_one {write : Write} (allows : allowed write) :
    (Program.update (fun _ => [write]) : Handler Unit).Writes allowed := by
  apply writes_update
  intro rows other member
  rw [List.mem_singleton.mp member]
  exact allows

theorem writes_updateReturning {α : Type} {statement : Rows → List Write} {read : Rows → α}
    (allows : ∀ rows, ∀ write ∈ statement rows, allowed write) :
    (Program.updateReturning statement read : Handler α).Writes allowed :=
  fun rows => ⟨allows rows, trivial⟩

/-- Loading the access writes nothing. -/
theorem writes_loadDashboardAccess (user : Nat) : (loadDashboardAccess user).Writes allowed := by
  apply Program.Writes.bind (writes_query _)
  intro found
  cases found with
  | none => trivial
  | some owner =>
      apply Program.Writes.bind (writes_query _)
      rintro ⟨shares, ownerThen⟩
      dsimp only
      split <;> trivial

/-- The check of the role writes nothing. -/
theorem writes_assertCanManageShares (role : EffectiveRole) :
    (assertCanManageShares role).Writes allowed := by
  unfold assertCanManageShares
  split <;> trivial

/-- Locking an account writes nothing. -/
theorem writes_lockLiveUser (user : Nat) : (lockLiveUser user).Writes allowed := by
  apply Program.Writes.bind (by trivial)
  exact fun _ => writes_query _

end Routes

/-- None of these requests sends a frame here. -/
theorem writes_deleteShare (id : Nat) (cause : Cause) : (deleteShare id cause).Writes Silent := by
  apply Program.Writes.bind (by trivial)
  exact fun _ => writes_one nofun

theorem writes_transferDashboardOwnership (caller user : Nat) :
    (transferDashboardOwnership caller user).Writes Silent := by
  apply Program.Writes.bind (writes_loadDashboardAccess _)
  intro access
  apply Program.Writes.bind (writes_assertCanManageShares _)
  intro _
  split
  · trivial
  · split
    · trivial
    next share _ =>
      apply Program.Writes.bind (writes_lockLiveUser _)
      intro live
      split
      · trivial
      · apply Program.Writes.bind (by trivial)
        intro _
        apply Program.Writes.bind (writes_one nofun)
        intro _
        apply Program.Writes.bind (writes_deleteShare _ _)
        intro _
        apply Program.Writes.bind (writes_one nofun)
        exact fun _ => trivial

theorem writes_acceptInvite (caller code : Nat) : (acceptInvite caller code).Writes Silent := by
  apply Program.Writes.bind (writes_query _)
  intro found
  cases found with
  | none => trivial
  | some invite =>
      apply Program.Writes.bind (by trivial)
      intro _
      apply Program.Writes.bind (writes_query _)
      intro read
      cases read with
      | none => trivial
      | some owner =>
          dsimp only
          split
          · trivial
          · apply Program.Writes.bind (writes_query _)
            intro held
            split
            · trivial
            · apply Program.Writes.bind
              · apply writes_updateReturning
                intro rows write member
                split at member
                · rw [List.mem_singleton.mp member]
                  nofun
                · cases member
              · intro taken
                split
                · trivial
                · apply Program.Writes.bind (writes_one nofun)
                  exact fun _ => trivial

theorem writes_updateDashboardShare (caller shareId : Nat) (role : ShareRole) :
    (updateDashboardShare caller shareId role).Writes Silent := by
  apply Program.Writes.bind (writes_loadDashboardAccess _)
  intro access
  apply Program.Writes.bind (writes_assertCanManageShares _)
  intro _
  apply Program.Writes.bind (writes_query _)
  intro found
  cases found with
  | none => trivial
  | some share =>
      dsimp only
      split
      · trivial
      · apply Program.Writes.bind (by trivial)
        intro _
        apply Program.Writes.bind
        · apply writes_updateReturning
          intro rows write member
          rw [List.mem_singleton.mp member]
          nofun
        · intro matched
          split <;> trivial

theorem writes_deleteDashboardShare (caller shareId : Nat) :
    (deleteDashboardShare caller shareId).Writes Silent := by
  apply Program.Writes.bind (writes_loadDashboardAccess _)
  intro access
  apply Program.Writes.bind (writes_assertCanManageShares _)
  intro _
  apply Program.Writes.bind (writes_query _)
  intro found
  cases found with
  | none => trivial
  | some share =>
      apply Program.Writes.bind (writes_deleteShare _ _)
      exact fun _ => trivial

theorem writes_leaveDashboard (caller : Nat) : (leaveDashboard caller).Writes Silent := by
  apply Program.Writes.bind (writes_loadDashboardAccess _)
  intro access
  split
  · trivial
  · split
    · trivial
    · apply Program.Writes.bind (writes_deleteShare _ _)
      exact fun _ => trivial

/-- The routes' code, started in a given transaction, addresses its frames. -/
abbrev Fair {α : Type} (post : α → List Write → Set Lock → Rows → Prop) (program : Handler α)
    (pending : List Write) (held : Set Lock) (rows : Rows) : Prop :=
  Ensures Rows.perform freely AdmitsFrames post program pending held rows

/-- The access that is loaded tells who is entitled. -/
theorem fair_loadDashboardAccess (user : Nat) (rows : Rows) :
    Fair (fun access pending held later => Reading pending held ∧ access.Tells later)
      (loadDashboardAccess user) [] ∅ rows := by
  refine Ensures.query fun found _ _ => ?_
  split
  next => trivial
  next owner transfers live =>
    obtain ⟨-, same⟩ := Option.ite_none_right_eq_some.mp live
    cases same
    refine Ensures.query fun listed follows _ => ?_
    dsimp only
    split
    next => trivial
    next role _ => exact ⟨⟨rfl, rfl⟩, tells_of_read follows role⟩

/-- The access that is loaded with a list tells who is entitled. -/
theorem fair_getListAccess (listId caller : Nat) (rows : Rows) :
    Fair (fun found pending held later => Reading pending held ∧ found.2.Tells later)
      (getListAccess listId caller) [] ∅ rows := by
  refine Ensures.query fun found _ _ => ?_
  split
  next => trivial
  next list _ =>
    refine Ensures.bind ?_ (fair_loadDashboardAccess caller found)
    rintro access pending held later kept
    exact kept

/-- **The frame of `dashboard_fanout`**, with what was changed before it. -/
theorem fair_commitAndBroadcast (eventType : String) (list : ListRow) (itemId : Nat)
    (fields : List ItemField) {access : Access} {pending : List Write} {held : Set Lock}
    {rows : Rows} (changes : ∀ write ∈ pending, write.ofContent = true ∧ Silent write)
    (tells : access.Tells rows) :
    Fair (fun _ _ _ _ => True) (commitAndBroadcast eventType list itemId fields access)
      pending held rows := by
  refine Ensures.update fun sent toSent _ =>
    Ensures.commitTransaction fun later toLater addressed admitted => ?_
  refine ⟨?_, fun _ _ => follows_performAll _ _, trivial⟩
  refine @Addressed.composed access _ _ addressed ⟨?_, ?_⟩ ?_
  · intro write member
    rcases List.mem_append.mp member with before | added
    · exact (changes write before).1
    · rw [List.mem_singleton.mp added]
      rfl
  · intro frame read member
    rcases List.mem_append.mp member with before | added
    · exact absurd rfl ((changes _ before).2 frame read)
    · cases List.mem_singleton.mp added
      exact ⟨rfl, rfl⟩
  · intro frame member user
    obtain ⟨unmoved, back⟩ := admitted _ member
    have told := ((tells.later toSent).later toLater unmoved).2 user
    have even : (later.turns.drop access.turnsThen).count user % 2 = 0 := by
      by_cases turned : user ∈ later.turns.drop access.turnsThen
      · exact back user turned
      · rw [List.count_eq_zero.mpr turned]
    exact (told.mpr even).symm

/-- **A change of an item** addresses those who are entitled when it commits. -/
theorem fair_updateItem (caller listId itemId : Nat) (fields : List ItemField) (rows : Rows) :
    Fair (fun _ _ _ _ => True) (updateItem caller listId itemId fields) [] ∅ rows := by
  refine Ensures.bind ?_ (fair_getListAccess listId caller rows)
  rintro ⟨list, access⟩ pending held read ⟨⟨rfl, rfl⟩, tells⟩
  refine Ensures.query fun found toFound _ => ?_
  split
  next => trivial
  next item _ =>
    refine Ensures.check ?_
    refine Ensures.updateReturning fun changed toChanged _ => ?_
    split
    · trivial
    apply fair_commitAndBroadcast _ _ _ _ _ ((tells.later toFound).later toChanged)
    intro write member
    rw [List.nil_append] at member
    split at member
    · cases member
    · rw [List.mem_singleton.mp member]
      exact ⟨rfl, nofun⟩

/-- **A deletion of an item** addresses those who are entitled when it commits. -/
theorem fair_deleteItem (caller listId itemId : Nat) (rows : Rows) :
    Fair (fun _ _ _ _ => True) (deleteItem caller listId itemId) [] ∅ rows := by
  refine Ensures.bind ?_ (fair_getListAccess listId caller rows)
  rintro ⟨list, access⟩ pending held read ⟨⟨rfl, rfl⟩, tells⟩
  refine Ensures.check ?_
  refine Ensures.query fun found toFound _ => ?_
  split
  next => trivial
  next item _ =>
    refine Ensures.update fun deleted toDeleted _ => ?_
    apply fair_commitAndBroadcast _ _ _ _ _ ((tells.later toFound).later toDeleted)
    intro write member
    rw [List.nil_append] at member
    rw [List.mem_singleton.mp member]
    exact ⟨rfl, nofun⟩

/-! ## Runs -/

/-- A request that sends no frame is fair. -/
theorem fair_silent {program : Handler Unit} (silent : program.Writes Silent) (rows : Rows) :
    Fair (fun _ _ _ _ => True) program [] ∅ rows := by
  refine Ensures.of_writes ?_ silent (List.forall_mem_nil _) ∅ rows
  intro later pending addressed _ written
  exact ⟨addressed.silent written, fun _ => follows_performAll later pending⟩

/-- Every request is fair. -/
theorem addresses : Service.Verified service freely AdmitsFrames where
  initially := by
    intro rows begins sent present
    rw [begins.frames] at present
    cases present
  handlers := by
    intro process request rows _
    cases request with
    | transferDashboardOwnership caller user =>
        exact fair_silent (writes_transferDashboardOwnership caller user) rows
    | acceptInvite caller code => exact fair_silent (writes_acceptInvite caller code) rows
    | updateDashboardShare caller share role =>
        exact fair_silent (writes_updateDashboardShare caller share role) rows
    | deleteDashboardShare caller share =>
        exact fair_silent (writes_deleteDashboardShare caller share) rows
    | leaveDashboard caller => exact fair_silent (writes_leaveDashboard caller) rows
    | updateItem caller list item fields =>
        exact fair_updateItem caller list item fields rows
    | deleteItem caller list item => exact fair_deleteItem caller list item rows
  keeps := fun _ _ addressed => addressed
  leaves := fun rows _ _ => { Follows.refl rows with }

/-- User 3 joins while an item is being checked, and its frame misses them. -/
theorem frame_misses_new_member :
    ¬ ∀ state, service.system.Reachable state → Addressed state.database := by
  intro addressed
  obtain ⟨state, reached, bad⟩ := TransitionSystem.exists_reachable_of_run sharedDashboard_initial
    (runs 0 (.updateItem 1 5 6 [.checked true]) 4 ++ runs 1 (.acceptInvite 3 9) 8 ++
      List.replicate 3 (.advance 0))
    (fun state => state.database.frames.any fun sent =>
      3 ∈ sent.entitled && 3 ∉ sent.frame.audience) (by decide)
  obtain ⟨sent, present, bad⟩ := List.any_eq_true.mp bad
  simp only [Bool.and_eq_true, decide_eq_true_eq] at bad
  exact bad.2 ((addressed state reached sent present 3).mpr bad.1)

/-- **A frame's audience** is who has access at the commit, in every run whose content
commits are admitted. -/
theorem addressed_of_admitted {state : State Rows Write Lock Failure Unit}
    (reached : service.system.ReachedWithin (Service.CommitsWithin AdmitsFrames) state) :
    Addressed state.database :=
  Service.invariant_of_ensures addresses reached

/-- An item is checked once user 3 has joined and user 2 has gone. -/
theorem addressed_after_changes :
    ∃ state : State Rows Write Lock Failure Unit,
      state.database.frames.map (·.frame.audience) = [[0, 1, 3]] ∧ Addressed state.database := by
  obtain ⟨state, reached, shape⟩ := TransitionSystem.exists_reachedWithin_of_run
    (Service.CommitsWithin AdmitsFrames) sharedDashboard_initial
    (runs 1 (.acceptInvite 3 9) 8 ++ runs 2 (.leaveDashboard 2) 5 ++
      runs 0 (.updateItem 1 5 6 [.checked true]) 7)
    (fun state => decide (state.database.frames.map (·.frame.audience) = [[0, 1, 3]]))
    (by decide)
  exact ⟨state, of_decide_eq_true shape, addressed_of_admitted reached⟩

end FrontDashboard.Membership
