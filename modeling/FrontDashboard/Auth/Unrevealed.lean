import FrontDashboard.Auth.Probed

/-! # Probes tell nothing

A prober sends requests and reads the answers and the mail to its addresses, while others sign up,
sign in and change their accounts at secret addresses. It observes what it would without them,
unless it signs in at a secret address that it has registered.
-/

namespace FrontDashboard.Probes

variable (settings : Settings) (supply : Supply) (hidden : String → Bool)

/-! ## Ids -/

namespace Tables

variable {tables after : Tables} {id : UserId}

/-- The same accounts, or one more. -/
def Grows (id : UserId) (tables after : Tables) : Prop :=
  after.users.map (·.id) = tables.users.map (·.id) ∨
    after.users.map (·.id) = tables.users.map (·.id) ++ [id]

theorem map_id_setUser (change : User → User) (keeps : ∀ user, (change user).id = user.id) :
    (tables.setUser id change).users.map (·.id) = tables.users.map (·.id) := by
  rw [setUser, List.map_map]
  refine List.map_congr_left fun user _ => ?_
  rw [Function.comp_apply]
  split_ifs
  · exact keeps user
  · rfl

theorem Distinct.grows (distinct : tables.Distinct) (fresh : tables.Fresh id)
    (grows : Grows id tables after) : after.Distinct := by
  obtain same | more := grows
  · rw [Distinct, same]
    exact distinct
  · rw [Distinct, more]
    refine List.nodup_append'.mpr ⟨distinct, List.nodup_singleton id, ?_⟩
    rw [List.disjoint_singleton]
    intro listed
    obtain ⟨user, member, same⟩ := List.mem_map.mp listed
    exact fresh.1 user member same

end Tables

section Ids

variable {settings supply} {tables : Tables}

theorem map_id_orRefuse {α : Type} {found : Option α} {statusCode : Nat} {detail : String}
    {body : α → Outcome}
    (bodies : ∀ row, (body row).tables.users.map (·.id) = tables.users.map (·.id)) :
    (orRefuse found tables statusCode detail body).tables.users.map (·.id) =
      tables.users.map (·.id) := by
  cases found with
  | none => rfl
  | some row => exact bodies row

/-- A route behind a session keeps the accounts where its body does. -/
theorem map_id_authenticated {token : Option Token} {body : UserSession → User → Tables → Outcome}
    (bodies : ∀ session user rows,
      (body session user rows).tables.users.map (·.id) = rows.users.map (·.id)) :
    (authenticated settings supply token tables body).tables.users.map (·.id) =
      tables.users.map (·.id) := by
  refine map_id_orRefuse fun token => map_id_orRefuse fun found => (bodies _ _ _).trans ?_
  rw [Tables.slideIdleClock]
  split_ifs <;> rfl

theorem grows_handle (request : Request) :
    Tables.Grows supply.userId tables (handle settings supply tables request).tables := by
  cases request with
  | register email password displayName =>
      rw [handle, register]
      split_ifs
      · exact .inl rfl
      · exact .inl rfl
      · exact .inl rfl
      · exact .inl rfl
      · exact .inr List.map_append
  | verifyEmail token =>
      refine .inl (map_id_orRefuse fun row => map_id_orRefuse fun user => ?_)
      split_ifs
      · rfl
      · rfl
      · exact Tables.map_id_setUser (.verify supply.now) fun _ => rfl
  | confirmPasswordReset token newPassword =>
      rw [handle, confirmPasswordReset]
      split_ifs
      · exact .inl rfl
      · exact .inl (map_id_orRefuse fun row => map_id_orRefuse fun user =>
          Tables.map_id_setUser (.setPassword newPassword) fun _ => rfl)
  | login email password =>
      refine .inl (map_id_orRefuse fun user => ?_)
      split_ifs <;> rfl
  | confirmOwnEmailChange token =>
      refine .inl (map_id_orRefuse fun row => map_id_orRefuse fun user => ?_)
      split_ifs
      · rfl
      · exact Tables.map_id_setUser (.setEmail row.newEmail) fun _ => rfl
  | resendVerification | requestPasswordReset | checkPasswordResetToken => exact .inl rfl
  | me _ | logout _ => exact .inl (map_id_authenticated fun _ _ _ => rfl)
  | changePassword token currentPassword newPassword =>
      refine .inl (map_id_authenticated fun session user rows => ?_)
      split_ifs
      · rfl
      · rfl
      · rfl
      · exact Tables.map_id_setUser (.setPassword newPassword) fun _ => rfl
  | requestEmailChange token newEmail password =>
      refine .inl (map_id_authenticated fun session user rows => ?_)
      split_ifs <;> rfl

theorem map_id_work (job : Deferred) :
    (work settings supply tables job).1.users.map (·.id) = tables.users.map (·.id) := by
  cases job with
  | resendVerificationLink email =>
      rw [work, resendVerificationLink]
      cases tables.userOf email with
      | none => rfl
      | some user =>
          dsimp only
          split_ifs <;> rfl
  | issuePasswordResetLink email =>
      rw [work, issuePasswordResetLink]
      cases tables.userOf email <;> rfl

end Ids

/-! ## The system -/

inductive Party
  | prober
  | others
  deriving DecidableEq

/-- What goes out. -/
inductive Event
  | answered (party : Party) (answer : Answer)
  | mailed (mail : Mail)
  deriving DecidableEq

/-- The rows, the work that is still deferred, and what has gone out. -/
structure World where
  tables : Tables
  deferred : Party → List Deferred
  log : List Event

inductive Action
  | request (party : Party) (request : Request) (supply : Supply)
  | work (party : Party) (index : Nat) (supply : Supply)
  | fail (party : Party) (index : Nat)

def Action.probing : Action → Bool
  | .request party _ _ | .work party _ _ | .fail party _ => party = .prober

/-- The step function. Deferred work is done, or fails, in any order. -/
def step (world : World) : Action → Option World
  | .request party request supply =>
      let outcome := handle settings supply world.tables request
      let deferred := world.deferred party ++ outcome.deferred
      some ⟨outcome.tables, Function.update world.deferred party deferred,
        world.log ++ .answered party outcome.answer :: outcome.mails.map .mailed⟩
  | .work party index supply => (world.deferred party)[index]?.map fun job =>
      let done := work settings supply world.tables job
      ⟨done.1, Function.update world.deferred party ((world.deferred party).eraseIdx index),
        world.log ++ done.2.map .mailed⟩
  | .fail party index =>
      if index < (world.deferred party).length then
        some ⟨world.tables,
          Function.update world.deferred party ((world.deferred party).eraseIdx index), world.log⟩
      else none

def system : TransitionSystem World Action where
  Initial := fun world => world.tables.Distinct
  step := step settings

/-- The answers to the prober's requests and the mail that it reads. -/
def Event.observed : Event → Bool
  | .answered party _ => party = .prober
  | .mailed mail => !secret settings hidden mail.recipient

def World.observed (world : World) : List Event :=
  world.log.filter (Event.observed settings hidden)

/-- Ids are new; the prober presents nothing of a secret account, and others concern themselves with
secret accounts only. -/
def Admits (world : World) : Action → Prop
  | .request .prober request supply =>
      world.tables.Fresh supply.userId ∧ request.Probing settings hidden world.tables
  | .request .others request supply =>
      world.tables.Fresh supply.userId ∧ request.Private settings hidden world.tables
  | .work .. | .fail .. => True

instance (request : Request) (tables : Tables) :
    Decidable (request.Probing settings hidden tables) := by
  cases request <;> dsimp only [Request.Probing] <;> infer_instance

instance (request : Request) (tables : Tables) :
    Decidable (request.Private settings hidden tables) := by
  cases request <;> dsimp only [Request.Private] <;> infer_instance

instance (world : World) (action : Action) : Decidable (Admits settings hidden world action) := by
  cases action with
  | request party => cases party <;> dsimp only [Admits] <;> infer_instance
  | _ => dsimp only [Admits]; infer_instance

/-- **Two worlds are alike** to the prober: only secret accounts differ. -/
structure Alike (first second : World) : Prop where
  tables : first.tables.visible settings hidden = second.tables.visible settings hidden
  deferred : first.deferred .prober = second.deferred .prober
  observed : first.observed settings hidden = second.observed settings hidden
  secretly : ∀ job ∈ first.deferred .others, secret settings hidden job.email = true
  distinct : first.tables.Distinct
  distinct' : second.tables.Distinct

variable {settings hidden} {first second first' second' : World} {action : Action}

theorem observed_mailed (mails : List Mail) :
    (mails.map .mailed).filter (Event.observed settings hidden) =
      (mails.filter fun mail => !secret settings hidden mail.recipient).map .mailed := by
  rw [List.filter_map]
  rfl

theorem observed_append (log : List Event) (answer : Answer) (party : Party) (mails : List Mail) :
    (log ++ Event.answered party answer :: mails.map .mailed).filter
        (Event.observed settings hidden) =
      log.filter (Event.observed settings hidden) ++
        ((if party = .prober then [.answered party answer] else []) ++
          (mails.filter fun mail => !secret settings hidden mail.recipient).map .mailed) := by
  rw [List.filter_append, ← observed_mailed]
  cases party <;> rfl

/-- A probe keeps the worlds alike. -/
theorem Alike.together (alike : Alike settings hidden first second)
    (probing : action.probing = true) (admitted : Admits settings hidden first action)
    (admitted' : Admits settings hidden second action)
    (moved : step settings first action = some first')
    (moved' : step settings second action = some second') :
    Alike settings hidden first' second' := by
  cases action with
  | request party request supply =>
      obtain rfl : party = .prober := of_decide_eq_true probing
      cases moved
      cases moved'
      have left := handle_visible alike.distinct admitted.1 admitted.2
      have right := handle_visible alike.distinct' admitted'.1 admitted'.2
      rw [alike.tables] at left
      have same := left.trans right.symm
      have answers := congrArg Outcome.answer same
      have mails := congrArg Outcome.mails same
      have due := congrArg Outcome.deferred same
      refine ⟨congrArg Outcome.tables same, ?_, ?_, alike.secretly,
        alike.distinct.grows admitted.1 (grows_handle request),
        alike.distinct'.grows admitted'.1 (grows_handle request)⟩
      · dsimp only
        rw [Function.update_self, Function.update_self, alike.deferred]
        exact congrArg (second.deferred .prober ++ ·) due
      · rw [World.observed, World.observed, observed_append, observed_append]
        rw [← World.observed, ← World.observed, alike.observed]
        refine congrArg _ (congrArg₂ _ ?_ ?_)
        · exact congrArg (fun answer => [Event.answered .prober answer]) answers
        · exact congrArg (List.map Event.mailed) mails
  | work party index supply =>
      obtain rfl : party = .prober := of_decide_eq_true probing
      obtain ⟨job, due, rfl⟩ := Option.map_eq_some_iff.mp moved
      obtain ⟨job', due', rfl⟩ := Option.map_eq_some_iff.mp moved'
      rw [alike.deferred, due'] at due
      cases due
      obtain ⟨left, mails⟩ : _ ∧ (work settings supply first.tables job).2.filter _ = _ :=
        work_visible alike.distinct
      obtain ⟨right, mails'⟩ : _ ∧ (work settings supply second.tables job).2.filter _ = _ :=
        work_visible alike.distinct'
      rw [alike.tables] at left mails
      refine ⟨left.trans right.symm, ?_, ?_, alike.secretly, ?_, ?_⟩
      · dsimp only
        rw [Function.update_self, Function.update_self, alike.deferred]
      · rw [World.observed, World.observed, List.filter_append, List.filter_append, observed_mailed,
          observed_mailed, mails, mails', ← World.observed, ← World.observed, alike.observed]
      · rw [Tables.Distinct, map_id_work]
        exact alike.distinct
      · rw [Tables.Distinct, map_id_work]
        exact alike.distinct'
  | fail party index =>
      obtain rfl : party = .prober := of_decide_eq_true probing
      rw [step] at moved moved'
      split_ifs at moved moved'
      cases moved
      cases moved'
      refine ⟨alike.tables, ?_, alike.observed, alike.secretly, alike.distinct, alike.distinct'⟩
      dsimp only
      rw [Function.update_self, Function.update_self, alike.deferred]

theorem eq_others {party : Party} (others : decide (party = .prober) = false) :
    party = .others := by
  cases party with
  | prober => cases others
  | others => rfl

/-- What others do is not noticed. -/
theorem Alike.alone (alike : Alike settings hidden first second) (others : action.probing = false)
    (admitted : Admits settings hidden first action)
    (moved : step settings first action = some first') : Alike settings hidden first' second := by
  cases action with
  | request party request supply =>
      obtain rfl := eq_others others
      cases moved
      have silent := silent_handle alike.distinct admitted.1 admitted.2
      refine ⟨silent.tables.trans alike.tables, ?_, ?_, fun job due => ?_,
        alike.distinct.grows admitted.1 (grows_handle request), alike.distinct'⟩
      · exact alike.deferred
      · rw [World.observed, observed_append, filter_eq_nil_of_secret silent.mails,
          ← World.observed, alike.observed]
        exact List.append_nil _
      · dsimp only at due
        rw [Function.update_self] at due
        exact (List.mem_append.mp due).elim (alike.secretly job) (silent.deferred job)
  | work party index supply =>
      obtain rfl := eq_others others
      obtain ⟨job, due, rfl⟩ := Option.map_eq_some_iff.mp moved
      have covered := alike.secretly job (List.mem_of_getElem? due)
      obtain ⟨same, mails⟩ := silent_work supply alike.distinct covered
      refine ⟨same.trans alike.tables, alike.deferred, ?_, fun job due => ?_, ?_, alike.distinct'⟩
      · rw [World.observed, List.filter_append, observed_mailed, filter_eq_nil_of_secret mails,
          ← World.observed, alike.observed]
        exact List.append_nil _
      · dsimp only at due
        rw [Function.update_self] at due
        exact alike.secretly job (List.mem_of_mem_eraseIdx due)
      · rw [Tables.Distinct, map_id_work]
        exact alike.distinct
  | fail party index =>
      obtain rfl := eq_others others
      rw [step] at moved
      split_ifs at moved
      cases moved
      refine ⟨alike.tables, alike.deferred, alike.observed, fun job due => ?_, alike.distinct,
        alike.distinct'⟩
      dsimp only at due
      rw [Function.update_self] at due
      exact alike.secretly job (List.mem_of_mem_eraseIdx due)

/-- **Probes tell nothing** of secret accounts: whatever others do, the prober observes what it
would without them. -/
theorem probes_tell_nothing {actions : List Action} (alike : Alike settings hidden first second)
    (ran : (system settings).run (Admits settings hidden) first actions = some first')
    (ran' : (system settings).run (Admits settings hidden) second
      (actions.filter Action.probing) = some second') :
    first'.observed settings hidden = second'.observed settings hidden :=
  (TransitionSystem.run_filter
    (fun _ _ _ _ _ alike probing admitted admitted' moved moved' =>
      alike.together probing admitted admitted' moved moved')
    (fun _ _ _ _ alike others admitted moved => alike.alone others admitted moved)
    alike ran ran').observed

/-- Days of sessions and hours of links, in microseconds. -/
def defaultSettings : Settings where
  sessionIdle := 604800000000
  sessionAbsolute := 2592000000000
  emailChangeExpire := 3600000000
  commonPassword := fun _ => false
  disposableEmail := fun _ => false
  emailVerificationExpire := 3600000000
  passwordResetExpire := 3600000000
  lower := fun email => email

/-- Bob is signed in; Ann has an account, or has none. -/
def household (ann : List User) : World where
  tables :=
    ⟨ann ++ [⟨2, "bob@home.org", some "battery staple", "Bob", none, some 0, none⟩],
      [⟨20, 2, 0, 2592000000000, none⟩], [], [], []⟩
  deferred := fun _ => []
  log := []

def ann : User := ⟨1, "ann@home.org", some "correct horse", "Ann", none, some 0, none⟩

def annsAddress (email : String) : Bool := email = "ann@home.org"

theorem alike_household :
    Alike defaultSettings annsAddress (household [ann]) (household []) where
  tables := by decide
  deferred := rfl
  observed := rfl
  secretly := fun _ due => absurd due List.not_mem_nil
  distinct := by unfold Tables.Distinct; decide
  distinct' := by unfold Tables.Distinct; decide

/-- Ann signs in; Bob registers her address, tries a password, asks for a reset and for her address
as his own. -/
def probes : List Action :=
  [.request .others (.login "ann@home.org" "correct horse") ⟨1, 3, 3, 101⟩,
    .request .prober (.register "ann@home.org" "open sesame" "Bob") ⟨2, 4, 4, 102⟩,
    .request .prober (.login "ann@home.org" "battery staple") ⟨3, 5, 5, 103⟩,
    .request .prober (.requestPasswordReset "ann@home.org") ⟨4, 6, 6, 104⟩,
    .work .prober 0 ⟨5, 7, 7, 105⟩,
    .request .prober (.requestEmailChange (some 20) "ann@home.org" "battery staple")
      ⟨6, 8, 8, 106⟩,
    .request .prober (.me (some 20)) ⟨7, 9, 9, 107⟩]

theorem ann_is_not_given_away : ∃ last last' : World,
    (system defaultSettings).run (Admits defaultSettings annsAddress) (household [ann]) probes =
        some last ∧
      (system defaultSettings).run (Admits defaultSettings annsAddress) (household [])
          (probes.filter Action.probing) = some last' ∧
        last.observed defaultSettings annsAddress =
          last'.observed defaultSettings annsAddress := by
  have withAnn : ((system defaultSettings).run (Admits defaultSettings annsAddress)
    (household [ann]) probes).isSome = true := by decide
  have without : ((system defaultSettings).run (Admits defaultSettings annsAddress)
    (household []) (probes.filter Action.probing)).isSome = true := by decide
  obtain ⟨last, ran⟩ := Option.isSome_iff_exists.mp withAnn
  obtain ⟨last', ran'⟩ := Option.isSome_iff_exists.mp without
  exact ⟨last, last', ran, ran', probes_tell_nothing alike_household ran ran'⟩

/-- Who registers an address and signs in there is told whether it was free. -/
theorem signing_in_after_registering_tells :
    let actions : List Action :=
      [.request .prober (.register "ann@home.org" "open sesame" "Bob") ⟨2, 4, 4, 102⟩,
        .request .prober (.login "ann@home.org" "open sesame") ⟨3, 5, 5, 103⟩]
    ((system defaultSettings).run (fun _ _ => True) (household [ann]) actions).map
        (World.observed defaultSettings annsAddress) =
      some [.answered .prober (.registered "ann@home.org"),
        .answered .prober (.refused 401 "Invalid credentials")] ∧
    ((system defaultSettings).run (fun _ _ => True) (household []) actions).map
        (World.observed defaultSettings annsAddress) =
      some [.answered .prober (.registered "ann@home.org"),
        .answered .prober (.refused 403 "Email verification required")] := by
  decide

end FrontDashboard.Probes
