import FrontDashboard.Library.Places
import FrontDashboard.Preferences.Favorites
import FrontDashboard.Preferences.NeverDangle

/-! # Favorite toggles that meet

A toggle carries a whole list, so it undoes on the server what it did not know of, and a
reply that comes late takes the client back. Toggles that run and are answered in the order
they were issued keep what was asked for, as long as those of different dashboards do not
overlap; two that do need not.
-/

namespace FrontDashboard.Preferences

open Outcomes
open Access (UserId normalizeAccessibleDashboardIds normalize_eq_ok readIds_eq_ok)

variable {caller : UserId} {rows after : Rows} {user : UserRow} {document : Document}
  {on before : Uuid → Bool} {texts normalized stored : List String} {toggle : Toggle}

/-! ## Sets of favorites -/

theorem wanted_append (before : Uuid → Bool) (toggles : List Toggle) (toggle : Toggle) :
    wanted before (toggles ++ [toggle]) = toggle.apply (wanted before toggles) := by
  simp [wanted]

/-- A canonical text is in the list when its id is in the set. -/
theorem IsExactly.text_mem (exactly : IsExactly texts on) (id : Uuid) :
    id.text ∈ texts ↔ on id = true := by
  rw [exactly]
  constructor
  · intro ⟨other, same, isOn⟩
    rw [Uuid.text_injective same]
    exact isOn
  · exact fun isOn => ⟨id, rfl, isOn⟩

/-- The list holds ids alone, and those of the set but for what some toggles make of their
dashboards. -/
def AgreesBut (aside : List Toggle) (favorites : List String) (on : Uuid → Bool) : Prop :=
  (∀ text ∈ favorites, ∃ id : Uuid, text = id.text) ∧
    ∀ id : Uuid, (∀ toggle ∈ aside, toggle.id ≠ id) → (id.text ∈ favorites ↔ on id = true)

theorem IsExactly.agreesBut (exactly : IsExactly texts on) (aside : List Toggle) :
    AgreesBut aside texts on := by
  refine ⟨fun text member => ?_, fun id _ => exactly.text_mem id⟩
  obtain ⟨id, same, -⟩ := (exactly text).mp member
  exact ⟨id, same⟩

/-- A list that agrees without exception is that of the set. -/
theorem AgreesBut.isExactly (agrees : AgreesBut [] texts on) : IsExactly texts on := by
  intro text
  constructor
  · intro member
    obtain ⟨id, rfl⟩ := agrees.1 text member
    exact ⟨id, rfl, (agrees.2 id (List.forall_mem_nil _)).mp member⟩
  · rintro ⟨id, rfl, isOn⟩
    exact (agrees.2 id (List.forall_mem_nil _)).mpr isOn

/-- One more toggle is one more exception. -/
theorem AgreesBut.apply {aside : List Toggle} (agrees : AgreesBut aside texts on)
    (toggle : Toggle) : AgreesBut (aside ++ [toggle]) texts (toggle.apply on) := by
  refine ⟨agrees.1, fun id others => ?_⟩
  obtain ⟨apart, own⟩ := List.forall_mem_append.mp others
  have different : id ≠ toggle.id := Ne.symm (own toggle (List.mem_singleton_self _))
  rw [Toggle.apply, if_neg different]
  exact agrees.2 id apart

/-- A toggle undoes another of its own dashboard. -/
theorem Toggle.apply_apply {other : Toggle} (same : toggle.id = other.id) :
    toggle.apply (other.apply on) = toggle.apply on := by
  funext id
  unfold Toggle.apply
  rw [same]
  split <;> rfl

/-- **The list of a toggle** is what the toggle makes of a set with which the client agrees but
for toggles of the same dashboard. -/
theorem AgreesBut.nextFavoriteIds {aside : List Toggle} (agrees : AgreesBut aside texts on)
    (own : ∀ other ∈ aside, other.id = toggle.id) :
    IsExactly (toggle.nextFavoriteIds texts) (toggle.apply on) := by
  have others : ∀ id : Uuid, id ≠ toggle.id → (id.text ∈ texts ↔ on id = true) := by
    intro id different
    apply agrees.2
    rintro other member rfl
    exact different (own other member)
  apply AgreesBut.isExactly
  constructor
  · intro text member
    unfold Toggle.nextFavoriteIds at member
    split at member
    · exact agrees.1 text (List.mem_of_mem_filter member)
    · rcases List.mem_append.mp member with old | new
      · exact agrees.1 text (List.mem_of_mem_filter old)
      · exact ⟨toggle.id, List.mem_singleton.mp new⟩
  · intro id _
    by_cases same : id = toggle.id
    · subst same
      unfold Toggle.nextFavoriteIds Toggle.apply
      cases toggle.current <;> simp
    · have different : id.text ≠ toggle.id.text := fun equal => same (Uuid.text_injective equal)
      rw [Toggle.apply, if_neg same, ← others id same]
      unfold Toggle.nextFavoriteIds
      cases toggle.current <;> simp [different]

/-! ## The server -/

/-- The check of preferences keeps the set. -/
theorem IsExactly.of_normalize {store : Access.Store} {reader : Access.User}
    (exactly : IsExactly texts on)
    (ran : normalizeAccessibleDashboardIds store texts reader = .ok normalized) :
    IsExactly normalized on := by
  obtain ⟨ids, read, rfl⟩ := normalize_eq_ok ran
  have reads := readIds_eq_ok .nil read
  intro text
  constructor
  · intro member
    obtain ⟨id, among, rfl⟩ := List.mem_map.mp member
    rcases reads.only id among with seen | ⟨sent, present, named⟩
    · cases seen
    · obtain ⟨other, rfl, isOn⟩ := (exactly sent).mp present
      rw [Uuid.read_text] at named
      cases named
      exact ⟨id, rfl, isOn⟩
  · intro ⟨id, same, isOn⟩
    obtain ⟨other, among, named⟩ := reads.reads id.text ((exactly.text_mem id).mpr isOn)
    rw [Uuid.read_text] at named
    cases named
    exact List.mem_map.mpr ⟨id, among, same.symm⟩

/-- A change of the users' rows that keeps who they are changes the caller's own. -/
theorem getCurrentUser_map {change : UserRow → UserRow}
    (ids : ∀ row, (change row).id = row.id)
    (alive : ∀ row, (change row).deletedAt = row.deletedAt)
    (found : getCurrentUser caller rows = .ok user) :
    getCurrentUser caller { rows with users := rows.users.map change } = .ok (change user) := by
  unfold getCurrentUser at found ⊢
  split at found
  · cases found
  next row located =>
    cases found
    dsimp only
    rw [List.find?_map]
    simp only [Function.comp_def, ids, alive]
    rw [located]
    rfl

/-- `update_preferences` of favorites stores the list that was checked, for the caller. -/
theorem getCurrentUser_updated (found : getCurrentUser caller rows = .ok user)
    (ran : updatePreferences caller ⟨none, some (some texts)⟩ rows = .ok after) :
    ∃ checked, normalizeAccessibleDashboardIds rows.store texts user.view = .ok checked ∧
      getCurrentUser caller after = .ok { user with
        preferences := user.preferences.set favoritesKey (.array (checked.map .text)) } := by
  obtain ⟨current, resolved, ran⟩ := bind_eq_ok.mp ran
  cases found.symm.trans resolved
  rw [if_neg (by simp)] at ran
  obtain ⟨home, unsent, ran⟩ := bind_eq_ok.mp ran
  cases unsent
  obtain ⟨favorites, valid, done⟩ := bind_eq_ok.mp ran
  cases done
  obtain ⟨value, stored, given⟩ := bind_eq_ok.mp valid
  cases given
  obtain ⟨checked, ok, listed⟩ := bind_eq_ok.mp stored
  obtain rfl := Except.ok.inj listed
  refine ⟨checked, ok, ?_⟩
  have updated := @getCurrentUser_map caller rows user
    (fun row => if row.id = caller then
      { row with preferences := user.preferences.set favoritesKey (.array (checked.map .text)) }
      else row)
    (by intro row; split <;> rfl) (by intro row; split <;> rfl) found
  rw [if_pos (getCurrentUser_eq_ok found).2] at updated
  exact updated

theorem mapM_asText (texts : List String) :
    (texts.map Json.text).mapM Json.asText = some texts := by
  induction texts with
  | nil => rfl
  | cons text rest ih => simp [Json.asText, ih]

/-- A tidy document answers with the favorites that are read from it. -/
theorem Tidy.modelValidate {named : Uuid → Prop} (tidy : Tidy named document) :
    ∃ preferences, UserPreferences.modelValidate document = some preferences ∧
      preferences.favoriteDashboardIds = favoriteDashboardIdStrings document := by
  have home : ∃ home, Json.optionalText (document.get homeKey) = some home := by
    cases stored : document.get homeKey with
    | none => exact ⟨none, rfl⟩
    | some value =>
        rcases tidy.home value stored with rfl | ⟨id, rfl, _⟩
        · exact ⟨none, rfl⟩
        · exact ⟨some id.text, rfl⟩
  have favorites : Json.texts (document.get favoritesKey) =
      some (favoriteDashboardIdStrings document) := by
    unfold favoriteDashboardIdStrings
    cases stored : document.get favoritesKey with
    | none => rfl
    | some value =>
        obtain ⟨ids, rfl, nodup, _⟩ := tidy.favorites value stored
        have read := @readFavorites_texts [] ids nodup
        have listed := mapM_asText (ids.map Uuid.text)
        rw [List.map_map] at listed
        exact listed.trans (congrArg some read.symm)
  obtain ⟨home, read⟩ := home
  exact ⟨⟨home, favoriteDashboardIdStrings document⟩,
    by simp [UserPreferences.modelValidate, read, favorites], rfl⟩

/-- **The reply** of sound rows carries what the server holds. -/
theorem Sound.userResponse (sound : Sound rows) (found : getCurrentUser caller rows = .ok user) :
    ∃ preferences, userResponse caller rows = some preferences ∧
      preferences.favoriteDashboardIds = serverFavorites caller rows := by
  unfold Preferences.userResponse serverFavorites
  rw [found]
  exact (sound.tidy user (getCurrentUser_eq_ok found).1).modelValidate

/-- **A run of the update** stores the set of the list that was sent. -/
theorem serverFavorites_updated (found : getCurrentUser caller rows = .ok user)
    (exactly : IsExactly texts on)
    (ran : updatePreferences caller ⟨none, some (some texts)⟩ rows = .ok after) :
    (∃ user, getCurrentUser caller after = .ok user) ∧
      IsExactly (serverFavorites caller after) on := by
  obtain ⟨checked, ok, updated⟩ := getCurrentUser_updated found ran
  refine ⟨⟨_, updated⟩, ?_⟩
  have stored : serverFavorites caller after = checked := by
    obtain ⟨ids, rfl, nodup, _⟩ := normalized_ids ok
    unfold serverFavorites
    rw [updated]
    dsimp only
    unfold favoriteDashboardIdStrings
    rw [Document.get_set_self]
    have read := @readFavorites_texts [] ids nodup
    rw [List.map_map]
    exact read
  rw [stored]
  exact exactly.of_normalize ok

/-! ## Runs -/

/-- The system of one user, whose favorites begin as a set that server and client agree on. -/
def favoring (caller : UserId) (before : Uuid → Bool) : TransitionSystem Favoring Click where
  Initial world := Sound world.rows ∧ (∃ user, getCurrentUser caller world.rows = .ok user) ∧
    IsExactly (serverFavorites caller world.rows) before ∧ IsExactly world.favorites before ∧
    Starred world before ∧ world.waiting = [] ∧ world.succeeded = []
  step world click := world.step caller click

/-- The toggles that the server has run and the client has not heard of. -/
def Favoring.unheard (world : Favoring) : List Waiting := world.waiting.filter Waiting.unheard

/-- What the server was last made to hold. -/
def Favoring.reached (before : Uuid → Bool) (world : Favoring) : Uuid → Bool :=
  wanted before (world.succeeded ++ world.unheard.map Waiting.toggle)

/-- **Once nothing is in flight**, the server's favorites, the client's and the stars are what
the last successful toggles asked for. -/
def NotLost (caller : UserId) (before : Uuid → Bool) (world : Favoring) : Prop :=
  world.waiting = [] →
    IsExactly (serverFavorites caller world.rows) (wanted before world.succeeded) ∧
      IsExactly world.favorites (wanted before world.succeeded) ∧
      Starred world (wanted before world.succeeded)

/-- Toggles of different dashboards do not overlap: one is issued when the client has heard of
all that the server ran for other dashboards, and one runs before another dashboard's is
issued. A toggle runs after those issued before it; replies come in the order the server ran
the toggles, and no toggle that it ran fails. -/
def InTurn (world : Favoring) : Click → Prop
  | .toggle toggle => ∀ other ∈ world.waiting, other.unheard = true → other.toggle.id = toggle.id
  | .run index => ∀ waiting ∈ world.waiting[index]?,
      (∀ earlier ∈ world.waiting.take index, earlier.unsent = false) ∧
        ∀ later ∈ world.waiting.drop (index + 1), later.toggle.id = waiting.toggle.id
  | .refresh _ => True
  | .answer index => ∀ earlier ∈ world.waiting.take index, earlier.unheard = false
  | .fail index => ∀ waiting ∈ world.waiting[index]?, waiting.unheard = false

instance (world : Favoring) (click : Click) : Decidable (InTurn world click) :=
  match click with
  | .refresh _ => .isTrue trivial
  | .toggle toggle => inferInstanceAs (Decidable (∀ other ∈ world.waiting,
      other.unheard = true → other.toggle.id = toggle.id))
  | .run index => inferInstanceAs (Decidable (∀ waiting ∈ world.waiting[index]?,
      (∀ earlier ∈ world.waiting.take index, earlier.unsent = false) ∧
        ∀ later ∈ world.waiting.drop (index + 1), later.toggle.id = waiting.toggle.id))
  | .answer index =>
      inferInstanceAs (Decidable (∀ earlier ∈ world.waiting.take index, earlier.unheard = false))
  | .fail index =>
      inferInstanceAs (Decidable (∀ waiting ∈ world.waiting[index]?, waiting.unheard = false))

/-- A toggle that has not run stands before no toggle that has. -/
def Ordered (waiting : List Waiting) : Prop :=
  waiting.Pairwise fun earlier later => earlier.unsent = true → later.unheard = false

structure Kept (caller : UserId) (before : Uuid → Bool) (world : Favoring) : Prop where
  sound : Sound world.rows
  live : ∃ user, getCurrentUser caller world.rows = .ok user
  carried : ∀ waiting ∈ world.waiting, waiting.unsent = true →
    IsExactly waiting.favoriteIds (waiting.toggle.apply (world.reached before))
  ordered : Ordered world.waiting
  server : IsExactly (serverFavorites caller world.rows) (world.reached before)
  client : AgreesBut (world.unheard.map Waiting.toggle) world.favorites (world.reached before)
  reply : ∀ place waiting favorites, world.unheard[place]? = some waiting →
    waiting.progress = .replied favorites →
      AgreesBut ((world.unheard.map Waiting.toggle).drop (place + 1)) favorites
        (world.reached before)
  stars : Starred world (wanted before world.succeeded)

variable {world : Favoring} {index : Nat} {waiting changed : Waiting}

theorem Ordered.set {list : List Waiting} (ordered : Ordered list)
    (found : list[index]? = some waiting) (runs : changed.unsent = false)
    (ready : changed.unheard = true →
      waiting.unheard = true ∨ ∀ earlier ∈ list.take index, earlier.unsent = false) :
    Ordered (list.set index changed) := by
  unfold Ordered at ordered ⊢
  rw [Places.set_eq_around changed found]
  rw [Places.eq_around found] at ordered
  obtain ⟨front, back, across⟩ := List.pairwise_append.mp ordered
  refine List.pairwise_append.mpr ⟨front, ?_, ?_⟩
  · refine List.pairwise_cons.mpr ⟨?_, (List.pairwise_cons.mp back).2⟩
    intro later _ unsent
    rw [runs] at unsent
    cases unsent
  · intro earlier before later member unsent
    rcases List.mem_cons.mp member with rfl | among
    · apply eq_false_of_ne_true
      intro heard
      rcases ready heard with already | sent
      · have not := across earlier before waiting List.mem_cons_self unsent
        rw [already] at not
        cases not
      · have not := sent earlier before
        rw [unsent] at not
        cases not
    · exact across earlier before later (List.mem_cons_of_mem _ among) unsent

/-- After a toggle that has not run, none has. -/
theorem Ordered.none_after {list : List Waiting} (ordered : Ordered list)
    (found : list[index]? = some waiting) (unsent : waiting.unsent = true) :
    (list.drop (index + 1)).filter Waiting.unheard = [] := by
  unfold Ordered at ordered
  rw [Places.eq_around found] at ordered
  have back := (List.pairwise_append.mp ordered).2.1
  rw [List.filter_eq_nil_iff]
  intro later member
  have not := (List.pairwise_cons.mp back).1 later member unsent
  simp [not]

theorem Ordered.eraseIdx {list : List Waiting} (ordered : Ordered list) (index : Nat) :
    Ordered (list.eraseIdx index) :=
  ordered.sublist (List.eraseIdx_sublist list index)

theorem Kept.carried_set (kept : Kept caller before world) {progress : Progress}
    (sent : Waiting.unsent ⟨toggle, texts, progress⟩ = false) :
    ∀ other ∈ world.waiting.set index ⟨toggle, texts, progress⟩, other.unsent = true →
      IsExactly other.favoriteIds (other.toggle.apply (world.reached before)) := by
  intro other member unsent
  rcases List.mem_or_eq_of_mem_set member with old | rfl
  · exact kept.carried other old unsent
  · rw [sent] at unsent
    cases unsent

/-- **A toggle that is issued** carries the set that it asks for. -/
theorem Kept.issue (kept : Kept caller before world)
    (alone : ∀ other ∈ world.waiting, other.unheard = true → other.toggle.id = toggle.id) :
    Kept caller before (world.issue toggle) := by
  have same : (world.issue toggle).unheard = world.unheard := by
    simp [Favoring.issue, Favoring.unheard, Waiting.unheard]
  have reached : (world.issue toggle).reached before = world.reached before := by
    unfold Favoring.reached
    rw [same]
    rfl
  refine ⟨kept.sound, kept.live, ?_, ?_, ?_, ?_, ?_, kept.stars⟩
  · intro waiting member unsent
    rw [reached]
    rcases List.mem_append.mp member with old | new
    · exact kept.carried waiting old unsent
    · rw [List.mem_singleton.mp new]
      apply kept.client.nextFavoriteIds
      intro other aside
      obtain ⟨waiting, unheard, rfl⟩ := List.mem_map.mp aside
      obtain ⟨among, ran⟩ := List.mem_filter.mp unheard
      exact alone waiting among ran
  · refine List.pairwise_append.mpr ⟨kept.ordered, List.pairwise_singleton _ _, ?_⟩
    intro earlier _ later new _
    rw [List.mem_singleton.mp new]
    rfl
  · rw [reached]
    exact kept.server
  · rw [reached, same]
    exact kept.client
  · rw [reached, same]
    exact kept.reply

/-- A request that is refused has changed nothing. -/
theorem Kept.refuse {favoriteIds : List String} (kept : Kept caller before world)
    (found : world.waiting[index]? = some ⟨toggle, favoriteIds, .sent⟩) :
    Kept caller before (world.advance index ⟨toggle, favoriteIds, .sent⟩ .refused) := by
  have same : (world.advance index ⟨toggle, favoriteIds, .sent⟩ .refused).unheard =
      world.unheard := by
    unfold Favoring.unheard Favoring.advance
    rw [Places.filter_set _ _ found, Places.filter_eq_around _ found]
    rfl
  have reached : (world.advance index ⟨toggle, favoriteIds, .sent⟩ .refused).reached before =
      world.reached before := by
    unfold Favoring.reached
    rw [same]
    rfl
  refine ⟨kept.sound, kept.live, ?_, ?_, ?_, ?_, ?_, kept.stars⟩
  · rw [reached]
    exact kept.carried_set rfl
  · exact kept.ordered.set found rfl nofun
  · rw [reached]
    exact kept.server
  · rw [reached, same]
    exact kept.client
  · rw [reached, same]
    exact kept.reply

/-- **A toggle that runs in its turn** makes the stored set what it asks for. -/
theorem Kept.runUpdate {favoriteIds : List String} (kept : Kept caller before world)
    (found : world.waiting[index]? = some ⟨toggle, favoriteIds, .sent⟩)
    (first : ∀ earlier ∈ world.waiting.take index, earlier.unsent = false)
    (own : ∀ later ∈ world.waiting.drop (index + 1), later.toggle.id = toggle.id) :
    Kept caller before (world.runUpdate caller index ⟨toggle, favoriteIds, .sent⟩) := by
  unfold Favoring.runUpdate
  split
  next => exact kept.refuse found
  next rows ran =>
    obtain ⟨user, live⟩ := kept.live
    have exactly := kept.carried _ (List.mem_of_getElem? found) rfl
    have runs := serverFavorites_updated live exactly ran
    have last : ({ world.advance index ⟨toggle, favoriteIds, .sent⟩ .committed with
        rows } : Favoring).unheard = world.unheard ++ [⟨toggle, favoriteIds, .committed⟩] := by
      unfold Favoring.unheard Favoring.advance
      rw [Places.filter_set _ _ found, Places.filter_eq_around _ found,
        kept.ordered.none_after found rfl]
      simp [Waiting.unheard]
    have reached : ({ world.advance index ⟨toggle, favoriteIds, .sent⟩ .committed with
        rows } : Favoring).reached before = toggle.apply (world.reached before) := by
      unfold Favoring.reached
      rw [last, List.map_append, ← List.append_assoc]
      exact wanted_append _ _ _
    refine ⟨sound_updatePreferences kept.sound ran, runs.1, ?_, ?_, ?_, ?_, ?_, kept.stars⟩
    · intro other member unsent
      rw [reached]
      change other ∈ world.waiting.set index _ at member
      rw [Places.set_eq_around _ found] at member
      rcases List.mem_append.mp member with earlier | rest
      · rw [first other earlier] at unsent
        cases unsent
      · rcases List.mem_cons.mp rest with rfl | later
        · cases unsent
        · rw [Toggle.apply_apply (own other later)]
          exact kept.carried other (List.mem_of_mem_drop later) unsent
    · exact kept.ordered.set found rfl fun _ => .inr first
    · rw [reached]
      exact runs.2
    · rw [reached, last, List.map_append]
      exact kept.client.apply toggle
    · rw [reached, last]
      intro place waiting favorites located replied
      by_cases inside : place < world.unheard.length
      · rw [List.getElem?_append_left inside] at located
        have short : place + 1 ≤ (world.unheard.map Waiting.toggle).length := by
          simpa using Nat.succ_le_of_lt inside
        rw [List.map_append, List.drop_append_of_le_length short]
        exact (kept.reply place waiting favorites located replied).apply toggle
      · rw [List.getElem?_append_right (Nat.not_lt.mp inside)] at located
        cases List.mem_singleton.mp (List.mem_of_getElem? located)
        cases replied

/-- **A reply that is read back** carries the set that is stored then. -/
theorem Kept.respond {favoriteIds : List String} (kept : Kept caller before world)
    (found : world.waiting[index]? = some ⟨toggle, favoriteIds, .committed⟩) :
    Kept caller before (world.respond caller index ⟨toggle, favoriteIds, .committed⟩) := by
  obtain ⟨user, live⟩ := kept.live
  obtain ⟨preferences, answered, read⟩ := kept.sound.userResponse live
  unfold Favoring.respond
  rw [answered]
  dsimp only
  rw [read]
  generalize answer : Progress.replied (serverFavorites caller world.rows) = progress
  have heard : Waiting.unheard ⟨toggle, favoriteIds, progress⟩ = true := by rw [← answer]; rfl
  have old := Places.filter_eq_of_pos (rfl : Waiting.unheard _ = true) found
  have new := Places.filter_set Waiting.unheard (Waiting.mk toggle favoriteIds progress) found
  rw [if_pos heard, List.append_assoc, List.singleton_append] at new
  have toggles : (world.advance index ⟨toggle, favoriteIds, .committed⟩ progress).unheard.map
      Waiting.toggle = world.unheard.map Waiting.toggle := by
    unfold Favoring.unheard Favoring.advance
    rw [new, old]
    simp
  have reached : (world.advance index ⟨toggle, favoriteIds, .committed⟩ progress).reached before =
      world.reached before := by
    unfold Favoring.reached
    rw [toggles]
    rfl
  refine ⟨kept.sound, kept.live, ?_, ?_, ?_, ?_, ?_, kept.stars⟩
  · rw [reached]
    exact kept.carried_set (by rw [← answer]; rfl)
  · exact kept.ordered.set found (by rw [← answer]; rfl) fun _ => .inl rfl
  · rw [reached]
    exact kept.server
  · rw [reached, toggles]
    exact kept.client
  · intro place waiting favorites located replied
    rw [reached, toggles]
    have set : (world.advance index ⟨toggle, favoriteIds, .committed⟩ progress).unheard =
        world.unheard.set ((world.waiting.take index).filter Waiting.unheard).length
          ⟨toggle, favoriteIds, progress⟩ := by
      unfold Favoring.unheard Favoring.advance
      rw [new, old]
      simp
    rw [set, List.getElem?_set] at located
    split at located
    next =>
      split at located
      next =>
        cases located
        cases answer.trans replied
        exact kept.server.agreesBut _
      next => cases located
    next => exact kept.reply place waiting favorites located replied

theorem Starred.mark {on : Uuid → Bool} (starred : Starred world on) (toggle : Toggle)
    {marked : Favoring} (summaries : marked.summaries = world.summaries.map toggle.mark)
    (dashboard : marked.dashboard = world.dashboard.map toggle.mark) :
    Starred marked (toggle.apply on) := by
  have marks : ∀ summary : Summary, summary.isFavorite = on summary.id →
      (toggle.mark summary).isFavorite = toggle.apply on (toggle.mark summary).id := by
    intro summary right
    unfold Toggle.mark Toggle.apply
    split
    next => simp
    next => simp [right]
  constructor
  · rw [summaries]
    intro summary member
    obtain ⟨old, among, rfl⟩ := List.mem_map.mp member
    exact marks old (starred.1 old among)
  · rw [dashboard]
    intro summary member
    obtain ⟨old, among, rfl⟩ := Option.map_eq_some_iff.mp member
    exact marks old (starred.2 old among)

/-- **A reply that comes in its turn** takes the client to a set that the server held. -/
theorem Kept.accept {favoriteIds favorites : List String} (kept : Kept caller before world)
    (found : world.waiting[index]? = some ⟨toggle, favoriteIds, .replied favorites⟩)
    (first : ∀ earlier ∈ world.waiting.take index, earlier.unheard = false) :
    Kept caller before (world.accept index toggle favorites) := by
  have none_ : (world.waiting.take index).filter Waiting.unheard = [] := by
    rw [List.filter_eq_nil_iff]
    intro earlier member
    simp [first earlier member]
  have old := Places.filter_eq_of_pos (rfl : Waiting.unheard _ = true) found
  rw [none_, List.nil_append] at old
  have new := Places.filter_eraseIdx Waiting.unheard world.waiting index
  rw [none_, List.nil_append] at new
  have reached : (world.accept index toggle favorites).reached before = world.reached before := by
    unfold Favoring.reached Favoring.unheard Favoring.accept
    rw [new, old]
    simp
  have unheard : world.unheard = ⟨toggle, favoriteIds, .replied favorites⟩ ::
      (world.accept index toggle favorites).unheard := by
    unfold Favoring.unheard Favoring.accept
    rw [old, new]
  refine ⟨kept.sound, kept.live, ?_, kept.ordered.eraseIdx index, ?_, ?_, ?_, ?_⟩
  · intro waiting member
    rw [reached]
    exact kept.carried waiting (List.mem_of_mem_eraseIdx member)
  · rw [reached]
    exact kept.server
  · rw [reached]
    have told := kept.reply 0 ⟨toggle, favoriteIds, .replied favorites⟩ favorites
    rw [unheard] at told
    exact told rfl rfl
  · intro place waiting others located replied
    rw [reached]
    have told := kept.reply (place + 1) waiting others
    rw [unheard] at told
    exact told located replied
  · have marked : Starred (world.accept index toggle favorites) _ := kept.stars.mark toggle rfl rfl
    rw [← wanted_append] at marked
    exact marked

/-- **A toggle that fails** without having run has changed nothing. -/
theorem Kept.fail (kept : Kept caller before world)
    (found : world.waiting[index]? = some waiting) (silent : waiting.unheard = false) :
    Kept caller before { world with waiting := world.waiting.eraseIdx index } := by
  have same : ({ world with waiting := world.waiting.eraseIdx index } : Favoring).unheard =
      world.unheard := by
    unfold Favoring.unheard
    rw [Places.filter_eraseIdx, Places.filter_eq_around _ found, silent]
    simp
  have reached : ({ world with waiting := world.waiting.eraseIdx index } : Favoring).reached
      before = world.reached before := by
    unfold Favoring.reached
    rw [same]
  refine ⟨kept.sound, kept.live, ?_, kept.ordered.eraseIdx index, ?_, ?_, ?_, kept.stars⟩
  · intro waiting member
    rw [reached]
    exact kept.carried waiting (List.mem_of_mem_eraseIdx member)
  · rw [reached]
    exact kept.server
  · rw [reached, same]
    exact kept.client
  · rw [reached, same]
    exact kept.reply

theorem Kept.step {click : Click} {next : Favoring} (kept : Kept caller before world)
    (inTurn : InTurn world click) (moved : world.step caller click = some next) :
    Kept caller before next := by
  cases click with
  | toggle toggle =>
      cases moved
      exact kept.issue inTurn
  | run index =>
      dsimp only [Favoring.step] at moved
      split at moved
      next toggle favoriteIds found =>
        cases moved
        obtain ⟨first, own⟩ := inTurn _ found
        exact kept.runUpdate found first own
      next => cases moved
  | refresh index =>
      dsimp only [Favoring.step] at moved
      split at moved
      next toggle favoriteIds found =>
        cases moved
        exact kept.respond found
      next => cases moved
  | answer index =>
      dsimp only [Favoring.step] at moved
      split at moved
      next toggle favoriteIds favorites found =>
        cases moved
        exact kept.accept found inTurn
      next => cases moved
  | fail index =>
      dsimp only [Favoring.step] at moved
      split at moved
      next waiting found =>
        cases moved
        exact kept.fail found (inTurn waiting found)
      next => cases moved

theorem kept_of_reached (reached : (favoring caller before).ReachedWithin InTurn world) :
    Kept caller before world := by
  refine reached.invariant ?_ ?_
  · intro start ⟨sound, live, server, client, stars, idle, none_⟩
    have quiet : start.unheard = [] := by rw [Favoring.unheard, idle]; rfl
    have begins : start.reached before = before := by
      rw [Favoring.reached, quiet, none_]
      rfl
    refine ⟨sound, live, ?_, ?_, ?_, ?_, ?_, ?_⟩
    · rw [idle]
      exact nofun
    · rw [idle]
      exact .nil
    · rw [begins]
      exact server
    · rw [begins]
      exact client.agreesBut _
    · rw [quiet]
      intro place waiting favorites located
      simp at located
    · rw [none_]
      exact stars
  · intro state click next kept inTurn moved
    exact kept.step inTurn moved

/-- **Toggles that keep to turns** are not lost. -/
theorem toggles_not_lost
    (reached : (favoring caller before).ReachedWithin InTurn world) :
    NotLost caller before world := by
  intro idle
  have kept := kept_of_reached reached
  have quiet : world.unheard = [] := by rw [Favoring.unheard, idle]; rfl
  have last : world.reached before = wanted before world.succeeded := by
    rw [Favoring.reached, quiet, List.map_nil, List.append_nil]
  rw [← last]
  have client := kept.client
  rw [quiet] at client
  refine ⟨kept.server, client.isExactly, ?_⟩
  rw [last]
  exact kept.stars

/-! ## One toggle after the other, and two at once -/

/-- User 1 with two dashboards, the first of them home. -/
def twoBoards : Rows where
  now := 0
  store := ⟨[⟨firstBoard, 1, "My Dashboard", none, 0, 0, 0⟩,
      ⟨secondBoard, 1, "Second", none, 0, 0, 0⟩], [], by decide⟩
  nextShareId := 0
  users := [⟨1, none, [(homeKey, .text firstBoard.text), (favoritesKey, .array [])]⟩]
  invites := []

theorem twoBoards_sound : Sound twoBoards where
  ids := .nil
  fresh := nofun
  tidy := by
    intro user present
    rw [List.mem_singleton.mp present]
    constructor
    · intro value stored
      refine .inr ⟨firstBoard, (Option.some.inj stored).symm, ?_⟩
      exact ⟨_, List.mem_cons_self, rfl, rfl, .inl rfl⟩
    · intro value stored
      exact ⟨[], (Option.some.inj stored).symm, List.nodup_nil, List.forall_mem_nil _⟩

def unstarred : Favoring where
  rows := twoBoards
  favorites := []
  summaries := [⟨firstBoard, false⟩, ⟨secondBoard, false⟩]
  dashboard := none
  waiting := []
  succeeded := []

theorem unstarred_initial : (favoring 1 fun _ => false).Initial unstarred := by
  refine ⟨twoBoards_sound, ⟨_, rfl⟩, ?_, ?_, ⟨?_, nofun⟩, rfl, rfl⟩
  · intro text
    have none_ : serverFavorites 1 unstarred.rows = [] := rfl
    simp [none_]
  · intro text
    simp [unstarred]
  · intro summary member
    rcases List.mem_pair.mp member with rfl | rfl <;> rfl

def answered (index : Nat) : List Click := [.run index, .refresh index, .answer index]

/-- The first dashboard is turned on twice at once, and the second when both are answered. -/
theorem toggles_not_lost_in_turn : ∃ world : Favoring,
    world.favorites = [firstBoard.text, secondBoard.text] ∧ NotLost 1 (fun _ => false) world := by
  obtain ⟨world, reached, both⟩ := TransitionSystem.exists_reachedWithin_of_run InTurn
    unstarred_initial
    (.toggle ⟨firstBoard, false⟩ :: .toggle ⟨firstBoard, false⟩ :: answered 0 ++ answered 0 ++
      .toggle ⟨secondBoard, false⟩ :: answered 0)
    (fun world => decide (world.favorites = [firstBoard.text, secondBoard.text]))
    (by decide +kernel)
  exact ⟨world, of_decide_eq_true both, toggles_not_lost reached⟩

/-- The second dashboard is turned on while the first is under way: the first is lost. -/
theorem overlapping_toggle_lost :
    ¬ ∀ world, (favoring 1 fun _ => false).Reachable world → NotLost 1 (fun _ => false) world := by
  intro kept
  obtain ⟨world, reached, lost⟩ := TransitionSystem.exists_reachable_of_run unstarred_initial
    (.toggle ⟨firstBoard, false⟩ :: .toggle ⟨secondBoard, false⟩ :: answered 0 ++ answered 0)
    (fun world => world.waiting.isEmpty && wanted (fun _ => false) world.succeeded firstBoard &&
      !decide (firstBoard.text ∈ serverFavorites 1 world.rows)) (by decide +kernel)
  simp only [Bool.and_eq_true, Bool.not_eq_true', decide_eq_false_iff_not] at lost
  obtain ⟨⟨idle, asked⟩, absent⟩ := lost
  have server := (kept world reached (List.isEmpty_iff.mp idle)).1
  exact absent ((server.text_mem firstBoard).mpr asked)

end FrontDashboard.Preferences
