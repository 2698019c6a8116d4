import FrontDashboard.Preferences.Routes

/-! # Toggling favorites

The favorites as the store of dashboards changes them: a toggle sends the whole list that it
computes from the user the client holds, `update_preferences` stores it and answers with the
row as it reads it back, and the reply replaces the user. Any number of toggles is under way
at a time, within one session.
-/

namespace FrontDashboard.Preferences

open Access (UserId)

/-! ## The server -/

/-- `UserPreferences`, the part of the document that a response names. -/
structure UserPreferences where
  homeDashboardId : Option String
  favoriteDashboardIds : List String

/-- An optional text: absent, null or a text. -/
def Json.optionalText : Option Json → Option (Option String)
  | none => some none
  | some .null => some none
  | some (.text value) => some (some value)
  | some _ => none

/-- A list of texts, where an absent one is empty. -/
def Json.texts : Option Json → Option (List String)
  | none => some []
  | some (.array items) => items.mapM Json.asText
  | some _ => none

/-- `UserPreferences.model_validate`. -/
def UserPreferences.modelValidate (document : Document) : Option UserPreferences := do
  let home ← Json.optionalText (document.get homeKey)
  let favorites ← Json.texts (document.get favoritesKey)
  some ⟨home, favorites⟩

/-- The preferences of `UserResponse`, read back after the commit. -/
def userResponse (caller : UserId) (rows : Rows) : Option UserPreferences :=
  match getCurrentUser caller rows with
  | .error _ => none
  | .ok user => UserPreferences.modelValidate user.preferences

/-- The favorites that the server holds for a user. -/
def serverFavorites (caller : UserId) (rows : Rows) : List String :=
  match getCurrentUser caller rows with
  | .error _ => []
  | .ok user => favoriteDashboardIdStrings user.preferences

/-! ## The client -/

/-- The arguments of `toggleFavorite`. -/
structure Toggle where
  id : Uuid
  current : Bool

/-- `nextFavoriteIds`. -/
def Toggle.nextFavoriteIds (toggle : Toggle) (currentFavoriteIds : List String) : List String :=
  let others := currentFavoriteIds.filter fun favoriteId => favoriteId ≠ toggle.id.text
  if toggle.current then others else others ++ [toggle.id.text]

/-- How far a request has come: on its way, committed, answered, or answered with an error. -/
inductive Progress
  | sent
  | committed
  | replied (favorites : List String)
  | refused

/-- A toggle that waits for its reply. -/
structure Waiting where
  toggle : Toggle
  favoriteIds : List String
  progress : Progress

/-- The server has run the request, and the client knows nothing of it. -/
def Waiting.unheard (waiting : Waiting) : Bool :=
  match waiting.progress with
  | .committed => true
  | .replied _ => true
  | .sent => false
  | .refused => false

def Waiting.unsent (waiting : Waiting) : Bool :=
  match waiting.progress with
  | .sent => true
  | _ => false

structure Summary where
  id : Uuid
  isFavorite : Bool

/-- The server, the client, the toggles under way in the order they were issued, and those
that succeeded in the order of their replies. -/
structure Favoring where
  rows : Rows
  favorites : List String
  summaries : List Summary
  dashboard : Option Summary
  waiting : List Waiting
  succeeded : List Toggle

/-- A dashboard's star after a toggle of it. -/
def Toggle.mark (toggle : Toggle) (summary : Summary) : Summary :=
  if summary.id = toggle.id then { summary with isFavorite := !toggle.current } else summary

inductive Click
  | toggle (toggle : Toggle)
  | run (index : Nat)
  | refresh (index : Nat)
  | answer (index : Nat)
  | fail (index : Nat)

namespace Favoring

variable (caller : UserId)

def advance (world : Favoring) (index : Nat) (waiting : Waiting) (progress : Progress) : Favoring :=
  { world with waiting := world.waiting.set index { waiting with progress } }

def issue (world : Favoring) (toggle : Toggle) : Favoring :=
  { world with
    waiting := world.waiting ++ [⟨toggle, toggle.nextFavoriteIds world.favorites, .sent⟩] }

/-- `update_preferences`, up to its commit. -/
def runUpdate (world : Favoring) (index : Nat) (waiting : Waiting) : Favoring :=
  match updatePreferences caller ⟨none, some (some waiting.favoriteIds)⟩ world.rows with
  | .error _ => world.advance index waiting .refused
  | .ok rows => { world.advance index waiting .committed with rows }

/-- `db.refresh` and the response. -/
def respond (world : Favoring) (index : Nat) (waiting : Waiting) : Favoring :=
  match userResponse caller world.rows with
  | none => world.advance index waiting .refused
  | some preferences => world.advance index waiting (.replied preferences.favoriteDashboardIds)

/-- What the client does with a reply. -/
def accept (world : Favoring) (index : Nat) (toggle : Toggle) (favorites : List String) :
    Favoring :=
  { world with
    favorites
    summaries := world.summaries.map toggle.mark
    dashboard := world.dashboard.map toggle.mark
    waiting := world.waiting.eraseIdx index
    succeeded := world.succeeded ++ [toggle] }

/-- One step; a request may fail at any time, also after the server has run it. -/
def step (world : Favoring) (click : Click) : Option Favoring :=
  match click with
  | .toggle toggle => some (world.issue toggle)
  | .run index =>
      match world.waiting[index]? with
      | some ⟨toggle, favoriteIds, .sent⟩ =>
          some (world.runUpdate caller index ⟨toggle, favoriteIds, .sent⟩)
      | _ => none
  | .refresh index =>
      match world.waiting[index]? with
      | some ⟨toggle, favoriteIds, .committed⟩ =>
          some (world.respond caller index ⟨toggle, favoriteIds, .committed⟩)
      | _ => none
  | .answer index =>
      match world.waiting[index]? with
      | some ⟨toggle, _, .replied favorites⟩ => some (world.accept index toggle favorites)
      | _ => none
  | .fail index =>
      match world.waiting[index]? with
      | some _ => some { world with waiting := world.waiting.eraseIdx index }
      | none => none

end Favoring

/-! ## What the toggles ask for -/

/-- The favorites after a toggle, as a set. -/
def Toggle.apply (on : Uuid → Bool) (toggle : Toggle) : Uuid → Bool :=
  fun id => if id = toggle.id then !toggle.current else on id

/-- Whether the last toggle of a dashboard turned it on; without one, whether it was on. -/
def wanted (before : Uuid → Bool) (toggles : List Toggle) : Uuid → Bool :=
  toggles.foldl Toggle.apply before

/-- The list holds the ids of a set, and nothing else. -/
def IsExactly (favorites : List String) (on : Uuid → Bool) : Prop :=
  ∀ text, text ∈ favorites ↔ ∃ id : Uuid, text = id.text ∧ on id = true

/-- Every star that is shown is that of the set. -/
def Starred (world : Favoring) (on : Uuid → Bool) : Prop :=
  (∀ summary ∈ world.summaries, summary.isFavorite = on summary.id) ∧
    ∀ summary ∈ world.dashboard, summary.isFavorite = on summary.id

end FrontDashboard.Preferences
