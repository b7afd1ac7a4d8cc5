/-
The rows of `users` and `user_settings` with the columns that the profile, the settings and the registration read or
write (`lumiere-server/src/routes/users.rs`, `auth.rs`). `User` of `Db/Postgres.lean` is the part of an account that the
server and message handlers read. `updated_at` is left out.
-/
import Lumiere.Core.Json
import Lumiere.Db.Postgres

namespace Lumiere.Db

open Lumiere.Core Lumiere.Models

structure Account where
  id : ℤ
  username : String
  discriminator : ℤ
  email : String
  passwordHash : String
  avatar : Option String
  banner : Option String
  bio : Option String
  locale : String
  flags : ℤ
  premiumType : ℤ
  isBot : Bool
  isSystem : Bool
  deletedAt : Option DateTime
  createdAt : DateTime
deriving DecidableEq, Repr

structure UserSettings where
  userId : ℤ
  theme : String
  messageDisplay : String
  locale : String
  showCurrentGame : Bool
  inlineAttachmentMedia : Bool
  inlineEmbedMedia : Bool
  renderEmbeds : Bool
  renderReactions : Bool
  animateEmoji : Bool
  enableTts : Bool
  status : String
  customStatus : Option Value
  dmNotifications : Bool
  friendRequestNotifications : Bool

structure Accounts where
  users : Table Account.id
  settings : Table UserSettings.userId

/-! ## Statements -/

/-- the columns that `update_me` sets, each if it is in the request -/
structure ProfileChanges where
  username : Option String
  avatar : Option (Option String)
  banner : Option (Option String)
  bio : Option String
  locale : Option String
deriving DecidableEq, Repr

def ProfileChanges.checked (c : ProfileChanges) : Except DbError ProfileChanges := do
  return {
    username := ← c.username.mapM (varchar 32)
    avatar := ← c.avatar.mapM (varchar? 255)
    banner := ← c.banner.mapM (varchar? 255)
    bio := ← c.bio.mapM (varchar 190)
    locale := ← c.locale.mapM (varchar 10) }

def ProfileChanges.apply (c : ProfileChanges) (u : Account) : Account :=
  { u with
    username := c.username.getD u.username
    avatar := c.avatar.getD u.avatar
    banner := c.banner.getD u.banner
    bio := c.bio.elim u.bio some
    locale := c.locale.getD u.locale }

@[simp] theorem ProfileChanges.apply_id (c : ProfileChanges) (u : Account) : (c.apply u).id = u.id := rfl

/-- the columns that `update_settings` sets, each if it is in the request -/
structure SettingsChanges where
  theme : Option String
  messageDisplay : Option String
  locale : Option String
  showCurrentGame : Option Bool
  inlineAttachmentMedia : Option Bool
  inlineEmbedMedia : Option Bool
  renderEmbeds : Option Bool
  renderReactions : Option Bool
  animateEmoji : Option Bool
  enableTts : Option Bool
  status : Option String
  customStatus : Option (Option Value)
  dmNotifications : Option Bool
  friendRequestNotifications : Option Bool

def SettingsChanges.checked (c : SettingsChanges) : Except DbError SettingsChanges := do
  return { c with
    theme := ← c.theme.mapM (varchar 10)
    messageDisplay := ← c.messageDisplay.mapM (varchar 10)
    locale := ← c.locale.mapM (varchar 10)
    status := ← c.status.mapM (varchar 10) }

def SettingsChanges.apply (c : SettingsChanges) (s : UserSettings) : UserSettings :=
  { s with
    theme := c.theme.getD s.theme
    messageDisplay := c.messageDisplay.getD s.messageDisplay
    locale := c.locale.getD s.locale
    showCurrentGame := c.showCurrentGame.getD s.showCurrentGame
    inlineAttachmentMedia := c.inlineAttachmentMedia.getD s.inlineAttachmentMedia
    inlineEmbedMedia := c.inlineEmbedMedia.getD s.inlineEmbedMedia
    renderEmbeds := c.renderEmbeds.getD s.renderEmbeds
    renderReactions := c.renderReactions.getD s.renderReactions
    animateEmoji := c.animateEmoji.getD s.animateEmoji
    enableTts := c.enableTts.getD s.enableTts
    status := c.status.getD s.status
    customStatus := c.customStatus.getD s.customStatus
    dmNotifications := c.dmNotifications.getD s.dmNotifications
    friendRequestNotifications := c.friendRequestNotifications.getD s.friendRequestNotifications }

@[simp] theorem SettingsChanges.apply_userId (c : SettingsChanges) (s : UserSettings) :
    (c.apply s).userId = s.userId := rfl

/-- the row of a new account, other columns at their defaults -/
def newAccount (id : ℤ) (username email passwordHash : String) (now : DateTime) : Account :=
  { id, username, discriminator := 0, email, passwordHash, avatar := none, banner := none, bio := none,
    locale := "en-US", flags := 0, premiumType := 0, isBot := false, isSystem := false, deletedAt := none,
    createdAt := now }

/-- the row of a new account, every column but the key at its default -/
def defaultSettings (userId : ℤ) : UserSettings :=
  { userId, theme := "dark", messageDisplay := "cozy", locale := "en-US", showCurrentGame := true,
    inlineAttachmentMedia := true, inlineEmbedMedia := true, renderEmbeds := true, renderReactions := true,
    animateEmoji := true, enableTts := true, status := "online", customStatus := none, dmNotifications := true,
    friendRequestNotifications := true }

inductive AccountStmt where
  | insertUser (row : Account)
  | insertSettings (userId : ℤ)
  /-- `WHERE id = $1 AND deleted_at IS NULL` -/
  | updateProfile (userId : ℤ) (changes : ProfileChanges)
  | updateSettings (userId : ℤ) (changes : SettingsChanges)

def Accounts.exec (s : Accounts) : AccountStmt → Except DbError (ℕ × Accounts)
  | .insertUser row => do
    let row := { row with
      username := ← varchar 32 row.username
      email := ← varchar 255 row.email
      passwordHash := ← varchar 255 row.passwordHash }
    let users ← unique "users_pkey" s.users row
    requires (.duplicateKey "users_username_key") (!s.users.any fun u => u.username = row.username)
    requires (.duplicateKey "users_email_key") (!s.users.any fun u => u.email = row.email)
    return (1, { s with users })
  | .insertSettings userId => do
    let settings ← unique "user_settings_pkey" s.settings (defaultSettings userId)
    requires (.foreignKey "user_settings" "user_settings_user_id_fkey") (s.users.any fun u => u.id = userId)
    return (1, { s with settings })
  | .updateProfile userId changes => do
    let changes ← changes.checked
    requires (.duplicateKey "users_username_key")
      (!(s.users.any fun u => u.id = userId && u.deletedAt.isNone) || changes.username.all fun name =>
        !s.users.any fun u => u.id ≠ userId && u.username = name)
    return (s.users.count fun u => u.id = userId && u.deletedAt.isNone, { s with
      users := s.users.updateWhere (fun u => u.id = userId && u.deletedAt.isNone) changes.apply changes.apply_id })
  | .updateSettings userId changes => do
    let changes ← changes.checked
    return (s.settings.count fun r => r.userId = userId, { s with
      settings := s.settings.updateWhere (fun r => r.userId = userId) changes.apply changes.apply_userId })

/-! ## Effects -/

variable {s s' : Accounts} {n : ℕ}

theorem exec_insertUser {row : Account} (h : s.exec (.insertUser row) = .ok (n, s')) :
    ∃ username email passwordHash, varchar 32 row.username = .ok username ∧
      { row with username, email, passwordHash } ∈ s'.users := by
  simp only [Accounts.exec, bind_eq_ok, pure_eq_ok, requires_eq_ok, unique_eq_ok, Prod.mk.injEq] at h
  obtain ⟨username, hname, email, -, passwordHash, -, users, hinsert, _, -, _, -, -, rfl⟩ := h
  refine ⟨username, email, passwordHash, hname, ?_⟩
  rw [← Table.mem_rows, Table.rows_insert? hinsert]
  exact List.mem_append_right _ (List.mem_singleton_self _)

theorem exec_insertSettings {userId : ℤ} (h : s.exec (.insertSettings userId) = .ok (n, s')) : s'.users = s.users := by
  simp only [Accounts.exec, bind_eq_ok, pure_eq_ok, requires_eq_ok, unique_eq_ok, Prod.mk.injEq] at h
  obtain ⟨_, -, _, -, -, rfl⟩ := h
  rfl

theorem exec_updateProfile {userId : ℤ} {changes : ProfileChanges}
    (h : s.exec (.updateProfile userId changes) = .ok (n, s')) :
    ∃ checked, changes.checked = .ok checked ∧ n = (s.users.count fun u => u.id = userId && u.deletedAt.isNone) ∧
      s' = { s with users :=
        s.users.updateWhere (fun u => u.id = userId && u.deletedAt.isNone) checked.apply checked.apply_id } := by
  simp only [Accounts.exec, bind_eq_ok, pure_eq_ok, Prod.mk.injEq] at h
  obtain ⟨checked, hchecked, _, -, rfl, rfl⟩ := h
  exact ⟨checked, hchecked, rfl, rfl⟩

theorem exec_updateSettings {userId : ℤ} {changes : SettingsChanges}
    (h : s.exec (.updateSettings userId changes) = .ok (n, s')) :
    ∃ checked, changes.checked = .ok checked ∧ n = (s.settings.count fun r => r.userId = userId) ∧
      s' = { s with settings :=
        s.settings.updateWhere (fun r => r.userId = userId) checked.apply checked.apply_userId } := by
  simp only [Accounts.exec, bind_eq_ok, pure_eq_ok, Prod.mk.injEq] at h
  obtain ⟨checked, hchecked, rfl, rfl⟩ := h
  exact ⟨checked, hchecked, rfl, rfl⟩

end Lumiere.Db
