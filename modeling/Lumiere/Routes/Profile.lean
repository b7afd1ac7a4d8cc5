/-
The requests that write accounts: `register` (`lumiere-server/src/routes/auth.rs`), `update_me` and `update_settings`
(`routes/users.rs`). What Redis answers to the count of username changes is a parameter, and the presence that
`update_settings` stores afterwards, whose failure is ignored, is left out.

- `updateMe_ok`, `updateSettings_ok`: an accepted request writes the row that it answers with.
- `register_ok`: an accepted registration inserts the row.
-/
import Lumiere.Db.Accounts
import Lumiere.Routes.Channels

namespace Lumiere.Routes

open Lumiere.Core Lumiere.Core.Prog Lumiere.Models Lumiere.Db

abbrev AccountHandler := Prog Accounts AccountStmt AppError

/-- a statement as the handlers see it -/
def accountStatement (w : AccountStmt) (s : Accounts) : Except AppError (ℕ × Accounts) :=
  match s.exec w with
  | .ok r => .ok r
  | .error e => .error (dbErr e)

theorem accountStatement_eq_ok {w : AccountStmt} {s : Accounts} {r : ℕ × Accounts} :
    accountStatement w s = .ok r ↔ s.exec w = .ok r := by
  rw [accountStatement]
  rcases s.exec w with e | r' <;> simp

/-! ## Registration -/

structure RegisterRequest where
  username : String
  email : String
  password : String
deriving DecidableEq, Repr

/-- `isEmail` is the validator's check -/
def RegisterRequest.validate (isEmail : String → Bool) (body : RegisterRequest) : List FieldError :=
  lengthErrors "username" 2 32 body.username ++ (if isEmail body.email then [] else [⟨"email", "Invalid email"⟩]) ++
    lengthErrors "password" 8 128 body.password

/-- what `register` writes to PostgreSQL; the tokens and the session, which is in Redis, are made afterwards -/
def registerPostgres (isEmail : String → Bool) (unicode : Unicode) (hashPassword : String → Except String String)
    (body : RegisterRequest) (userId : ℤ) (now : DateTime) : AccountHandler Unit := do
  failIf (body.validate isEmail ≠ []) (.validation (body.validate isEmail))
  let email := Str.trim (unicode.toLowercase body.email)
  let username := Str.trim body.username
  let taken ← select fun s => s.users.any fun u => u.email = email || u.username = username
  failIf taken (.alreadyExists "Email or username already taken")
  let passwordHash ← ofExcept ((hashPassword body.password).mapError .internal)
  execute (.insertUser (newAccount userId username email passwordHash now))
  execute (.insertSettings userId)

/-! ## Profile -/

structure FullUser where
  id : ℤ
  username : String
  discriminator : ℤ
  email : String
  avatar : Option String
  banner : Option String
  bio : Option String
  locale : String
  flags : ℤ
  premiumType : ℤ
  isBot : Bool
  createdAt : DateTime
deriving DecidableEq, Repr

def FullUser.ofRow (u : Account) : FullUser :=
  ⟨u.id, u.username, u.discriminator, u.email, u.avatar, u.banner, u.bio, u.locale, u.flags, u.premiumType, u.isBot,
    u.createdAt⟩

structure UpdateProfileRequest where
  username : Option String
  avatar : Option (Option String)
  banner : Option (Option String)
  bio : Option String
  locale : Option String
deriving DecidableEq, Repr

def UpdateProfileRequest.validate (body : UpdateProfileRequest) : List FieldError :=
  body.username.elim [] (lengthErrors "username" 2 32) ++ body.bio.elim [] (lengthErrors "bio" 0 190) ++
    body.locale.elim [] (lengthErrors "locale" 0 10)

def UpdateProfileRequest.isEmpty (body : UpdateProfileRequest) : Bool :=
  body.username.isNone && body.avatar.isNone && body.banner.isNone && body.bio.isNone && body.locale.isNone

def UpdateProfileRequest.changes (body : UpdateProfileRequest) : ProfileChanges :=
  { username := body.username.map Str.trim, avatar := body.avatar, banner := body.banner, bio := body.bio,
    locale := body.locale }

/-- at most two changes an hour, to a name that no other account has -/
def checkUsername (auth count : ℤ) (usernameVal : String) : AccountHandler Unit := do
  failIf (2 < count) (.rateLimited 3600)
  let username := Str.trim usernameVal
  let taken ← select fun s => s.users.any fun u => u.username = username && u.id ≠ auth
  failIf taken (.alreadyExists "Username already taken")

/-- `RETURNING` the columns of the row that an update wrote, if it wrote one -/
def updateProfile (auth : ℤ) (changes : ProfileChanges) : AccountHandler (Option FullUser) := do
  let n ← affected (.updateProfile auth changes)
  let row ← select fun s => s.users.find? fun u => u.id = auth
  pure (if n = 0 then none else row.map .ofRow)

/-- `count` is what the script on `username_change:{id}` answers, 0 if Redis does not -/
def updateMe (auth : ℤ) (body : UpdateProfileRequest) (count : ℤ) : AccountHandler FullUser := do
  failIf (body.validate ≠ []) (.validation body.validate)
  body.username.forM (checkUsername auth count)
  failIf body.isEmpty (.badRequest "No fields to update")
  let row ← updateProfile auth body.changes
  orFail (.notFound "User not found") row

/-! ## Settings -/

structure UpdateSettingsRequest where
  theme : Option String
  messageDisplay : Option String
  locale : Option String
  showCurrentGame : Option Bool
  inlineAttachmentMedia : Option Bool
  inlineEmbedMedia : Option Bool
  renderEmbeds : Option Bool
  renderReactions : Option Bool
  animateEmoji : Option Bool
  enableTts : Option Bool
  status : Option String
  customStatus : Option (Option Value)
  dmNotifications : Option Bool
  friendRequestNotifications : Option Bool

def UpdateSettingsRequest.isEmpty (body : UpdateSettingsRequest) : Bool :=
  body.theme.isNone && body.messageDisplay.isNone && body.locale.isNone && body.showCurrentGame.isNone &&
    body.inlineAttachmentMedia.isNone && body.inlineEmbedMedia.isNone && body.renderEmbeds.isNone &&
    body.renderReactions.isNone && body.animateEmoji.isNone && body.enableTts.isNone && body.status.isNone &&
    body.customStatus.isNone && body.dmNotifications.isNone && body.friendRequestNotifications.isNone

def UpdateSettingsRequest.changes (body : UpdateSettingsRequest) : SettingsChanges :=
  { theme := body.theme, messageDisplay := body.messageDisplay, locale := body.locale,
    showCurrentGame := body.showCurrentGame, inlineAttachmentMedia := body.inlineAttachmentMedia,
    inlineEmbedMedia := body.inlineEmbedMedia, renderEmbeds := body.renderEmbeds,
    renderReactions := body.renderReactions, animateEmoji := body.animateEmoji, enableTts := body.enableTts,
    status := body.status, customStatus := body.customStatus, dmNotifications := body.dmNotifications,
    friendRequestNotifications := body.friendRequestNotifications }

def validStatuses : List String := ["online", "idle", "dnd", "invisible"]

def updateUserSettings (auth : ℤ) (changes : SettingsChanges) : AccountHandler (Option UserSettings) := do
  let n ← affected (.updateSettings auth changes)
  let row ← select fun s => s.settings.find? fun r => r.userId = auth
  pure (if n = 0 then none else row)

/-- "offline" is for the server to set -/
def updateSettings (auth : ℤ) (body : UpdateSettingsRequest) : AccountHandler UserSettings := do
  failIf (body.status.any fun status => status ∉ validStatuses)
    (.badRequest ("Invalid status. Must be one of: " ++ ", ".intercalate validStatuses))
  failIf body.isEmpty (.badRequest "No fields to update")
  let row ← updateUserSettings auth body.changes
  orFail (.notFound "Settings not found") row

/-! ## Accepted requests -/

variable {s s' : Accounts} {auth count : ℤ}

theorem register_ok {isEmail : String → Bool} {unicode : Unicode} {hashPassword : String → Except String String}
    {body : RegisterRequest} {userId : ℤ} {now : DateTime} {u : Unit}
    (h : (registerPostgres isEmail unicode hashPassword body userId now).run accountStatement s = (.ok u, s')) :
    ∃ row ∈ s'.users, row.id = userId ∧ varchar 32 (Str.trim body.username) = .ok row.username := by
  rw [registerPostgres] at h
  obtain ⟨_, s₁, hvalid, h₁⟩ := run_bind_eq_ok.1 h
  obtain ⟨-, rfl⟩ := failIf_eq_ok.1 hvalid
  dsimp only at h₁
  obtain ⟨taken, s₂, hselect, h₂⟩ := run_bind_eq_ok.1 h₁
  obtain ⟨-, rfl⟩ := Prod.mk.inj hselect
  obtain ⟨_, s₃, htaken, h₃⟩ := run_bind_eq_ok.1 h₂
  obtain ⟨-, rfl⟩ := failIf_eq_ok.1 htaken
  obtain ⟨passwordHash, s₄, hhash, h₄⟩ := run_bind_eq_ok.1 h₃
  rw [run_ofExcept] at hhash
  obtain ⟨-, rfl⟩ := Prod.mk.inj hhash
  obtain ⟨_, s₅, hinsert, h₅⟩ := run_bind_eq_ok.1 h₄
  obtain ⟨_, hinsert⟩ := execute_eq_ok.1 hinsert
  obtain ⟨_, hsettings⟩ := execute_eq_ok.1 h₅
  obtain ⟨username, email, passwordHash', hname, hmem⟩ := exec_insertUser (accountStatement_eq_ok.1 hinsert)
  rw [exec_insertSettings (accountStatement_eq_ok.1 hsettings)]
  exact ⟨_, hmem, rfl, hname⟩

/-- the row that is answered after `n` rows are written -/
theorem returned_eq_ok {α β : Type} {f : Accounts → Option α} {g : Option α → Option β} {n : ℕ} {b : β}
    (h : (select f >>= fun row => pure (if n = 0 then none else g row)).run accountStatement s =
      ((.ok (some b) : Except AppError (Option β)), s')) : n ≠ 0 ∧ g (f s) = some b ∧ s' = s := by
  obtain ⟨row, s₁, hselect, hreturned⟩ := run_bind_eq_ok.1 h
  obtain ⟨hrow, rfl⟩ := Prod.mk.inj hselect
  obtain rfl := Except.ok.inj hrow
  obtain ⟨hsome, rfl⟩ := Prod.mk.inj hreturned
  have hsome := Except.ok.inj hsome
  split at hsome
  · nomatch hsome
  · exact ⟨‹_›, hsome, rfl⟩

/-- an accepted change of the profile writes the row of the account, which is the answer -/
theorem updateMe_ok {body : UpdateProfileRequest} {user : FullUser}
    (h : (updateMe auth body count).run accountStatement s = (.ok user, s')) :
    body.validate = [] ∧ ∃ row ∈ s.users, ∃ checked, row.id = auth ∧ body.changes.checked = .ok checked ∧
      checked.apply row ∈ s'.users ∧ user = .ofRow (checked.apply row) := by
  rw [updateMe] at h
  obtain ⟨_, s₁, hvalid, h₁⟩ := run_bind_eq_ok.1 h
  obtain ⟨hok, rfl⟩ := failIf_eq_ok.1 hvalid
  obtain ⟨_, s₂, hname, h₂⟩ := run_bind_eq_ok.1 h₁
  have hread : (body.username.forM (checkUsername auth count)).ReadOnly := by
    refine issues_forM_option fun name _ => ?_
    unfold checkUsername
    exact issues_bind (issues_failIf _ _) fun _ => issues_bind (issues_select _) fun _ => issues_failIf _ _
  obtain rfl := hread.eq_of_run hname
  obtain ⟨_, s₃, hempty, h₃⟩ := run_bind_eq_ok.1 h₂
  obtain ⟨-, rfl⟩ := failIf_eq_ok.1 hempty
  obtain ⟨row?, s₄, hupdate, h₄⟩ := run_bind_eq_ok.1 h₃
  obtain ⟨rfl, rfl⟩ := orFail_eq_ok.1 h₄
  rw [updateProfile] at hupdate
  obtain ⟨n, s₅, hexec, hreturning⟩ := run_bind_eq_ok.1 hupdate
  obtain ⟨checked, hchecked, rfl, rfl⟩ := exec_updateProfile (accountStatement_eq_ok.1 (affected_eq_ok.1 hexec))
  obtain ⟨hcount, hsome, rfl⟩ := returned_eq_ok hreturning
  obtain ⟨row', hfind, rfl⟩ := Option.map_eq_some_iff.1 hsome
  obtain ⟨row, hmem, hrow, rfl, hmem'⟩ := Table.mem_of_returning checked.apply_id (by simp_all) hcount hfind
  have hid : row.id = auth := by simp_all
  exact ⟨not_not.1 hok, row, hmem, checked, hid, hchecked, hmem', rfl⟩

theorem updateSettings_ok {body : UpdateSettingsRequest} {settings : UserSettings}
    (h : (updateSettings auth body).run accountStatement s = (.ok settings, s')) :
    ∃ row ∈ s.settings, ∃ checked, row.userId = auth ∧ body.changes.checked = .ok checked ∧
      checked.apply row ∈ s'.settings ∧ settings = checked.apply row := by
  rw [updateSettings] at h
  obtain ⟨_, s₁, hstatus, h₁⟩ := run_bind_eq_ok.1 h
  obtain ⟨-, rfl⟩ := failIf_eq_ok.1 hstatus
  obtain ⟨_, s₂, hempty, h₂⟩ := run_bind_eq_ok.1 h₁
  obtain ⟨-, rfl⟩ := failIf_eq_ok.1 hempty
  obtain ⟨row?, s₃, hupdate, h₃⟩ := run_bind_eq_ok.1 h₂
  obtain ⟨rfl, rfl⟩ := orFail_eq_ok.1 h₃
  rw [updateUserSettings] at hupdate
  obtain ⟨n, s₄, hexec, hreturning⟩ := run_bind_eq_ok.1 hupdate
  obtain ⟨checked, hchecked, rfl, rfl⟩ := exec_updateSettings (accountStatement_eq_ok.1 (affected_eq_ok.1 hexec))
  obtain ⟨hcount, hsome, rfl⟩ := returned_eq_ok hreturning
  obtain ⟨row, hmem, hrow, rfl, hmem'⟩ := Table.mem_of_returning checked.apply_userId (by simp) hcount hsome
  exact ⟨row, hmem, checked, of_decide_eq_true hrow, hchecked, hmem', rfl⟩

end Lumiere.Routes
