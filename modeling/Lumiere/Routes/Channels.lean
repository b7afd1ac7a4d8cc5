/-
The handlers of `lumiere-server/src/routes/channels.rs` that write channels and their overrides, and `delete_me` of
`users.rs`. Each statement commits on its own, except in `update_channel`, which replaces the overrides in a
transaction.

- `run_sql`: a handler over the statements of servers and roles runs as it did.
-/
import Lumiere.Db.ChannelStatements
import Lumiere.Routes.Footprints

namespace Lumiere.Routes

open Lumiere.Core Lumiere.Core.Prog Lumiere.Models Lumiere.Db

abbrev PgHandler := Prog Postgres Stmt AppError

/-- a statement as the handlers see it -/
def perform (w : Stmt) (pg : Postgres) : Except AppError (ℕ × Postgres) :=
  match Stmt.exec pg w with
  | .ok r => .ok r
  | .error e => .error (dbErr e)

theorem perform_eq_ok {w : Stmt} {pg : Postgres} {r : ℕ × Postgres} : perform w pg = .ok r ↔ Stmt.exec pg w = .ok r := by
  rw [perform]
  rcases Stmt.exec pg w with e | r' <;> simp

def sql {α : Type} (h : Handler α) : PgHandler α := h.lift id .sql

theorem run_sql {α : Type} (h : Handler α) (pg : Postgres) : (sql h).run perform pg = h.run statement pg := by
  have hsem : ∀ w s, perform (.sql w) s = (statement w (id s)).map fun r => (r.1, r.2) := fun w s => by
    rw [perform, Stmt.exec, id, statement]
    rcases Sql.exec s w with e | r <;> rfl
  exact run_lift (u := fun _ x => x) (fun _ _ => rfl) (fun _ => rfl) (fun _ _ _ => rfl) hsem h pg

/-- what `str::to_lowercase` and `char::is_alphanumeric` take from the Unicode tables -/
structure Unicode where
  toLowercase : String → String
  isAlphanumeric : Char → Bool

/-- the names of text and announcement channels are slugs -/
def normalizeChannelName (unicode : Unicode) (name : String) (channelType : ℤ) : String :=
  let trimmed := Str.trim name
  if channelType = 0 ∨ channelType = 5 then
    let hyphened := (unicode.toLowercase trimmed).toList.map fun c => if c = ' ' then '-' else c
    let normalized := String.ofList (hyphened.filter fun c => unicode.isAlphanumeric c || c = '-' || c = '_')
    if normalized.isEmpty then "general" else normalized
  else trimmed

structure OverrideResponse where
  id : ℤ
  type : ℤ
  allow : BitVec 64
  deny : BitVec 64
deriving DecidableEq, Repr

structure ChannelResponse where
  channel : Channel
  permissionOverrides : List OverrideResponse
deriving DecidableEq, Repr

def fetchChannel (channelId : ℤ) : Handler ChannelResponse := do
  let row ← select fun pg => pg.channels.find? fun c => c.id = channelId
  let channel ← orFail (.notFound "Channel not found") row
  let overrides ← select fun pg => pg.permissionOverrides.select fun o => o.channelId = channelId
  pure ⟨channel, overrides.map fun o => ⟨o.targetId, o.targetType, o.allowBits, o.denyBits⟩⟩

/-- the server of a channel and the channel's type, refused for DM channels -/
def serverChannel (channelId : ℤ) (message : String) : Handler (ℤ × ℤ) := do
  let row ← select fun pg => pg.channels.find? fun c => c.id = channelId
  let c ← orFail (.notFound "Channel not found") row
  let serverId ← orFail (.badRequest message) c.serverId
  pure (serverId, c.type)

/-! ## Overrides -/

structure PermissionOverrideInput where
  id : ℤ
  targetType : ℤ
  allow : BitVec 64
  deny : BitVec 64
deriving DecidableEq, Repr

/-- neither a role nor a member -/
def PermissionOverrideInput.badType (ov : PermissionOverrideInput) : Bool := ov.targetType ≠ 0 && ov.targetType ≠ 1

/-- the row of an override, the ADMINISTRATOR bit stripped -/
def PermissionOverrideInput.row (ov : PermissionOverrideInput) (channelId : ℤ) : PermissionOverrideRow :=
  ⟨channelId, ov.id, ov.targetType, ov.allow &&& ~~~1#64, ov.deny &&& ~~~1#64⟩

def badTargetType : AppError := .badRequest "Override target_type must be 0 (role) or 1 (member)"

/-- the overrides of a new channel, one by one -/
def createOverrides (channelId : ℤ) (overrides : List PermissionOverrideInput) : PgHandler Unit :=
  overrides.forM fun ov => do
    failIf ov.badType badTargetType
    execute (.insertOverride (ov.row channelId))

/-- all overrides of a channel at once -/
def replaceOverrides (channelId : ℤ) (overrides : List PermissionOverrideInput) : PgHandler Unit := do
  failIf (overrides.any PermissionOverrideInput.badType) badTargetType
  atomically do
    execute (.deleteOverrides channelId)
    overrides.forM fun ov => execute (.insertOverride (ov.row channelId))

/-! ## Channels -/

structure CreateChannelRequest where
  name : String
  channelType : Option ℤ
  parentId : Option ℤ
  topic : Option String
  position : Option ℤ
  bitrate : Option ℤ
  userLimit : Option ℤ
  rateLimit : Option ℤ
  nsfw : Option Bool
  permissionOverrides : Option (List PermissionOverrideInput)
deriving DecidableEq, Repr

def CreateChannelRequest.validate (body : CreateChannelRequest) : List FieldError :=
  lengthErrors "name" 1 100 body.name ++ body.topic.elim [] (lengthErrors "topic" 0 1024)

/-- a category of the server with room -/
def checkParent (serverId parentId : ℤ) : Handler Unit := do
  let row ← select fun pg => pg.channels.find? fun c => c.id = parentId && c.serverId = some serverId
  let parent ← orFail (.badRequest "Parent channel not found") row
  failIf (parent.type ≠ 4) (.badRequest "Parent must be a category channel")
  let categoryCount ← select fun pg => pg.channels.count fun c => c.parentId = some parentId
  failIf (50 ≤ categoryCount) (.badRequest "Category has reached max channel limit (50)")

def badBitrate (bitrate : ℤ) : Bool := bitrate < 8000 || 384000 < bitrate

def badRateLimit (rateLimit : ℤ) : Bool := rateLimit < 0 || 21600 < rateLimit

/-- what `create_channel` checks before its first write -/
def createChannelChecks (auth serverId : ℤ) (body : CreateChannelRequest) : Handler Unit := do
  failIf (body.validate ≠ []) (.validation body.validate)
  requirePermissions serverId auth .manageChannels
  let channelType := body.channelType.getD 0
  failIf (channelType ∉ [0, 2, 4, 5]) (.badRequest "Invalid channel type for server")
  let channelCount ← select fun pg => pg.channels.count fun c => c.serverId = some serverId
  failIf (500 ≤ channelCount) (.badRequest "Server has reached max channel limit (500)")
  body.parentId.forM (checkParent serverId)
  failIf (channelType = 2 ∧ body.bitrate.any badBitrate) (.badRequest "Bitrate must be 8000-384000")
  failIf (body.rateLimit.any badRateLimit) (.badRequest "Rate limit must be 0-21600 seconds")

def createdChannel (unicode : Unicode) (serverId : ℤ) (body : CreateChannelRequest) (channelId : ℤ) (now : DateTime) :
    Channel :=
  { id := channelId, serverId := some serverId, parentId := body.parentId, type := body.channelType.getD 0,
    name := some (normalizeChannelName unicode body.name (body.channelType.getD 0)), topic := body.topic,
    position := body.position.getD 0, bitrate := body.bitrate, userLimit := body.userLimit,
    rateLimit := body.rateLimit.getD 0, nsfw := body.nsfw.getD false, lastMessageId := none, icon := none,
    e2eeEnabled := false, createdAt := now }

def createChannel (unicode : Unicode) (auth serverId : ℤ) (body : CreateChannelRequest) (channelId : ℤ)
    (now : DateTime) : PgHandler ChannelResponse := do
  sql (createChannelChecks auth serverId body)
  execute (.sql (.insertChannel (createdChannel unicode serverId body channelId now)))
  body.permissionOverrides.forM (createOverrides channelId)
  sql (fetchChannel channelId)

structure UpdateChannelRequest where
  name : Option String
  topic : Option (Option String)
  position : Option ℤ
  parentId : Option (Option ℤ)
  bitrate : Option ℤ
  userLimit : Option ℤ
  rateLimit : Option ℤ
  nsfw : Option Bool
  permissionOverrides : Option (List PermissionOverrideInput)
deriving DecidableEq, Repr

def UpdateChannelRequest.changes (unicode : Unicode) (body : UpdateChannelRequest) (channelType : ℤ) : ChannelChanges :=
  { name := body.name.map fun n => normalizeChannelName unicode n channelType, topic := body.topic,
    position := body.position, parentId := body.parentId, bitrate := body.bitrate, userLimit := body.userLimit,
    rateLimit := body.rateLimit, nsfw := body.nsfw }

/-- what `update_channel` checks before its first write: the lengths are counted in bytes, the parent is not looked at -/
def updateChannelChecks (auth channelId : ℤ) (body : UpdateChannelRequest) : Handler (ℤ × ℤ) := do
  let (serverId, channelType) ← serverChannel channelId "Cannot update DM channels this way"
  requirePermissions serverId auth .manageChannels
  failIf (body.name.any fun name => (Str.trim name).isEmpty || 100 < name.utf8ByteSize)
    (.badRequest "Channel name must be 1-100 characters")
  failIf (body.topic.any fun topic => topic.any fun t => 1024 < t.utf8ByteSize)
    (.badRequest "Topic must be 1024 characters or less")
  failIf (body.bitrate.any badBitrate) (.badRequest "Bitrate must be 8000-384000")
  failIf (body.rateLimit.any badRateLimit) (.badRequest "Rate limit must be 0-21600")
  pure (serverId, channelType)

def updateChannel (unicode : Unicode) (auth channelId : ℤ) (body : UpdateChannelRequest) :
    PgHandler ChannelResponse := do
  let (_, channelType) ← sql (updateChannelChecks auth channelId body)
  let changes := body.changes unicode channelType
  when (!changes.isEmpty) (execute (.updateChannel channelId changes))
  body.permissionOverrides.forM (replaceOverrides channelId)
  sql (fetchChannel channelId)

/-- what `delete_channel` checks before its first write -/
def deleteChannelChecks (auth channelId : ℤ) : Handler (ℤ × ℤ) := do
  let (serverId, channelType) ← serverChannel channelId "Cannot delete DM channels this way"
  requirePermissions serverId auth .manageChannels
  when (channelType = 0) do
    let textCount ← select fun pg => pg.channels.count fun c => c.serverId = some serverId && c.type = 0
    failIf (textCount ≤ 1) (.badRequest "Cannot delete the last text channel in a server")
  pure (serverId, channelType)

def deleteChannel (auth channelId : ℤ) : PgHandler Unit := do
  let (_, channelType) ← sql (deleteChannelChecks auth channelId)
  -- the children of a category move to no category
  when (channelType = 4) (execute (.clearParent channelId))
  execute (.deleteChannel channelId)

structure ChannelPositionUpdate where
  id : ℤ
  position : ℤ
  parentId : Option (Option ℤ)
deriving DecidableEq, Repr

def reorderChannels (auth serverId : ℤ) (body : List ChannelPositionUpdate) : PgHandler Unit := do
  sql (requirePermissions serverId auth .manageChannels)
  body.forM fun update => execute (.moveChannel update.id serverId update.position update.parentId)

/-! ## Accounts -/

/-- what `delete_me` checks before its write -/
def deleteMeChecks (verifyPassword : String → String → Except String Bool) (auth : ℤ) (password : String) :
    Handler Unit := do
  let row ← select fun pg => pg.users.find? fun u => u.id = auth && u.deletedAt.isNone
  let user ← orFail (.notFound "User not found") row
  let valid ← ofExcept ((verifyPassword password user.passwordHash).mapError .internal)
  failIf (!valid) (.unauthorized "Invalid password")
  let ownsServers ← select fun pg => pg.servers.any fun s => s.ownerId = auth
  failIf ownsServers (.badRequest "Transfer ownership of all servers before deleting your account")

/-- the Postgres half of `delete_me`; the sessions, which are in Redis, are revoked afterwards -/
def deleteMePostgres (verifyPassword : String → String → Except String Bool) (auth : ℤ) (password : String)
    (now : DateTime) : PgHandler Unit := do
  sql (deleteMeChecks verifyPassword auth password)
  execute (.softDeleteUser auth now)

end Lumiere.Routes
