/-
The handlers of `lumiere-server/src/routes/servers.rs` that write: servers, members, bans and invites. Each statement
commits on its own, except in `create_server` and `use_invite`, which run in a transaction.

A handler takes the id of the signed-in user, the path and the body, and what it draws from outside the database: the
ids of the generator, the invite code, the clock, the password check. The NATS events are left out: a failed publication
is ignored, and nothing here reads them.
-/
import Lumiere.Routes.Access

namespace Lumiere.Routes

open Lumiere.Core Lumiere.Core.Prog Lumiere.Models Lumiere.Db

/-! ## Servers -/

structure CreateServerRequest where
  name : String
  icon : Option String
  region : Option String
deriving DecidableEq, Repr

def CreateServerRequest.validate (body : CreateServerRequest) : List FieldError := lengthErrors "name" 2 100 body.name

def fetchServer (serverId : ℤ) : Handler Server := do
  let row ← select fun pg => pg.servers.find? fun s => s.id = serverId
  orFail (.notFound "Server not found") row

/-- the row of a new server, other columns at their defaults -/
def newServer (serverId : ℤ) (body : CreateServerRequest) (ownerId : ℤ) (now : DateTime) : Server :=
  { id := serverId, name := Str.trim body.name, icon := body.icon, banner := none, description := none, ownerId,
    region := body.region, features := [], verificationLevel := 0, defaultMessageNotifications := 0,
    explicitContentFilter := 0, systemChannelId := none, rulesChannelId := none, maxMembers := 500000,
    memberCount := 1, createdAt := now }

/-- the @everyone role has the id of its server -/
def everyoneRole (serverId : ℤ) (now : DateTime) : Role :=
  { id := serverId, serverId, name := "@everyone", color := 0, hoist := false, icon := none, position := 0,
    permissions := Permissions.defaultEveryone.bits, mentionable := false, isDefault := true, createdAt := now }

def newChannel (channelId serverId type : ℤ) (name : String) (position : ℤ) (now : DateTime) : Channel :=
  { id := channelId, serverId := some serverId, parentId := none, type, name := some name, topic := none, position,
    bitrate := none, userLimit := none, rateLimit := 0, nsfw := false, lastMessageId := none, icon := none,
    e2eeEnabled := false, createdAt := now }

def newServerMember (serverId userId : ℤ) (now : DateTime) : ServerMember :=
  { serverId, userId, nickname := none, avatar := none, joinedAt := now, communicationDisabledUntil := none, flags := 0 }

def createServer (auth : ℤ) (body : CreateServerRequest) (serverId textChannelId voiceChannelId : ℤ) (now : DateTime) :
    Handler Server := do
  failIf (body.validate ≠ []) (.validation body.validate)
  let serverCount ← select fun pg => pg.serverMembers.count fun m => m.userId = auth
  failIf (100 ≤ serverCount) (.badRequest "You have reached the maximum number of servers (100)")
  atomically do
    execute (.insertServer (newServer serverId body auth now))
    execute (.insertRole (everyoneRole serverId now))
    execute (.insertChannel (newChannel textChannelId serverId 0 "general" 0 now))
    execute (.insertChannel (newChannel voiceChannelId serverId 2 "General" 1 now))
    execute (.updateSystemChannel serverId textChannelId)
    execute (.insertServerMember (newServerMember serverId auth now))
    execute (.insertMemberRole ⟨serverId, auth, serverId⟩)
  fetchServer serverId

structure UpdateServerRequest where
  name : Option String
  icon : Option (Option String)
  banner : Option (Option String)
  description : Option (Option String)
  region : Option (Option String)
  verificationLevel : Option ℤ
  defaultMessageNotifications : Option ℤ
  explicitContentFilter : Option ℤ
  systemChannelId : Option (Option ℤ)
  rulesChannelId : Option (Option ℤ)
  ownerId : Option ℤ
deriving DecidableEq, Repr

def UpdateServerRequest.hasOtherFields (body : UpdateServerRequest) : Bool :=
  body.name.isSome || body.icon.isSome || body.banner.isSome || body.description.isSome || body.region.isSome ||
    body.verificationLevel.isSome || body.defaultMessageNotifications.isSome || body.explicitContentFilter.isSome ||
    body.systemChannelId.isSome || body.rulesChannelId.isSome

def UpdateServerRequest.changes (body : UpdateServerRequest) : ServerChanges :=
  { name := body.name.map Str.trim, icon := body.icon, banner := body.banner, description := body.description,
    region := body.region, verificationLevel := body.verificationLevel,
    defaultMessageNotifications := body.defaultMessageNotifications,
    explicitContentFilter := body.explicitContentFilter, systemChannelId := body.systemChannelId,
    rulesChannelId := body.rulesChannelId }

/-- the ownership transfer commits before the other fields are looked at -/
def transferOwnership (auth serverId newOwner : ℤ) : Handler Unit := do
  requireOwner serverId auth (.forbidden "Only the owner can transfer ownership")
  requireMember serverId newOwner
  execute (.updateServerOwner serverId newOwner)

def updateServer (auth serverId : ℤ) (body : UpdateServerRequest) : Handler Server := do
  body.ownerId.forM (transferOwnership auth serverId)
  when body.hasOtherFields (requirePermissions serverId auth .manageServer)
  when body.hasOtherFields (execute (.updateServer serverId body.changes))
  fetchServer serverId

def deleteServer (verifyPassword : String → String → Except String Bool) (auth serverId : ℤ) (password : String) :
    Handler Unit := do
  requireOwner serverId auth (.forbidden "Only the owner can delete a server")
  let user ← select fun pg => pg.users.find? fun u => u.id = auth
  let user ← orFail (dbErr .rowNotFound) user
  let valid ← ofExcept ((verifyPassword password user.passwordHash).mapError .internal)
  failIf (!valid) (.unauthorized "Invalid password")
  execute (.deleteServer serverId)

/-! ## Members -/

structure PublicUser where
  id : ℤ
  username : String
  discriminator : ℤ
  avatar : Option String
  banner : Option String
  bio : Option String
  flags : ℤ
  isBot : Bool
deriving DecidableEq, Repr

structure MemberResponse where
  user : PublicUser
  nickname : Option String
  avatar : Option String
  roles : List ℤ
  joinedAt : DateTime
  communicationDisabledUntil : Option DateTime
  flags : ℤ
deriving DecidableEq, Repr

/-- a member row joined with its user, unless the account is deleted -/
def memberRow (pg : Postgres) (serverId userId : ℤ) : Option (ServerMember × User) := do
  let m ← pg.serverMembers.find? fun m => m.serverId = serverId && m.userId = userId
  let u ← pg.users.find? fun u => u.id = m.userId && u.deletedAt.isNone
  return (m, u)

def getMember (auth serverId userId : ℤ) : Handler MemberResponse := do
  requireMember serverId auth
  let row ← select fun pg => memberRow pg serverId userId
  let (m, u) ← orFail (.notFound "Member not found") row
  let roles ← select fun pg =>
    (pg.memberRoles.select fun m => m.serverId = serverId && m.userId = userId).map MemberRole.roleId
  pure
    { user := ⟨u.id, u.username, u.discriminator, u.avatar, u.banner, u.bio, u.flags, u.isBot⟩
      nickname := m.nickname, avatar := m.avatar, roles, joinedAt := m.joinedAt,
      communicationDisabledUntil := m.communicationDisabledUntil, flags := m.flags }

structure UpdateMemberRequest where
  nickname : Option (Option String)
  roles : Option (List ℤ)
  communicationDisabledUntil : Option (Option DateTime)
deriving DecidableEq, Repr

/-- everything `update_member` checks before its first write -/
def updateMemberChecks (auth serverId userId : ℤ) (body : UpdateMemberRequest) : Handler Unit := do
  requireMember serverId auth
  checkRoleHierarchy serverId auth userId
  let perms ← getUserPermissions serverId auth
  let isSelf : Bool := userId = auth
  failIf (body.nickname.isSome && isSelf && !perms.contains .changeNickname)
    (.forbidden "Missing CHANGE_NICKNAME permission")
  failIf (body.nickname.isSome && !isSelf && !perms.contains .manageNicknames)
    (.forbidden "Missing MANAGE_NICKNAMES permission")
  failIf (body.roles.isSome && !perms.contains .manageRoles)
    (.forbidden "Missing MANAGE_ROLES permission")
  failIf (body.communicationDisabledUntil.isSome && !perms.contains .moderateMembers)
    (.forbidden "Missing MODERATE_MEMBERS permission")

/-- the statements on `server_members`, before the role changes -/
def updateMemberFields (serverId userId : ℤ) (body : UpdateMemberRequest) : Handler Unit := do
  body.nickname.forM fun nickname => execute (.updateNickname serverId userId nickname)
  body.communicationDisabledUntil.forM fun timeout => execute (.updateTimeout serverId userId timeout)

/-- the role changes: all rows but @everyone are deleted, then the listed ones inserted one by one -/
def updateMemberRoles (serverId userId : ℤ) (roleIds : List ℤ) : Handler Unit := do
  execute (.deleteMemberRoles serverId userId)
  roleIds.forM fun roleId => execute (.insertMemberRoleIgnore ⟨serverId, userId, roleId⟩)

def updateMember (auth serverId userId : ℤ) (body : UpdateMemberRequest) : Handler MemberResponse := do
  updateMemberChecks auth serverId userId body
  updateMemberFields serverId userId body
  body.roles.forM (updateMemberRoles serverId userId)
  getMember auth serverId userId

def updateSelfMember (auth serverId : ℤ) (nickname : Option (Option String)) : Handler MemberResponse := do
  requirePermissions serverId auth .changeNickname
  nickname.forM fun nickname => execute (.updateNickname serverId auth nickname)
  getMember auth serverId auth

def kickMember (auth serverId userId : ℤ) : Handler Unit := do
  requirePermissions serverId auth .kickMembers
  refuseOwner serverId userId (.forbidden "Cannot kick the server owner")
  checkRoleHierarchy serverId auth userId
  let n ← affected (.deleteServerMember serverId userId)
  failIf (n = 0) (.notFound "Member not found")
  execute (.recountMembers serverId)

def leaveServer (auth serverId : ℤ) : Handler Unit := do
  refuseOwner serverId auth (.badRequest "Owner cannot leave. Transfer ownership first.")
  let n ← affected (.deleteServerMember serverId auth)
  failIf (n = 0) (.notFound "Not a member of this server")
  execute (.recountMembers serverId)

/-! ## Bans -/

def createBan (auth serverId userId : ℤ) (reason : Option String) : Handler Unit := do
  requirePermissions serverId auth .banMembers
  refuseOwner serverId userId (.forbidden "Cannot ban the server owner")
  checkRoleHierarchy serverId auth userId
  execute (.deleteServerMember serverId userId)
  execute (.upsertBan ⟨serverId, userId, reason, some auth⟩)
  execute (.recountMembers serverId)

def removeBan (auth serverId userId : ℤ) : Handler Unit := do
  requirePermissions serverId auth .banMembers
  let n ← affected (.deleteBan serverId userId)
  failIf (n = 0) (.notFound "Ban not found")

/-! ## Invites -/

structure CreateInviteRequest where
  maxAge : Option ℤ
  maxUses : Option ℤ
  temporary : Option Bool
deriving DecidableEq, Repr

/-- a DM channel has no `server_id` to decode -/
def channelServerId (channelId : ℤ) : Handler ℤ := do
  let row ← select fun pg => pg.channels.find? fun c => c.id = channelId
  let c ← orFail (.notFound "Channel not found") row
  orFail (.internal "Database error: error occurred while decoding column 0: unexpected null; try decoding as an `Option`")
    c.serverId

def createInvite (auth channelId : ℤ) (body : CreateInviteRequest) (code : String) (now : DateTime) : Handler Invite := do
  let serverId ← channelServerId channelId
  requirePermissions serverId auth .createInvite
  let invite : Invite :=
    { code, serverId, channelId, inviterId := some auth, maxUses := body.maxUses.getD 0, uses := 0,
      maxAge := body.maxAge.getD 86400, temporary := body.temporary.getD false, createdAt := now }
  execute (.insertInvite invite)
  pure invite

/-- the transaction of `use_invite` once it has read the invite -/
def joinServer (auth : ℤ) (invite : Invite) (now : DateTime) : Handler ℤ := do
  failIf (0 < invite.maxAge ∧ invite.createdAt.millis + invite.maxAge * 1000 < now.millis)
    (.badRequest "Invite has expired")
  failIf (0 < invite.maxUses ∧ invite.maxUses ≤ invite.uses)
    (.badRequest "Invite has reached max uses")
  let isMember ← select fun pg => pg.hasMember invite.serverId auth
  if isMember then pure invite.serverId
  else
    let isBanned ← select fun pg => pg.bans.any fun b => b.serverId = invite.serverId && b.userId = auth
    failIf isBanned (.forbidden "You are banned from this server")
    execute (.insertServerMember (newServerMember invite.serverId auth now))
    execute (.insertMemberRole ⟨invite.serverId, auth, invite.serverId⟩)
    execute (.incrementMemberCount invite.serverId)
    execute (.incrementInviteUses invite.code)
    pure invite.serverId

def useInvite (auth : ℤ) (code : String) (now : DateTime) : Handler Server := do
  let serverId ← atomically do
    let row ← select fun pg => pg.invites.find? fun i => i.code = code
    let invite ← orFail (.notFound "Invite not found") row
    joinServer auth invite now
  fetchServer serverId

def deleteInvite (auth : ℤ) (code : String) : Handler Unit := do
  let row ← select fun pg => pg.invites.find? fun i => i.code = code
  let invite ← orFail (.notFound "Invite not found") row
  when (invite.inviterId ≠ some auth) (requirePermissions invite.serverId auth .manageServer)
  execute (.deleteInvite code)

end Lumiere.Routes
