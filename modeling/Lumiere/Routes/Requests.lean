/-
Runs of the server and role handlers, one request at a time.

Handlers of other modules (accounts, channels, direct messages, webhooks, messages) also write to the database, but to no
row of `roles`, `server_members` or `member_roles` and to no server's id or owner. `Op.elsewhere` is any such write.
-/
import Lumiere.Core.Run
import Lumiere.Routes.Roles
import Lumiere.Routes.Servers

namespace Lumiere.Routes

open Lumiere.Core Lumiere.Core.Prog Lumiere.Models Lumiere.Db

inductive Request where
  | createServer (auth : ℤ) (body : CreateServerRequest) (serverId textChannelId voiceChannelId : ℤ) (now : DateTime)
  | updateServer (auth serverId : ℤ) (body : UpdateServerRequest)
  | deleteServer (auth serverId : ℤ) (password : String)
  | updateMember (auth serverId userId : ℤ) (body : UpdateMemberRequest)
  | updateSelfMember (auth serverId : ℤ) (nickname : Option (Option String))
  | kickMember (auth serverId userId : ℤ)
  | leaveServer (auth serverId : ℤ)
  | createBan (auth serverId userId : ℤ) (reason : Option String)
  | removeBan (auth serverId userId : ℤ)
  | createInvite (auth channelId : ℤ) (body : CreateInviteRequest) (code : String) (now : DateTime)
  | useInvite (auth : ℤ) (code : String) (now : DateTime)
  | deleteInvite (auth : ℤ) (code : String)
  | createRole (auth serverId : ℤ) (body : CreateRoleRequest) (roleId : ℤ) (now : DateTime)
  | updateRole (auth serverId roleId : ℤ) (body : UpdateRoleRequest)
  | deleteRole (auth serverId roleId : ℤ)
  | reorderRoles (auth serverId : ℤ) (body : List RolePositionUpdate)
  | setChannelOverride (auth channelId overrideId : ℤ) (body : SetOverrideRequest)
  | deleteChannelOverride (auth channelId overrideId : ℤ)

/-- a handler with its response dropped -/
def respond {α : Type} (h : Handler α) : Handler Unit := do
  let _ ← h
  pure ()

/-- the handler of a request -/
def Request.handle (verifyPassword : String → String → Except String Bool) : Request → Handler Unit
  | .createServer auth body serverId textChannelId voiceChannelId now =>
    respond (Routes.createServer auth body serverId textChannelId voiceChannelId now)
  | .updateServer auth serverId body => respond (Routes.updateServer auth serverId body)
  | .deleteServer auth serverId password => Routes.deleteServer verifyPassword auth serverId password
  | .updateMember auth serverId userId body => respond (Routes.updateMember auth serverId userId body)
  | .updateSelfMember auth serverId nickname => respond (Routes.updateSelfMember auth serverId nickname)
  | .kickMember auth serverId userId => Routes.kickMember auth serverId userId
  | .leaveServer auth serverId => Routes.leaveServer auth serverId
  | .createBan auth serverId userId reason => Routes.createBan auth serverId userId reason
  | .removeBan auth serverId userId => Routes.removeBan auth serverId userId
  | .createInvite auth channelId body code now => respond (Routes.createInvite auth channelId body code now)
  | .useInvite auth code now => respond (Routes.useInvite auth code now)
  | .deleteInvite auth code => Routes.deleteInvite auth code
  | .createRole auth serverId body roleId now => respond (Routes.createRole auth serverId body roleId now)
  | .updateRole auth serverId roleId body => respond (Routes.updateRole auth serverId roleId body)
  | .deleteRole auth serverId roleId => Routes.deleteRole auth serverId roleId
  | .reorderRoles auth serverId body => respond (Routes.reorderRoles auth serverId body)
  | .setChannelOverride auth channelId overrideId body => Routes.setChannelOverride auth channelId overrideId body
  | .deleteChannelOverride auth channelId overrideId => Routes.deleteChannelOverride auth channelId overrideId

/-- a write of another module -/
structure OtherWrite where
  apply : Postgres → Postgres
  roles : ∀ pg, (apply pg).roles = pg.roles
  serverMembers : ∀ pg, (apply pg).serverMembers = pg.serverMembers
  memberRoles : ∀ pg, (apply pg).memberRoles = pg.memberRoles
  owners : ∀ pg, (apply pg).servers.rows.map (fun s => (s.id, s.ownerId)) = pg.servers.rows.map fun s => (s.id, s.ownerId)

inductive Op where
  | request (r : Request)
  | elsewhere (w : OtherWrite)

def step (verifyPassword : String → String → Except String Bool) (pg : Postgres) : Op → Postgres
  | .request r => ((r.handle verifyPassword).run statement pg).2
  | .elsewhere w => w.apply pg

/-- an account with its columns at their defaults -/
def account (id : ℤ) (username : String) : User :=
  { id, username, discriminator := 1, passwordHash := "hash", avatar := none, banner := none, bio := none, flags := 0,
    isBot := false, deletedAt := none }

/-- accounts, and nothing else -/
def noServers (users : Table User.id) : Postgres :=
  ⟨users, .empty, .empty, .empty, .empty, .empty, .empty, .empty, .empty, .empty⟩

def onlyAda : Table User.id := ⟨[account 1 "ada"], by decide⟩

def adaAndBob : Table User.id := ⟨[account 1 "ada", account 2 "bob"], by decide⟩

end Lumiere.Routes
