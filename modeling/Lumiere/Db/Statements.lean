/-
The statements with which the server, role, invite and ban handlers write (`lumiere-server/src/routes/servers.rs`,
`roles.rs`), each with the constraints it can violate. `Sql.exec` is one statement on its own: the rows it affected and
the database after it, or the error, which leaves the database alone.
-/
import Lumiere.Db.Postgres

namespace Lumiere.Db

open Lumiere.Core Lumiere.Models

/-- the columns that `update_server` sets, each if it is in the request -/
structure ServerChanges where
  name : Option String
  icon : Option (Option String)
  banner : Option (Option String)
  description : Option (Option String)
  region : Option (Option String)
  verificationLevel : Option ℤ
  defaultMessageNotifications : Option ℤ
  explicitContentFilter : Option ℤ
  systemChannelId : Option (Option ℤ)
  rulesChannelId : Option (Option ℤ)
deriving DecidableEq, Repr

def ServerChanges.checked (c : ServerChanges) : Except DbError ServerChanges := do
  return { c with
    name := ← c.name.mapM (varchar 100)
    icon := ← c.icon.mapM (varchar? 255)
    banner := ← c.banner.mapM (varchar? 255)
    description := ← c.description.mapM (varchar? 1000)
    region := ← c.region.mapM (varchar? 32) }

def ServerChanges.apply (c : ServerChanges) (s : Server) : Server :=
  { s with
    name := c.name.getD s.name
    icon := c.icon.getD s.icon
    banner := c.banner.getD s.banner
    description := c.description.getD s.description
    region := c.region.getD s.region
    verificationLevel := c.verificationLevel.getD s.verificationLevel
    defaultMessageNotifications := c.defaultMessageNotifications.getD s.defaultMessageNotifications
    explicitContentFilter := c.explicitContentFilter.getD s.explicitContentFilter
    systemChannelId := c.systemChannelId.getD s.systemChannelId
    rulesChannelId := c.rulesChannelId.getD s.rulesChannelId }

@[simp] theorem ServerChanges.apply_id (c : ServerChanges) (s : Server) : (c.apply s).id = s.id := rfl

@[simp] theorem ServerChanges.apply_ownerId (c : ServerChanges) (s : Server) : (c.apply s).ownerId = s.ownerId := rfl

/-- the columns that `update_role` sets, each if it is in the request -/
structure RoleChanges where
  name : Option String
  color : Option ℤ
  hoist : Option Bool
  icon : Option (Option String)
  mentionable : Option Bool
  permissions : Option (BitVec 64)
  position : Option ℤ
deriving DecidableEq, Repr

def RoleChanges.checked (c : RoleChanges) : Except DbError RoleChanges := do
  return { c with
    name := ← c.name.mapM (varchar 100)
    icon := ← c.icon.mapM (varchar? 255) }

def RoleChanges.apply (c : RoleChanges) (r : Role) : Role :=
  { r with
    name := c.name.getD r.name
    color := c.color.getD r.color
    hoist := c.hoist.getD r.hoist
    icon := c.icon.getD r.icon
    mentionable := c.mentionable.getD r.mentionable
    permissions := c.permissions.getD r.permissions
    position := c.position.getD r.position }

@[simp] theorem RoleChanges.apply_id (c : RoleChanges) (r : Role) : (c.apply r).id = r.id := rfl

@[simp] theorem RoleChanges.apply_serverId (c : RoleChanges) (r : Role) : (c.apply r).serverId = r.serverId := rfl

@[simp] theorem RoleChanges.apply_isDefault (c : RoleChanges) (r : Role) : (c.apply r).isDefault = r.isDefault := rfl

inductive Sql where
  | insertServer (row : Server)
  | insertRole (row : Role)
  | insertChannel (row : Channel)
  | insertServerMember (row : ServerMember)
  | insertMemberRole (row : MemberRole)
  /-- `ON CONFLICT DO NOTHING` -/
  | insertMemberRoleIgnore (row : MemberRole)
  | insertInvite (row : Invite)
  /-- `ON CONFLICT (server_id, user_id) DO UPDATE SET reason = $3, banned_by = $4` -/
  | upsertBan (row : Ban)
  /-- `ON CONFLICT (channel_id, target_id) DO UPDATE SET target_type = $3, allow_bits = $4, deny_bits = $5` -/
  | upsertOverride (row : PermissionOverrideRow)
  | updateServerOwner (serverId ownerId : ℤ)
  | updateServer (serverId : ℤ) (changes : ServerChanges)
  | updateSystemChannel (serverId channelId : ℤ)
  /-- `SET member_count = (SELECT COUNT(*) FROM server_members WHERE server_id = $1)` -/
  | recountMembers (serverId : ℤ)
  | incrementMemberCount (serverId : ℤ)
  | incrementInviteUses (code : String)
  | updateNickname (serverId userId : ℤ) (nickname : Option String)
  | updateTimeout (serverId userId : ℤ) (disabledUntil : Option DateTime)
  | updateRole (roleId serverId : ℤ) (changes : RoleChanges)
  | updateRolePosition (position roleId serverId : ℤ)
  | deleteServer (serverId : ℤ)
  | deleteServerMember (serverId userId : ℤ)
  /-- `WHERE server_id = $1 AND user_id = $2 AND role_id != $1` -/
  | deleteMemberRoles (serverId userId : ℤ)
  | deleteRole (roleId serverId : ℤ)
  | deleteBan (serverId userId : ℤ)
  | deleteInvite (code : String)
  | deleteOverride (channelId targetId : ℤ)
deriving DecidableEq, Repr

namespace Postgres

variable (pg : Postgres)

def hasUser (id : ℤ) : Bool := pg.users.any fun u => u.id = id

def hasServer (id : ℤ) : Bool := pg.servers.any fun s => s.id = id

def isOwner (serverId userId : ℤ) : Bool := pg.servers.any fun s => s.id = serverId && s.ownerId = userId

def hasChannel (id : ℤ) : Bool := pg.channels.any fun c => c.id = id

def hasRole (id : ℤ) : Bool := pg.roles.any fun r => r.id = id

def hasMember (serverId userId : ℤ) : Bool :=
  pg.serverMembers.any fun m => m.serverId = serverId && m.userId = userId

/-- the foreign keys of `member_roles` -/
def memberRoleReferences (row : MemberRole) : Except DbError Unit := do
  requires (.foreignKey "member_roles" "member_roles_role_id_fkey") (pg.hasRole row.roleId)
  requires (.foreignKey "member_roles" "member_roles_server_id_user_id_fkey") (pg.hasMember row.serverId row.userId)

/-- a channel reference in an update of `servers` -/
def channelReference (constraint : String) : Option (Option ℤ) → Except DbError Unit
  | some (some id) => requires (.foreignKey "servers" constraint) (pg.hasChannel id)
  | _ => .ok ()

end Postgres

open Postgres in
/-- one statement on its own -/
def Sql.exec (pg : Postgres) : Sql → Except DbError (ℕ × Postgres)
  | .insertServer row => do
    let row := { row with
      name := ← varchar 100 row.name
      icon := ← varchar? 255 row.icon
      region := ← varchar? 32 row.region }
    let servers ← unique "servers_pkey" pg.servers row
    requires (.foreignKey "servers" "servers_owner_id_fkey") (pg.hasUser row.ownerId)
    return (1, { pg with servers })
  | .insertRole row => do
    let row := { row with name := ← varchar 100 row.name }
    let roles ← unique "roles_pkey" pg.roles row
    requires (.foreignKey "roles" "roles_server_id_fkey") (pg.hasServer row.serverId)
    return (1, { pg with roles })
  | .insertChannel row => do
    let row := { row with name := ← varchar? 100 row.name, topic := ← varchar? 1024 row.topic }
    let channels ← unique "channels_pkey" pg.channels row
    requires (.foreignKey "channels" "channels_server_id_fkey") (row.serverId.all pg.hasServer)
    requires (.foreignKey "channels" "channels_parent_id_fkey") (row.parentId.all pg.hasChannel)
    return (1, { pg with channels })
  | .insertServerMember row => do
    let serverMembers ← unique "server_members_pkey" pg.serverMembers row
    requires (.foreignKey "server_members" "server_members_server_id_fkey") (pg.hasServer row.serverId)
    requires (.foreignKey "server_members" "server_members_user_id_fkey") (pg.hasUser row.userId)
    return (1, { pg with serverMembers })
  | .insertMemberRole row => do
    let memberRoles ← unique "member_roles_pkey" pg.memberRoles row
    pg.memberRoleReferences row
    return (1, { pg with memberRoles })
  | .insertMemberRoleIgnore row =>
    match pg.memberRoles.insert? row with
    | none => .ok (0, pg)
    | some memberRoles => do
      pg.memberRoleReferences row
      return (1, { pg with memberRoles })
  | .insertInvite row => do
    let invites ← unique "invites_pkey" pg.invites row
    requires (.foreignKey "invites" "invites_server_id_fkey") (pg.hasServer row.serverId)
    requires (.foreignKey "invites" "invites_channel_id_fkey") (pg.hasChannel row.channelId)
    requires (.foreignKey "invites" "invites_inviter_id_fkey") (row.inviterId.all pg.hasUser)
    return (1, { pg with invites })
  | .upsertBan row => do
    let row := { row with reason := ← varchar? 512 row.reason }
    requires (.foreignKey "bans" "bans_server_id_fkey") (pg.hasServer row.serverId)
    requires (.foreignKey "bans" "bans_user_id_fkey") (pg.hasUser row.userId)
    requires (.foreignKey "bans" "bans_banned_by_fkey") (row.bannedBy.all pg.hasUser)
    return (1, { pg with
      bans := pg.bans.upsert row (fun b => { b with reason := row.reason, bannedBy := row.bannedBy }) fun _ => rfl })
  | .upsertOverride row => do
    requires (.foreignKey "permission_overrides" "permission_overrides_channel_id_fkey") (pg.hasChannel row.channelId)
    return (1, { pg with
      permissionOverrides := pg.permissionOverrides.upsert row
        (fun o => { o with targetType := row.targetType, allowBits := row.allowBits, denyBits := row.denyBits })
        fun _ => rfl })
  | .updateServerOwner serverId ownerId => do
    requires (.foreignKey "servers" "servers_owner_id_fkey") (!pg.hasServer serverId || pg.hasUser ownerId)
    return (pg.servers.count fun s => s.id = serverId, { pg with
      servers := pg.servers.updateWhere (fun s => s.id = serverId) (fun s => { s with ownerId })
        (Server.id_owned ownerId) })
  | .updateServer serverId changes => do
    let changes ← changes.checked
    if pg.hasServer serverId then
      pg.channelReference "fk_servers_system_channel" changes.systemChannelId
      pg.channelReference "fk_servers_rules_channel" changes.rulesChannelId
    return (pg.servers.count fun s => s.id = serverId, { pg with
      servers := pg.servers.updateWhere (fun s => s.id = serverId) changes.apply changes.apply_id })
  | .updateSystemChannel serverId channelId => do
    if pg.hasServer serverId then
      pg.channelReference "fk_servers_system_channel" (some (some channelId))
    return (pg.servers.count fun s => s.id = serverId, { pg with
      servers := pg.servers.updateWhere (fun s => s.id = serverId)
        (fun s => { s with systemChannelId := some channelId }) fun _ => rfl })
  | .recountMembers serverId => do
    let n ← integer (pg.serverMembers.count fun m => m.serverId = serverId)
    return (pg.servers.count fun s => s.id = serverId, { pg with
      servers := pg.servers.updateWhere (fun s => s.id = serverId) (fun s => { s with memberCount := n }) fun _ => rfl })
  | .incrementMemberCount serverId => do
    requires .outOfRange (!pg.servers.any fun s => s.id = serverId && s.memberCount = 2147483647)
    return (pg.servers.count fun s => s.id = serverId, { pg with
      servers := pg.servers.updateWhere (fun s => s.id = serverId)
        (fun s => { s with memberCount := s.memberCount + 1 }) fun _ => rfl })
  | .incrementInviteUses code => do
    requires .outOfRange (!pg.invites.any fun i => i.code = code && i.uses = 2147483647)
    return (pg.invites.count fun i => i.code = code, { pg with
      invites := pg.invites.updateWhere (fun i => i.code = code) (fun i => { i with uses := i.uses + 1 }) fun _ => rfl })
  | .updateNickname serverId userId nickname => do
    let nickname ← varchar? 32 nickname
    return (pg.serverMembers.count fun m => m.serverId = serverId && m.userId = userId, { pg with
      serverMembers := pg.serverMembers.updateWhere (fun m => m.serverId = serverId && m.userId = userId)
        (fun m => { m with nickname }) fun _ => rfl })
  | .updateTimeout serverId userId disabledUntil =>
    .ok (pg.serverMembers.count fun m => m.serverId = serverId && m.userId = userId, { pg with
      serverMembers := pg.serverMembers.updateWhere (fun m => m.serverId = serverId && m.userId = userId)
        (fun m => { m with communicationDisabledUntil := disabledUntil }) fun _ => rfl })
  | .updateRole roleId serverId changes => do
    let changes ← changes.checked
    return (pg.roles.count fun r => r.id = roleId && r.serverId = serverId, { pg with
      roles := pg.roles.updateWhere (fun r => r.id = roleId && r.serverId = serverId) changes.apply changes.apply_id })
  | .updateRolePosition position roleId serverId =>
    .ok (pg.roles.count fun r => r.id = roleId && r.serverId = serverId, { pg with
      roles := pg.roles.updateWhere (fun r => r.id = roleId && r.serverId = serverId)
        (fun r => { r with position }) fun _ => rfl })
  | .deleteServer serverId =>
    .ok (pg.servers.count fun s => s.id = serverId, pg.deleteServers fun s => s.id = serverId)
  | .deleteServerMember serverId userId =>
    .ok (pg.serverMembers.count fun m => m.serverId = serverId && m.userId = userId,
      pg.deleteServerMembers fun m => m.serverId = serverId && m.userId = userId)
  | .deleteMemberRoles serverId userId =>
    .ok (pg.memberRoles.count fun m => m.serverId = serverId && m.userId = userId && m.roleId ≠ serverId, { pg with
      memberRoles := pg.memberRoles.deleteWhere fun m =>
        m.serverId = serverId && m.userId = userId && m.roleId ≠ serverId })
  | .deleteRole roleId serverId =>
    .ok (pg.roles.count fun r => r.id = roleId && r.serverId = serverId,
      pg.deleteRoles fun r => r.id = roleId && r.serverId = serverId)
  | .deleteBan serverId userId =>
    .ok (pg.bans.count fun b => b.serverId = serverId && b.userId = userId, { pg with
      bans := pg.bans.deleteWhere fun b => b.serverId = serverId && b.userId = userId })
  | .deleteInvite code =>
    .ok (pg.invites.count fun i => i.code = code, { pg with invites := pg.invites.deleteWhere fun i => i.code = code })
  | .deleteOverride channelId targetId =>
    .ok (pg.permissionOverrides.count fun o => o.channelId = channelId && o.targetId = targetId, { pg with
      permissionOverrides := pg.permissionOverrides.deleteWhere fun o =>
        o.channelId = channelId && o.targetId = targetId })

end Lumiere.Db
