/-
The handlers of `lumiere-server/src/routes/roles.rs` that write: roles and channel permission overrides. Every statement
commits on its own.
-/
import Lumiere.Routes.Access
import Mathlib.Data.List.Sort

namespace Lumiere.Routes

open Lumiere.Core Lumiere.Core.Prog Lumiere.Models Lumiere.Db

structure RoleResponse where
  id : ℤ
  serverId : ℤ
  name : String
  color : ℤ
  hoist : Bool
  icon : Option String
  position : ℤ
  permissions : String
  mentionable : Bool
  isDefault : Bool
  createdAt : DateTime
deriving DecidableEq, Repr

def RoleResponse.ofRow (r : Role) : RoleResponse :=
  ⟨r.id, r.serverId, r.name, r.color, r.hoist, r.icon, r.position, toString r.permissions.toInt, r.mentionable,
    r.isDefault, r.createdAt⟩

def fetchRole (roleId : ℤ) : Handler RoleResponse := do
  let row ← select fun pg => pg.roles.find? fun r => r.id = roleId
  let r ← orFail (.notFound "Role not found") row
  pure (.ofRow r)

/-- the roles of a server by position -/
def getRoles (auth serverId : ℤ) : Handler (List RoleResponse) := do
  requireMember serverId auth
  let rows ← select fun pg => (pg.roles.select fun r => r.serverId = serverId).insertionSort
    fun x y => x.position ≤ y.position
  pure (rows.map .ofRow)

/-- the row of a role of the server -/
def serverRole (roleId serverId : ℤ) : Handler Role := do
  let row ← select fun pg => pg.roles.find? fun r => r.id = roleId && r.serverId = serverId
  orFail (.notFound "Role not found") row

/-- escalation prevention: an actor cannot grant bits it does not have -/
def refuseForbiddenBits (auth serverId : ℤ) (bits : BitVec 64) (message : String) : Handler Unit := do
  let actorPerms ← getUserPermissions serverId auth
  failIf (bits &&& ~~~actorPerms.bits ≠ 0) (.forbidden message)

/-- a permission string, parsed as an `i64` and kept as a word -/
def parsePermissions (e : AppError) (value : String) : Handler (BitVec 64) :=
  orFail e ((Str.parseI64 value).map (BitVec.ofInt 64))

/-- the same for a field that may be absent -/
def parseOptional (e : AppError) : Option String → Handler (Option (BitVec 64))
  | none => pure none
  | some value => do
    let bits ← parsePermissions e value
    pure (some bits)

/-! ## Roles -/

structure CreateRoleRequest where
  name : String
  color : Option ℤ
  hoist : Option Bool
  mentionable : Option Bool
  permissions : Option String
deriving DecidableEq, Repr

def CreateRoleRequest.validate (body : CreateRoleRequest) : List FieldError := lengthErrors "name" 1 100 body.name

/-- the `i32` sum wraps -/
def nextPosition (maxPos : Option ℤ) : ℤ :=
  let p := maxPos.getD 0 + 1
  if p = 2147483648 then -2147483648 else p

def createRole (auth serverId : ℤ) (body : CreateRoleRequest) (roleId : ℤ) (now : DateTime) : Handler RoleResponse := do
  failIf (body.validate ≠ []) (.validation body.validate)
  requirePermissions serverId auth .manageRoles
  let maxPos ← select fun pg => ((pg.roles.select fun r => r.serverId = serverId).map Role.position).max?
  let parsed ← parseOptional (.badRequest "Invalid permissions value") body.permissions
  let permissions := parsed.getD 0
  when (permissions ≠ 0) (refuseForbiddenBits auth serverId permissions "Cannot grant permissions you don't have")
  execute (.insertRole
    { id := roleId, serverId, name := Str.trim body.name, color := body.color.getD 0, hoist := body.hoist.getD false,
      icon := none, position := nextPosition maxPos, permissions, mentionable := body.mentionable.getD false,
      isDefault := false, createdAt := now })
  fetchRole roleId

structure UpdateRoleRequest where
  name : Option String
  color : Option ℤ
  hoist : Option Bool
  icon : Option (Option String)
  mentionable : Option Bool
  permissions : Option String
  position : Option ℤ
deriving DecidableEq, Repr

def UpdateRoleRequest.isEmpty (body : UpdateRoleRequest) : Bool :=
  body.name.isNone && body.color.isNone && body.hoist.isNone && body.icon.isNone && body.mentionable.isNone &&
    body.permissions.isNone && body.position.isNone

def UpdateRoleRequest.changes (body : UpdateRoleRequest) (permissions : Option (BitVec 64)) : RoleChanges :=
  { name := body.name.map Str.trim, color := body.color, hoist := body.hoist, icon := body.icon,
    mentionable := body.mentionable, permissions, position := body.position }

def updateRole (auth serverId roleId : ℤ) (body : UpdateRoleRequest) : Handler RoleResponse := do
  requirePermissions serverId auth .manageRoles
  let actorHighest ← getActorHighestPosition serverId auth
  let role ← serverRole roleId serverId
  failIf (actorHighest ≤ role.position ∧ actorHighest ≠ 2147483647)
    (.forbidden "Cannot modify roles at or above your highest role position")
  failIf body.isEmpty (.badRequest "No fields to update")
  let permissions ← parseOptional (.badRequest "Invalid permissions value") body.permissions
  permissions.forM fun bits => refuseForbiddenBits auth serverId bits "Cannot grant permissions you don't have"
  execute (.updateRole roleId serverId (body.changes permissions))
  fetchRole roleId

def deleteRole (auth serverId roleId : ℤ) : Handler Unit := do
  requirePermissions serverId auth .manageRoles
  let role ← serverRole roleId serverId
  failIf role.isDefault (.badRequest "Cannot delete the @everyone role")
  let actorHighest ← getActorHighestPosition serverId auth
  let row ← select fun pg => pg.roles.find? fun r => r.id = roleId
  let role ← orFail (dbErr .rowNotFound) row
  failIf (actorHighest ≤ role.position ∧ actorHighest ≠ 2147483647)
    (.forbidden "Cannot delete roles at or above your highest role position")
  execute (.deleteRole roleId serverId)

structure RolePositionUpdate where
  id : ℤ
  position : ℤ
deriving DecidableEq, Repr

def reorderRoles (auth serverId : ℤ) (body : List RolePositionUpdate) : Handler (List RoleResponse) := do
  requirePermissions serverId auth .manageRoles
  let actorHighest ← getActorHighestPosition serverId auth
  when (actorHighest ≠ 2147483647) do
    body.forM fun update => do
      let role ← serverRole update.id serverId
      failIf (actorHighest ≤ role.position)
        (.forbidden "Cannot reorder roles at or above your highest role position")
  body.forM fun update => execute (.updateRolePosition update.position update.id serverId)
  getRoles auth serverId

/-! ## Channel permission overrides -/

structure SetOverrideRequest where
  targetType : ℤ
  allow : String
  deny : String
deriving DecidableEq, Repr

/-- the server of a channel, refused for DM channels -/
def overrideServer (channelId : ℤ) (message : String) : Handler ℤ := do
  let row ← select fun pg => pg.channels.find? fun c => c.id = channelId
  let c ← orFail (.notFound "Channel not found") row
  orFail (.badRequest message) c.serverId

def setChannelOverride (auth channelId overrideId : ℤ) (body : SetOverrideRequest) : Handler Unit := do
  let serverId ← overrideServer channelId "Cannot set overrides on DM channels"
  requirePermissions serverId auth .manageRoles
  let allowBits ← parsePermissions (.badRequest "Invalid allow permissions value") body.allow
  let denyBits ← parsePermissions (.badRequest "Invalid deny permissions value") body.deny
  -- the ADMINISTRATOR bit is stripped
  let allowBits := allowBits &&& ~~~1#64
  let denyBits := denyBits &&& ~~~1#64
  refuseForbiddenBits auth serverId (allowBits ||| denyBits) "Cannot set permissions you don't have"
  execute (.upsertOverride ⟨channelId, overrideId, body.targetType, allowBits, denyBits⟩)

def deleteChannelOverride (auth channelId overrideId : ℤ) : Handler Unit := do
  let serverId ← overrideServer channelId "Cannot modify DM channels"
  requirePermissions serverId auth .manageRoles
  execute (.deleteOverride channelId overrideId)

end Lumiere.Routes
