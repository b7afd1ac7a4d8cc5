/-
Which statements each handler can issue, whatever it reads. An invariant of these statements is an invariant of the
handler, in sequence or interleaved with others.
-/
import Lumiere.Routes.Requests

namespace Lumiere.Routes

open Lumiere.Core Lumiere.Core.Prog Lumiere.Models Lumiere.Db

/-! ## Reads -/

theorem readOnly_fetchServer {serverId : ℤ} : (fetchServer serverId).ReadOnly :=
  issues_bind (issues_select _) fun _ => issues_orFail _ _

theorem readOnly_getMember {auth serverId userId : ℤ} : (getMember auth serverId userId).ReadOnly :=
  issues_bind readOnly_requireMember fun _ => issues_bind (issues_select _) fun _ => issues_bind (issues_orFail _ _)
    fun _ => issues_bind (issues_select _) fun _ => issues_pure _

theorem readOnly_updateMemberChecks {auth serverId userId : ℤ} {body : UpdateMemberRequest} :
    (updateMemberChecks auth serverId userId body).ReadOnly :=
  issues_bind readOnly_requireMember fun _ => issues_bind readOnly_checkRoleHierarchy fun _ =>
    issues_bind readOnly_getUserPermissions fun _ => issues_bind (issues_failIf _ _) fun _ =>
      issues_bind (issues_failIf _ _) fun _ => issues_bind (issues_failIf _ _) fun _ => issues_failIf _ _

theorem readOnly_channelServerId {channelId : ℤ} : (channelServerId channelId).ReadOnly :=
  issues_bind (issues_select _) fun _ => issues_bind (issues_orFail _ _) fun _ => issues_orFail _ _

theorem readOnly_fetchRole {roleId : ℤ} : (fetchRole roleId).ReadOnly :=
  issues_bind (issues_select _) fun _ => issues_bind (issues_orFail _ _) fun _ => issues_pure _

theorem readOnly_getRoles {auth serverId : ℤ} : (getRoles auth serverId).ReadOnly :=
  issues_bind readOnly_requireMember fun _ => issues_bind (issues_select _) fun _ => issues_pure _

theorem readOnly_serverRole {roleId serverId : ℤ} : (serverRole roleId serverId).ReadOnly :=
  issues_bind (issues_select _) fun _ => issues_orFail _ _

theorem readOnly_refuseForbiddenBits {auth serverId : ℤ} {bits : BitVec 64} {message : String} :
    (refuseForbiddenBits auth serverId bits message).ReadOnly :=
  issues_bind readOnly_getUserPermissions fun _ => issues_failIf _ _

theorem readOnly_parseOptional {e : AppError} {value : Option String} : (parseOptional e value).ReadOnly := by
  cases value with
  | none => exact issues_pure _
  | some value => exact issues_bind (issues_orFail _ _) fun _ => issues_pure _

theorem readOnly_overrideServer {channelId : ℤ} {message : String} : (overrideServer channelId message).ReadOnly :=
  issues_bind (issues_select _) fun _ => issues_bind (issues_orFail _ _) fun _ => issues_orFail _ _

/-! ## Servers -/

variable {auth serverId userId roleId channelId : ℤ}

theorem issues_createServer {body : CreateServerRequest} {textChannelId voiceChannelId : ℤ} {now : DateTime} :
    (createServer auth body serverId textChannelId voiceChannelId now).Issues fun w =>
      w = .insertServer (newServer serverId body auth now) ∨ w = .insertRole (everyoneRole serverId now) ∨
      (∃ channelId type name position, w = .insertChannel (newChannel channelId serverId type name position now)) ∨
      w = .updateSystemChannel serverId textChannelId ∨
      w = .insertServerMember (newServerMember serverId auth now) ∨ w = .insertMemberRole ⟨serverId, auth, serverId⟩ := by
  refine issues_bind (issues_failIf _ _) fun _ => issues_bind (issues_select _) fun _ =>
    issues_bind (issues_failIf _ _) fun _ => issues_bind (issues_atomically ?_) fun _ => readOnly_fetchServer.issues
  refine issues_bind (issues_execute (.inl rfl)) fun _ => issues_bind (issues_execute ?_) fun _ =>
    issues_bind (issues_execute ?_) fun _ => issues_bind (issues_execute ?_) fun _ =>
      issues_bind (issues_execute ?_) fun _ => issues_bind (issues_execute ?_) fun _ => issues_execute ?_
  · exact .inr (.inl rfl)
  · exact .inr (.inr (.inl ⟨_, _, _, _, rfl⟩))
  · exact .inr (.inr (.inl ⟨_, _, _, _, rfl⟩))
  · exact .inr (.inr (.inr (.inl rfl)))
  · exact .inr (.inr (.inr (.inr (.inl rfl))))
  · exact .inr (.inr (.inr (.inr (.inr rfl))))

theorem issues_updateServer {body : UpdateServerRequest} :
    (updateServer auth serverId body).Issues fun w =>
      (∃ ownerId, w = .updateServerOwner serverId ownerId) ∨ ∃ changes, w = .updateServer serverId changes := by
  refine issues_bind (issues_forM_option fun ownerId _ => ?_) fun _ => issues_bind (issues_when fun _ => ?_) fun _ =>
    issues_bind (issues_when fun _ => issues_execute (.inr ⟨_, rfl⟩)) fun _ => readOnly_fetchServer.issues
  · exact issues_bind readOnly_requireOwner.issues fun _ => issues_bind readOnly_requireMember.issues fun _ =>
      issues_execute (.inl ⟨ownerId, rfl⟩)
  · exact readOnly_requirePermissions.issues

theorem issues_deleteServer {verifyPassword : String → String → Except String Bool} {password : String} :
    (deleteServer verifyPassword auth serverId password).Issues fun w => w = .deleteServer serverId :=
  issues_bind readOnly_requireOwner.issues fun _ => issues_bind (issues_select _) fun _ =>
    issues_bind (issues_orFail _ _) fun _ => issues_bind (issues_ofExcept _) fun _ =>
      issues_bind (issues_failIf _ _) fun _ => issues_execute rfl

/-! ## Members -/

theorem issues_updateMemberFields {body : UpdateMemberRequest} :
    (updateMemberFields serverId userId body).Issues fun w =>
      (∃ nickname, w = .updateNickname serverId userId nickname) ∨
      ∃ timeout ∈ body.communicationDisabledUntil, w = .updateTimeout serverId userId timeout :=
  issues_bind (issues_forM_option fun nickname _ => issues_execute (.inl ⟨nickname, rfl⟩)) fun _ =>
    issues_forM_option fun timeout h => issues_execute (.inr ⟨timeout, h, rfl⟩)

theorem issues_updateMemberRoles {roleIds : List ℤ} :
    (updateMemberRoles serverId userId roleIds).Issues fun w =>
      w = .deleteMemberRoles serverId userId ∨
      ∃ roleId ∈ roleIds, w = .insertMemberRoleIgnore ⟨serverId, userId, roleId⟩ :=
  issues_bind (issues_execute (.inl rfl)) fun _ =>
    issues_forM fun roleId h => issues_execute (.inr ⟨roleId, h, rfl⟩)

theorem issues_updateMember {body : UpdateMemberRequest} :
    (updateMember auth serverId userId body).Issues fun w =>
      (∃ nickname, w = .updateNickname serverId userId nickname) ∨
      (∃ timeout ∈ body.communicationDisabledUntil, w = .updateTimeout serverId userId timeout) ∨
      w = .deleteMemberRoles serverId userId ∨
      ∃ roleId, w = .insertMemberRoleIgnore ⟨serverId, userId, roleId⟩ := by
  refine issues_bind readOnly_updateMemberChecks.issues fun _ => issues_bind ?_ fun _ =>
    issues_bind (issues_forM_option fun roleIds _ => ?_) fun _ => readOnly_getMember.issues
  · refine issues_updateMemberFields.mono ?_
    rintro w (h | h)
    · exact .inl h
    · exact .inr (.inl h)
  · refine issues_updateMemberRoles.mono ?_
    rintro w (h | ⟨roleId, -, h⟩)
    · exact .inr (.inr (.inl h))
    · exact .inr (.inr (.inr ⟨roleId, h⟩))

theorem issues_updateSelfMember {nickname : Option (Option String)} :
    (updateSelfMember auth serverId nickname).Issues fun w => ∃ nickname, w = .updateNickname serverId auth nickname :=
  issues_bind readOnly_requirePermissions.issues fun _ =>
    issues_bind (issues_forM_option fun nickname _ => issues_execute ⟨nickname, rfl⟩) fun _ => readOnly_getMember.issues

theorem issues_kickMember :
    (kickMember auth serverId userId).Issues fun w =>
      w = .deleteServerMember serverId userId ∨ w = .recountMembers serverId :=
  issues_bind readOnly_requirePermissions.issues fun _ => issues_bind readOnly_refuseOwner.issues fun _ =>
    issues_bind readOnly_checkRoleHierarchy.issues fun _ => issues_bind (issues_affected (.inl rfl)) fun _ =>
      issues_bind (issues_failIf _ _) fun _ => issues_execute (.inr rfl)

theorem issues_leaveServer :
    (leaveServer auth serverId).Issues fun w =>
      w = .deleteServerMember serverId auth ∨ w = .recountMembers serverId :=
  issues_bind readOnly_refuseOwner.issues fun _ => issues_bind (issues_affected (.inl rfl)) fun _ =>
    issues_bind (issues_failIf _ _) fun _ => issues_execute (.inr rfl)

theorem issues_createBan {reason : Option String} :
    (createBan auth serverId userId reason).Issues fun w =>
      w = .deleteServerMember serverId userId ∨ w = .upsertBan ⟨serverId, userId, reason, some auth⟩ ∨
      w = .recountMembers serverId :=
  issues_bind readOnly_requirePermissions.issues fun _ => issues_bind readOnly_refuseOwner.issues fun _ =>
    issues_bind readOnly_checkRoleHierarchy.issues fun _ => issues_bind (issues_execute (.inl rfl)) fun _ =>
      issues_bind (issues_execute (.inr (.inl rfl))) fun _ => issues_execute (.inr (.inr rfl))

theorem issues_removeBan : (removeBan auth serverId userId).Issues fun w => w = .deleteBan serverId userId :=
  issues_bind readOnly_requirePermissions.issues fun _ => issues_bind (issues_affected rfl) fun _ => issues_failIf _ _

/-! ## Invites -/

theorem issues_createInvite {body : CreateInviteRequest} {code : String} {now : DateTime} :
    (createInvite auth channelId body code now).Issues fun w => ∃ row, w = .insertInvite row :=
  issues_bind readOnly_channelServerId.issues fun _ => issues_bind readOnly_requirePermissions.issues fun _ =>
    issues_bind (issues_execute ⟨_, rfl⟩) fun _ => issues_pure _

theorem issues_joinServer {invite : Invite} {now : DateTime} :
    (joinServer auth invite now).Issues fun w =>
      w = .insertServerMember (newServerMember invite.serverId auth now) ∨
      w = .insertMemberRole ⟨invite.serverId, auth, invite.serverId⟩ ∨
      w = .incrementMemberCount invite.serverId ∨ w = .incrementInviteUses invite.code := by
  refine issues_bind (issues_failIf _ _) fun _ => issues_bind (issues_failIf _ _) fun _ =>
    issues_bind (issues_select _) fun isMember => ?_
  split_ifs
  · exact issues_pure _
  · exact issues_bind (issues_select _) fun _ => issues_bind (issues_failIf _ _) fun _ =>
      issues_bind (issues_execute (.inl rfl)) fun _ => issues_bind (issues_execute (.inr (.inl rfl))) fun _ =>
        issues_bind (issues_execute (.inr (.inr (.inl rfl)))) fun _ =>
          issues_bind (issues_execute (.inr (.inr (.inr rfl)))) fun _ => issues_pure _

theorem issues_useInvite {code : String} {now : DateTime} :
    (useInvite auth code now).Issues fun w =>
      (∃ serverId, w = .insertServerMember (newServerMember serverId auth now)) ∨
      (∃ serverId, w = .insertMemberRole ⟨serverId, auth, serverId⟩) ∨
      (∃ serverId, w = .incrementMemberCount serverId) ∨ ∃ code, w = .incrementInviteUses code := by
  refine issues_bind (issues_atomically ?_) fun _ => readOnly_fetchServer.issues
  refine issues_bind (issues_select _) fun _ => issues_bind (issues_orFail _ _) fun invite => ?_
  refine issues_joinServer.mono ?_
  rintro w (h | h | h | h)
  · exact .inl ⟨_, h⟩
  · exact .inr (.inl ⟨_, h⟩)
  · exact .inr (.inr (.inl ⟨_, h⟩))
  · exact .inr (.inr (.inr ⟨_, h⟩))

theorem issues_deleteInvite {code : String} : (deleteInvite auth code).Issues fun w => w = .deleteInvite code :=
  issues_bind (issues_select _) fun _ => issues_bind (issues_orFail _ _) fun _ =>
    issues_bind (issues_when fun _ => readOnly_requirePermissions.issues) fun _ => issues_execute rfl

/-! ## Roles -/

theorem issues_createRole {body : CreateRoleRequest} {now : DateTime} :
    (createRole auth serverId body roleId now).Issues fun w =>
      ∃ row : Role, w = .insertRole row ∧ row.id = roleId ∧ row.serverId = serverId ∧ row.isDefault = false :=
  issues_bind (issues_failIf _ _) fun _ => issues_bind readOnly_requirePermissions.issues fun _ =>
    issues_bind (issues_select _) fun _ => issues_bind readOnly_parseOptional.issues fun _ =>
      issues_bind (issues_when fun _ => readOnly_refuseForbiddenBits.issues) fun _ =>
        issues_bind (issues_execute ⟨_, rfl, rfl, rfl, rfl⟩) fun _ => readOnly_fetchRole.issues

theorem issues_updateRole {body : UpdateRoleRequest} :
    (updateRole auth serverId roleId body).Issues fun w => ∃ changes, w = .updateRole roleId serverId changes :=
  issues_bind readOnly_requirePermissions.issues fun _ => issues_bind readOnly_getActorHighestPosition.issues fun _ =>
    issues_bind readOnly_serverRole.issues fun _ => issues_bind (issues_failIf _ _) fun _ =>
      issues_bind (issues_failIf _ _) fun _ => issues_bind readOnly_parseOptional.issues fun _ =>
        issues_bind (issues_forM_option fun _ _ => readOnly_refuseForbiddenBits.issues) fun _ =>
          issues_bind (issues_execute ⟨_, rfl⟩) fun _ => readOnly_fetchRole.issues

theorem issues_deleteRole : (deleteRole auth serverId roleId).Issues fun w => w = .deleteRole roleId serverId :=
  issues_bind readOnly_requirePermissions.issues fun _ => issues_bind readOnly_serverRole.issues fun _ =>
    issues_bind (issues_failIf _ _) fun _ => issues_bind readOnly_getActorHighestPosition.issues fun _ =>
      issues_bind (issues_select _) fun _ => issues_bind (issues_orFail _ _) fun _ =>
        issues_bind (issues_failIf _ _) fun _ => issues_execute rfl

theorem issues_reorderRoles {body : List RolePositionUpdate} :
    (reorderRoles auth serverId body).Issues fun w =>
      ∃ position roleId, w = .updateRolePosition position roleId serverId := by
  refine issues_bind readOnly_requirePermissions.issues fun _ => issues_bind readOnly_getActorHighestPosition.issues
    fun _ => issues_bind (issues_when fun _ => ?_) fun _ => issues_bind ?_ fun _ => readOnly_getRoles.issues
  · exact issues_forM fun _ _ => issues_bind readOnly_serverRole.issues fun _ => issues_failIf _ _
  · exact issues_forM fun update _ => issues_execute ⟨update.position, update.id, rfl⟩

/-! ## Overrides -/

theorem issues_setChannelOverride {body : SetOverrideRequest} {overrideId : ℤ} :
    (setChannelOverride auth channelId overrideId body).Issues fun w => ∃ row, w = .upsertOverride row :=
  issues_bind readOnly_overrideServer.issues fun _ => issues_bind readOnly_requirePermissions.issues fun _ =>
    issues_bind (issues_orFail _ _) fun _ => issues_bind (issues_orFail _ _) fun _ =>
      issues_bind readOnly_refuseForbiddenBits.issues fun _ => issues_execute ⟨_, rfl⟩

theorem issues_deleteChannelOverride {overrideId : ℤ} :
    (deleteChannelOverride auth channelId overrideId).Issues fun w => w = .deleteOverride channelId overrideId :=
  issues_bind readOnly_overrideServer.issues fun _ => issues_bind readOnly_requirePermissions.issues fun _ =>
    issues_execute rfl

/-! ## All requests -/

/-- the statements that the handler of a request can issue -/
def Request.Footprint : Request → Sql → Prop
  | .createServer auth body serverId textChannelId _ now, w =>
    w = .insertServer (newServer serverId body auth now) ∨ w = .insertRole (everyoneRole serverId now) ∨
    (∃ channelId type name position, w = .insertChannel (newChannel channelId serverId type name position now)) ∨
    w = .updateSystemChannel serverId textChannelId ∨
    w = .insertServerMember (newServerMember serverId auth now) ∨ w = .insertMemberRole ⟨serverId, auth, serverId⟩
  | .updateServer _ serverId _, w =>
    (∃ ownerId, w = .updateServerOwner serverId ownerId) ∨ ∃ changes, w = .updateServer serverId changes
  | .deleteServer _ serverId _, w => w = .deleteServer serverId
  | .updateMember _ serverId userId body, w =>
    (∃ nickname, w = .updateNickname serverId userId nickname) ∨
    (∃ timeout ∈ body.communicationDisabledUntil, w = .updateTimeout serverId userId timeout) ∨
    w = .deleteMemberRoles serverId userId ∨ ∃ roleId, w = .insertMemberRoleIgnore ⟨serverId, userId, roleId⟩
  | .updateSelfMember auth serverId _, w => ∃ nickname, w = .updateNickname serverId auth nickname
  | .kickMember _ serverId userId, w => w = .deleteServerMember serverId userId ∨ w = .recountMembers serverId
  | .leaveServer auth serverId, w => w = .deleteServerMember serverId auth ∨ w = .recountMembers serverId
  | .createBan auth serverId userId reason, w =>
    w = .deleteServerMember serverId userId ∨ w = .upsertBan ⟨serverId, userId, reason, some auth⟩ ∨
    w = .recountMembers serverId
  | .removeBan _ serverId userId, w => w = .deleteBan serverId userId
  | .createInvite .., w => ∃ row, w = .insertInvite row
  | .useInvite auth _ now, w =>
    (∃ serverId, w = .insertServerMember (newServerMember serverId auth now)) ∨
    (∃ serverId, w = .insertMemberRole ⟨serverId, auth, serverId⟩) ∨
    (∃ serverId, w = .incrementMemberCount serverId) ∨ ∃ code, w = .incrementInviteUses code
  | .deleteInvite _ code, w => w = .deleteInvite code
  | .createRole _ serverId _ roleId _, w =>
    ∃ row : Role, w = .insertRole row ∧ row.id = roleId ∧ row.serverId = serverId ∧ row.isDefault = false
  | .updateRole _ serverId roleId _, w => ∃ changes, w = .updateRole roleId serverId changes
  | .deleteRole _ serverId roleId, w => w = .deleteRole roleId serverId
  | .reorderRoles _ serverId _, w => ∃ position roleId, w = .updateRolePosition position roleId serverId
  | .setChannelOverride .., w => ∃ row, w = .upsertOverride row
  | .deleteChannelOverride _ channelId overrideId, w => w = .deleteOverride channelId overrideId

theorem issues_respond {α : Type} {h : Handler α} {P : Sql → Prop} (hh : h.Issues P) : (respond h).Issues P :=
  issues_bind hh fun _ => issues_pure _

theorem issues_request {verifyPassword : String → String → Except String Bool} (r : Request) :
    (r.handle verifyPassword).Issues r.Footprint := by
  cases r with
  | createServer auth body serverId textChannelId voiceChannelId now => exact issues_respond issues_createServer
  | updateServer auth serverId body => exact issues_respond issues_updateServer
  | deleteServer auth serverId password => exact issues_deleteServer
  | updateMember auth serverId userId body => exact issues_respond issues_updateMember
  | updateSelfMember auth serverId nickname => exact issues_respond issues_updateSelfMember
  | kickMember auth serverId userId => exact issues_kickMember
  | leaveServer auth serverId => exact issues_leaveServer
  | createBan auth serverId userId reason => exact issues_createBan
  | removeBan auth serverId userId => exact issues_removeBan
  | createInvite auth channelId body code now => exact issues_respond issues_createInvite
  | useInvite auth code now => exact issues_respond issues_useInvite
  | deleteInvite auth code => exact issues_deleteInvite
  | createRole auth serverId body roleId now => exact issues_respond issues_createRole
  | updateRole auth serverId roleId body => exact issues_respond issues_updateRole
  | deleteRole auth serverId roleId => exact issues_deleteRole
  | reorderRoles auth serverId body => exact issues_respond issues_reorderRoles
  | setChannelOverride auth channelId overrideId body => exact issues_setChannelOverride
  | deleteChannelOverride auth channelId overrideId => exact issues_deleteChannelOverride

end Lumiere.Routes
