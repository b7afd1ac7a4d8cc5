/-
What an accepted request leaves in the row that it edits: `update_server`, `update_member`, `update_self_member`
(`lumiere-server/src/routes/servers.rs`), `update_role` (`roles.rs`), `update_channel` (`channels.rs`) and
`update_webhook` (`webhooks.rs`). The row is there, its fields can be stored, and it is the row with its fields in their
place; `update_server` may have changed the owner before.
-/
import Lumiere.Routes.MemberEdits
import Lumiere.Routes.RolePositions
import Lumiere.Routes.ServerEdits
import Lumiere.Routes.Webhooks

namespace Lumiere.Routes

open Lumiere.Core Lumiere.Core.Prog Lumiere.Models Lumiere.Db

variable {pg pg' : Postgres} {auth serverId : ℤ}

/-! ## Servers -/

theorem transfer_ok {ownerId : Option ℤ} {u : PUnit}
    (h : (ownerId.forM (transferOwnership auth serverId)).run statement pg = (.ok u, pg')) :
    ∃ f : Server → Server, (∀ s, ∃ owner, f s = { s with ownerId := owner }) ∧
      serverRow pg' serverId = (serverRow pg serverId).map f := by
  cases ownerId with
  | none =>
    obtain ⟨-, rfl⟩ := Prod.mk.inj h
    exact ⟨id, fun s => ⟨s.ownerId, rfl⟩, Option.map_id'.symm⟩
  | some newOwner =>
    by_cases htransfers : Transfers pg auth serverId newOwner
    · obtain ⟨-, rfl⟩ := Prod.mk.inj ((run_transferOwnership htransfers).symm.trans h)
      exact ⟨_, fun s => ⟨newOwner, rfl⟩, serverRow_handOver pg serverId newOwner⟩
    · obtain ⟨e, hrun⟩ := transferOwnership_refused htransfers
      nomatch (Prod.mk.inj (hrun.symm.trans h)).1

theorem checked_of_noFields {body : UpdateServerRequest} (h : body.hasOtherFields = false) :
    body.changes.checked = .ok body.changes ∧ ∀ s, body.changes.apply s = s := by
  simp only [UpdateServerRequest.hasOtherFields, Bool.or_eq_false_iff, Option.isSome_eq_false_iff,
    Option.isNone_iff_eq_none] at h
  obtain ⟨⟨⟨⟨⟨⟨⟨⟨⟨h₁, h₂⟩, h₃⟩, h₄⟩, h₅⟩, h₆⟩, h₇⟩, h₈⟩, h₉⟩, h₁₀⟩ := h
  rw [UpdateServerRequest.changes, h₁, h₂, h₃, h₄, h₅, h₆, h₇, h₈, h₉, h₁₀]
  exact ⟨rfl, fun _ => rfl⟩

theorem updateServer_ok {body : UpdateServerRequest} {r : Server}
    (h : (updateServer auth serverId body).run statement pg = (.ok r, pg')) :
    ∃ s owner checked, serverRow pg serverId = some s ∧ body.changes.checked = .ok checked ∧
      serverRow pg' serverId = some (checked.apply { s with ownerId := owner }) := by
  rw [updateServer] at h
  obtain ⟨_, pg₁, htransfer, h₁⟩ := run_bind_eq_ok.1 h
  obtain ⟨f, hf, hrow₁⟩ := transfer_ok htransfer
  obtain ⟨_, pg₂, hperms, h₂⟩ := run_bind_eq_ok.1 h₁
  have hread : (when body.hasOtherFields (requirePermissions serverId auth .manageServer)).ReadOnly :=
    issues_when fun _ => readOnly_requirePermissions
  obtain rfl := hread.eq_of_run hperms
  obtain ⟨_, pg₃, hfields, h₃⟩ := run_bind_eq_ok.1 h₂
  obtain rfl := readOnly_fetchServer.eq_of_run h₃
  have hfound : ∃ row, serverRow pg' serverId = some row := by
    rw [fetchServer, run_bind_of_ok (run_select _)] at h₃
    exact ⟨r, (orFail_eq_ok.1 h₃).1⟩
  have hchecked : ∃ checked : ServerChanges, body.changes.checked = .ok checked ∧
      serverRow pg' serverId = (serverRow pg₂ serverId).map checked.apply := by
    by_cases hother : body.hasOtherFields = true
    · rw [when, if_pos hother] at hfields
      obtain ⟨n, hexec⟩ := execute_eq_ok.1 hfields
      obtain ⟨checked, hchecked, rfl⟩ := exec_updateServer_checked (statement_eq_ok.1 hexec)
      exact ⟨checked, hchecked, serverRow_updateWhere pg₂ serverId checked.apply_id⟩
    · rw [when, if_neg hother] at hfields
      obtain ⟨-, rfl⟩ := Prod.mk.inj hfields
      obtain ⟨hchecked, hsame⟩ := checked_of_noFields (Bool.eq_false_iff.2 hother)
      refine ⟨body.changes, hchecked, ?_⟩
      rw [funext hsame, Option.map_id']
  obtain ⟨checked, hchecked, hrow⟩ := hchecked
  obtain ⟨row, hfound⟩ := hfound
  rw [hrow, hrow₁, Option.map_map] at hfound
  obtain ⟨s, hs, rfl⟩ := Option.map_eq_some_iff.1 hfound
  obtain ⟨owner, howner⟩ := hf s
  refine ⟨s, owner, checked, hs, hchecked, ?_⟩
  rw [hrow, hrow₁, hs, Option.map_some, Option.map_some, howner]

/-! ## Members -/

theorem updateMember_ok {userId : ℤ} {body : UpdateMemberRequest} {r : MemberResponse}
    (h : (updateMember auth serverId userId body).run statement pg = (.ok r, pg')) :
    ∃ m nickname, body.storedNickname = .ok nickname ∧ memberAt pg serverId userId = some m ∧
      memberAt pg' serverId userId = some (body.edit nickname m) := by
  have hends := h
  rw [updateMember] at h
  obtain ⟨_, pg₁, hchecks, h₁⟩ := run_bind_eq_ok.1 h
  obtain rfl := readOnly_updateMemberChecks.eq_of_run hchecks
  have hallowed := updateMemberChecks_iff.1 (succeeds_of_run hchecks)
  rcases hnickname : body.storedNickname with e | nickname
  · rw [run_bind_of_error (updateMemberFields_refused hnickname)] at h₁
    cases (Prod.mk.inj h₁).1
  · obtain ⟨r', pg₂, hrun, hedited, hok⟩ := run_updateMember hallowed hnickname
    obtain ⟨rfl, rfl⟩ := Prod.mk.inj (hrun.symm.trans hends)
    obtain ⟨-, hmember, -⟩ := hok.1 rfl
    obtain ⟨m, hm, hserver, huser⟩ := hasMember_iff.1 hmember
    have hrow : memberAt pg₁ serverId userId = some m := memberAt_eq_some.2 ⟨hm, hserver, huser⟩
    refine ⟨m, nickname, rfl, hrow, ?_⟩
    rw [hedited.row, hrow, Option.map_some]

theorem updateSelfMember_ok {nickname : Option (Option String)} {r : MemberResponse}
    (h : (updateSelfMember auth serverId nickname).run statement pg = (.ok r, pg')) :
    ∃ m stored, nickname.mapM (varchar? 32) = .ok stored ∧ memberAt pg serverId auth = some m ∧
      memberAt pg' serverId auth = some { m with nickname := stored.getD m.nickname } := by
  rw [updateSelfMember] at h
  obtain ⟨_, pg₁, hperms, h₁⟩ := run_bind_eq_ok.1 h
  obtain ⟨hmember, -, rfl⟩ := requirePermissions_eq_ok.1 hperms
  obtain ⟨_, pg₂, hfields, h₂⟩ := run_bind_eq_ok.1 h₁
  obtain rfl := readOnly_getMember.eq_of_run h₂
  obtain ⟨m, hm, hserver, huser⟩ := hasMember_iff.1 hmember
  have hrow : memberAt pg₁ serverId auth = some m := memberAt_eq_some.2 ⟨hm, hserver, huser⟩
  cases nickname with
  | none =>
    obtain ⟨-, rfl⟩ := Prod.mk.inj hfields
    exact ⟨m, none, rfl, hrow, hrow⟩
  | some nickname =>
    rw [Option.forM, run_nickname] at hfields
    rcases hstored : varchar? 32 nickname with e | stored
    · rw [hstored] at hfields
      cases (Prod.mk.inj hfields).1
    · rw [hstored] at hfields
      obtain ⟨-, rfl⟩ := Prod.mk.inj hfields
      refine ⟨m, some stored, by rw [Option.mapM_some, hstored]; rfl, hrow, ?_⟩
      rw [memberAt_editMember, hrow]
      rfl

/-! ## Roles -/

theorem updateRole_ok {roleId : ℤ} {body : UpdateRoleRequest} {r : RoleResponse}
    (h : (updateRole auth serverId roleId body).run statement pg = (.ok r, pg')) :
    ∃ role ∈ pg.roles, ∃ permissions checked, role.id = roleId ∧ role.serverId = serverId ∧
      (body.changes permissions).checked = .ok checked ∧ checked.apply role ∈ pg'.roles := by
  rw [updateRole_eq] at h
  obtain ⟨permissions, pg₁, hchecks, h₁⟩ := run_bind_eq_ok.1 h
  obtain rfl := readOnly_updateRoleChecks.eq_of_run hchecks
  unfold updateRoleChecks at hchecks
  simp only [run_bind_eq_ok, serverRole_iff] at hchecks
  obtain ⟨_, _, hperms, _, _, hactor, role, _, ⟨⟨hrole, hid, hserver⟩, -⟩, -⟩ := hchecks
  obtain rfl := readOnly_requirePermissions.eq_of_run hperms
  obtain rfl := readOnly_getActorHighestPosition.eq_of_run hactor
  obtain ⟨_, pg₂, hupdate, h₂⟩ := run_bind_eq_ok.1 h₁
  obtain rfl := readOnly_fetchRole.eq_of_run h₂
  obtain ⟨n, hexec⟩ := execute_eq_ok.1 hupdate
  have hexec := statement_eq_ok.1 hexec
  simp only [Sql.exec, bind_eq_ok, pure_eq_ok, Prod.mk.injEq] at hexec
  obtain ⟨checked, hchecked, -, rfl⟩ := hexec
  exact ⟨role, hrole, permissions, checked, hid, hserver, hchecked,
    Table.mem_updateWhere_of_mem checked.apply_id hrole (by simp [hid, hserver])⟩

/-! ## Channels -/

/-- what writes overrides only leaves the channels alone -/
theorem run_overrides_channels {p : PgHandler Unit} {channelId : ℤ}
    (h : p.Issues fun w => w = .deleteOverrides channelId ∨ ∃ ov : PermissionOverrideInput, w = .insertOverride (ov.row channelId))
    (pg : Postgres) : (p.run perform pg).2.channels = pg.channels := by
  refine issues_run (I := fun s : Postgres => s.channels = pg.channels) ?_ h rfl
  intro w s n s' hw hs hexec
  have hexec := perform_eq_ok.1 hexec
  rcases hw with rfl | ⟨row, rfl⟩
  · simp only [Stmt.exec, Except.ok.injEq, Prod.mk.injEq] at hexec
    obtain ⟨-, rfl⟩ := hexec
    exact hs
  · simp only [Stmt.exec, bind_eq_ok, pure_eq_ok, requires_eq_ok, unique_eq_ok, Prod.mk.injEq] at hexec
    obtain ⟨_, -, _, -, -, rfl⟩ := hexec
    exact hs

theorem checked_of_isEmpty {changes : ChannelChanges} (h : changes.isEmpty = true) :
    changes.checked = .ok changes ∧ ∀ c, changes.apply c = c := by
  obtain ⟨name, topic, position, parentId, bitrate, userLimit, rateLimit, nsfw⟩ := changes
  simp only [ChannelChanges.isEmpty, Bool.and_eq_true, Option.isNone_iff_eq_none] at h
  obtain ⟨⟨⟨⟨⟨⟨⟨rfl, rfl⟩, rfl⟩, rfl⟩, rfl⟩, rfl⟩, rfl⟩, rfl⟩ := h
  exact ⟨rfl, fun _ => rfl⟩

theorem updateChannel_ok {unicode : Unicode} {channelId : ℤ} {body : UpdateChannelRequest} {r : ChannelResponse}
    (h : (updateChannel unicode auth channelId body).run perform pg = (.ok r, pg')) :
    ∃ c ∈ pg.channels, ∃ checked, c.id = channelId ∧ (body.changes unicode c.type).checked = .ok checked ∧
      checked.apply c ∈ pg'.channels := by
  rw [updateChannel] at h
  obtain ⟨⟨server, type⟩, pg₁, hchecks, h₁⟩ := run_bind_eq_ok.1 h
  obtain rfl := (readOnly_sql readOnly_updateChannelChecks).eq_of_run hchecks
  have hchannel : ∃ c ∈ pg₁.channels, c.id = channelId ∧ c.type = type := by
    rw [run_sql] at hchecks
    unfold updateChannelChecks serverChannel at hchecks
    simp only [run_bind_eq_ok, orFail_eq_ok, run_select, run_pure, Prod.mk.injEq, Except.ok.injEq] at hchecks
    obtain ⟨_, _, ⟨_, _, ⟨rfl, rfl⟩, c, _, ⟨hfind, rfl⟩, _, _, ⟨-, rfl⟩, rfl, rfl⟩, _, _, -, _, _, -, _, _, -, _, _, -, _, _, -,
      ⟨-, htype⟩, -⟩ := hchecks
    obtain ⟨hc, hid⟩ := Table.mem_of_find? hfind
    exact ⟨c, hc, of_decide_eq_true hid, htype⟩
  obtain ⟨c, hc, hid, rfl⟩ := hchannel
  dsimp only at h₁
  obtain ⟨_, pg₂, hupdate, h₂⟩ := run_bind_eq_ok.1 h₁
  obtain ⟨_, pg₃, hoverrides, h₃⟩ := run_bind_eq_ok.1 h₂
  obtain rfl := (readOnly_sql readOnly_fetchChannel).eq_of_run h₃
  have hsame : pg'.channels = pg₂.channels := by
    have hissues : (body.permissionOverrides.forM (replaceOverrides channelId)).Issues fun w =>
        w = .deleteOverrides channelId ∨ ∃ ov : PermissionOverrideInput, w = .insertOverride (ov.row channelId) :=
      issues_forM_option fun overrides _ => issues_replaceOverrides.mono fun w hw =>
        hw.imp_right (by rintro ⟨ov, _, _, heq⟩; exact ⟨ov, heq⟩)
    have hrun := run_overrides_channels hissues pg₂
    rw [hoverrides] at hrun
    exact hrun
  rw [hsame]
  by_cases hempty : (body.changes unicode c.type).isEmpty = true
  · rw [when, if_neg (by simp [hempty])] at hupdate
    obtain ⟨-, rfl⟩ := Prod.mk.inj hupdate
    obtain ⟨hchecked, happly⟩ := checked_of_isEmpty hempty
    exact ⟨c, hc, _, hid, hchecked, (happly c).symm ▸ hc⟩
  · rw [when, if_pos (by simp [hempty])] at hupdate
    obtain ⟨n, hexec⟩ := execute_eq_ok.1 hupdate
    obtain ⟨checked, hchecked, rfl⟩ := exec_updateChannel_checked (perform_eq_ok.1 hexec)
    exact ⟨c, hc, checked, hid, hchecked, Table.mem_updateWhere_of_mem checked.apply_id hc (by simp [hid])⟩

/-! ## Webhooks -/

section Webhooks

variable {s s' : Hooks} {webhookId : ℤ}

/-- the row of the webhook, with this avatar -/
def HasAvatar (s : Hooks) (webhookId : ℤ) (avatar : Option String) : Prop :=
  ∃ h ∈ s.webhooks, h.id = webhookId ∧ h.avatar = avatar

theorem hasAvatar_updateWhere {avatar : Option String} {f : WebhookRow → WebhookRow} (hf : ∀ h, (f h).key = h.key)
    (hsame : ∀ h, (f h).avatar = h.avatar) (h : HasAvatar s webhookId avatar) :
    HasAvatar { s with webhooks := s.webhooks.updateWhere (fun h => h.id = webhookId) f hf } webhookId avatar := by
  obtain ⟨row, hrow, hid, rfl⟩ := h
  exact ⟨f row, Table.mem_updateWhere_of_mem hf hrow (decide_eq_true hid), (hf row).trans hid, hsame row⟩

theorem run_nameWebhook {avatar : Option String} {name : Option String} {u : PUnit}
    (hrun : (name.forM fun name => (execute (.updateName webhookId name) : HookHandler Unit)).run hookPerform s =
      (.ok u, s')) (h : HasAvatar s webhookId avatar) : HasAvatar s' webhookId avatar := by
  cases name with
  | none =>
    obtain ⟨-, rfl⟩ := Prod.mk.inj hrun
    exact h
  | some name =>
    obtain ⟨n, hexec⟩ := execute_eq_ok.1 hrun
    have hexec := hookPerform_eq_ok.1 hexec
    simp only [HookStmt.exec, bind_eq_ok, pure_eq_ok, Prod.mk.injEq] at hexec
    obtain ⟨name, -, -, rfl⟩ := hexec
    exact hasAvatar_updateWhere (f := fun h => { h with name }) (fun _ => rfl) (fun _ => rfl) h

theorem run_moveWebhook {avatar : Option String} {channelId : Option ℤ} {u : PUnit}
    (hrun : (channelId.forM fun id => (execute (.updateChannelId webhookId id) : HookHandler Unit)).run hookPerform s =
      (.ok u, s')) (h : HasAvatar s webhookId avatar) : HasAvatar s' webhookId avatar := by
  cases channelId with
  | none =>
    obtain ⟨-, rfl⟩ := Prod.mk.inj hrun
    exact h
  | some channelId =>
    obtain ⟨n, hexec⟩ := execute_eq_ok.1 hrun
    obtain rfl := exec_updateChannelId (hookPerform_eq_ok.1 hexec)
    exact hasAvatar_updateWhere (f := fun h => { h with channelId }) (fun _ => rfl) (fun _ => rfl) h

theorem run_avatarWebhook {before : Option String} {avatar : Option (Option String)} {u : PUnit}
    (hrun : (avatar.forM fun avatar => (execute (.updateAvatar webhookId avatar) : HookHandler Unit)).run hookPerform s =
      (.ok u, s')) (h : HasAvatar s webhookId before) :
    ∃ stored, avatar.mapM (varchar? 255) = .ok stored ∧ HasAvatar s' webhookId (stored.getD before) := by
  cases avatar with
  | none =>
    obtain ⟨-, rfl⟩ := Prod.mk.inj hrun
    exact ⟨none, rfl, h⟩
  | some avatar =>
    obtain ⟨n, hexec⟩ := execute_eq_ok.1 hrun
    have hexec := hookPerform_eq_ok.1 hexec
    simp only [HookStmt.exec, bind_eq_ok, pure_eq_ok, Prod.mk.injEq] at hexec
    obtain ⟨stored, hstored, -, rfl⟩ := hexec
    obtain ⟨row, hrow, hid, -⟩ := h
    have hmem : { row with avatar := stored } ∈ s.webhooks.updateWhere (fun h => h.id = webhookId)
        (fun h => { h with avatar := stored }) fun _ => rfl :=
      Table.mem_updateWhere_of_mem _ hrow (decide_eq_true hid)
    exact ⟨some stored, by rw [Option.mapM_some, hstored]; rfl, _, hmem, hid, rfl⟩

theorem updateWebhook_ok {body : UpdateWebhookRequest} {r : WebhookResponse}
    (h : (updateWebhook auth webhookId body).run hookPerform s = (.ok r, s')) :
    ∃ row ∈ s.webhooks, row.id = webhookId ∧ ∃ stored, body.avatar.mapM (varchar? 255) = .ok stored ∧
      HasAvatar s' webhookId (stored.getD row.avatar) := by
  rw [updateWebhook] at h
  obtain ⟨server, s₁, hserver, h₁⟩ := run_bind_eq_ok.1 h
  obtain rfl := readOnly_webhookServer.eq_of_run hserver
  obtain ⟨_, s₂, hperms, h₂⟩ := run_bind_eq_ok.1 h₁
  obtain rfl := readOnly_requireManageWebhooks.eq_of_run hperms
  have hrow : ∃ row ∈ s₂.webhooks, row.id = webhookId := by
    unfold webhookServer at hserver
    simp only [run_bind_eq_ok, orFail_eq_ok, run_select, Prod.mk.injEq, Except.ok.injEq] at hserver
    obtain ⟨_, _, ⟨rfl, rfl⟩, row, _, ⟨hfind, rfl⟩, -⟩ := hserver
    obtain ⟨hmem, hid⟩ := Table.mem_of_find? hfind
    exact ⟨row, hmem, of_decide_eq_true hid⟩
  obtain ⟨row, hmem, hid⟩ := hrow
  obtain ⟨_, s₃, hname, h₃⟩ := run_bind_eq_ok.1 h₂
  obtain ⟨_, s₄, havatar, h₄⟩ := run_bind_eq_ok.1 h₃
  obtain ⟨_, s₅, hmove, h₅⟩ := run_bind_eq_ok.1 h₄
  obtain rfl := readOnly_getWebhook.eq_of_run h₅
  obtain ⟨stored, hstored, hafter⟩ := run_avatarWebhook havatar (run_nameWebhook hname ⟨row, hmem, hid, rfl⟩)
  exact ⟨row, hmem, hid, stored, hstored, run_moveWebhook hmove hafter⟩

end Webhooks

end Lumiere.Routes
