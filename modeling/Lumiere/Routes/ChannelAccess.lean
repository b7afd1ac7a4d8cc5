/-
The request-time check of a channel (`check_channel_permission` in `lumiere-server/src/routes/messages.rs`) against the
permission algorithm of `lumiere-permissions`. The check asks `require_permissions` of the channel's server and never
reads `permission_overrides`.

- `checkChannelPermission_eq_ok`: when the check lets a user through in a server channel.
- `mem_channelPermissions`: which bits the algorithm grants, in terms of rows.
- `Repeats`: the override rows of the channel that decide a permission for the user say what his roles say already.
- `check_agrees_iff`: the two agree on a mask and all its parts, so on each single permission, exactly if the rows of the
  channel repeat the roles on its bits.
- `denied_member_writes`: a member who is denied SEND_MESSAGES in a channel passes the check for it.
-/
import Lumiere.Routes.Access
import Lumiere.Routes.Requests

namespace Lumiere.Routes

open Lumiere.Core Lumiere.Core.Prog Lumiere.Models Lumiere.Db Permissions

def getChannelServer (channelId : ℤ) : Handler (Option ℤ) := do
  let row ← select fun pg => pg.channels.find? fun c => c.id = channelId
  let c ← orFail (.notFound "Channel not found") row
  pure c.serverId

/-- the server of the channel, or none for a direct message -/
def checkChannelPermission (channelId userId : ℤ) (perm : Permissions) : Handler (Option ℤ) := do
  let serverId ← getChannelServer channelId
  match serverId with
  | some sid => do
    requirePermissions sid userId perm
    pure (some sid)
  | none => do
    let isRecipient ← select fun pg => pg.dmRecipients.any fun r => r.channelId = channelId && r.userId = userId
    failIf (!isRecipient) (.forbidden "Not a recipient of this channel")
    pure none

variable {pg pg' : Postgres} {channelId serverId userId : ℤ} {perm : Permissions}

theorem readOnly_getChannelServer : (getChannelServer channelId).ReadOnly :=
  issues_bind (issues_select _) fun _ => issues_bind (issues_orFail _ _) fun _ => issues_pure _

theorem readOnly_checkChannelPermission : (checkChannelPermission channelId userId perm).ReadOnly := by
  refine issues_bind readOnly_getChannelServer fun serverId => ?_
  cases serverId with
  | some sid => exact issues_bind readOnly_requirePermissions fun _ => issues_pure _
  | none => exact issues_bind (issues_select _) fun _ => issues_bind (issues_failIf _ _) fun _ => issues_pure _

/-- the channel belongs to the server -/
def InServer (pg : Postgres) (channelId serverId : ℤ) : Prop :=
  ∃ c ∈ pg.channels, c.id = channelId ∧ c.serverId = some serverId

theorem run_getChannelServer (hc : InServer pg channelId serverId) :
    (getChannelServer channelId).run statement pg = (.ok (some serverId), pg) := by
  obtain ⟨c, hmem, rfl, hserver⟩ := hc
  have hfind : (pg.channels.find? fun c' => c'.id = c.id) = some c :=
    Table.find?_of_mem hmem (by simp) fun c' hc' hid => Table.eq_of_key_eq hc' hmem (of_decide_eq_true hid)
  rw [getChannelServer, run_bind_of_ok (run_select _), hfind, run_bind_of_ok (run_orFail_some _ _), hserver, run_pure]

theorem run_checkChannelPermission (hc : InServer pg channelId serverId) :
    (checkChannelPermission channelId userId perm).run statement pg =
      (if pg.hasMember serverId userId then
        if (pg.userPermissions serverId userId).contains perm then .ok (some serverId)
        else .error (.forbidden "Missing required permissions")
      else .error (.forbidden "Not a member of this server"), pg) := by
  rw [checkChannelPermission, run_bind_of_ok (run_getChannelServer hc)]
  dsimp only
  rw [run_bind, run_requirePermissions]
  by_cases hm : pg.hasMember serverId userId = true
  · rw [if_pos hm, if_pos hm]
    by_cases hp : (pg.userPermissions serverId userId).contains perm = true
    · rw [if_pos hp, if_pos hp]
      rfl
    · rw [if_neg hp, if_neg hp]
  · rw [if_neg hm, if_neg hm]

theorem checkChannelPermission_eq_ok (hc : InServer pg channelId serverId) :
    (checkChannelPermission channelId userId perm).succeeds statement pg = true ↔
      pg.hasMember serverId userId = true ∧ perm ⊆ pg.userPermissions serverId userId := by
  rw [Prog.succeeds, run_checkChannelPermission hc, ← contains_iff]
  by_cases hm : pg.hasMember serverId userId = true
  · by_cases hp : (pg.userPermissions serverId userId).contains perm = true
    · simp [hm, hp]
    · simp [hm, hp]
  · simp [hm]

/-- the check returns the server of the channel, and only to a member -/
theorem of_checkChannelPermission {sid : Option ℤ} (hc : InServer pg channelId serverId)
    (h : (checkChannelPermission channelId userId perm).run statement pg = (.ok sid, pg')) :
    sid = some serverId ∧ pg.hasMember serverId userId = true := by
  rw [run_checkChannelPermission hc, Prod.mk.injEq] at h
  obtain ⟨h, -⟩ := h
  split_ifs at h with hm hp
  exact ⟨(Except.ok.inj h).symm, hm⟩

/-! ## What the algorithm is given -/

/-- the role is assigned to the user under the server of the role, or a default role -/
def AssignedIn (pg : Postgres) (serverId userId : ℤ) (r : Role) : Prop :=
  r ∈ pg.roles ∧ r.serverId = serverId ∧ (r.isDefault = true ∨ ⟨serverId, userId, r.id⟩ ∈ pg.memberRoles)

/-- a default role of the server, of which `create_server` makes one -/
def isEveryone (pg : Postgres) (serverId roleId : ℤ) : Bool :=
  pg.roles.any fun r => r.id = roleId && (r.serverId = serverId && r.isDefault)

def assignedRoleIds (pg : Postgres) (serverId userId : ℤ) : List ℤ :=
  (pg.memberRoles.select fun m => m.serverId = serverId && (m.userId = userId && !isEveryone pg serverId m.roleId)).map
    MemberRole.roleId

def everyoneBits (pg : Postgres) (serverId : ℤ) : BitVec 64 :=
  (pg.roles.select fun r => r.serverId = serverId && r.isDefault).foldl (fun bits r => bits ||| r.permissions) 0

def roleBits (pg : Postgres) (serverId : ℤ) : List (ℤ × BitVec 64) :=
  (pg.roles.select fun r => r.serverId = serverId).map fun r => (r.id, r.permissions)

def channelOverrides (pg : Postgres) (channelId : ℤ) : List PermissionOverride :=
  (pg.permissionOverrides.select fun o => o.channelId = channelId).map fun o =>
    ⟨o.targetId, o.targetType, fromBitsTruncate o.allowBits, fromBitsTruncate o.denyBits⟩

/-- the algorithm on the rows of a channel, a server and a user -/
def channelPermissions (pg : Postgres) (channelId serverId userId : ℤ) : Permissions :=
  computePermissions (pg.isOwner serverId userId) (assignedRoleIds pg serverId userId) (everyoneBits pg serverId)
    (roleBits pg serverId) (some (channelOverrides pg channelId)) userId serverId

variable {b : ℕ}

theorem mem_assignedRoleIds {roleId : ℤ} :
    roleId ∈ assignedRoleIds pg serverId userId ↔
      ⟨serverId, userId, roleId⟩ ∈ pg.memberRoles ∧ isEveryone pg serverId roleId = false := by
  simp only [assignedRoleIds, List.mem_map, Table.mem_select, Bool.and_eq_true, decide_eq_true_eq, Bool.not_eq_true']
  constructor
  · rintro ⟨⟨s, u, id⟩, ⟨hm, rfl, rfl, he⟩, rfl⟩
    exact ⟨hm, he⟩
  · rintro ⟨hm, he⟩
    exact ⟨_, ⟨hm, rfl, rfl, he⟩, rfl⟩

theorem getLsbD_foldl_or {rs : List Role} {bits : BitVec 64} :
    (rs.foldl (fun bits r => bits ||| r.permissions) bits).getLsbD b = true ↔
      bits.getLsbD b = true ∨ ∃ r ∈ rs, r.permissions.getLsbD b = true := by
  induction rs generalizing bits with
  | nil => simp
  | cons r rs ih => simp [ih, or_assoc]

theorem getLsbD_everyoneBits :
    (everyoneBits pg serverId).getLsbD b = true ↔
      ∃ r ∈ pg.roles, r.serverId = serverId ∧ r.isDefault = true ∧ r.permissions.getLsbD b = true := by
  rw [everyoneBits, getLsbD_foldl_or]
  simp [and_assoc]

theorem find?_roleBits {roleId : ℤ} {x : ℤ × BitVec 64} :
    (roleBits pg serverId).find? (fun r => r.1 = roleId) = some x ↔
      ∃ r ∈ pg.roles, r.serverId = serverId ∧ r.id = roleId ∧ (r.id, r.permissions) = x := by
  constructor
  · intro h
    have hid := List.find?_some h
    obtain ⟨r, hr, rfl⟩ := List.mem_map.1 (List.mem_of_find?_eq_some h)
    rw [Table.mem_select, decide_eq_true_eq] at hr
    exact ⟨r, hr.1, hr.2, of_decide_eq_true hid, rfl⟩
  · rintro ⟨r, hr, hserver, rfl, rfl⟩
    rcases h : (roleBits pg serverId).find? fun r' => r'.1 = r.id with _ | y
    · rw [List.find?_eq_none] at h
      exact absurd (decide_eq_true rfl) (h (r.id, r.permissions) (List.mem_map.2 ⟨r, by simp [hr, hserver], rfl⟩))
    · have hid := List.find?_some h
      obtain ⟨r', hr', rfl⟩ := List.mem_map.1 (List.mem_of_find?_eq_some h)
      rw [Table.mem_select] at hr'
      rw [h, Table.eq_of_key_eq hr'.1 hr (of_decide_eq_true hid)]

/-- the base permissions are those of the roles assigned in the server -/
theorem mem_base :
    b ∈ basePermissions (assignedRoleIds pg serverId userId) (everyoneBits pg serverId) (roleBits pg serverId) ↔
      b ∈ Permissions.all ∧ ∃ r, AssignedIn pg serverId userId r ∧ r.permissions.getLsbD b = true := by
  rw [mem_basePermissions, getLsbD_everyoneBits]
  simp only [find?_roleBits, mem_assignedRoleIds]
  refine and_congr_right fun _ => ?_
  constructor
  · rintro (⟨r, hr, hserver, hd, hb⟩ | ⟨id, ⟨hm, -⟩, x, ⟨r, hr, hserver, rfl, rfl⟩, hb⟩)
    · exact ⟨r, ⟨hr, hserver, .inl hd⟩, hb⟩
    · exact ⟨r, ⟨hr, hserver, .inr hm⟩, hb⟩
  · rintro ⟨r, ⟨hr, hserver, hassigned⟩, hb⟩
    by_cases hd : r.isDefault = true
    · exact .inl ⟨r, hr, hserver, hd, hb⟩
    · refine .inr ⟨r.id, ⟨hassigned.resolve_left hd, ?_⟩, _, ⟨r, hr, hserver, rfl, rfl⟩, hb⟩
      rw [← Bool.not_eq_true, isEveryone, Table.any_eq_true]
      rintro ⟨r', hr', h⟩
      simp only [Bool.and_eq_true, decide_eq_true_eq] at h
      rw [Table.eq_of_key_eq hr' hr h.1] at h
      exact hd h.2.2

/-- the most specific override that names the bit decides, else a role assigned in the server -/
def Granted (pg : Postgres) (channelId serverId userId : ℤ) (b : ℕ) : Prop :=
  let overrides := channelOverrides pg channelId
  let roleIds := assignedRoleIds pg serverId userId
  Allows b (overrideOf overrides userId 1) ∨ ¬ Denies b (overrideOf overrides userId 1) ∧
    ((∃ id ∈ roleIds, Allows b (overrideOf overrides id 0)) ∨
      (¬ ∃ id ∈ roleIds, Denies b (overrideOf overrides id 0)) ∧
        (Allows b (overrideOf overrides serverId 0) ∨ ¬ Denies b (overrideOf overrides serverId 0) ∧
          ∃ r, AssignedIn pg serverId userId r ∧ r.permissions.getLsbD b = true))

theorem mem_channelPermissions (howner : pg.isOwner serverId userId = false)
    (hadmin : ∀ r, AssignedIn pg serverId userId r → r.permissions.getLsbD 0 = false) (hb : b ∈ Permissions.all) :
    b ∈ channelPermissions pg channelId serverId userId ↔ Granted pg channelId serverId userId b := by
  have hbase : ¬ administrator ⊆ basePermissions (assignedRoleIds pg serverId userId) (everyoneBits pg serverId)
      (roleBits pg serverId) := by
    rw [← contains_iff, contains_administrator, mem_base]
    rintro ⟨-, r, hr, h0⟩
    rw [hadmin r hr] at h0
    cases h0
  rw [channelPermissions, howner, mem_computePermissions hbase hb, mem_base, and_iff_right hb, Granted]

/-- overrides are stored with any bits and read with the declared ones -/
theorem allows_channelOverrides {targetId targetType : ℤ}
    (h : Allows b (overrideOf (channelOverrides pg channelId) targetId targetType)) : b ∈ Permissions.all := by
  obtain ⟨ov, hov, hb⟩ := h
  obtain ⟨o, -, rfl⟩ := List.mem_map.1 (List.mem_of_find?_eq_some hov)
  exact (mem_fromBitsTruncate.1 hb).2

theorem mem_applyOverride_all {permissions : Permissions} {o : Option PermissionOverride}
    (hp : permissions ⊆ Permissions.all) (ho : ∀ b, Allows b o → b ∈ Permissions.all) :
    applyOverride permissions o ⊆ Permissions.all := by
  intro b hb
  cases o with
  | none => exact hp b hb
  | some ov =>
    simp only [applyOverride, mem_or, mem_and] at hb
    rcases hb with ⟨hb, -⟩ | hb
    · exact hp b hb
    · exact ho b ⟨ov, rfl, hb⟩

theorem channelPermissions_of_owner (howner : pg.isOwner serverId userId = true) :
    channelPermissions pg channelId serverId userId = .all := by
  rw [channelPermissions, computePermissions, if_pos howner]

theorem channelPermissions_of_administrator {r : Role} (hr : AssignedIn pg serverId userId r)
    (h0 : r.permissions.getLsbD 0 = true) : channelPermissions pg channelId serverId userId = .all := by
  have hbase : (basePermissions (assignedRoleIds pg serverId userId) (everyoneBits pg serverId)
      (roleBits pg serverId)).contains administrator = true := by
    rw [contains_administrator, mem_base]
    exact ⟨by decide, r, hr, h0⟩
  rw [channelPermissions, computePermissions]
  dsimp only
  rw [if_pos hbase, ite_self]

theorem channelPermissions_subset_all : channelPermissions pg channelId serverId userId ⊆ Permissions.all := by
  rw [channelPermissions, computePermissions]
  dsimp only
  split_ifs with howner hadmin
  · exact fun _ => id
  · exact fun _ => id
  · refine mem_applyOverride_all (fun b hb => ?_) fun _ => allows_channelOverrides
    simp only [mem_or, mem_and, mem_roleOverrides_fst] at hb
    rcases hb with ⟨hb, -⟩ | ⟨_, -, hb⟩
    · exact mem_applyOverride_all (fun _ hb => (mem_base.1 hb).1) (fun _ => allows_channelOverrides) b hb
    · exact allows_channelOverrides hb

/-! ## The rows that decide -/

section Rows

variable (pg : Postgres) (channelId serverId userId : ℤ) (b : ℕ)

/-- a row of the channel that names the bit, for the target -/
def Names (targetType targetId : ℤ) (o : PermissionOverrideRow) : Prop :=
  o ∈ pg.permissionOverrides ∧ o.channelId = channelId ∧ o.targetType = targetType ∧ o.targetId = targetId ∧
    (o.allowBits.getLsbD b = true ∨ o.denyBits.getLsbD b = true)

/-- the rows that bear on the user most closely: his own, else those of his roles, else that of everyone -/
inductive Decides (o : PermissionOverrideRow) : Prop where
  | own (h : Names pg channelId b 1 userId o)
  | role (roleId : ℤ) (hassigned : roleId ∈ assignedRoleIds pg serverId userId) (h : Names pg channelId b 0 roleId o)
    (hown : ∀ o', ¬ Names pg channelId b 1 userId o')
  | everyone (h : Names pg channelId b 0 serverId o) (hown : ∀ o', ¬ Names pg channelId b 1 userId o')
    (hrole : ∀ roleId ∈ assignedRoleIds pg serverId userId, ∀ o', ¬ Names pg channelId b 0 roleId o')

/-- a role of the server that counts has the bit, or ADMINISTRATOR -/
def RoleGrants : Prop := ∃ r, Effective pg serverId userId r ∧ (r.permissions.getLsbD 0 = true ∨ r.permissions.getLsbD b = true)

/-- what the rows of the channel say of the bit, the roles say already -/
structure Repeats : Prop where
  /-- what a row allows, a role grants -/
  allowed : ∀ o, Decides pg channelId serverId userId b o → o.allowBits.getLsbD b = true → RoleGrants pg serverId userId b
  /-- what the rows only deny, no role grants -/
  denied : ∀ o, Decides pg channelId serverId userId b o →
    (∀ o', Decides pg channelId serverId userId b o' → o'.allowBits.getLsbD b = false) → ¬ RoleGrants pg serverId userId b
  /-- where no row says anything, the role is one assigned in the server -/
  unnamed : (∀ o, ¬ Decides pg channelId serverId userId b o) → RoleGrants pg serverId userId b →
    ∃ r, AssignedIn pg serverId userId r ∧ r.permissions.getLsbD b = true

end Rows

theorem overrideOf_eq_some {targetId targetType : ℤ} {ov : PermissionOverride} :
    overrideOf (channelOverrides pg channelId) targetId targetType = some ov ↔
      ∃ o ∈ pg.permissionOverrides, o.channelId = channelId ∧ o.targetType = targetType ∧ o.targetId = targetId ∧
        ov = ⟨o.targetId, o.targetType, fromBitsTruncate o.allowBits, fromBitsTruncate o.denyBits⟩ := by
  rw [overrideOf, channelOverrides, List.find?_map, Option.map_eq_some_iff]
  constructor
  · rintro ⟨o, ho, rfl⟩
    have hmem := List.mem_of_find?_eq_some ho
    have htarget := List.find?_some ho
    simp only [Function.comp, Bool.and_eq_true, decide_eq_true_eq] at htarget
    rw [Table.mem_select, decide_eq_true_eq] at hmem
    exact ⟨o, hmem.1, hmem.2, htarget.2, htarget.1, rfl⟩
  · rintro ⟨o, ho, hc, htype, htarget, rfl⟩
    refine ⟨o, ?_, rfl⟩
    rcases h : (pg.permissionOverrides.select fun o => o.channelId = channelId).find? _ with _ | o'
    · rw [List.find?_eq_none] at h
      exact absurd (by simp [htype, htarget]) (h o (by simp [ho, hc]))
    · have hmem := List.mem_of_find?_eq_some h
      have htarget' := List.find?_some h
      simp only [Function.comp, Bool.and_eq_true, decide_eq_true_eq] at htarget'
      rw [Table.mem_select, decide_eq_true_eq] at hmem
      have hkey : (o'.channelId, o'.targetId) = (o.channelId, o.targetId) := by
        rw [hmem.2, hc, htarget'.1, htarget]
      rw [Table.eq_of_key_eq hmem.1 ho hkey]

theorem allows_iff (hb : b ∈ Permissions.all) {targetId targetType : ℤ} :
    Allows b (overrideOf (channelOverrides pg channelId) targetId targetType) ↔
      ∃ o, Names pg channelId b targetType targetId o ∧ o.allowBits.getLsbD b = true := by
  constructor
  · rintro ⟨ov, hov, hallow⟩
    obtain ⟨o, ho, hc, htype, htarget, rfl⟩ := overrideOf_eq_some.1 hov
    have hbit := (mem_fromBitsTruncate.1 hallow).1
    exact ⟨o, ⟨ho, hc, htype, htarget, .inl hbit⟩, hbit⟩
  · rintro ⟨o, ⟨ho, hc, htype, htarget, -⟩, hbit⟩
    exact ⟨_, overrideOf_eq_some.2 ⟨o, ho, hc, htype, htarget, rfl⟩, mem_fromBitsTruncate.2 ⟨hbit, hb⟩⟩

/-- a row that allows and denies allows -/
theorem denies_iff (hb : b ∈ Permissions.all) {targetId targetType : ℤ} :
    Allows b (overrideOf (channelOverrides pg channelId) targetId targetType) ∨
        Denies b (overrideOf (channelOverrides pg channelId) targetId targetType) ↔
      ∃ o, Names pg channelId b targetType targetId o := by
  constructor
  · rintro (hallow | ⟨ov, hov, hdeny⟩)
    · obtain ⟨o, ho, -⟩ := (allows_iff hb).1 hallow
      exact ⟨o, ho⟩
    · obtain ⟨o, ho, hc, htype, htarget, rfl⟩ := overrideOf_eq_some.1 hov
      exact ⟨o, ho, hc, htype, htarget, .inr (mem_fromBitsTruncate.1 hdeny).1⟩
  · rintro ⟨o, ho, hc, htype, htarget, hallow | hdeny⟩
    · exact .inl ((allows_iff hb).2 ⟨o, ⟨ho, hc, htype, htarget, .inl hallow⟩, hallow⟩)
    · exact .inr ⟨_, overrideOf_eq_some.2 ⟨o, ho, hc, htype, htarget, rfl⟩, mem_fromBitsTruncate.2 ⟨hdeny, hb⟩⟩

theorem exists_decides_iff : (∃ o, Decides pg channelId serverId userId b o) ↔
    (∃ o, Names pg channelId b 1 userId o) ∨
      (∃ id ∈ assignedRoleIds pg serverId userId, ∃ o, Names pg channelId b 0 id o) ∨
        ∃ o, Names pg channelId b 0 serverId o := by
  constructor
  · rintro ⟨o, h | ⟨id, hid, h, -⟩ | ⟨h, -, -⟩⟩
    · exact .inl ⟨o, h⟩
    · exact .inr (.inl ⟨id, hid, o, h⟩)
    · exact .inr (.inr ⟨o, h⟩)
  · intro h
    by_cases hown : ∃ o, Names pg channelId b 1 userId o
    · exact hown.imp fun _ => .own
    by_cases hrole : ∃ id ∈ assignedRoleIds pg serverId userId, ∃ o, Names pg channelId b 0 id o
    · obtain ⟨id, hid, o, ho⟩ := hrole
      exact ⟨o, .role id hid ho (not_exists.1 hown)⟩
    · obtain ⟨o, ho⟩ := (h.resolve_left hown).resolve_left hrole
      exact ⟨o, .everyone ho (not_exists.1 hown) fun id hid o' ho' => hrole ⟨id, hid, o', ho'⟩⟩

/-- a row that decides allows the bit -/
theorem exists_decides_allow_iff :
    (∃ o, Decides pg channelId serverId userId b o ∧ o.allowBits.getLsbD b = true) ↔
      (∃ o, Names pg channelId b 1 userId o ∧ o.allowBits.getLsbD b = true) ∨
        (¬ ∃ o, Names pg channelId b 1 userId o) ∧
          ((∃ id ∈ assignedRoleIds pg serverId userId, ∃ o, Names pg channelId b 0 id o ∧ o.allowBits.getLsbD b = true) ∨
            (¬ ∃ id ∈ assignedRoleIds pg serverId userId, ∃ o, Names pg channelId b 0 id o) ∧
              ∃ o, Names pg channelId b 0 serverId o ∧ o.allowBits.getLsbD b = true) := by
  constructor
  · rintro ⟨o, h | ⟨id, hid, h, hown⟩ | ⟨h, hown, hrole⟩, hallow⟩
    · exact .inl ⟨o, h, hallow⟩
    · exact .inr ⟨not_exists.2 hown, .inl ⟨id, hid, o, h, hallow⟩⟩
    · refine .inr ⟨not_exists.2 hown, .inr ⟨?_, o, h, hallow⟩⟩
      rintro ⟨id, hid, o', ho'⟩
      exact hrole id hid o' ho'
  · rintro (⟨o, h, hallow⟩ | ⟨hown, ⟨id, hid, o, h, hallow⟩ | ⟨hrole, o, h, hallow⟩⟩)
    · exact ⟨o, .own h, hallow⟩
    · exact ⟨o, .role id hid h (not_exists.1 hown), hallow⟩
    · exact ⟨o, .everyone h (not_exists.1 hown) fun id hid o' ho' => hrole ⟨id, hid, o', ho'⟩, hallow⟩

/-- one layer over what the layers below decide (Y), name (N) and fall back on (R) -/
theorem layer_iff {a d Y N R : Prop} : a ∨ ¬ d ∧ (Y ∨ ¬ N ∧ R) ↔ (a ∨ ¬ (a ∨ d) ∧ Y) ∨ ¬ ((a ∨ d) ∨ N) ∧ R := by
  tauto

theorem layers_iff {a d b e c f R : Prop} :
    a ∨ ¬ d ∧ (b ∨ ¬ e ∧ (c ∨ ¬ f ∧ R)) ↔
      (a ∨ ¬ (a ∨ d) ∧ (b ∨ ¬ (b ∨ e) ∧ c)) ∨ ¬ ((a ∨ d) ∨ (b ∨ e) ∨ (c ∨ f)) ∧ R := by
  have hbottom : c ∨ ¬ f ∧ R ↔ c ∨ ¬ (c ∨ f) ∧ R := by tauto
  rw [hbottom, layer_iff (a := b), layer_iff (a := a)]

/-- the algorithm follows the rows that decide, and the assigned roles where there is none -/
theorem granted_iff (hb : b ∈ Permissions.all) :
    Granted pg channelId serverId userId b ↔
      (∃ o, Decides pg channelId serverId userId b o ∧ o.allowBits.getLsbD b = true) ∨
        (∀ o, ¬ Decides pg channelId serverId userId b o) ∧
          ∃ r, AssignedIn pg serverId userId r ∧ r.permissions.getLsbD b = true := by
  have hrole : (∃ id ∈ assignedRoleIds pg serverId userId, ∃ o, Names pg channelId b 0 id o) ↔
      (∃ id ∈ assignedRoleIds pg serverId userId, Allows b (overrideOf (channelOverrides pg channelId) id 0)) ∨
        ∃ id ∈ assignedRoleIds pg serverId userId, Denies b (overrideOf (channelOverrides pg channelId) id 0) := by
    simp only [← denies_iff hb, and_or_left, exists_or]
  rw [← not_exists, exists_decides_iff, exists_decides_allow_iff, hrole, Granted]
  simp only [← denies_iff hb, ← allows_iff hb]
  exact layers_iff

/-! ## When the two agree -/

/-- the check lets the user through for the mask exactly if he is a member whom the algorithm grants it -/
def Agree (pg : Postgres) (channelId serverId userId : ℤ) (perm : Permissions) : Prop :=
  (checkChannelPermission channelId userId perm).succeeds statement pg = true ↔
    pg.hasMember serverId userId = true ∧ perm ⊆ channelPermissions pg channelId serverId userId

theorem AssignedIn.effective {r : Role} (h : AssignedIn pg serverId userId r) : Effective pg serverId userId r :=
  ⟨h.1, h.2.1, h.2.2.imp_right fun hm => ⟨_, hm, rfl, rfl⟩⟩

theorem subset_userPermissions (howner : pg.isOwner serverId userId = false) (hp : perm ⊆ Permissions.all) :
    perm ⊆ pg.userPermissions serverId userId ↔ ∀ b ∈ perm, RoleGrants pg serverId userId b := by
  refine forall₂_congr fun b hb => ?_
  rw [mem_userPermissions, and_iff_right (hp b hb), howner]
  simp [RoleGrants]

theorem repeats_iff (hb : b ∈ Permissions.all) :
    Repeats pg channelId serverId userId b ↔
      (RoleGrants pg serverId userId b ↔ Granted pg channelId serverId userId b) := by
  rw [granted_iff hb]
  constructor
  · intro h
    constructor
    · intro hrole
      by_cases hnone : ∀ o, ¬ Decides pg channelId serverId userId b o
      · exact .inr ⟨hnone, h.unnamed hnone hrole⟩
      · left
        by_contra hallow
        push Not at hnone hallow
        obtain ⟨o, ho⟩ := hnone
        exact h.denied o ho (fun o' ho' => Bool.not_eq_true _ ▸ hallow o' ho') hrole
    · rintro (⟨o, ho, hallow⟩ | ⟨-, r, hr, hbit⟩)
      · exact h.allowed o ho hallow
      · exact ⟨r, hr.effective, .inr hbit⟩
  · intro h
    refine ⟨fun o ho hallow => h.2 (.inl ⟨o, ho, hallow⟩), ?_, ?_⟩
    · intro o ho hdeny hrole
      rcases h.1 hrole with ⟨o', ho', hallow⟩ | ⟨hnone, -⟩
      · rw [hdeny o' ho'] at hallow
        cases hallow
      · exact hnone o ho
    · intro hnone hrole
      rcases h.1 hrole with ⟨o, ho, -⟩ | ⟨-, hassigned⟩
      · exact absurd ho (hnone o)
      · exact hassigned

theorem mem_flag_iff {b b' : ℕ} (hb : b < 64) : b' ∈ flag b ↔ b' = b := by
  rw [mem_iff, flag, BitVec.getLsbD_twoPow]
  simp [hb, eq_comm]

/-- one permission of a member who is neither owner nor administrator -/
theorem agree_iff (hc : InServer pg channelId serverId) (hmember : pg.hasMember serverId userId = true)
    (howner : pg.isOwner serverId userId = false)
    (hadmin : ∀ r, AssignedIn pg serverId userId r → r.permissions.getLsbD 0 = false) (hp : perm ⊆ Permissions.all) :
    Agree pg channelId serverId userId perm ↔ ((∀ b ∈ perm, RoleGrants pg serverId userId b) ↔
      ∀ b ∈ perm, Granted pg channelId serverId userId b) := by
  have hgranted : perm ⊆ channelPermissions pg channelId serverId userId ↔
      ∀ b ∈ perm, Granted pg channelId serverId userId b :=
    forall₂_congr fun b hb => mem_channelPermissions howner hadmin (hp b hb)
  rw [Agree, checkChannelPermission_eq_ok hc, and_congr_right_iff, subset_userPermissions howner hp, hgranted]
  exact ⟨fun h => h hmember, fun h _ => h⟩

theorem agree_declared (hc : InServer pg channelId serverId) (hmember : pg.hasMember serverId userId = true)
    (hp : perm ⊆ Permissions.all) (h : pg.isOwner serverId userId = false →
      (∀ r, AssignedIn pg serverId userId r → r.permissions.getLsbD 0 = false) →
        ∀ b ∈ perm, Repeats pg channelId serverId userId b) : Agree pg channelId serverId userId perm := by
  by_cases howner : pg.isOwner serverId userId = false
  · by_cases hadmin : ∀ r, AssignedIn pg serverId userId r → r.permissions.getLsbD 0 = false
    · rw [agree_iff hc hmember howner hadmin hp]
      exact forall₂_congr fun b hb => (repeats_iff (hp b hb)).1 (h howner hadmin b hb)
    · -- both sides grant everything
      push Not at hadmin
      obtain ⟨r, hr, h0⟩ := hadmin
      rw [ne_eq, Bool.not_eq_false] at h0
      rw [Agree, checkChannelPermission_eq_ok hc, subset_userPermissions howner hp,
        channelPermissions_of_administrator hr h0, and_congr_right_iff]
      exact fun _ => iff_of_true (fun b _ => ⟨r, hr.effective, .inl h0⟩) hp
  · rw [Bool.not_eq_false] at howner
    rw [Agree, checkChannelPermission_eq_ok hc, Postgres.userPermissions, if_pos howner,
      channelPermissions_of_owner howner]

/-- **The check agrees with the algorithm on all parts of a mask exactly if the rows of the channel say nothing new of
its bits.** -/
theorem check_agrees_iff (hc : InServer pg channelId serverId) :
    (∀ q ⊆ perm, Agree pg channelId serverId userId q) ↔
      (pg.hasMember serverId userId = true → pg.isOwner serverId userId = false →
        (∀ r, AssignedIn pg serverId userId r → r.permissions.getLsbD 0 = false) →
          ∀ b ∈ perm, b ∈ Permissions.all → Repeats pg channelId serverId userId b) := by
  constructor
  · intro h hmember howner hadmin b hb hall
    have hone : ∀ b', b' ∈ flag b ↔ b' = b := fun b' => mem_flag_iff (lt_of_mem hb)
    have hsub : flag b ⊆ perm := fun b' hb' => (hone b').1 hb' ▸ hb
    have hagree := (agree_iff hc hmember howner hadmin fun b' hb' => (hone b').1 hb' ▸ hall).1 (h _ hsub)
    simp only [hone, forall_eq] at hagree
    exact (repeats_iff hall).2 hagree
  · intro h q hq
    by_cases hmember : pg.hasMember serverId userId = true
    · by_cases hp : q ⊆ Permissions.all
      · exact agree_declared hc hmember hp fun howner hadmin b hb => h hmember howner hadmin b (hq b hb) (hp b hb)
      · -- no side grants an undeclared bit
        rw [Agree, checkChannelPermission_eq_ok hc, and_congr_right_iff]
        exact fun _ => iff_of_false (fun h => hp fun b hb => userPermissions_subset_all b (h b hb))
          fun h => hp fun b hb => channelPermissions_subset_all b (h b hb)
    · rw [Agree, checkChannelPermission_eq_ok hc]
      simp [hmember]

/-! ## A denied member -/

/-- user 2 joins server 100 of user 1, who denies SEND_MESSAGES to everyone in channel 101 -/
def deniedTrace : List Op :=
  [.request (.createServer 1 ⟨"first", none, none⟩ 100 101 102 ⟨0⟩),
   .request (.createInvite 1 101 ⟨none, none, none⟩ "join" ⟨0⟩),
   .request (.useInvite 2 "join" ⟨0⟩),
   .request (.setChannelOverride 1 101 100 ⟨0, "0", "16384"⟩)]

def denied : Postgres := Core.run (step fun _ _ => .ok true) (noServers adaAndBob) deniedTrace

theorem check_agrees_iff_denied :
    (∀ q ⊆ Permissions.viewChannel, Agree denied 101 100 2 q) ↔
      (denied.hasMember 100 2 = true → denied.isOwner 100 2 = false →
        (∀ r, AssignedIn denied 100 2 r → r.permissions.getLsbD 0 = false) →
          ∀ b ∈ Permissions.viewChannel, b ∈ Permissions.all → Repeats denied 101 100 2 b) :=
  check_agrees_iff ⟨newChannel 101 100 0 "general" 0 ⟨0⟩, by decide, rfl, rfl⟩

/-- **A member who is denied SEND_MESSAGES in the channel passes the check for it.** -/
theorem denied_member_writes :
    (checkChannelPermission 101 2 .sendMessages).succeeds statement denied = true ∧
      denied.hasMember 100 2 = true ∧
      ¬ Permissions.sendMessages ⊆ channelPermissions denied 101 100 2 := by
  decide

end Lumiere.Routes
