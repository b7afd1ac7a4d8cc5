/-
What a statement does to the owners of servers, to the members, to the roles and to the assignments of roles to members.
Each lemma names the statements that change its table and says how; every other statement leaves it alone.

- `exec_owners`, `exec_roles`, `exec_hasMember`, `exec_memberRoles`.
- `exec_references`: every statement keeps the references of members to servers and of assignments to roles.
-/
import Lumiere.Db.Statements

namespace Lumiere.Db

open Lumiere.Core Lumiere.Models

variable {pg pg' : Postgres} {w : Sql} {n : ℕ}

/-! ## Owners -/

/-- the server ids with their owners -/
def Postgres.owners (pg : Postgres) : List (ℤ × ℤ) := pg.servers.rows.map fun s => (s.id, s.ownerId)

theorem owners_updateWhere {t : Table Server.id} {p : Server → Bool} {f : Server → Server} (hf : ∀ s, (f s).id = s.id)
    (ho : ∀ s, (f s).ownerId = s.ownerId) :
    ((t.updateWhere p f hf).rows.map fun s => (s.id, s.ownerId)) = t.rows.map fun s => (s.id, s.ownerId) :=
  Table.map_updateWhere hf fun s => by rw [hf, ho]

theorem owners_deleteWhere (t : Table Server.id) (serverId : ℤ) :
    ((t.deleteWhere fun s => s.id = serverId).rows.map fun s => (s.id, s.ownerId)) =
      (t.rows.map fun s => (s.id, s.ownerId)).filter fun o => o.1 ≠ serverId := by
  rw [Table.deleteWhere, List.filter_map]
  congr 1
  refine List.filter_congr fun s _ => ?_
  simp

theorem owners_deleteChannels (pg : Postgres) (p : Channel → Bool) : (pg.deleteChannels p).owners = pg.owners := by
  rw [Postgres.owners, Postgres.deleteChannels]
  dsimp only
  rw [owners_updateWhere, owners_updateWhere]
  · rfl
  all_goals intro s; rfl

/-- an assignment is its key -/
theorem MemberRole.eq_of_key {x y : MemberRole}
    (h : (x.serverId, x.userId, x.roleId) = (y.serverId, y.userId, y.roleId)) : x = y := by
  cases x
  cases y
  simpa using h

/-- `INSERT .. ON CONFLICT DO NOTHING` -/
theorem exec_insertMemberRoleIgnore {row : MemberRole} (h : Sql.exec pg (.insertMemberRoleIgnore row) = .ok (n, pg')) :
    pg' = { pg with memberRoles := pg.memberRoles.insertIgnore row } ∧
      (row ∈ pg.memberRoles ∨ pg.hasRole row.roleId = true ∧ pg.hasMember row.serverId row.userId = true) := by
  simp only [Sql.exec, Table.insertIgnore] at h ⊢
  rcases hi : pg.memberRoles.insert? row with _ | memberRoles
  · rw [hi] at h
    obtain ⟨-, rfl⟩ := Prod.mk.injEq .. ▸ Except.ok.inj h
    obtain ⟨m, hm, hkey⟩ := Table.insert?_eq_none hi
    exact ⟨rfl, .inl (MemberRole.eq_of_key hkey ▸ hm)⟩
  · rw [hi] at h
    simp only [Postgres.memberRoleReferences, bind_eq_ok, pure_eq_ok, requires_eq_ok, Prod.mk.injEq] at h
    obtain ⟨_, ⟨_, hrole, hmember⟩, -, rfl⟩ := h
    exact ⟨rfl, .inr ⟨hrole, hmember⟩⟩

theorem exec_updateServer_checked {serverId : ℤ} {changes : ServerChanges}
    (h : Sql.exec pg (.updateServer serverId changes) = .ok (n, pg')) :
    ∃ checked : ServerChanges, changes.checked = .ok checked ∧ pg' = { pg with
      servers := pg.servers.updateWhere (fun s => s.id = serverId) checked.apply checked.apply_id } := by
  simp only [Sql.exec, bind_eq_ok] at h
  obtain ⟨checked, hchecked, h⟩ := h
  split_ifs at h <;> simp only [bind_eq_ok, pure_eq_ok, Prod.mk.injEq] at h
  · obtain ⟨_, -, _, -, -, rfl⟩ := h
    exact ⟨checked, hchecked, rfl⟩
  · obtain ⟨-, rfl⟩ := h
    exact ⟨checked, hchecked, rfl⟩

theorem exec_updateServer {serverId : ℤ} {changes : ServerChanges}
    (h : Sql.exec pg (.updateServer serverId changes) = .ok (n, pg')) :
    ∃ checked : ServerChanges, pg' = { pg with
      servers := pg.servers.updateWhere (fun s => s.id = serverId) checked.apply checked.apply_id } := by
  obtain ⟨checked, -, h⟩ := exec_updateServer_checked h
  exact ⟨checked, h⟩

theorem exec_updateSystemChannel {serverId channelId : ℤ}
    (h : Sql.exec pg (.updateSystemChannel serverId channelId) = .ok (n, pg')) :
    pg' = { pg with
      servers := pg.servers.updateWhere (fun s => s.id = serverId)
        (fun s => { s with systemChannelId := some channelId }) fun _ => rfl } := by
  simp only [Sql.exec] at h
  split_ifs at h <;> simp only [bind_eq_ok, pure_eq_ok, Prod.mk.injEq] at h
  · obtain ⟨_, -, -, rfl⟩ := h
    rfl
  · obtain ⟨-, rfl⟩ := h
    rfl

theorem exec_owners : Sql.exec pg w = .ok (n, pg') →
    match w with
    | .insertServer row => pg'.owners = pg.owners ++ [(row.id, row.ownerId)]
    | .updateServerOwner serverId ownerId =>
      pg'.owners = pg.owners.map fun o => if o.1 = serverId then (o.1, ownerId) else o
    | .deleteServer serverId => pg'.owners = pg.owners.filter fun o => o.1 ≠ serverId
    | _ => pg'.owners = pg.owners := by
  intro h
  cases w with
  | insertServer row =>
    simp only [Sql.exec, bind_eq_ok, pure_eq_ok, requires_eq_ok, unique_eq_ok, Prod.mk.injEq] at h ⊢
    obtain ⟨_, -, _, -, _, -, servers, hinsert, _, -, -, rfl⟩ := h
    rw [Postgres.owners, Table.rows_insert? hinsert, List.map_append]
    rfl
  | updateServerOwner serverId ownerId =>
    simp only [Sql.exec, bind_eq_ok, pure_eq_ok, requires_eq_ok, Prod.mk.injEq] at h ⊢
    obtain ⟨_, -, -, rfl⟩ := h
    rw [Postgres.owners, Postgres.owners, Table.updateWhere, List.map_map, List.map_map]
    refine List.map_congr_left fun s _ => ?_
    by_cases hs : s.id = serverId <;> simp [hs]
  | deleteServer serverId =>
    simp only [Sql.exec, Except.ok.injEq, Prod.mk.injEq] at h ⊢
    obtain ⟨-, rfl⟩ := h
    have hcut : (pg.deleteServers fun s => s.id = serverId).owners =
        (pg.deleteChannels fun c => c.serverId.any fun id => pg.servers.any fun s => s.id = serverId && s.id = id).owners.filter
          fun o => o.1 ≠ serverId := owners_deleteWhere _ serverId
    rw [hcut, owners_deleteChannels]
  | updateServer serverId changes =>
    obtain ⟨checked, rfl⟩ := exec_updateServer h
    exact owners_updateWhere checked.apply_id checked.apply_ownerId
  | updateSystemChannel serverId channelId =>
    obtain rfl := exec_updateSystemChannel h
    exact owners_updateWhere (by intro s; rfl) (by intro s; rfl)
  | recountMembers serverId =>
    simp only [Sql.exec, bind_eq_ok, pure_eq_ok, Prod.mk.injEq] at h ⊢
    obtain ⟨_, -, -, rfl⟩ := h
    exact owners_updateWhere (by intro s; rfl) (by intro s; rfl)
  | incrementMemberCount serverId =>
    simp only [Sql.exec, bind_eq_ok, pure_eq_ok, requires_eq_ok, Prod.mk.injEq] at h ⊢
    obtain ⟨_, -, -, rfl⟩ := h
    exact owners_updateWhere (by intro s; rfl) (by intro s; rfl)
  | insertMemberRoleIgnore row =>
    rw [(exec_insertMemberRoleIgnore h).1]
    rfl
  | _ =>
    simp only [Sql.exec, bind_eq_ok, pure_eq_ok, requires_eq_ok, unique_eq_ok, Except.ok.injEq, Prod.mk.injEq] at h ⊢
    grind [Postgres.owners, Postgres.deleteServerMembers, Postgres.deleteRoles]

/-! ## Roles -/

theorem mem_roles_deleteRoles {p : Role → Bool} {r : Role} :
    r ∈ (pg.deleteRoles p).roles ↔ r ∈ pg.roles ∧ p r = false := Table.mem_deleteWhere

theorem mem_roles_deleteServers {p : Server → Bool} {r : Role} :
    r ∈ (pg.deleteServers p).roles ↔ r ∈ pg.roles ∧ (pg.servers.any fun s => p s && s.id = r.serverId) = false :=
  Table.mem_deleteWhere

theorem exec_roles : Sql.exec pg w = .ok (n, pg') →
    match w with
    | .insertRole row => pg.hasServer row.serverId = true ∧ (∀ r ∈ pg.roles, r.id ≠ row.id) ∧
      ∃ name, ∀ r, r ∈ pg'.roles ↔ r ∈ pg.roles ∨ r = { row with name }
    | .updateRole roleId serverId changes => ∃ c : RoleChanges, c.permissions = changes.permissions ∧
      c.position = changes.position ∧
      ∀ r, r ∈ pg'.roles ↔ ∃ r' ∈ pg.roles, (if r'.id = roleId ∧ r'.serverId = serverId then c.apply r' else r') = r
    | .updateRolePosition position roleId serverId =>
      ∀ r, r ∈ pg'.roles ↔
        ∃ r' ∈ pg.roles, (if r'.id = roleId ∧ r'.serverId = serverId then { r' with position } else r') = r
    | .deleteServer serverId =>
      ∀ r, r ∈ pg'.roles ↔ r ∈ pg.roles ∧ ¬ (r.serverId = serverId ∧ pg.hasServer serverId = true)
    | .deleteRole roleId serverId => ∀ r, r ∈ pg'.roles ↔ r ∈ pg.roles ∧ ¬ (r.id = roleId ∧ r.serverId = serverId)
    | _ => pg'.roles = pg.roles := by
  intro h
  cases w with
  | insertRole row =>
    simp only [Sql.exec, bind_eq_ok, pure_eq_ok, requires_eq_ok, unique_eq_ok, Prod.mk.injEq] at h ⊢
    obtain ⟨name, -, roles, hinsert, _, hserver, -, rfl⟩ := h
    obtain ⟨hnew, hmem⟩ := Table.insert?_eq_some hinsert
    exact ⟨hserver, hnew, name, hmem⟩
  | updateRole roleId serverId changes =>
    simp only [Sql.exec, bind_eq_ok, pure_eq_ok, Prod.mk.injEq] at h ⊢
    obtain ⟨c, hc, -, rfl⟩ := h
    have hsame : c.permissions = changes.permissions ∧ c.position = changes.position := by
      simp only [RoleChanges.checked, bind_eq_ok, pure_eq_ok] at hc
      obtain ⟨_, -, _, -, rfl⟩ := hc
      exact ⟨rfl, rfl⟩
    refine ⟨c, hsame.1, hsame.2, fun r => ?_⟩
    rw [Table.mem_updateWhere]
    simp
  | updateRolePosition position roleId serverId =>
    simp only [Sql.exec, Except.ok.injEq, Prod.mk.injEq] at h ⊢
    obtain ⟨-, rfl⟩ := h
    intro r
    rw [Table.mem_updateWhere]
    simp
  | deleteServer serverId =>
    simp only [Sql.exec, Except.ok.injEq, Prod.mk.injEq] at h ⊢
    obtain ⟨-, rfl⟩ := h
    intro r
    rw [mem_roles_deleteServers, Table.any_eq_false]
    refine and_congr_right fun _ => ?_
    simp only [Postgres.hasServer, Table.any_eq_true, Bool.and_eq_false_iff, decide_eq_false_iff_not, decide_eq_true_eq]
    constructor
    · rintro hnone ⟨rfl, s, hs, hid⟩
      rcases hnone s hs with h | h <;> exact h hid
    · intro hno s hs
      by_contra hboth
      rw [not_or, not_not, not_not] at hboth
      exact hno ⟨hboth.2.symm.trans hboth.1, s, hs, hboth.1⟩
  | deleteRole roleId serverId =>
    simp only [Sql.exec, Except.ok.injEq, Prod.mk.injEq] at h ⊢
    obtain ⟨-, rfl⟩ := h
    intro r
    rw [mem_roles_deleteRoles]
    simp
  | insertMemberRoleIgnore row => rw [(exec_insertMemberRoleIgnore h).1]
  | updateServer serverId changes =>
    obtain ⟨_, rfl⟩ := exec_updateServer h
    rfl
  | updateSystemChannel serverId channelId =>
    obtain rfl := exec_updateSystemChannel h
    rfl
  | _ =>
    simp only [Sql.exec, bind_eq_ok, pure_eq_ok, requires_eq_ok, unique_eq_ok, Except.ok.injEq, Prod.mk.injEq] at h ⊢
    grind [Postgres.deleteServerMembers]

/-! ## Members -/

theorem hasMember_iff {serverId userId : ℤ} :
    pg.hasMember serverId userId = true ↔ ∃ m ∈ pg.serverMembers, m.serverId = serverId ∧ m.userId = userId := by
  simp [Postgres.hasMember]

theorem hasServer_iff {serverId : ℤ} : pg.hasServer serverId = true ↔ ∃ ownerId, (serverId, ownerId) ∈ pg.owners := by
  simp only [Postgres.hasServer, Postgres.owners, Table.any_eq_true, decide_eq_true_eq, List.mem_map, Prod.mk.injEq]
  constructor
  · rintro ⟨s, hs, rfl⟩
    exact ⟨s.ownerId, s, hs, rfl, rfl⟩
  · rintro ⟨_, s, hs, rfl, -⟩
    exact ⟨s, hs, rfl⟩

/-- an update that keeps the keys keeps the members -/
theorem hasMember_updateWhere {p : ServerMember → Bool} {f : ServerMember → ServerMember}
    (hf : ∀ m, ((f m).serverId, (f m).userId) = (m.serverId, m.userId)) {serverId userId : ℤ} :
    ((pg.serverMembers.updateWhere p f hf).any fun m => m.serverId = serverId && m.userId = userId) =
      pg.hasMember serverId userId := by
  rw [Bool.eq_iff_iff, Table.any_eq_true, hasMember_iff]
  simp only [Table.mem_updateWhere, Bool.and_eq_true, decide_eq_true_eq]
  have hkey : ∀ b : ServerMember, (if p b then f b else b).serverId = b.serverId ∧
      (if p b then f b else b).userId = b.userId := fun b => by
    split_ifs
    · exact Prod.mk.inj (hf b)
    · exact ⟨rfl, rfl⟩
  constructor
  · rintro ⟨_, ⟨b, hb, rfl⟩, h1, h2⟩
    exact ⟨b, hb, (hkey b).1.symm.trans h1, (hkey b).2.symm.trans h2⟩
  · rintro ⟨b, hb, h1, h2⟩
    exact ⟨_, ⟨b, hb, rfl⟩, (hkey b).1.trans h1, (hkey b).2.trans h2⟩

theorem exec_hasMember (serverId userId : ℤ) : Sql.exec pg w = .ok (n, pg') →
    match w with
    | .insertServerMember row => pg.hasServer row.serverId = true ∧
      (pg'.hasMember serverId userId = true ↔
        pg.hasMember serverId userId = true ∨ row.serverId = serverId ∧ row.userId = userId)
    | .deleteServer id => pg'.hasMember serverId userId = true ↔
      pg.hasMember serverId userId = true ∧ ¬ (serverId = id ∧ pg.hasServer id = true)
    | .deleteServerMember id member => pg'.hasMember serverId userId = true ↔
      pg.hasMember serverId userId = true ∧ ¬ (serverId = id ∧ userId = member)
    | _ => pg'.hasMember serverId userId = pg.hasMember serverId userId := by
  intro h
  cases w with
  | insertServerMember row =>
    simp only [Sql.exec, bind_eq_ok, pure_eq_ok, requires_eq_ok, unique_eq_ok, Prod.mk.injEq] at h ⊢
    obtain ⟨serverMembers, hinsert, _, hserver, _, -, -, rfl⟩ := h
    refine ⟨hserver, ?_⟩
    simp only [hasMember_iff, (Table.insert?_eq_some hinsert).2]
    constructor
    · rintro ⟨m, hm | rfl, h⟩
      · exact .inl ⟨m, hm, h⟩
      · exact .inr h
    · rintro (⟨m, hm, h⟩ | h)
      · exact ⟨m, .inl hm, h⟩
      · exact ⟨row, .inr rfl, h⟩
  | deleteServer id =>
    simp only [Sql.exec, Except.ok.injEq, Prod.mk.injEq] at h ⊢
    obtain ⟨-, rfl⟩ := h
    have hmem : ∀ m, m ∈ (pg.deleteServers fun s => s.id = id).serverMembers ↔
        m ∈ pg.serverMembers ∧ (pg.servers.any fun s => s.id = id && s.id = m.serverId) = false :=
      fun m => Table.mem_deleteWhere
    simp only [hasMember_iff, hmem, Postgres.hasServer, Table.any_eq_true, Table.any_eq_false, Bool.and_eq_false_iff,
      decide_eq_false_iff_not, decide_eq_true_eq]
    constructor
    · rintro ⟨m, ⟨hm, hnone⟩, rfl, rfl⟩
      refine ⟨⟨m, hm, rfl, rfl⟩, ?_⟩
      rintro ⟨hid, s, hs, hsid⟩
      rcases hnone s hs with h | h
      · exact h hsid
      · exact h (hsid.trans hid.symm)
    · rintro ⟨⟨m, hm, rfl, rfl⟩, hno⟩
      refine ⟨m, ⟨hm, fun s hs => ?_⟩, rfl, rfl⟩
      by_contra hboth
      rw [not_or, not_not, not_not] at hboth
      exact hno ⟨hboth.2.symm.trans hboth.1, s, hs, hboth.1⟩
  | deleteServerMember id member =>
    simp only [Sql.exec, Except.ok.injEq, Prod.mk.injEq] at h ⊢
    obtain ⟨-, rfl⟩ := h
    have hmem : ∀ m, m ∈ (pg.deleteServerMembers fun m => m.serverId = id && m.userId = member).serverMembers ↔
        m ∈ pg.serverMembers ∧ (decide (m.serverId = id) && decide (m.userId = member)) = false :=
      fun m => Table.mem_deleteWhere
    simp only [hasMember_iff, hmem, Bool.and_eq_false_iff, decide_eq_false_iff_not]
    constructor
    · rintro ⟨m, ⟨hm, hno⟩, rfl, rfl⟩
      exact ⟨⟨m, hm, rfl, rfl⟩, not_and_or.2 hno⟩
    · rintro ⟨⟨m, hm, rfl, rfl⟩, hno⟩
      exact ⟨m, ⟨hm, not_and_or.1 hno⟩, rfl, rfl⟩
  | updateNickname id member nickname =>
    simp only [Sql.exec, bind_eq_ok, pure_eq_ok, Prod.mk.injEq] at h ⊢
    obtain ⟨_, -, -, rfl⟩ := h
    exact hasMember_updateWhere (by intro m; rfl)
  | updateTimeout id member disabledUntil =>
    simp only [Sql.exec, Except.ok.injEq, Prod.mk.injEq] at h ⊢
    obtain ⟨-, rfl⟩ := h
    exact hasMember_updateWhere (by intro m; rfl)
  | insertMemberRoleIgnore row =>
    rw [(exec_insertMemberRoleIgnore h).1]
    rfl
  | updateServer id changes =>
    obtain ⟨_, rfl⟩ := exec_updateServer h
    rfl
  | updateSystemChannel id channelId =>
    obtain rfl := exec_updateSystemChannel h
    rfl
  | _ =>
    simp only [Sql.exec, bind_eq_ok, pure_eq_ok, requires_eq_ok, unique_eq_ok, Except.ok.injEq, Prod.mk.injEq] at h ⊢
    grind [Postgres.hasMember, Postgres.deleteRoles]

theorem exec_users (h : Sql.exec pg w = .ok (n, pg')) : pg'.users = pg.users := by
  cases w with
  | insertMemberRoleIgnore row => rw [(exec_insertMemberRoleIgnore h).1]
  | updateServer id changes =>
    obtain ⟨_, rfl⟩ := exec_updateServer h
    rfl
  | updateSystemChannel id channelId =>
    obtain rfl := exec_updateSystemChannel h
    rfl
  | deleteServer id =>
    obtain ⟨-, rfl⟩ := Prod.mk.inj (Except.ok.inj h)
    rfl
  | _ =>
    simp only [Sql.exec, bind_eq_ok, pure_eq_ok, requires_eq_ok, unique_eq_ok, Except.ok.injEq, Prod.mk.injEq] at h
    grind [Postgres.deleteRoles, Postgres.deleteServerMembers]

/-- a timeout comes from the row before, from the row that is inserted, or from the update that sets it -/
theorem exec_communicationDisabledUntil (h : Sql.exec pg w = .ok (n, pg')) {m : ServerMember}
    (hm : m ∈ pg'.serverMembers) :
    (∃ old ∈ pg.serverMembers, old.serverId = m.serverId ∧ old.userId = m.userId ∧
      old.communicationDisabledUntil = m.communicationDisabledUntil) ∨
    w = .insertServerMember m ∨ w = .updateTimeout m.serverId m.userId m.communicationDisabledUntil := by
  have hsame : pg'.serverMembers = pg.serverMembers →
      ∃ old ∈ pg.serverMembers, old.serverId = m.serverId ∧ old.userId = m.userId ∧
        old.communicationDisabledUntil = m.communicationDisabledUntil :=
    fun he => ⟨m, he ▸ hm, rfl, rfl, rfl⟩
  cases w with
  | insertServerMember row =>
    simp only [Sql.exec, bind_eq_ok, pure_eq_ok, requires_eq_ok, unique_eq_ok, Prod.mk.injEq] at h
    obtain ⟨serverMembers, hinsert, _, -, _, -, -, rfl⟩ := h
    rcases ((Table.insert?_eq_some hinsert).2 m).1 hm with hold | rfl
    · exact .inl ⟨m, hold, rfl, rfl, rfl⟩
    · exact .inr (.inl rfl)
  | deleteServer id =>
    obtain ⟨-, rfl⟩ := Prod.mk.inj (Except.ok.inj h)
    exact .inl ⟨m, (Table.mem_deleteWhere.1 hm).1, rfl, rfl, rfl⟩
  | deleteServerMember id member =>
    obtain ⟨-, rfl⟩ := Prod.mk.inj (Except.ok.inj h)
    exact .inl ⟨m, (Table.mem_deleteWhere.1 hm).1, rfl, rfl, rfl⟩
  | updateNickname id member nickname =>
    simp only [Sql.exec, bind_eq_ok, pure_eq_ok, Prod.mk.injEq] at h
    obtain ⟨_, -, -, rfl⟩ := h
    simp only [Table.mem_updateWhere] at hm
    obtain ⟨old, hold, rfl⟩ := hm
    refine .inl ⟨old, hold, ?_⟩
    split_ifs <;> exact ⟨rfl, rfl, rfl⟩
  | updateTimeout id member disabledUntil =>
    obtain ⟨-, rfl⟩ := Prod.mk.inj (Except.ok.inj h)
    simp only [Table.mem_updateWhere] at hm
    obtain ⟨old, hold, rfl⟩ := hm
    split_ifs with hkey
    · obtain ⟨h1, h2⟩ := Bool.and_eq_true_iff.1 hkey
      exact .inr (.inr (by rw [← of_decide_eq_true h1, ← of_decide_eq_true h2]))
    · exact .inl ⟨old, hold, rfl, rfl, rfl⟩
  | insertMemberRoleIgnore row => exact .inl (hsame (by rw [(exec_insertMemberRoleIgnore h).1]))
  | updateServer id changes =>
    obtain ⟨_, rfl⟩ := exec_updateServer h
    exact .inl (hsame rfl)
  | updateSystemChannel id channelId =>
    obtain rfl := exec_updateSystemChannel h
    exact .inl (hsame rfl)
  | _ =>
    simp only [Sql.exec, bind_eq_ok, pure_eq_ok, requires_eq_ok, unique_eq_ok, Except.ok.injEq, Prod.mk.injEq] at h
    refine .inl (hsame ?_)
    grind [Postgres.deleteRoles]

/-! ## Assignments -/

theorem mem_memberRoles_deleteRoles {p : Role → Bool} {m : MemberRole} :
    m ∈ (pg.deleteRoles p).memberRoles ↔ m ∈ pg.memberRoles ∧ ¬ ∃ r ∈ pg.roles, p r = true ∧ r.id = m.roleId := by
  rw [Postgres.deleteRoles, Table.mem_deleteWhere, Table.any_eq_false]
  simp

theorem mem_memberRoles_deleteServerMembers {p : ServerMember → Bool} {m : MemberRole} :
    m ∈ (pg.deleteServerMembers p).memberRoles ↔
      m ∈ pg.memberRoles ∧ ¬ ∃ sm ∈ pg.serverMembers, p sm = true ∧ sm.serverId = m.serverId ∧ sm.userId = m.userId := by
  rw [Postgres.deleteServerMembers, Table.mem_deleteWhere, Table.any_eq_false]
  simp

theorem mem_memberRoles_deleteServers {p : Server → Bool} {m : MemberRole} :
    m ∈ (pg.deleteServers p).memberRoles ↔ m ∈ pg.memberRoles ∧
      (¬ ∃ r ∈ pg.roles, (∃ s ∈ pg.servers, p s = true ∧ s.id = r.serverId) ∧ r.id = m.roleId) ∧
      ¬ ∃ sm ∈ pg.serverMembers, (∃ s ∈ pg.servers, p s = true ∧ s.id = sm.serverId) ∧ sm.serverId = m.serverId ∧
        sm.userId = m.userId := by
  let pg₁ := (pg.deleteChannels fun c => c.serverId.any fun id => pg.servers.any fun s => p s && s.id = id).deleteRoles
    fun r => pg.servers.any fun s => p s && s.id = r.serverId
  have h : m ∈ (pg₁.deleteServerMembers fun sm => pg.servers.any fun s => p s && s.id = sm.serverId).memberRoles ↔ _ :=
    mem_memberRoles_deleteServerMembers
  rw [mem_memberRoles_deleteRoles, and_assoc] at h
  simp only [Table.any_eq_true, Bool.and_eq_true, decide_eq_true_eq] at h
  exact h

theorem exec_memberRoles : Sql.exec pg w = .ok (n, pg') →
    match w with
    | .insertMemberRole row => pg.hasRole row.roleId = true ∧ pg.hasMember row.serverId row.userId = true ∧
      ∀ m, m ∈ pg'.memberRoles ↔ m ∈ pg.memberRoles ∨ m = row
    | .insertMemberRoleIgnore row =>
      (row ∈ pg.memberRoles ∨ pg.hasRole row.roleId = true ∧ pg.hasMember row.serverId row.userId = true) ∧
      ∀ m, m ∈ pg'.memberRoles ↔ m ∈ pg.memberRoles ∨ m = row
    | .deleteServer serverId => ∀ m, m ∈ pg'.memberRoles ↔ m ∈ pg.memberRoles ∧
      ¬ (pg.hasServer serverId = true ∧ ((∃ r ∈ pg.roles, r.serverId = serverId ∧ r.id = m.roleId) ∨
        m.serverId = serverId ∧ pg.hasMember serverId m.userId = true))
    | .deleteServerMember serverId userId => ∀ m, m ∈ pg'.memberRoles ↔ m ∈ pg.memberRoles ∧
      ¬ (m.serverId = serverId ∧ m.userId = userId ∧ pg.hasMember serverId userId = true)
    | .deleteMemberRoles serverId userId => ∀ m, m ∈ pg'.memberRoles ↔ m ∈ pg.memberRoles ∧
      ¬ (m.serverId = serverId ∧ m.userId = userId ∧ m.roleId ≠ serverId)
    | .deleteRole roleId serverId => ∀ m, m ∈ pg'.memberRoles ↔ m ∈ pg.memberRoles ∧
      ¬ ∃ r ∈ pg.roles, r.id = roleId ∧ r.serverId = serverId ∧ r.id = m.roleId
    | _ => pg'.memberRoles = pg.memberRoles := by
  intro h
  cases w with
  | insertMemberRole row =>
    simp only [Sql.exec, Postgres.memberRoleReferences, bind_eq_ok, pure_eq_ok, requires_eq_ok, unique_eq_ok,
      Prod.mk.injEq] at h ⊢
    obtain ⟨memberRoles, hinsert, _, ⟨_, hrole, hmember⟩, -, rfl⟩ := h
    exact ⟨hrole, hmember, (Table.insert?_eq_some hinsert).2⟩
  | insertMemberRoleIgnore row =>
    obtain ⟨rfl, hrefs⟩ := exec_insertMemberRoleIgnore h
    refine ⟨hrefs, fun m => ⟨Table.mem_insertIgnore, ?_⟩⟩
    rintro (hm | rfl)
    · exact Table.subset_insertIgnore hm
    · obtain ⟨b, hb, hkey⟩ := Table.exists_mem_insertIgnore pg.memberRoles m
      obtain rfl := MemberRole.eq_of_key hkey
      exact hb
  | deleteServer serverId =>
    simp only [Sql.exec, Except.ok.injEq, Prod.mk.injEq] at h ⊢
    obtain ⟨-, rfl⟩ := h
    intro m
    rw [mem_memberRoles_deleteServers]
    refine and_congr_right fun _ => ?_
    simp only [hasMember_iff, Postgres.hasServer, Table.any_eq_true, decide_eq_true_eq]
    constructor
    · rintro ⟨hr, hm⟩ ⟨⟨s, hs, rfl⟩, ⟨r, hr', hid, hrole⟩ | ⟨hid, sm, hsm, h1, h2⟩⟩
      · exact hr ⟨r, hr', ⟨s, hs, rfl, hid.symm⟩, hrole⟩
      · exact hm ⟨sm, hsm, ⟨s, hs, rfl, h1.symm⟩, h1.trans hid.symm, h2⟩
    · intro hno
      refine ⟨?_, ?_⟩
      · rintro ⟨r, hr, ⟨s, hs, rfl, hid⟩, hrole⟩
        exact hno ⟨⟨s, hs, rfl⟩, .inl ⟨r, hr, hid.symm, hrole⟩⟩
      · rintro ⟨sm, hsm, ⟨s, hs, rfl, hid⟩, h1, h2⟩
        exact hno ⟨⟨s, hs, rfl⟩, .inr ⟨h1.symm.trans hid.symm, sm, hsm, hid.symm, h2⟩⟩
  | deleteServerMember serverId userId =>
    simp only [Sql.exec, Except.ok.injEq, Prod.mk.injEq] at h ⊢
    obtain ⟨-, rfl⟩ := h
    intro m
    rw [mem_memberRoles_deleteServerMembers]
    refine and_congr_right fun _ => not_congr ?_
    simp only [hasMember_iff, Bool.and_eq_true, decide_eq_true_eq]
    constructor
    · rintro ⟨sm, hsm, ⟨rfl, rfl⟩, h1, h2⟩
      exact ⟨h1.symm, h2.symm, sm, hsm, rfl, rfl⟩
    · rintro ⟨rfl, rfl, sm, hsm, h1, h2⟩
      exact ⟨sm, hsm, ⟨h1, h2⟩, h1, h2⟩
  | deleteMemberRoles serverId userId =>
    simp only [Sql.exec, Except.ok.injEq, Prod.mk.injEq] at h ⊢
    obtain ⟨-, rfl⟩ := h
    intro m
    rw [Table.mem_deleteWhere]
    simp
  | deleteRole roleId serverId =>
    simp only [Sql.exec, Except.ok.injEq, Prod.mk.injEq] at h ⊢
    obtain ⟨-, rfl⟩ := h
    intro m
    rw [mem_memberRoles_deleteRoles]
    simp only [Bool.and_eq_true, decide_eq_true_eq, and_assoc]
  | updateServer serverId changes =>
    obtain ⟨_, rfl⟩ := exec_updateServer h
    rfl
  | updateSystemChannel serverId channelId =>
    obtain rfl := exec_updateSystemChannel h
    rfl
  | _ =>
    simp only [Sql.exec, bind_eq_ok, pure_eq_ok, requires_eq_ok, unique_eq_ok, Except.ok.injEq, Prod.mk.injEq] at h ⊢
    grind

/-! ## Bans -/

def Postgres.isBanned (pg : Postgres) (serverId userId : ℤ) : Bool :=
  pg.bans.any fun b => b.serverId = serverId && b.userId = userId

theorem isBanned_iff {serverId userId : ℤ} :
    pg.isBanned serverId userId = true ↔ ∃ b ∈ pg.bans, b.serverId = serverId ∧ b.userId = userId := by
  simp [Postgres.isBanned]

/-- a ban that was not there comes from the statement that inserts it -/
theorem exec_isBanned (h : Sql.exec pg w = .ok (n, pg')) {serverId userId : ℤ}
    (hb : pg'.isBanned serverId userId = true) :
    pg.isBanned serverId userId = true ∨
      ∃ row, w = .upsertBan row ∧ row.serverId = serverId ∧ row.userId = userId := by
  have hsame : pg'.bans = pg.bans → pg.isBanned serverId userId = true := fun he => by
    rwa [Postgres.isBanned, he] at hb
  cases w with
  | upsertBan row =>
    simp only [Sql.exec, bind_eq_ok, pure_eq_ok, requires_eq_ok, Prod.mk.injEq] at h
    obtain ⟨reason, -, _, -, _, -, _, -, -, rfl⟩ := h
    obtain ⟨b, hmem, rfl, rfl⟩ := isBanned_iff.1 hb
    rcases Table.mem_upsert hmem with hold | rfl | ⟨old, hold, rfl⟩
    · exact .inl (isBanned_iff.2 ⟨b, hold, rfl, rfl⟩)
    · exact .inr ⟨row, rfl, rfl, rfl⟩
    · exact .inl (isBanned_iff.2 ⟨old, hold, rfl, rfl⟩)
  | deleteBan id member =>
    obtain ⟨-, rfl⟩ := Prod.mk.inj (Except.ok.inj h)
    obtain ⟨b, hmem, hkey⟩ := isBanned_iff.1 hb
    exact .inl (isBanned_iff.2 ⟨b, (Table.mem_deleteWhere.1 hmem).1, hkey⟩)
  | deleteServer id =>
    obtain ⟨-, rfl⟩ := Prod.mk.inj (Except.ok.inj h)
    obtain ⟨b, hmem, hkey⟩ := isBanned_iff.1 hb
    exact .inl (isBanned_iff.2 ⟨b, (Table.mem_deleteWhere.1 hmem).1, hkey⟩)
  | insertMemberRoleIgnore row => exact .inl (hsame (by rw [(exec_insertMemberRoleIgnore h).1]))
  | updateServer id changes =>
    obtain ⟨_, rfl⟩ := exec_updateServer h
    exact .inl (hsame rfl)
  | updateSystemChannel id channelId =>
    obtain rfl := exec_updateSystemChannel h
    exact .inl (hsame rfl)
  | _ =>
    simp only [Sql.exec, bind_eq_ok, pure_eq_ok, requires_eq_ok, unique_eq_ok, Except.ok.injEq, Prod.mk.injEq] at h
    refine .inl (hsame ?_)
    grind [Postgres.deleteRoles, Postgres.deleteServerMembers]

/-- the ban is there when it has been inserted -/
theorem isBanned_of_upsertBan {row : Ban} (h : Sql.exec pg (.upsertBan row) = .ok (n, pg')) :
    pg'.isBanned row.serverId row.userId = true := by
  simp only [Sql.exec, bind_eq_ok, pure_eq_ok, requires_eq_ok, Prod.mk.injEq] at h
  obtain ⟨reason, -, _, -, _, -, _, -, -, rfl⟩ := h
  obtain ⟨b, hb, hkey⟩ := Table.exists_mem_upsert pg.bans { row with reason }
    (fun b => { b with reason, bannedBy := row.bannedBy }) fun _ => rfl
  exact isBanned_iff.2 ⟨b, hb, Prod.mk.inj hkey⟩

/-! ## References -/

theorem isOwner_iff {serverId userId : ℤ} : pg.isOwner serverId userId = true ↔ (serverId, userId) ∈ pg.owners := by
  simp only [Postgres.isOwner, Postgres.owners, Table.any_eq_true, Bool.and_eq_true, decide_eq_true_eq, List.mem_map,
    Prod.mk.injEq]
  exact Iff.rfl

theorem hasRole_iff {roleId : ℤ} : pg.hasRole roleId = true ↔ ∃ r ∈ pg.roles, r.id = roleId := by
  simp [Postgres.hasRole]

/-- the foreign keys of `server_members` and of `member_roles` that the permission checks rely on -/
structure References (pg : Postgres) : Prop where
  server : ∀ {serverId userId}, pg.hasMember serverId userId = true → pg.hasServer serverId = true
  role : ∀ m ∈ pg.memberRoles, pg.hasRole m.roleId = true

theorem references_of_rows (hserver : ∀ m ∈ pg.serverMembers.rows, pg.hasServer m.serverId = true)
    (hrole : ∀ m ∈ pg.memberRoles.rows, pg.hasRole m.roleId = true) : References pg where
  server hm := by
    obtain ⟨m, hmem, rfl, rfl⟩ := hasMember_iff.1 hm
    exact hserver m hmem
  role := hrole

theorem exec_hasServer (h : Sql.exec pg w = .ok (n, pg')) (hw : ∀ id, w ≠ .deleteServer id) {serverId : ℤ}
    (hs : pg.hasServer serverId = true) : pg'.hasServer serverId = true := by
  have howners := exec_owners h
  obtain ⟨ownerId, hmem⟩ := hasServer_iff.1 hs
  rw [hasServer_iff]
  cases w with
  | insertServer row => exact ⟨ownerId, by rw [howners]; exact List.mem_append_left _ hmem⟩
  | updateServerOwner id newOwner =>
    refine ⟨if serverId = id then newOwner else ownerId, ?_⟩
    rw [howners, List.mem_map]
    refine ⟨_, hmem, ?_⟩
    by_cases hid : serverId = id <;> simp [hid]
  | deleteServer id => exact absurd rfl (hw id)
  | _ => exact ⟨ownerId, by rw [howners]; exact hmem⟩

theorem exec_hasRole (h : Sql.exec pg w = .ok (n, pg')) (hw : ∀ id, w ≠ .deleteServer id)
    (hw' : ∀ id serverId, w ≠ .deleteRole id serverId) {roleId : ℤ} (hrole : pg.hasRole roleId = true) :
    pg'.hasRole roleId = true := by
  have hroles := exec_roles h
  obtain ⟨r, hr, rfl⟩ := hasRole_iff.1 hrole
  rw [hasRole_iff]
  cases w with
  | insertRole row =>
    obtain ⟨-, -, name, hmem⟩ := hroles
    exact ⟨r, (hmem r).2 (.inl hr), rfl⟩
  | updateRole id serverId changes =>
    obtain ⟨c, -, -, hmem⟩ := hroles
    refine ⟨_, (hmem _).2 ⟨r, hr, rfl⟩, ?_⟩
    split_ifs <;> rfl
  | updateRolePosition position id serverId =>
    refine ⟨_, (hroles _).2 ⟨r, hr, rfl⟩, ?_⟩
    split_ifs <;> rfl
  | deleteServer id => exact absurd rfl (hw id)
  | deleteRole id serverId => exact absurd rfl (hw' id serverId)
  | _ => exact ⟨r, by rw [hroles]; exact hr, rfl⟩

theorem exec_references (h : Sql.exec pg w = .ok (n, pg')) (hpg : References pg) : References pg' where
  server {serverId userId} hm := by
    have hmember := exec_hasMember serverId userId h
    by_cases hw : ∀ id, w ≠ .deleteServer id
    · refine exec_hasServer h hw ?_
      cases w with
      | insertServerMember row =>
        rcases hmember.2.1 hm with hold | ⟨rfl, -⟩
        · exact hpg.server hold
        · exact hmember.1
      | deleteServer id => exact absurd rfl (hw id)
      | deleteServerMember id member => exact hpg.server (hmember.1 hm).1
      | _ => exact hpg.server (hmember ▸ hm)
    · -- the members of a deleted server are gone with it
      push Not at hw
      obtain ⟨id, rfl⟩ := hw
      obtain ⟨hold, hne⟩ := hmember.1 hm
      obtain ⟨ownerId, hmem⟩ := hasServer_iff.1 (hpg.server hold)
      refine hasServer_iff.2 ⟨ownerId, ?_⟩
      have howners := exec_owners h
      simp only at howners
      rw [howners, List.mem_filter]
      refine ⟨hmem, decide_eq_true fun hid => hne ⟨hid, ?_⟩⟩
      subst hid
      exact hpg.server hold
  role m hm := by
    have hassigned := exec_memberRoles h
    have hroles := exec_roles h
    cases w with
    | insertMemberRole row =>
      refine exec_hasRole h (by simp) (by simp) ?_
      rcases (hassigned.2.2 m).1 hm with hold | rfl
      · exact hpg.role m hold
      · exact hassigned.1
    | insertMemberRoleIgnore row =>
      refine exec_hasRole h (by simp) (by simp) ?_
      rcases (hassigned.2 m).1 hm with hold | rfl
      · exact hpg.role m hold
      · rcases hassigned.1 with hold | ⟨hrole, -⟩
        · exact hpg.role m hold
        · exact hrole
    | deleteServer id =>
      obtain ⟨hold, hno⟩ := (hassigned m).1 hm
      obtain ⟨r, hr, hid⟩ := hasRole_iff.1 (hpg.role m hold)
      exact hasRole_iff.2 ⟨r, (hroles r).2 ⟨hr, fun ⟨hs, hserver⟩ => hno ⟨hserver, .inl ⟨r, hr, hs, hid⟩⟩⟩, hid⟩
    | deleteRole id serverId =>
      obtain ⟨hold, hno⟩ := (hassigned m).1 hm
      obtain ⟨r, hr, hid⟩ := hasRole_iff.1 (hpg.role m hold)
      exact hasRole_iff.2 ⟨r, (hroles r).2 ⟨hr, fun ⟨h1, h2⟩ => hno ⟨r, hr, h1, h2, hid⟩⟩, hid⟩
    | deleteServerMember id member =>
      exact exec_hasRole h (by simp) (by simp) (hpg.role m ((hassigned m).1 hm).1)
    | deleteMemberRoles id member =>
      exact exec_hasRole h (by simp) (by simp) (hpg.role m ((hassigned m).1 hm).1)
    | _ =>
      refine exec_hasRole h (by simp) (by simp) (hpg.role m ?_)
      rwa [hassigned] at hm

end Lumiere.Db
