/-
The statements of the channel handlers and of `delete_me` (`lumiere-server/src/routes/channels.rs`, `users.rs`) beside
those of the server and role handlers: `Stmt` is any statement on PostgreSQL that the model knows.

- `exec_channels`, `Stmt.exec_places`: which statements insert or delete a channel. Nothing changes a channel's server or
  type.
- `Stmt.exec_skeleton`: servers, members, roles and assignments are written by the statements of `Sql` alone.
-/
import Lumiere.Db.Effects

namespace Lumiere.Db

open Lumiere.Core Lumiere.Models

/-- the columns that `update_channel` sets, each if it is in the request -/
structure ChannelChanges where
  name : Option String
  topic : Option (Option String)
  position : Option ℤ
  parentId : Option (Option ℤ)
  bitrate : Option ℤ
  userLimit : Option ℤ
  rateLimit : Option ℤ
  nsfw : Option Bool
deriving DecidableEq, Repr

def ChannelChanges.isEmpty (c : ChannelChanges) : Bool :=
  c.name.isNone && c.topic.isNone && c.position.isNone && c.parentId.isNone && c.bitrate.isNone && c.userLimit.isNone &&
    c.rateLimit.isNone && c.nsfw.isNone

def ChannelChanges.checked (c : ChannelChanges) : Except DbError ChannelChanges := do
  return { c with
    name := ← c.name.mapM (varchar 100)
    topic := ← c.topic.mapM (varchar? 1024) }

def ChannelChanges.apply (c : ChannelChanges) (ch : Channel) : Channel :=
  { ch with
    name := c.name.elim ch.name some
    topic := c.topic.getD ch.topic
    position := c.position.getD ch.position
    parentId := c.parentId.getD ch.parentId
    bitrate := c.bitrate.elim ch.bitrate some
    userLimit := c.userLimit.elim ch.userLimit some
    rateLimit := c.rateLimit.getD ch.rateLimit
    nsfw := c.nsfw.getD ch.nsfw }

@[simp] theorem ChannelChanges.apply_id (c : ChannelChanges) (ch : Channel) : (c.apply ch).id = ch.id := rfl

/-- the columns that `reorder_channels` sets -/
def moved (position : ℤ) (parentId : Option (Option ℤ)) (ch : Channel) : Channel :=
  { ch with position, parentId := parentId.getD ch.parentId }

inductive Stmt where
  | sql (w : Sql)
  | updateChannel (channelId : ℤ) (changes : ChannelChanges)
  /-- `SET position = $1, parent_id = $2 WHERE id = $3 AND server_id = $4`, the parent if it is in the request -/
  | moveChannel (channelId serverId position : ℤ) (parentId : Option (Option ℤ))
  /-- `SET parent_id = NULL WHERE parent_id = $1` -/
  | clearParent (channelId : ℤ)
  | deleteChannel (channelId : ℤ)
  | insertOverride (row : PermissionOverrideRow)
  | deleteOverrides (channelId : ℤ)
  /-- `UPDATE users SET deleted_at = now() WHERE id = $1` -/
  | softDeleteUser (userId : ℤ) (now : DateTime)
deriving DecidableEq, Repr

/-- the foreign key of `parent_id`, if the update sets it -/
def Postgres.parentReference (pg : Postgres) : Option (Option ℤ) → Except DbError Unit
  | some (some id) => requires (.foreignKey "channels" "channels_parent_id_fkey") (pg.hasChannel id)
  | _ => .ok ()

/-- one statement on its own -/
def Stmt.exec (pg : Postgres) : Stmt → Except DbError (ℕ × Postgres)
  | .sql w => Sql.exec pg w
  | .updateChannel channelId changes => do
    let changes ← changes.checked
    if pg.hasChannel channelId then pg.parentReference changes.parentId
    return (pg.channels.count fun c => c.id = channelId, { pg with
      channels := pg.channels.updateWhere (fun c => c.id = channelId) changes.apply changes.apply_id })
  | .moveChannel channelId serverId position parentId => do
    if pg.channels.any fun c => c.id = channelId && c.serverId = some serverId then pg.parentReference parentId
    return (pg.channels.count fun c => c.id = channelId && c.serverId = some serverId, { pg with
      channels := pg.channels.updateWhere (fun c => c.id = channelId && c.serverId = some serverId)
        (moved position parentId) fun _ => rfl })
  | .clearParent channelId =>
    .ok (pg.channels.count fun c => c.parentId = some channelId, { pg with
      channels := pg.channels.updateWhere (fun c => c.parentId = some channelId)
        (fun c => { c with parentId := none }) Channel.id_uncategorized })
  | .deleteChannel channelId =>
    .ok (pg.channels.count fun c => c.id = channelId, pg.deleteChannels fun c => c.id = channelId)
  | .insertOverride row => do
    let permissionOverrides ← unique "permission_overrides_pkey" pg.permissionOverrides row
    requires (.foreignKey "permission_overrides" "permission_overrides_channel_id_fkey") (pg.hasChannel row.channelId)
    return (1, { pg with permissionOverrides })
  | .deleteOverrides channelId =>
    .ok (pg.permissionOverrides.count fun o => o.channelId = channelId, { pg with
      permissionOverrides := pg.permissionOverrides.deleteWhere fun o => o.channelId = channelId })
  | .softDeleteUser userId now =>
    .ok (pg.users.count fun u => u.id = userId, { pg with
      users := pg.users.updateWhere (fun u => u.id = userId) (fun u => { u with deletedAt := some now })
        (User.id_deleted now) })

/-! ## What the statements do to channels -/

variable {pg pg' : Postgres} {n : ℕ}

/-- a channel that stays when others are deleted: it loses its parent if that is one of them -/
def Postgres.orphaned (pg : Postgres) (p : Channel → Bool) (c : Channel) : Channel :=
  if c.parentId.any fun id => pg.channels.any fun d => p d && d.id = id then { c with parentId := none } else c

theorem rows_deleteChannels (p : Channel → Bool) :
    (pg.deleteChannels p).channels.rows = (pg.channels.rows.filter fun c => !p c).map (pg.orphaned p) := rfl

theorem Postgres.orphaned_id (p : Channel → Bool) (c : Channel) : (pg.orphaned p c).id = c.id := by
  rw [orphaned]
  split_ifs <;> rfl

theorem Postgres.orphaned_serverId (p : Channel → Bool) (c : Channel) : (pg.orphaned p c).serverId = c.serverId := by
  rw [orphaned]
  split_ifs <;> rfl

theorem Postgres.orphaned_type (p : Channel → Bool) (c : Channel) : (pg.orphaned p c).type = c.type := by
  rw [orphaned]
  split_ifs <;> rfl

theorem exec_channels {w : Sql} : Sql.exec pg w = .ok (n, pg') →
    match w with
    | .insertChannel row => row.serverId.all pg.hasServer = true ∧ row.parentId.all pg.hasChannel = true ∧
      ∃ name topic, pg.channels.insert? { row with name, topic } = some pg'.channels
    | .deleteServer serverId => pg'.channels =
      (pg.deleteChannels fun c => c.serverId = some serverId && pg.hasServer serverId).channels
    | _ => pg'.channels = pg.channels := by
  intro h
  cases w with
  | insertChannel row =>
    simp only [Sql.exec, bind_eq_ok, pure_eq_ok, requires_eq_ok, unique_eq_ok, Prod.mk.injEq] at h ⊢
    obtain ⟨name, -, topic, -, channels, hinsert, _, hserver, _, hparent, -, rfl⟩ := h
    exact ⟨hserver, hparent, name, topic, hinsert⟩
  | deleteServer serverId =>
    simp only [Sql.exec, Except.ok.injEq, Prod.mk.injEq] at h ⊢
    obtain ⟨-, rfl⟩ := h
    have hgone : (fun c : Channel => c.serverId.any fun id => pg.servers.any fun s => s.id = serverId && s.id = id) =
        fun c => c.serverId = some serverId && pg.hasServer serverId := by
      funext c
      rcases c.serverId with _ | id
      · rfl
      · rw [Bool.eq_iff_iff]
        simp only [Option.any_some, Table.any_eq_true, Bool.and_eq_true, decide_eq_true_eq, Option.some.injEq,
          Postgres.hasServer]
        constructor
        · rintro ⟨s, hs, rfl, rfl⟩
          exact ⟨rfl, s, hs, rfl⟩
        · rintro ⟨rfl, s, hs, hid⟩
          exact ⟨s, hs, hid, hid⟩
    rw [← hgone]
    rfl
  | insertMemberRoleIgnore row => rw [(exec_insertMemberRoleIgnore h).1]
  | updateServer serverId changes =>
    obtain ⟨_, rfl⟩ := exec_updateServer h
    rfl
  | updateSystemChannel serverId channelId =>
    obtain rfl := exec_updateSystemChannel h
    rfl
  | _ =>
    simp only [Sql.exec, bind_eq_ok, pure_eq_ok, requires_eq_ok, unique_eq_ok, Except.ok.injEq, Prod.mk.injEq] at h ⊢
    grind [Postgres.deleteRoles, Postgres.deleteServerMembers]

/-- the channel ids with their servers and types -/
def Postgres.places (pg : Postgres) : List (ℤ × Option ℤ × ℤ) := pg.channels.rows.map fun c => (c.id, c.serverId, c.type)

theorem mem_places {id type : ℤ} {serverId : Option ℤ} :
    (id, serverId, type) ∈ pg.places ↔ ∃ c ∈ pg.channels, c.id = id ∧ c.serverId = serverId ∧ c.type = type := by
  simp only [Postgres.places, List.mem_map, Prod.mk.injEq]
  exact Iff.rfl

theorem places_deleteChannels {p : Channel → Bool} {q : ℤ × Option ℤ × ℤ → Bool}
    (hq : ∀ c ∈ pg.channels, q (c.id, c.serverId, c.type) = !p c) :
    (pg.deleteChannels p).places = pg.places.filter q := by
  rw [Postgres.places, rows_deleteChannels, Postgres.places, List.map_map, List.filter_map]
  have hcol : ((fun c : Channel => (c.id, c.serverId, c.type)) ∘ pg.orphaned p) =
      fun c => (c.id, c.serverId, c.type) := by
    funext c
    simp only [Function.comp, Postgres.orphaned_id, Postgres.orphaned_serverId, Postgres.orphaned_type]
  rw [hcol]
  congr 1
  exact List.filter_congr fun c hc => (hq c hc).symm

theorem exec_places {w : Sql} : Sql.exec pg w = .ok (n, pg') →
    match w with
    | .insertChannel row => pg'.places = pg.places ++ [(row.id, row.serverId, row.type)]
    | .deleteServer serverId =>
      pg'.places = pg.places.filter fun c => !(c.2.1 = some serverId && pg.hasServer serverId)
    | _ => pg'.places = pg.places := by
  intro h
  have hchannels := exec_channels h
  cases w with
  | insertChannel row =>
    obtain ⟨-, -, name, topic, hinsert⟩ := hchannels
    simp only [Postgres.places, Table.rows_insert? hinsert, List.map_append, List.map_singleton]
  | deleteServer serverId =>
    simp only at hchannels ⊢
    rw [Postgres.places, hchannels]
    exact places_deleteChannels fun c _ => rfl
  | _ => exact congrArg (fun t => t.rows.map fun c => (c.id, c.serverId, c.type)) hchannels

theorem exec_updateChannel_checked {channelId : ℤ} {changes : ChannelChanges}
    (h : Stmt.exec pg (.updateChannel channelId changes) = .ok (n, pg')) :
    ∃ c : ChannelChanges, changes.checked = .ok c ∧ pg' = { pg with
      channels := pg.channels.updateWhere (fun ch => ch.id = channelId) c.apply c.apply_id } := by
  simp only [Stmt.exec, bind_eq_ok] at h
  obtain ⟨c, hc, h⟩ := h
  refine ⟨c, hc, ?_⟩
  split_ifs at h <;> simp only [bind_eq_ok, pure_eq_ok, Prod.mk.injEq] at h
  · obtain ⟨_, -, -, rfl⟩ := h
    rfl
  · exact h.2.symm

theorem exec_updateChannel {channelId : ℤ} {changes : ChannelChanges}
    (h : Stmt.exec pg (.updateChannel channelId changes) = .ok (n, pg')) :
    ∃ c : ChannelChanges, c.parentId = changes.parentId ∧ pg' = { pg with
      channels := pg.channels.updateWhere (fun ch => ch.id = channelId) c.apply c.apply_id } := by
  obtain ⟨c, hc, h⟩ := exec_updateChannel_checked h
  simp only [ChannelChanges.checked, bind_eq_ok, pure_eq_ok] at hc
  obtain ⟨_, -, _, -, hc⟩ := hc
  exact ⟨c, hc ▸ rfl, h⟩

theorem exec_moveChannel {channelId serverId position : ℤ} {parentId : Option (Option ℤ)}
    (h : Stmt.exec pg (.moveChannel channelId serverId position parentId) = .ok (n, pg')) :
    pg' = { pg with
      channels := pg.channels.updateWhere (fun ch => ch.id = channelId && ch.serverId = some serverId)
        (moved position parentId) fun _ => rfl } := by
  simp only [Stmt.exec] at h
  split_ifs at h <;> simp only [bind_eq_ok, pure_eq_ok, Prod.mk.injEq] at h
  · obtain ⟨_, -, -, rfl⟩ := h
    rfl
  · exact h.2.symm

/-- a plain INSERT refuses a second override of a target -/
theorem exec_insertOverride {row : PermissionOverrideRow} (h : Stmt.exec pg (.insertOverride row) = .ok (n, pg')) :
    ∃ permissionOverrides, pg.permissionOverrides.insert? row = some permissionOverrides ∧
      pg' = { pg with permissionOverrides } := by
  simp only [Stmt.exec, bind_eq_ok, pure_eq_ok, unique_eq_ok, Prod.mk.injEq] at h
  obtain ⟨permissionOverrides, hinsert, _, -, -, rfl⟩ := h
  exact ⟨permissionOverrides, hinsert, rfl⟩

theorem Stmt.exec_channels {w : Stmt} : Stmt.exec pg w = .ok (n, pg') →
    match w with
    | .sql (.insertChannel row) => row.serverId.all pg.hasServer = true ∧ row.parentId.all pg.hasChannel = true ∧
      ∃ name topic, pg.channels.insert? { row with name, topic } = some pg'.channels
    | .sql (.deleteServer serverId) => pg'.channels =
      (pg.deleteChannels fun c => c.serverId = some serverId && pg.hasServer serverId).channels
    | .updateChannel channelId changes => ∃ c : ChannelChanges, c.parentId = changes.parentId ∧
      pg'.channels = pg.channels.updateWhere (fun ch => ch.id = channelId) c.apply c.apply_id
    | .moveChannel channelId serverId position parentId =>
      pg'.channels = pg.channels.updateWhere (fun ch => ch.id = channelId && ch.serverId = some serverId)
        (moved position parentId) fun _ => rfl
    | .clearParent channelId => pg'.channels = pg.channels.updateWhere (fun ch => ch.parentId = some channelId)
        (fun ch => { ch with parentId := none }) fun _ => rfl
    | .deleteChannel channelId => pg'.channels = (pg.deleteChannels fun c => c.id = channelId).channels
    | _ => pg'.channels = pg.channels := by
  intro h
  cases w with
  | sql w =>
    have hchannels := Db.exec_channels (w := w) h
    cases w <;> exact hchannels
  | updateChannel channelId changes =>
    obtain ⟨c, hc, rfl⟩ := exec_updateChannel h
    exact ⟨c, hc, rfl⟩
  | moveChannel channelId serverId position parentId =>
    rw [exec_moveChannel h]
  | insertOverride row =>
    obtain ⟨_, -, rfl⟩ := exec_insertOverride h
    rfl
  | clearParent channelId =>
    obtain ⟨-, rfl⟩ := Prod.mk.inj (Except.ok.inj h)
    rfl
  | deleteChannel channelId =>
    obtain ⟨-, rfl⟩ := Prod.mk.inj (Except.ok.inj h)
    rfl
  | deleteOverrides channelId =>
    obtain ⟨-, rfl⟩ := Prod.mk.inj (Except.ok.inj h)
    rfl
  | softDeleteUser userId now =>
    obtain ⟨-, rfl⟩ := Prod.mk.inj (Except.ok.inj h)
    rfl

theorem places_congr {pg₁ : Postgres} (h : pg'.channels = pg₁.channels) : pg'.places = pg₁.places := by
  rw [Postgres.places, h, Postgres.places]

theorem Stmt.exec_places {w : Stmt} : Stmt.exec pg w = .ok (n, pg') →
    match w with
    | .sql (.insertChannel row) => pg'.places = pg.places ++ [(row.id, row.serverId, row.type)]
    | .sql (.deleteServer serverId) =>
      pg'.places = pg.places.filter fun c => !(c.2.1 = some serverId && pg.hasServer serverId)
    | .deleteChannel channelId => pg'.places = pg.places.filter fun c => c.1 ≠ channelId
    | _ => pg'.places = pg.places := by
  intro h
  have hchannels := Stmt.exec_channels h
  cases w with
  | sql w =>
    have hplaces := Db.exec_places (w := w) h
    cases w <;> exact hplaces
  | updateChannel channelId changes =>
    obtain ⟨c, -, hchannels⟩ := hchannels
    rw [Postgres.places, hchannels]
    exact Table.map_updateWhere c.apply_id (by intro ch; rfl)
  | moveChannel channelId serverId position parentId =>
    simp only at hchannels ⊢
    rw [Postgres.places, hchannels]
    exact Table.map_updateWhere (by intro ch; rfl) (by intro ch; rfl)
  | clearParent channelId =>
    simp only at hchannels ⊢
    rw [Postgres.places, hchannels]
    exact Table.map_updateWhere (by intro ch; rfl) (by intro ch; rfl)
  | deleteChannel channelId =>
    simp only at hchannels ⊢
    rw [places_congr hchannels]
    exact places_deleteChannels fun c _ => by simp
  | _ => exact places_congr hchannels

/-! ## What they do to overrides -/

/-- an override that was not there has just been written -/
theorem exec_overrides {w : Sql} (h : Sql.exec pg w = .ok (n, pg')) {o : PermissionOverrideRow}
    (ho : o ∈ pg'.permissionOverrides) :
    o ∈ pg.permissionOverrides ∨ ∃ row, w = .upsertOverride row ∧ o.targetType = row.targetType ∧
      o.allowBits = row.allowBits ∧ o.denyBits = row.denyBits := by
  have hsame : pg'.permissionOverrides = pg.permissionOverrides → o ∈ pg.permissionOverrides := fun he => he ▸ ho
  cases w with
  | upsertOverride row =>
    simp only [Sql.exec, bind_eq_ok, pure_eq_ok, Prod.mk.injEq] at h
    obtain ⟨_, -, -, rfl⟩ := h
    rcases Table.mem_upsert ho with hold | rfl | ⟨old, -, rfl⟩
    · exact .inl hold
    · exact .inr ⟨o, rfl, rfl, rfl, rfl⟩
    · exact .inr ⟨row, rfl, rfl, rfl, rfl⟩
  | deleteOverride channelId targetId =>
    obtain ⟨-, rfl⟩ := Prod.mk.inj (Except.ok.inj h)
    exact .inl (Table.mem_deleteWhere.1 ho).1
  | deleteServer id =>
    obtain ⟨-, rfl⟩ := Prod.mk.inj (Except.ok.inj h)
    exact .inl (Table.mem_deleteWhere.1 ho).1
  | insertMemberRoleIgnore row => exact .inl (hsame (by rw [(exec_insertMemberRoleIgnore h).1]))
  | updateServer id changes =>
    obtain ⟨_, rfl⟩ := exec_updateServer h
    exact .inl (hsame rfl)
  | updateSystemChannel id channelId =>
    obtain rfl := exec_updateSystemChannel h
    exact .inl (hsame rfl)
  | _ =>
    simp only [Sql.exec, bind_eq_ok, pure_eq_ok, requires_eq_ok, unique_eq_ok, Except.ok.injEq, Prod.mk.injEq] at h
    refine .inl (hsame ?_)
    grind [Postgres.deleteRoles, Postgres.deleteServerMembers]

/-- the override that the statement writes -/
def Stmt.override? : Stmt → Option PermissionOverrideRow
  | .sql (.upsertOverride row) | .insertOverride row => some row
  | _ => none

theorem Stmt.exec_overrides {w : Stmt} (h : Stmt.exec pg w = .ok (n, pg')) {o : PermissionOverrideRow}
    (ho : o ∈ pg'.permissionOverrides) :
    o ∈ pg.permissionOverrides ∨ ∃ row ∈ w.override?, o.targetType = row.targetType ∧
      o.allowBits = row.allowBits ∧ o.denyBits = row.denyBits := by
  cases w with
  | sql w =>
    rcases Db.exec_overrides (w := w) h ho with hold | ⟨row, rfl, hrest⟩
    · exact .inl hold
    · exact .inr ⟨row, rfl, hrest⟩
  | updateChannel channelId changes =>
    obtain ⟨c, -, rfl⟩ := exec_updateChannel h
    exact .inl ho
  | moveChannel channelId serverId position parentId =>
    rw [exec_moveChannel h] at ho
    exact .inl ho
  | insertOverride row =>
    obtain ⟨_, hinsert, rfl⟩ := exec_insertOverride h
    rcases ((Table.insert?_eq_some hinsert).2 o).1 ho with hold | rfl
    · exact .inl hold
    · exact .inr ⟨o, rfl, rfl, rfl, rfl⟩
  | clearParent channelId =>
    obtain ⟨-, rfl⟩ := Prod.mk.inj (Except.ok.inj h)
    exact .inl ho
  | softDeleteUser userId now =>
    obtain ⟨-, rfl⟩ := Prod.mk.inj (Except.ok.inj h)
    exact .inl ho
  | deleteChannel channelId =>
    obtain ⟨-, rfl⟩ := Prod.mk.inj (Except.ok.inj h)
    exact .inl (Table.mem_deleteWhere.1 ho).1
  | deleteOverrides channelId =>
    obtain ⟨-, rfl⟩ := Prod.mk.inj (Except.ok.inj h)
    exact .inl (Table.mem_deleteWhere.1 ho).1

/-! ## What they leave alone -/

/-- the statements of the channel handlers and of `delete_me` touch no server's owner, no member, no role and no
assignment -/
theorem Stmt.exec_skeleton {w : Stmt} (h : Stmt.exec pg w = .ok (n, pg')) (hw : ∀ v, w ≠ .sql v) :
    pg'.owners = pg.owners ∧ pg'.serverMembers = pg.serverMembers ∧ pg'.roles = pg.roles ∧
      pg'.memberRoles = pg.memberRoles := by
  cases w with
  | sql v => exact absurd rfl (hw v)
  | updateChannel channelId changes =>
    obtain ⟨c, -, rfl⟩ := exec_updateChannel h
    exact ⟨rfl, rfl, rfl, rfl⟩
  | moveChannel channelId serverId position parentId =>
    rw [exec_moveChannel h]
    exact ⟨rfl, rfl, rfl, rfl⟩
  | deleteChannel channelId =>
    obtain ⟨-, rfl⟩ := Prod.mk.inj (Except.ok.inj h)
    exact ⟨owners_deleteChannels pg _, rfl, rfl, rfl⟩
  | insertOverride row =>
    obtain ⟨_, -, rfl⟩ := exec_insertOverride h
    exact ⟨rfl, rfl, rfl, rfl⟩
  | clearParent channelId =>
    obtain ⟨-, rfl⟩ := Prod.mk.inj (Except.ok.inj h)
    exact ⟨rfl, rfl, rfl, rfl⟩
  | deleteOverrides channelId =>
    obtain ⟨-, rfl⟩ := Prod.mk.inj (Except.ok.inj h)
    exact ⟨rfl, rfl, rfl, rfl⟩
  | softDeleteUser userId now =>
    obtain ⟨-, rfl⟩ := Prod.mk.inj (Except.ok.inj h)
    exact ⟨rfl, rfl, rfl, rfl⟩

/-- accounts are changed by `delete_me` alone -/
theorem Stmt.exec_users {w : Stmt} : Stmt.exec pg w = .ok (n, pg') →
    match w with
    | .softDeleteUser userId now => ∀ u, u ∈ pg'.users ↔
      ∃ u' ∈ pg.users, (if u'.id = userId then { u' with deletedAt := some now } else u') = u
    | _ => pg'.users = pg.users := by
  intro h
  cases w with
  | sql w => exact Db.exec_users (w := w) h
  | softDeleteUser userId now =>
    obtain ⟨-, rfl⟩ := Prod.mk.inj (Except.ok.inj h)
    intro u
    rw [Table.mem_updateWhere]
    simp only [decide_eq_true_eq]
  | updateChannel channelId changes =>
    obtain ⟨c, -, rfl⟩ := exec_updateChannel h
    rfl
  | moveChannel channelId serverId position parentId => rw [exec_moveChannel h]
  | insertOverride row =>
    obtain ⟨_, -, rfl⟩ := exec_insertOverride h
    rfl
  | clearParent channelId =>
    obtain ⟨-, rfl⟩ := Prod.mk.inj (Except.ok.inj h)
    rfl
  | deleteChannel channelId =>
    obtain ⟨-, rfl⟩ := Prod.mk.inj (Except.ok.inj h)
    rfl
  | deleteOverrides channelId =>
    obtain ⟨-, rfl⟩ := Prod.mk.inj (Except.ok.inj h)
    rfl

end Lumiere.Db
