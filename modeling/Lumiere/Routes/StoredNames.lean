/-
The names that are stored: `create_server` (`lumiere-server/src/routes/servers.rs`), `create_role` (`roles.rs`),
`create_channel` (`channels.rs`), `register` (`auth.rs`) and `update_me` (`users.rs`). The length of a name is checked
before blanks at its ends are cut off; `update_channel` looks at the name that is left.

- `stored_names_iff`: what each of them stores is within the bounds of its request exactly when the name that is left is
  long enough. For a text channel it always is.
- `one_letter_server`: a name of two characters of which one is stored.
-/
import Lumiere.Routes.AcceptedEdits
import Lumiere.Routes.Profile

namespace Lumiere.Routes

open Lumiere.Core Lumiere.Core.Prog Lumiere.Models Lumiere.Db

variable {auth serverId : ℤ} {now : DateTime} {pg pg' : Postgres}

/-! ## Bounds -/

/-- a name of so many characters -/
def Within (min max : ℕ) (name : String) : Prop := min ≤ name.length ∧ name.length ≤ max

/-- a column is as long as the upper bound allows -/
theorem within_iff {min max : ℕ} {name stored : String} (hbounds : min ≤ max) (h : varchar max name = .ok stored) :
    Within min max stored ↔ min ≤ name.length := by
  rw [Within, varchar_eq_ok h, length_fitted]
  omega

/-- a text channel has a name whatever is left of it -/
theorem normalizeChannelName_length (unicode : Unicode) (name : String) (channelType : ℤ) :
    1 ≤ (normalizeChannelName unicode name channelType).length ↔
      channelType = 0 ∨ channelType = 5 ∨ 1 ≤ (Str.trim name).length := by
  rw [normalizeChannelName, ← or_assoc]
  by_cases htext : channelType = 0 ∨ channelType = 5
  · rw [if_pos htext]
    dsimp only
    refine iff_of_true ?_ (.inl htext)
    split_ifs with hempty
    · decide
    · rw [String.isEmpty_iff, ← String.length_eq_zero_iff] at hempty
      omega
  · rw [if_neg htext, or_iff_right htext]

/-! ## Servers -/

/-- the server has this name -/
def Named (pg : Postgres) (serverId : ℤ) (name : String) : Prop := ∃ s ∈ pg.servers, s.id = serverId ∧ s.name = name

theorem exec_insertServer_named {row : Server} {n : ℕ} (h : Sql.exec pg (.insertServer row) = .ok (n, pg')) :
    ∃ name, varchar 100 row.name = .ok name ∧ Named pg' row.id name := by
  simp only [Sql.exec, bind_eq_ok, pure_eq_ok, unique_eq_ok, Prod.mk.injEq] at h
  obtain ⟨name, hname, icon, -, region, -, servers, hinsert, _, -, -, rfl⟩ := h
  exact ⟨name, hname, _, ((Table.insert?_eq_some hinsert).2 _).2 (.inr rfl), rfl, rfl⟩

theorem exec_updateSystemChannel_named {name : String} {channelId : ℤ} {n : ℕ}
    (h : Sql.exec pg (.updateSystemChannel serverId channelId) = .ok (n, pg')) (hname : Named pg serverId name) :
    Named pg' serverId name := by
  obtain rfl := exec_updateSystemChannel h
  obtain ⟨s, hs, hid, rfl⟩ := hname
  refine ⟨{ s with systemChannelId := some channelId }, ?_, hid, rfl⟩
  exact Table.mem_updateWhere_of_mem (f := fun s : Server => { s with systemChannelId := some channelId })
    (fun _ => rfl) hs (decide_eq_true hid)

/-- the other statements of the transaction leave the servers alone -/
theorem exec_inserts_named {w : Sql} {name : String} {n : ℕ} (h : Sql.exec pg w = .ok (n, pg'))
    (hw : match w with
      | .insertRole _ | .insertChannel _ | .insertServerMember _ | .insertMemberRole _ => True
      | _ => False) (hname : Named pg serverId name) : Named pg' serverId name := by
  have hsame : pg'.servers = pg.servers := by
    cases w with
    | insertRole _ | insertChannel _ | insertServerMember _ | insertMemberRole _ =>
      simp only [Sql.exec, bind_eq_ok, pure_eq_ok, Prod.mk.injEq] at h
      grind
    | _ => exact hw.elim
  rw [Named, hsame]
  exact hname

theorem Founded.named {body : CreateServerRequest} {textChannelId voiceChannelId : ℤ}
    (h : Founded auth body serverId textChannelId voiceChannelId now pg pg') :
    ∃ name, varchar 100 (Str.trim body.name) = .ok name ∧ Named pg' serverId name := by
  obtain ⟨_, _, _, _, _, _, _, pg₁, pg₂, pg₃, pg₄, pg₅, pg₆, h₁, h₂, h₃, h₄, h₅, h₆, h₇⟩ := h
  obtain ⟨name, hstored, hname₁⟩ := exec_insertServer_named h₁
  have hname₂ := exec_inserts_named h₂ trivial hname₁
  have hname₃ := exec_inserts_named h₃ trivial hname₂
  have hname₄ := exec_inserts_named h₄ trivial hname₃
  have hname₅ := exec_updateSystemChannel_named h₅ hname₄
  have hname₆ := exec_inserts_named h₆ trivial hname₅
  exact ⟨name, hstored, exec_inserts_named h₇ trivial hname₆⟩

theorem createServer_stores {body : CreateServerRequest} {textChannelId voiceChannelId : ℤ} {server : Server}
    (h : (createServer auth body serverId textChannelId voiceChannelId now).run statement pg = (.ok server, pg')) :
    ∃ s ∈ pg'.servers, s.id = serverId ∧ (Within 2 100 s.name ↔ 2 ≤ (Str.trim body.name).length) := by
  rw [createServer_eq] at h
  obtain ⟨_, pg₁, hvalid, h₁⟩ := run_bind_eq_ok.1 h
  obtain ⟨-, rfl⟩ := failIf_eq_ok.1 hvalid
  obtain ⟨serverCount, pg₂, hselect, h₂⟩ := run_bind_eq_ok.1 h₁
  obtain ⟨-, rfl⟩ := Prod.mk.inj hselect
  obtain ⟨_, pg₃, hcount, h₃⟩ := run_bind_eq_ok.1 h₂
  obtain ⟨-, rfl⟩ := failIf_eq_ok.1 hcount
  obtain ⟨_, pg₄, htx, h₄⟩ := run_bind_eq_ok.1 h₃
  obtain rfl := readOnly_fetchServer.eq_of_run h₄
  obtain ⟨name, hstored, s, hs, hid, rfl⟩ := (createServer_tx (atomically_eq_ok.1 htx)).named
  exact ⟨s, hs, hid, within_iff (by decide) hstored⟩

/-! ## Roles and channels -/

theorem exec_insertRole_named {row : Role} {n : ℕ} (h : Sql.exec pg (.insertRole row) = .ok (n, pg')) :
    ∃ name, varchar 100 row.name = .ok name ∧ ∃ r ∈ pg'.roles, r.id = row.id ∧ r.name = name := by
  simp only [Sql.exec, bind_eq_ok, pure_eq_ok, unique_eq_ok, Prod.mk.injEq] at h
  obtain ⟨name, hname, roles, hinsert, _, -, -, rfl⟩ := h
  exact ⟨name, hname, _, ((Table.insert?_eq_some hinsert).2 _).2 (.inr rfl), rfl, rfl⟩

theorem createRole_stores {body : CreateRoleRequest} {roleId : ℤ} {role : RoleResponse}
    (h : (createRole auth serverId body roleId now).run statement pg = (.ok role, pg')) :
    ∃ r ∈ pg'.roles, r.id = roleId ∧ (Within 1 100 r.name ↔ 1 ≤ (Str.trim body.name).length) := by
  rw [createRole_eq] at h
  obtain ⟨checked, pg₁, hchecks, h₁⟩ := run_bind_eq_ok.1 h
  obtain ⟨_, pg₂, hinsert, h₂⟩ := run_bind_eq_ok.1 h₁
  obtain rfl := readOnly_fetchRole.eq_of_run h₂
  obtain ⟨n, hexec⟩ := execute_eq_ok.1 hinsert
  obtain ⟨_, hstored, r, hr, hid, rfl⟩ := exec_insertRole_named (statement_eq_ok.1 hexec)
  exact ⟨r, hr, hid, within_iff (by decide) hstored⟩

theorem exec_insertChannel_named {row : Channel} {name : String} {n : ℕ} (hname : row.name = some name)
    (h : Sql.exec pg (.insertChannel row) = .ok (n, pg')) :
    ∃ stored, varchar 100 name = .ok stored ∧ ∃ c ∈ pg'.channels, c.id = row.id ∧ c.name = some stored := by
  simp only [Sql.exec, bind_eq_ok, pure_eq_ok, unique_eq_ok, Prod.mk.injEq] at h
  obtain ⟨stored, hstored, topic, -, channels, hinsert, _, -, _, -, -, rfl⟩ := h
  rw [hname] at hstored
  obtain ⟨fit, hfit, rfl⟩ := map_eq_ok.1 hstored
  exact ⟨fit, hfit, _, ((Table.insert?_eq_some hinsert).2 _).2 (.inr rfl), rfl, rfl⟩

theorem createChannel_stores {unicode : Unicode} {body : CreateChannelRequest} {channelId : ℤ} {channel : ChannelResponse}
    (h : (createChannel unicode auth serverId body channelId now).run perform pg = (.ok channel, pg')) :
    ∃ c ∈ pg'.channels, ∃ name, c.id = channelId ∧ c.name = some name ∧ (Within 1 100 name ↔
      body.channelType.getD 0 = 0 ∨ body.channelType.getD 0 = 5 ∨ 1 ≤ (Str.trim body.name).length) := by
  rw [createChannel] at h
  obtain ⟨_, pg₁, hchecks, h₁⟩ := run_bind_eq_ok.1 h
  obtain ⟨_, pg₂, hinsert, h₂⟩ := run_bind_eq_ok.1 h₁
  obtain ⟨_, pg₃, hoverrides, h₃⟩ := run_bind_eq_ok.1 h₂
  obtain rfl := (readOnly_sql readOnly_fetchChannel).eq_of_run h₃
  obtain ⟨n, hexec⟩ := execute_eq_ok.1 hinsert
  obtain ⟨name, hstored, c, hc, hid, hname⟩ := exec_insertChannel_named rfl (perform_eq_ok.1 hexec)
  have hsame : pg'.channels = pg₂.channels := by
    have hissues : (body.permissionOverrides.forM (createOverrides channelId)).Issues fun w =>
        w = .deleteOverrides channelId ∨ ∃ ov : PermissionOverrideInput, w = .insertOverride (ov.row channelId) :=
      issues_forM_option fun overrides _ => issues_createOverrides.mono fun w ⟨ov, _, _, heq⟩ => .inr ⟨ov, heq⟩
    have hrun := run_overrides_channels hissues pg₂
    rw [hoverrides] at hrun
    exact hrun
  rw [hsame, ← normalizeChannelName_length unicode]
  exact ⟨c, hc, name, hid, hname, within_iff (by decide) hstored⟩

/-! ## Accounts -/

theorem register_stores {isEmail : String → Bool} {unicode : Unicode} {hashPassword : String → Except String String}
    {body : RegisterRequest} {userId : ℤ} {u : Unit} {s s' : Accounts}
    (h : (registerPostgres isEmail unicode hashPassword body userId now).run accountStatement s = (.ok u, s')) :
    ∃ row ∈ s'.users, row.id = userId ∧ (Within 2 32 row.username ↔ 2 ≤ (Str.trim body.username).length) := by
  obtain ⟨row, hrow, hid, hstored⟩ := register_ok h
  exact ⟨row, hrow, hid, within_iff (by decide) hstored⟩

theorem updateMe_stores {body : UpdateProfileRequest} {count : ℤ} {user : FullUser} {username : String} {s s' : Accounts}
    (hname : body.username = some username)
    (h : (updateMe auth body count).run accountStatement s = (.ok user, s')) :
    ∃ row ∈ s'.users, row.id = auth ∧ (Within 2 32 row.username ↔ 2 ≤ (Str.trim username).length) := by
  obtain ⟨-, row, hrow, checked, hid, hchecked, hrow', -⟩ := updateMe_ok h
  refine ⟨_, hrow', hid, ?_⟩
  simp only [ProfileChanges.checked, UpdateProfileRequest.changes, hname, bind_eq_ok, pure_eq_ok] at hchecked
  obtain ⟨stored, hstored, _, -, _, -, _, -, _, -, rfl⟩ := hchecked
  rw [Option.map_some, Option.mapM_some] at hstored
  obtain ⟨name, hname, rfl⟩ := map_eq_ok.1 hstored
  exact within_iff (by decide) hname

/-! ## All of them -/

/-- **When a stored name is within the bounds of its request**: the name without the blanks at its ends has the characters
that are asked for at least, or it is the name of a text channel. -/
theorem stored_names_iff (unicode : Unicode) (auth : ℤ) (now : DateTime) :
    (∀ body serverId textChannelId voiceChannelId server (pg pg' : Postgres),
      (createServer auth body serverId textChannelId voiceChannelId now).run statement pg = (.ok server, pg') →
      ∃ s ∈ pg'.servers, s.id = serverId ∧ (Within 2 100 s.name ↔ 2 ≤ (Str.trim body.name).length)) ∧
    (∀ serverId body roleId role (pg pg' : Postgres),
      (createRole auth serverId body roleId now).run statement pg = (.ok role, pg') →
      ∃ r ∈ pg'.roles, r.id = roleId ∧ (Within 1 100 r.name ↔ 1 ≤ (Str.trim body.name).length)) ∧
    (∀ serverId body channelId channel (pg pg' : Postgres),
      (createChannel unicode auth serverId body channelId now).run perform pg = (.ok channel, pg') →
      ∃ c ∈ pg'.channels, ∃ name, c.id = channelId ∧ c.name = some name ∧ (Within 1 100 name ↔
        body.channelType.getD 0 = 0 ∨ body.channelType.getD 0 = 5 ∨ 1 ≤ (Str.trim body.name).length)) ∧
    (∀ isEmail hashPassword body userId u (s s' : Accounts),
      (registerPostgres isEmail unicode hashPassword body userId now).run accountStatement s = (.ok u, s') →
      ∃ row ∈ s'.users, row.id = userId ∧ (Within 2 32 row.username ↔ 2 ≤ (Str.trim body.username).length)) ∧
    (∀ body count user username (s s' : Accounts), body.username = some username →
      (updateMe auth body count).run accountStatement s = (.ok user, s') →
      ∃ row ∈ s'.users, row.id = auth ∧ (Within 2 32 row.username ↔ 2 ≤ (Str.trim username).length)) := by
  refine ⟨?_, ?_, ?_, ?_, ?_⟩
  · intro body serverId textChannelId voiceChannelId server pg pg' h
    exact createServer_stores h
  · intro serverId body roleId role pg pg' h
    exact createRole_stores h
  · intro serverId body channelId channel pg pg' h
    exact createChannel_stores h
  · intro isEmail hashPassword body userId u s s' h
    exact register_stores h
  · intro body count user username s s' hname h
    exact updateMe_stores hname h

/-! ## One letter -/

/-- user 1 creates a server with this name -/
def serverNamed (name : String) : Except AppError Server × Postgres :=
  (createServer 1 ⟨name, none, none⟩ 100 101 102 ⟨0⟩).run statement (noServers onlyAda)

theorem stored_names_iff_abc :
    ∃ s ∈ (serverNamed " abc").2.servers, s.id = 100 ∧ (Within 2 100 s.name ↔ 2 ≤ (Str.trim " abc").length) := by
  have hrow : (serverNamed " abc").1 = .ok { newServer 100 ⟨" abc", none, none⟩ 1 ⟨0⟩ with systemChannelId := some 101 } := by
    decide
  exact (stored_names_iff ⟨String.toLower, Char.isAlphanum⟩ 1 ⟨0⟩).1 ⟨" abc", none, none⟩ 100 101 102 _ _ _
    (Prod.ext hrow rfl)

/-- **A server is named with one letter**, by a request whose name has two characters. -/
theorem one_letter_server :
    (serverNamed " a").1.map Server.name = .ok "a" ∧ (serverRow (serverNamed " a").2 100).map Server.name = some "a" ∧
      ¬ Within 2 100 "a" := by
  refine ⟨by decide, by decide, ?_⟩
  intro h
  exact absurd h.1 (by decide)

end Lumiere.Routes
