/-
Requests side by side: each read, each statement that commits on its own and each transaction is one step, and any
pending command may come back with an error.

- `requests`, `turn`: the handlers as tasks over the database.
- `createServer_tx`, `inviteTx_eq_ok`: what the transactions of `create_server` and `use_invite` have done when they
  commit.
-/
import Lumiere.Core.Interleaving
import Lumiere.Db.Effects
import Lumiere.Routes.Footprints

namespace Lumiere.Routes

open Lumiere.Core Lumiere.Core.Prog Lumiere.Models Lumiere.Db

variable {ι : Type} [DecidableEq ι]

omit [DecidableEq ι] in
/-- requests that have arrived and not yet begun -/
def requests (verifyPassword : String → String → Except String Bool) (r : ι → Request) (pg : Postgres) :
    Pool ι (Handler Unit) Postgres :=
  ⟨fun i => (r i).handle verifyPassword, pg⟩

/-- nothing happens outside the requests; `e` is the error of a command that is made to fail -/
def turn (e : AppError) : Pool ι (Handler Unit) Postgres → Turn ι Empty → Pool ι (Handler Unit) Postgres :=
  Pool.stepProg statement e fun _ k => k.elim

variable {pg pg' : Postgres} {auth : ℤ} {now : DateTime}

theorem run_execute_of_exec {w : Sql} {n : ℕ} (h : Sql.exec pg w = .ok (n, pg')) :
    (execute w : Handler Unit).run statement pg = (.ok (), pg') :=
  execute_eq_ok.2 ⟨n, statement_eq_ok.2 h⟩

/-! ## The transaction of create_server -/

/-- the transaction of `create_server` -/
def createServerTx (auth : ℤ) (body : CreateServerRequest) (serverId textChannelId voiceChannelId : ℤ)
    (now : DateTime) : Handler Unit := do
  execute (.insertServer (newServer serverId body auth now))
  execute (.insertRole (everyoneRole serverId now))
  execute (.insertChannel (newChannel textChannelId serverId 0 "general" 0 now))
  execute (.insertChannel (newChannel voiceChannelId serverId 2 "General" 1 now))
  execute (.updateSystemChannel serverId textChannelId)
  execute (.insertServerMember (newServerMember serverId auth now))
  execute (.insertMemberRole ⟨serverId, auth, serverId⟩)

theorem createServer_eq {body : CreateServerRequest} {serverId textChannelId voiceChannelId : ℤ} :
    createServer auth body serverId textChannelId voiceChannelId now = (do
      failIf (body.validate ≠ []) (.validation body.validate)
      let serverCount ← select fun pg => pg.serverMembers.count fun m => m.userId = auth
      failIf (100 ≤ serverCount) (.badRequest "You have reached the maximum number of servers (100)")
      atomically (createServerTx auth body serverId textChannelId voiceChannelId now)
      fetchServer serverId) := rfl

/-- the seven statements of a new server -/
structure Founded (auth : ℤ) (body : CreateServerRequest) (serverId textChannelId voiceChannelId : ℤ) (now : DateTime)
    (pg pg' : Postgres) : Prop where
  writes : ∃ n₁ n₂ n₃ n₄ n₅ n₆ n₇ pg₁ pg₂ pg₃ pg₄ pg₅ pg₆,
    Sql.exec pg (.insertServer (newServer serverId body auth now)) = .ok (n₁, pg₁) ∧
    Sql.exec pg₁ (.insertRole (everyoneRole serverId now)) = .ok (n₂, pg₂) ∧
    Sql.exec pg₂ (.insertChannel (newChannel textChannelId serverId 0 "general" 0 now)) = .ok (n₃, pg₃) ∧
    Sql.exec pg₃ (.insertChannel (newChannel voiceChannelId serverId 2 "General" 1 now)) = .ok (n₄, pg₄) ∧
    Sql.exec pg₄ (.updateSystemChannel serverId textChannelId) = .ok (n₅, pg₅) ∧
    Sql.exec pg₅ (.insertServerMember (newServerMember serverId auth now)) = .ok (n₆, pg₆) ∧
    Sql.exec pg₆ (.insertMemberRole ⟨serverId, auth, serverId⟩) = .ok (n₇, pg')

theorem createServer_tx {body : CreateServerRequest} {serverId textChannelId voiceChannelId : ℤ} {u : Unit}
    (h : (createServerTx auth body serverId textChannelId voiceChannelId now).run statement pg = (.ok u, pg')) :
    Founded auth body serverId textChannelId voiceChannelId now pg pg' := by
  simp only [createServerTx, run_bind_eq_ok, execute_eq_ok, statement_eq_ok] at h
  obtain ⟨_, pg₁, ⟨n₁, h₁⟩, _, pg₂, ⟨n₂, h₂⟩, _, pg₃, ⟨n₃, h₃⟩, _, pg₄, ⟨n₄, h₄⟩, _, pg₅, ⟨n₅, h₅⟩, _, pg₆, ⟨n₆, h₆⟩,
    n₇, h₇⟩ := h
  exact ⟨n₁, n₂, n₃, n₄, n₅, n₆, n₇, pg₁, pg₂, pg₃, pg₄, pg₅, pg₆, h₁, h₂, h₃, h₄, h₅, h₆, h₇⟩

theorem Founded.references {body : CreateServerRequest} {serverId textChannelId voiceChannelId : ℤ}
    (h : Founded auth body serverId textChannelId voiceChannelId now pg pg') (hpg : References pg) :
    References pg' := by
  obtain ⟨_, _, _, _, _, _, _, _, _, _, _, _, _, h₁, h₂, h₃, h₄, h₅, h₆, h₇⟩ := h
  have hpg₃ := exec_references h₃ (exec_references h₂ (exec_references h₁ hpg))
  exact exec_references h₇ (exec_references h₆ (exec_references h₅ (exec_references h₄ hpg₃)))

/-- one server more, owned by its founder -/
theorem Founded.owners {body : CreateServerRequest} {serverId textChannelId voiceChannelId : ℤ}
    (h : Founded auth body serverId textChannelId voiceChannelId now pg pg') :
    pg'.owners = pg.owners ++ [(serverId, auth)] := by
  obtain ⟨_, _, _, _, _, _, _, pg₁, pg₂, pg₃, pg₄, pg₅, pg₆, h₁, h₂, h₃, h₄, h₅, h₆, h₇⟩ := h
  rw [show pg'.owners = pg₆.owners from exec_owners h₇, show pg₆.owners = pg₅.owners from exec_owners h₆,
    show pg₅.owners = pg₄.owners from exec_owners h₅, show pg₄.owners = pg₃.owners from exec_owners h₄,
    show pg₃.owners = pg₂.owners from exec_owners h₃, show pg₂.owners = pg₁.owners from exec_owners h₂]
  exact exec_owners h₁

theorem Founded.users {body : CreateServerRequest} {serverId textChannelId voiceChannelId : ℤ}
    (h : Founded auth body serverId textChannelId voiceChannelId now pg pg') : pg'.users = pg.users := by
  obtain ⟨_, _, _, _, _, _, _, _, _, _, _, _, _, h₁, h₂, h₃, h₄, h₅, h₆, h₇⟩ := h
  rw [exec_users h₇, exec_users h₆, exec_users h₅, exec_users h₄, exec_users h₃, exec_users h₂, exec_users h₁]

/-! ## The transaction of use_invite -/

/-- the transaction of `use_invite` -/
def inviteTx (auth : ℤ) (code : String) (now : DateTime) : Handler ℤ := do
  let row ← select fun pg => pg.invites.find? fun i => i.code = code
  let invite ← orFail (.notFound "Invite not found") row
  joinServer auth invite now

theorem useInvite_eq {code : String} :
    useInvite auth code now = atomically (inviteTx auth code now) >>= fetchServer := rfl

/-- the server row with one member more -/
def oneMore (s : Server) : Server := { s with memberCount := s.memberCount + 1 }

/-- the invite row with one use more -/
def usedOnce (i : Invite) : Invite := { i with uses := i.uses + 1 }

/-- the four statements of a join -/
structure Joined (auth : ℤ) (invite : Invite) (now : DateTime) (pg pg' : Postgres) : Prop where
  notMember : pg.hasMember invite.serverId auth = false
  notBanned : pg.isBanned invite.serverId auth = false
  writes : ∃ n₁ n₂ n₃ n₄ pg₁ pg₂ pg₃,
    Sql.exec pg (.insertServerMember (newServerMember invite.serverId auth now)) = .ok (n₁, pg₁) ∧
    Sql.exec pg₁ (.insertMemberRole ⟨invite.serverId, auth, invite.serverId⟩) = .ok (n₂, pg₂) ∧
    Sql.exec pg₂ (.incrementMemberCount invite.serverId) = .ok (n₃, pg₃) ∧
    Sql.exec pg₃ (.incrementInviteUses invite.code) = .ok (n₄, pg')

theorem joinServer_eq_ok {invite : Invite} {serverId : ℤ}
    (h : (joinServer auth invite now).run statement pg = (.ok serverId, pg')) :
    serverId = invite.serverId ∧
      (pg.hasMember invite.serverId auth = true ∧ pg' = pg ∨ Joined auth invite now pg pg') := by
  rw [joinServer] at h
  simp only [run_bind_eq_ok, failIf_eq_ok, run_select, Prod.mk.injEq, Except.ok.injEq] at h
  obtain ⟨_, _, ⟨hage, rfl⟩, _, pg, ⟨huses, rfl⟩, isMember, _, ⟨rfl, rfl⟩, h⟩ := h
  rcases hmember : pg.hasMember invite.serverId auth with _ | _
  · simp only [hmember, Bool.false_eq_true, if_false, run_bind_eq_ok, failIf_eq_ok, run_select, Prod.mk.injEq,
      Except.ok.injEq, execute_eq_ok, statement_eq_ok, run_pure] at h
    obtain ⟨isBanned, _, ⟨rfl, rfl⟩, _, _, ⟨hbanned, rfl⟩, _, pg₁, ⟨n₁, h₁⟩, _, pg₂, ⟨n₂, h₂⟩, _, pg₃, ⟨n₃, h₃⟩, _, _,
      ⟨n₄, h₄⟩, rfl, rfl⟩ := h
    rw [Bool.not_eq_true] at hbanned
    exact ⟨rfl, .inr ⟨hmember, hbanned, n₁, n₂, n₃, n₄, pg₁, pg₂, pg₃, h₁, h₂, h₃, h₄⟩⟩
  · simp only [hmember, if_true, run_pure, Prod.mk.injEq, Except.ok.injEq] at h
    obtain ⟨rfl, rfl⟩ := h
    exact ⟨rfl, .inl ⟨rfl, rfl⟩⟩

/-- when the transaction commits, the user was a member already or the four statements have run -/
theorem inviteTx_eq_ok {code : String} {serverId : ℤ}
    (h : (inviteTx auth code now).run statement pg = (.ok serverId, pg')) :
    ∃ invite, pg.invites.find? (fun i => i.code = code) = some invite ∧ serverId = invite.serverId ∧
      (pg.hasMember serverId auth = true ∧ pg' = pg ∨ Joined auth invite now pg pg') := by
  simp only [inviteTx, run_bind_eq_ok, run_select, orFail_eq_ok, Prod.mk.injEq, Except.ok.injEq] at h
  obtain ⟨_, _, ⟨rfl, rfl⟩, invite, _, ⟨hfind, rfl⟩, h⟩ := h
  obtain ⟨rfl, hjoin⟩ := joinServer_eq_ok h
  exact ⟨invite, hfind, rfl, hjoin⟩

theorem Joined.references {invite : Invite} (h : Joined auth invite now pg pg') (hpg : References pg) :
    References pg' := by
  obtain ⟨-, -, _, _, _, _, _, _, _, h₁, h₂, h₃, h₄⟩ := h
  exact exec_references h₄ (exec_references h₃ (exec_references h₂ (exec_references h₁ hpg)))

/-- who is a member after a join -/
theorem Joined.hasMember {invite : Invite} (h : Joined auth invite now pg pg') {serverId userId : ℤ} :
    pg'.hasMember serverId userId = true ↔
      pg.hasMember serverId userId = true ∨ invite.serverId = serverId ∧ auth = userId := by
  obtain ⟨-, -, _, _, _, _, pg₁, pg₂, pg₃, h₁, h₂, h₃, h₄⟩ := h
  have h₄ := exec_hasMember serverId userId h₄
  have h₃ := exec_hasMember serverId userId h₃
  have h₂ := exec_hasMember serverId userId h₂
  simp only at h₂ h₃ h₄
  rw [h₄, h₃, h₂]
  exact (exec_hasMember serverId userId h₁).2

/-- a join bans nobody -/
theorem Joined.isBanned {invite : Invite} (h : Joined auth invite now pg pg') {serverId userId : ℤ}
    (hb : pg'.isBanned serverId userId = true) : pg.isBanned serverId userId = true := by
  obtain ⟨-, -, _, _, _, _, pg₁, pg₂, pg₃, h₁, h₂, h₃, h₄⟩ := h
  have hb₃ := (exec_isBanned h₄ hb).resolve_right (by simp)
  have hb₂ := (exec_isBanned h₃ hb₃).resolve_right (by simp)
  have hb₁ := (exec_isBanned h₂ hb₂).resolve_right (by simp)
  exact (exec_isBanned h₁ hb₁).resolve_right (by simp)

/-- what a join does to the rows -/
theorem Joined.rows {invite : Invite} (h : Joined auth invite now pg pg') :
    pg'.serverMembers.rows = pg.serverMembers.rows ++ [newServerMember invite.serverId auth now] ∧
    pg'.memberRoles.rows = pg.memberRoles.rows ++ [⟨invite.serverId, auth, invite.serverId⟩] ∧
    pg'.servers.rows = pg.servers.rows.map (fun s => if s.id = invite.serverId then oneMore s else s) ∧
    pg'.invites.rows = pg.invites.rows.map (fun v => if v.code = invite.code then usedOnce v else v) := by
  obtain ⟨-, -, _, _, _, _, pg₁, pg₂, pg₃, h₁, h₂, h₃, h₄⟩ := h
  simp only [Sql.exec, bind_eq_ok, pure_eq_ok, requires_eq_ok, unique_eq_ok, Prod.mk.injEq] at h₁ h₂ h₃ h₄
  obtain ⟨serverMembers, hmember, _, -, _, -, -, rfl⟩ := h₁
  obtain ⟨memberRoles, hrole, _, -, -, rfl⟩ := h₂
  obtain ⟨_, -, -, rfl⟩ := h₃
  obtain ⟨_, -, -, rfl⟩ := h₄
  refine ⟨Table.rows_insert? hmember, Table.rows_insert? hrole, ?_, ?_⟩
  · refine List.map_congr_left fun s _ => ?_
    by_cases hid : s.id = invite.serverId <;> simp [hid, oneMore]
  · refine List.map_congr_left fun v _ => ?_
    by_cases hcode : v.code = invite.code <;> simp [hcode, usedOnce]

/-! ## A server with an invite -/

/-- user 1 owns server 100 with an invite; user 2 has an account -/
def invited : Postgres :=
  Core.run (step fun _ _ => .ok true) (noServers adaAndBob)
    [.request (.createServer 1 ⟨"first", none, none⟩ 100 101 102 ⟨0⟩),
     .request (.createInvite 1 101 ⟨none, none, none⟩ "join" ⟨0⟩)]

end Lumiere.Routes
