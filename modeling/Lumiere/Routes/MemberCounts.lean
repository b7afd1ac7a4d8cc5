/-
The member count of a server side by side with its members. `use_invite` and `create_server` write the count and the
member in one transaction; `kick_member`, `leave_server` and `create_ban` delete the member first and count the rows
anew in a later statement. In between the count is wrong, and the request owes the server a recount.

- `exec_memberCounts`, `exec_members`: what a statement does to the counts and to the numbers of rows.
- `CountRight`: the count of a server is the number of its rows.
- `counted_handle`: whatever makes a count wrong owes a recount.
- `memberCount_converges`: in every interleaving without a failing statement, when no request is in progress, the count
  of every server is right.
-/
import Lumiere.Routes.Concurrent

namespace Lumiere.Db

open Lumiere.Core Lumiere.Models

namespace Postgres

/-- the server ids with their counts -/
def memberCounts (pg : Postgres) : List (ℤ × ℤ) := pg.servers.rows.map fun s => (s.id, s.memberCount)

/-- `SELECT COUNT(*) FROM server_members WHERE server_id = $1` -/
def members (pg : Postgres) (serverId : ℤ) : ℕ := pg.serverMembers.count fun m => m.serverId = serverId

end Postgres

variable {pg pg' : Postgres} {w : Sql} {n : ℕ}

theorem exec_memberCounts : Sql.exec pg w = .ok (n, pg') →
    match w with
    | .insertServer row =>
      pg.hasServer row.id = false ∧ pg'.memberCounts = pg.memberCounts ++ [(row.id, row.memberCount)]
    | .recountMembers serverId =>
      pg'.memberCounts = pg.memberCounts.map fun c => if c.1 = serverId then (c.1, (pg.members serverId : ℤ)) else c
    | .incrementMemberCount serverId =>
      pg'.memberCounts = pg.memberCounts.map fun c => if c.1 = serverId then (c.1, c.2 + 1) else c
    | .deleteServer _ => True
    | _ => pg'.memberCounts = pg.memberCounts := by
  intro h
  cases w with
  | insertServer row =>
    simp only [Sql.exec, bind_eq_ok, pure_eq_ok, requires_eq_ok, unique_eq_ok, Prod.mk.injEq] at h ⊢
    obtain ⟨_, -, _, -, _, -, servers, hinsert, _, -, -, rfl⟩ := h
    constructor
    · rw [Postgres.hasServer, Table.any_eq_false]
      exact fun s hs => decide_eq_false ((Table.insert?_eq_some hinsert).1 s hs)
    · rw [Postgres.memberCounts, Table.rows_insert? hinsert, List.map_append]
      rfl
  | recountMembers serverId =>
    simp only [Sql.exec, bind_eq_ok, pure_eq_ok, integer, Prod.mk.injEq] at h ⊢
    obtain ⟨count, hcount, -, rfl⟩ := h
    split_ifs at hcount
    obtain rfl := Except.ok.inj hcount
    rw [Postgres.memberCounts, Postgres.memberCounts, Table.updateWhere, List.map_map, List.map_map]
    refine List.map_congr_left fun s _ => ?_
    by_cases hs : s.id = serverId <;> simp [hs, Postgres.members]
  | incrementMemberCount serverId =>
    simp only [Sql.exec, bind_eq_ok, pure_eq_ok, requires_eq_ok, Prod.mk.injEq] at h ⊢
    obtain ⟨_, -, -, rfl⟩ := h
    rw [Postgres.memberCounts, Postgres.memberCounts, Table.updateWhere, List.map_map, List.map_map]
    refine List.map_congr_left fun s _ => ?_
    by_cases hs : s.id = serverId <;> simp [hs]
  | deleteServer id => trivial
  | updateServerOwner serverId ownerId =>
    simp only [Sql.exec, bind_eq_ok, pure_eq_ok, requires_eq_ok, Prod.mk.injEq] at h ⊢
    obtain ⟨_, -, -, rfl⟩ := h
    exact Table.map_updateWhere (by intro s; rfl) (by intro s; rfl)
  | updateServer serverId changes =>
    obtain ⟨checked, rfl⟩ := exec_updateServer h
    exact Table.map_updateWhere checked.apply_id fun s => rfl
  | updateSystemChannel serverId channelId =>
    obtain rfl := exec_updateSystemChannel h
    exact Table.map_updateWhere (by intro s; rfl) (by intro s; rfl)
  | insertMemberRoleIgnore row =>
    rw [(exec_insertMemberRoleIgnore h).1]
    rfl
  | _ =>
    simp only [Sql.exec, bind_eq_ok, pure_eq_ok, requires_eq_ok, unique_eq_ok, Except.ok.injEq, Prod.mk.injEq] at h ⊢
    grind [Postgres.memberCounts, Postgres.deleteServerMembers, Postgres.deleteRoles]

theorem exec_members (serverId : ℤ) : Sql.exec pg w = .ok (n, pg') →
    match w with
    | .insertServerMember row =>
      pg'.members serverId = pg.members serverId + if row.serverId = serverId then 1 else 0
    | .deleteServerMember id _ => id ≠ serverId ∨ n = 0 → pg'.members serverId = pg.members serverId
    | .deleteServer _ => True
    | _ => pg'.members serverId = pg.members serverId := by
  intro h
  cases w with
  | insertServerMember row =>
    simp only [Sql.exec, bind_eq_ok, pure_eq_ok, requires_eq_ok, unique_eq_ok, Prod.mk.injEq] at h ⊢
    obtain ⟨serverMembers, hinsert, _, -, _, -, -, rfl⟩ := h
    rw [Postgres.members, Postgres.members, Table.count, Table.count, Table.rows_insert? hinsert, List.countP_append,
      List.countP_singleton]
    by_cases hid : row.serverId = serverId <;> simp [hid]
  | deleteServerMember id userId =>
    obtain ⟨hn, rfl⟩ := Prod.mk.inj (Except.ok.inj h)
    intro hkept
    -- no row of the server is deleted
    have hnone : ∀ m ∈ pg.serverMembers.rows, m.serverId = serverId → ¬ (m.serverId = id ∧ m.userId = userId) := by
      rintro m hm rfl ⟨rfl, rfl⟩
      rcases hkept with hne | rfl
      · exact hne rfl
      · have := List.countP_eq_zero.1 hn m hm
        simp at this
    show (pg.serverMembers.deleteWhere _).count _ = _
    rw [Table.count, Table.deleteWhere, List.countP_filter]
    refine List.countP_congr fun m hm => ?_
    simp only [Bool.and_eq_true, decide_eq_true_eq, Bool.not_eq_true', Bool.and_eq_false_iff, decide_eq_false_iff_not]
    exact ⟨And.left, fun hs => ⟨hs, not_and_or.1 (hnone m hm hs)⟩⟩
  | deleteServer id => trivial
  | updateNickname id member nickname =>
    simp only [Sql.exec, bind_eq_ok, pure_eq_ok, Prod.mk.injEq] at h ⊢
    obtain ⟨_, -, -, rfl⟩ := h
    exact Table.count_updateWhere (by intro m; rfl) (by intro m; rfl)
  | updateTimeout id member disabledUntil =>
    obtain ⟨-, rfl⟩ := Prod.mk.inj (Except.ok.inj h)
    exact Table.count_updateWhere (by intro m; rfl) (by intro m; rfl)
  | insertMemberRoleIgnore row =>
    rw [(exec_insertMemberRoleIgnore h).1]
    rfl
  | updateServer id changes =>
    obtain ⟨_, rfl⟩ := exec_updateServer h
    rfl
  | updateSystemChannel id channelId =>
    obtain rfl := exec_updateSystemChannel h
    rfl
  | _ =>
    simp only [Sql.exec, bind_eq_ok, pure_eq_ok, requires_eq_ok, unique_eq_ok, Except.ok.injEq, Prod.mk.injEq] at h ⊢
    grind [Postgres.members, Postgres.deleteRoles]

end Lumiere.Db

namespace Lumiere.Routes

open Lumiere.Core Lumiere.Core.Prog Lumiere.Models Lumiere.Db

def CountRight (serverId : ℤ) (pg : Postgres) : Prop :=
  ∀ s ∈ pg.servers.rows, s.id = serverId → s.memberCount = pg.members serverId

instance (serverId : ℤ) (pg : Postgres) : Decidable (CountRight serverId pg) :=
  inferInstanceAs (Decidable (∀ s ∈ pg.servers.rows, s.id = serverId → s.memberCount = pg.members serverId))

/-- the statement makes the count of the server right -/
def Recounts (w : Sql) (serverId : ℤ) : Prop := w = .recountMembers serverId

variable {pg pg' : Postgres} {w : Sql} {n : ℕ} {serverId : ℤ}

theorem countRight_iff : CountRight serverId pg ↔ ∀ c, (serverId, c) ∈ pg.memberCounts → c = pg.members serverId := by
  simp only [CountRight, Postgres.memberCounts, List.mem_map, Prod.mk.injEq]
  constructor
  · rintro h _ ⟨s, hs, rfl, rfl⟩
    exact h s hs rfl
  · rintro h s hs rfl
    exact h _ ⟨s, hs, rfl, rfl⟩

/-! ## What a step can do -/

/-- a statement that inserts no server and no member, increments no count and deletes no server -/
def Quiet : Sql → Prop
  | .insertServer _ | .insertServerMember _ | .incrementMemberCount _ | .deleteServer _ => False
  | _ => True

/-- it leaves the counts right, but for the count of a server whose member it deletes -/
theorem exec_countRight (h : Sql.exec pg w = .ok (n, pg')) (hw : Quiet w)
    (hdelete : ∀ userId, w = .deleteServerMember serverId userId → n = 0) (hpg : CountRight serverId pg) :
    CountRight serverId pg' := by
  rw [countRight_iff] at hpg ⊢
  intro c hc
  have hcounts := exec_memberCounts h
  have hmembers := exec_members serverId h
  cases w with
  | insertServer => exact hw.elim
  | insertServerMember => exact hw.elim
  | incrementMemberCount => exact hw.elim
  | deleteServer => exact hw.elim
  | recountMembers id =>
    simp only at hcounts hmembers
    rw [hcounts, List.mem_map] at hc
    obtain ⟨⟨id', c'⟩, hmem, hc⟩ := hc
    rw [hmembers]
    split_ifs at hc with hid
    · obtain ⟨rfl, rfl⟩ := Prod.mk.inj hc
      rw [show id' = id from hid]
    · obtain ⟨rfl, rfl⟩ := Prod.mk.inj hc
      exact hpg _ hmem
  | deleteServerMember id userId =>
    simp only at hcounts hmembers
    have hkept : id ≠ serverId ∨ n = 0 := by
      by_cases hid : id = serverId
      · exact .inr (hdelete userId (hid ▸ rfl))
      · exact .inl hid
    rw [hmembers hkept]
    exact hpg c (hcounts ▸ hc)
  | _ =>
    simp only at hcounts hmembers
    rw [hmembers]
    exact hpg c (hcounts ▸ hc)

theorem countRight_recount (h : Sql.exec pg (.recountMembers serverId) = .ok (n, pg')) : CountRight serverId pg' := by
  rw [countRight_iff]
  intro c hc
  have hcounts := exec_memberCounts h
  have hmembers := exec_members serverId h
  simp only at hcounts hmembers
  rw [hcounts, List.mem_map] at hc
  obtain ⟨⟨id', c'⟩, -, hc⟩ := hc
  rw [hmembers]
  split_ifs at hc with hid
  · exact (Prod.mk.inj hc).2.symm
  · exact absurd (Prod.mk.inj hc).1 hid

/-- a join adds one row and one to the count -/
theorem Joined.countRight {auth : ℤ} {invite : Invite} {now : DateTime} (h : Joined auth invite now pg pg')
    (hpg : CountRight serverId pg) : CountRight serverId pg' := by
  obtain ⟨-, -, _, _, _, _, pg₁, pg₂, pg₃, h₁, h₂, h₃, h₄⟩ := h
  refine exec_countRight h₄ trivial (by simp) ?_
  rw [countRight_iff] at hpg ⊢
  intro c hc
  have c₁ : pg₁.memberCounts = pg.memberCounts := exec_memberCounts h₁
  have c₂ : pg₂.memberCounts = pg₁.memberCounts := exec_memberCounts h₂
  have c₃ := exec_memberCounts h₃
  have m₁ : pg₁.members serverId = pg.members serverId + if invite.serverId = serverId then 1 else 0 :=
    exec_members serverId h₁
  have m₂ : pg₂.members serverId = pg₁.members serverId := exec_members serverId h₂
  have m₃ : pg₃.members serverId = pg₂.members serverId := exec_members serverId h₃
  simp only at c₃
  rw [c₃, c₂, c₁, List.mem_map] at hc
  obtain ⟨⟨id', c'⟩, hmem, hc⟩ := hc
  rw [m₃, m₂, m₁]
  dsimp only at hc
  split_ifs at hc with hid
  · obtain ⟨rfl, rfl⟩ := Prod.mk.inj hc
    rw [hpg _ hmem, if_pos hid.symm]
    push_cast
    rfl
  · obtain ⟨rfl, rfl⟩ := Prod.mk.inj hc
    rw [hpg _ hmem, if_neg (Ne.symm hid)]
    rfl

theorem members_eq_zero (hpg : References pg) (hserver : pg.hasServer serverId = false) : pg.members serverId = 0 := by
  refine List.countP_eq_zero.2 fun m hm hid => ?_
  obtain rfl : m.serverId = serverId := of_decide_eq_true hid
  have := hpg.server (hasMember_iff.2 ⟨m, hm, rfl, rfl⟩)
  rw [hserver] at this
  cases this

/-- a new server has one member and the count 1 -/
theorem Founded.countRight {auth : ℤ} {body : CreateServerRequest} {id textChannelId voiceChannelId : ℤ}
    {now : DateTime} (h : Founded auth body id textChannelId voiceChannelId now pg pg') (hrefs : References pg)
    (hpg : CountRight serverId pg) : CountRight serverId pg' := by
  obtain ⟨_, _, _, _, _, _, _, pg₁, pg₂, pg₃, pg₄, pg₅, pg₆, h₁, h₂, h₃, h₄, h₅, h₆, h₇⟩ := h
  refine exec_countRight h₇ trivial (by simp) ?_
  rw [countRight_iff] at hpg ⊢
  intro c hc
  obtain ⟨hnew, c₁⟩ := exec_memberCounts h₁
  have c₂ : pg₂.memberCounts = pg₁.memberCounts := exec_memberCounts h₂
  have c₃ : pg₃.memberCounts = pg₂.memberCounts := exec_memberCounts h₃
  have c₄ : pg₄.memberCounts = pg₃.memberCounts := exec_memberCounts h₄
  have c₅ : pg₅.memberCounts = pg₄.memberCounts := exec_memberCounts h₅
  have c₆ : pg₆.memberCounts = pg₅.memberCounts := exec_memberCounts h₆
  have m₁ : pg₁.members serverId = pg.members serverId := exec_members serverId h₁
  have m₂ : pg₂.members serverId = pg₁.members serverId := exec_members serverId h₂
  have m₃ : pg₃.members serverId = pg₂.members serverId := exec_members serverId h₃
  have m₄ : pg₄.members serverId = pg₃.members serverId := exec_members serverId h₄
  have m₅ : pg₅.members serverId = pg₄.members serverId := exec_members serverId h₅
  have m₆ : pg₆.members serverId = pg₅.members serverId + if id = serverId then 1 else 0 := exec_members serverId h₆
  rw [c₆, c₅, c₄, c₃, c₂, c₁, List.mem_append, List.mem_singleton] at hc
  rw [m₆, m₅, m₄, m₃, m₂, m₁]
  have hrow : ∀ c, (id, c) ∉ pg.memberCounts := by
    intro c hmem
    obtain ⟨s, hs, hkey⟩ := List.mem_map.1 hmem
    have := Table.any_eq_false.1 hnew s hs
    exact of_decide_eq_false this (Prod.mk.inj hkey).1
  rcases hc with hold | hc
  · have hne : id ≠ serverId := by
      rintro rfl
      exact hrow c hold
    rw [hpg c hold, if_neg hne]
    rfl
  · obtain ⟨rfl, rfl⟩ := Prod.mk.inj hc
    have hzero : pg.members serverId = 0 := members_eq_zero hrefs hnew
    rw [hzero, if_pos rfl]
    rfl

/-! ## The requests -/

/-- the requests that change who is a member, or found a server -/
def Request.movesMembers : Request → Bool
  | .createServer .. | .useInvite .. | .kickMember .. | .leaveServer .. | .createBan .. => true
  | _ => false

abbrev Counted {α : Type} (p : Handler α) : Prop := p.Balanced Recounts statement References CountRight

variable {α : Type} {auth userId : ℤ}

theorem counted_execute (hw : Quiet w) (hdelete : ∀ id userId, w ≠ .deleteServerMember id userId) :
    Counted (execute w) := by
  refine ⟨fun pg n pg' hrefs h => ?_, fun _ => trivial⟩
  have h := statement_eq_ok.1 h
  refine ⟨exec_references h hrefs, fun k hk => .inl ?_⟩
  rcases hk with hk | rfl
  · exact exec_countRight h hw (fun userId he => absurd he (hdelete k userId)) hk
  · exact countRight_recount h

/-- a DELETE of a member that is followed by a recount, unless no row is deleted -/
theorem counted_delete {k : ℕ → Handler α} (hk : ∀ n, Counted (k n))
    (howes : ∀ n, n ≠ 0 → (k n).Owes Recounts serverId) :
    Counted (affected (.deleteServerMember serverId userId) >>= k) := by
  refine ⟨fun pg n pg' hrefs h => ?_, hk⟩
  have h := statement_eq_ok.1 h
  refine ⟨exec_references h hrefs, fun id hid => ?_⟩
  rcases hid with hid | hid
  · by_cases hn : n = 0
    · exact .inl (exec_countRight h trivial (fun _ _ => hn) hid)
    · by_cases hs : id = serverId
      · exact .inr (hs ▸ howes n hn)
      · exact .inl (exec_countRight h trivial (fun _ he => absurd (Sql.deleteServerMember.inj he).1.symm hs) hid)
  · cases hid

theorem counted_failIf {c : Prop} [Decidable c] {e : AppError} : Counted (failIf c e) :=
  ReadOnly.balanced (issues_failIf _ _)

theorem owes_recount : (execute (.recountMembers serverId) : Handler Unit).Owes Recounts serverId := .inl rfl

/-- what `kick_member` and `leave_server` do after the DELETE -/
theorem owes_recountIf {n : ℕ} {e : AppError} (hn : n ≠ 0) :
    (failIf (n = 0) e >>= fun _ => execute (.recountMembers serverId) : Handler Unit).Owes Recounts serverId := by
  rw [failIf, if_neg hn]
  exact owes_recount

theorem counted_kickMember : Counted (kickMember auth serverId userId) :=
  balanced_bind readOnly_requirePermissions.balanced fun _ => balanced_bind readOnly_refuseOwner.balanced fun _ =>
    balanced_bind readOnly_checkRoleHierarchy.balanced fun _ => counted_delete
      (fun _ => balanced_bind counted_failIf fun _ => counted_execute trivial (by simp)) fun _ => owes_recountIf

theorem counted_leaveServer : Counted (leaveServer auth serverId) :=
  balanced_bind readOnly_refuseOwner.balanced fun _ => counted_delete
    (fun _ => balanced_bind counted_failIf fun _ => counted_execute trivial (by simp)) fun _ => owes_recountIf

theorem counted_createBan {reason : Option String} : Counted (createBan auth serverId userId reason) := by
  refine balanced_bind readOnly_requirePermissions.balanced fun _ =>
    balanced_bind readOnly_refuseOwner.balanced fun _ => balanced_bind readOnly_checkRoleHierarchy.balanced fun _ => ?_
  change Counted (affected (.deleteServerMember serverId userId) >>= fun _ =>
    execute (.upsertBan ⟨serverId, userId, reason, some auth⟩) >>= fun _ => execute (.recountMembers serverId))
  refine counted_delete (fun _ => ?_) fun _ _ => ?_
  · exact balanced_bind (counted_execute trivial (by simp)) fun _ => counted_execute trivial (by simp)
  · -- the recount comes after the ban
    exact .inr fun _ => owes_recount

theorem counted_createServer {body : CreateServerRequest} {textChannelId voiceChannelId : ℤ} {now : DateTime} :
    Counted (createServer auth body serverId textChannelId voiceChannelId now) := by
  refine balanced_bind counted_failIf fun _ => balanced_bind (ReadOnly.balanced (issues_select _)) fun _ =>
    balanced_bind counted_failIf fun _ => balanced_bind (balanced_atomically fun pg _ pg' hrefs h => ?_) fun _ =>
      readOnly_fetchServer.balanced
  have hfounded := createServer_tx h
  exact ⟨hfounded.references hrefs, fun _ => hfounded.countRight hrefs⟩

theorem counted_useInvite {code : String} {now : DateTime} : Counted (useInvite auth code now) := by
  rw [useInvite_eq]
  refine balanced_bind (balanced_atomically fun pg _ pg' hrefs h => ?_) fun _ => readOnly_fetchServer.balanced
  obtain ⟨invite, -, -, ⟨-, rfl⟩ | hjoined⟩ := inviteTx_eq_ok h
  · exact ⟨hrefs, fun _ => id⟩
  · exact ⟨hjoined.references hrefs, fun _ => hjoined.countRight⟩

theorem counted_handle (verifyPassword : String → String → Except String Bool) {r : Request}
    (hr : r.movesMembers = true) : Counted (r.handle verifyPassword) := by
  cases r with
  | createServer => exact balanced_bind counted_createServer fun _ => trivial
  | useInvite => exact balanced_bind counted_useInvite fun _ => trivial
  | kickMember => exact counted_kickMember
  | leaveServer => exact counted_leaveServer
  | createBan => exact counted_createBan
  | _ => cases hr

/-- a request that has not begun owes nothing: it may still refuse -/
theorem not_owes_handle (verifyPassword : String → String → Except String Bool) {r : Request}
    (hr : r.movesMembers = true) {id : ℤ} : ¬ (r.handle verifyPassword).Owes Recounts id := by
  intro h
  cases r with
  | createServer auth body serverId textChannelId voiceChannelId now =>
    by_cases hbody : body.validate = []
    · simp only [Request.handle, respond, createServer, failIf, hbody] at h
      exact h (noServers .empty)
    · simp only [Request.handle, respond, createServer, failIf, if_pos hbody] at h
      exact h
  | useInvite => exact h
  | kickMember => exact h (noServers .empty)
  | leaveServer => exact (h (noServers .empty)).elim (by rintro ⟨⟩) fun h => h 0
  | createBan => exact h (noServers .empty)
  | _ => cases hr

/-! ## Runs -/

variable {ι : Type} [DecidableEq ι] (verifyPassword : String → String → Except String Bool)

/-- **The member counts converge.** Any number of requests are interleaved statement by statement, and no statement
fails. When each of them is over or has not begun, the count of every server is the number of its member rows. -/
theorem memberCount_converges (r : ι → Request) (hr : ∀ i, (r i).movesMembers = true) (hrefs : References pg)
    (hpg : ∀ serverId, CountRight serverId pg) (e : AppError) (ts : List (Turn ι Empty))
    (hts : Every (turn e) (Pool.Smooth statement) (requests verifyPassword r pg) ts)
    (hidle : ∀ i, ((Core.run (turn e) (requests verifyPassword r pg) ts).task i).finished = true ∨
      (Core.run (turn e) (requests verifyPassword r pg) ts).task i = (r i).handle verifyPassword) (serverId : ℤ) :
    CountRight serverId (Core.run (turn e) (requests verifyPassword r pg) ts).shared := by
  have hstart : (requests verifyPassword r pg).Settling Recounts statement References CountRight :=
    ⟨fun i => counted_handle verifyPassword (hr i), hrefs, fun id => .inl (hpg id)⟩
  have hsettling :
      (Core.run (turn e) (requests verifyPassword r pg) ts).Settling Recounts statement References CountRight :=
    Pool.run_settling hstart hts fun _ k => k.elim
  refine hsettling.right fun i => ?_
  rcases hidle i with hi | hi
  · exact not_owes_of_finished hi
  · rw [hi]
    exact not_owes_handle verifyPassword (hr i)

/-! ## A join, a kick and a ban of one user -/

/-- user 2 joins; user 1, the owner, kicks and bans user 2 -/
def joinKickBan : Fin 3 → Request
  | 0 => .useInvite 2 "join" ⟨0⟩
  | 1 => .kickMember 1 100 2
  | 2 => .createBan 1 100 2 none

/-- the join, the DELETE of the kick, the ban, the recount of the kick, the rest of the join -/
def joinKickBanTrace : List (Turn (Fin 3) Empty) :=
  [.advance 0] ++ List.replicate 5 (.advance 1) ++ List.replicate 7 (.advance 2) ++ [.advance 1, .advance 0]

theorem memberCount_converges_joinKickBan :
    CountRight 100
      (Core.run (turn (.internal "")) (requests (fun _ _ => .ok true) joinKickBan invited) joinKickBanTrace).shared := by
  refine memberCount_converges (fun _ _ => .ok true) joinKickBan (by decide)
    (references_of_rows (by decide) (by decide)) ?_ (.internal "") joinKickBanTrace (by decide)
    (fun i => .inl (by revert i; decide)) 100
  rintro id s hs rfl
  revert s hs
  decide

end Lumiere.Routes
