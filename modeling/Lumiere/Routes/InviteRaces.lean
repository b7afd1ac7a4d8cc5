/-
Calls of `use_invite` side by side, inside their transactions. A transaction sees what has been committed and what it
has written itself, one statement after the other. `SELECT ... FOR UPDATE` locks the invite row; an INSERT locks its key
and an UPDATE its row; a statement that needs a lock of another transaction waits. COMMIT installs the rows that were
written; an error, at any statement, drops them. Both release the locks.

- `Progress`: what a transaction has written, and what its locks keep true of the committed rows.
- `commit_joined`: the COMMIT of a transaction does to the committed rows what the whole transaction does alone.
  `commit_eq_tx`: it is the transaction of `useInvite`, run at that moment.
- `Accounts`: the committed rows are the initial ones and what each joined call has added.
- `invite_accounting`: so in every interleaving; a call that fails before its COMMIT, or finds the user a member, has
  added nothing.
- `joined_and_failed`: the response of a call may still fail after its COMMIT.
-/
import Lumiere.Core.Locks
import Lumiere.Routes.Concurrent

namespace Lumiere.Routes.InviteRaces

open Lumiere.Core Lumiere.Core.Prog Lumiere.Models Lumiere.Db

/-! ## Transactions in progress -/

inductive RowKey where
  | invite (code : String)
  | member (serverId userId : ℤ)
  | memberRole (serverId userId roleId : ℤ)
  | server (id : ℤ)
deriving DecidableEq, Repr

/-- the rows that a transaction has written and not committed -/
structure Writes where
  member : Option ServerMember := none
  role : Option MemberRole := none
  server : Option Server := none
  invite : Option Invite := none
deriving DecidableEq, Repr

namespace Writes

def rows (w : Writes) : List RowKey :=
  (w.member.map fun m => .member m.serverId m.userId).toList ++
    (w.role.map fun m => .memberRole m.serverId m.userId m.roleId).toList ++
    (w.server.map fun s => .server s.id).toList ++ (w.invite.map fun i => .invite i.code).toList

/-- the database as the transaction sees it, and as it is after its COMMIT -/
def install (w : Writes) (pg : Postgres) : Postgres :=
  { pg with
    serverMembers := w.member.elim pg.serverMembers pg.serverMembers.insertIgnore
    memberRoles := w.role.elim pg.memberRoles pg.memberRoles.insertIgnore
    servers := w.server.elim pg.servers pg.servers.replace
    invites := w.invite.elim pg.invites pg.invites.replace }

/-- the row that a statement has written, `pg` being what the transaction then sees -/
def record (w : Writes) (pg : Postgres) : Sql → Writes
  | .insertServerMember row => { w with member := some row }
  | .insertMemberRole row => { w with role := some row }
  | .incrementMemberCount serverId => { w with server := pg.servers.find? fun s => s.id = serverId }
  | .incrementInviteUses code => { w with invite := pg.invites.find? fun i => i.code = code }
  | _ => w

end Writes

/-- the row that a statement of `use_invite` writes -/
def rowOf : Sql → Option RowKey
  | .insertServerMember row => some (.member row.serverId row.userId)
  | .insertMemberRole row => some (.memberRole row.serverId row.userId row.roleId)
  | .incrementMemberCount serverId => some (.server serverId)
  | .incrementInviteUses code => some (.invite code)
  | _ => none

structure Call where
  auth : ℤ
  code : String
  now : DateTime
deriving DecidableEq, Repr

/-- where a call stands -/
inductive JoinStage where
  | arrived
  /-- the invite is read and locked -/
  | selected (invite : Invite)
  /-- the user is no member -/
  | checked (invite : Invite)
  | writing (invite : Invite) (writes : Writes) (todo : List Sql)
  /-- after COMMIT; `joined` if the membership was inserted -/
  | ended (serverId : ℤ) (joined : Bool)
  | returned (joined : Bool) (server : Server)
  /-- an error before COMMIT -/
  | failed (e : AppError)
  /-- an error after COMMIT -/
  | unanswered (joined : Bool) (e : AppError)
deriving DecidableEq, Repr

/-- the call has committed a membership -/
def JoinStage.joined : JoinStage → Bool
  | .ended _ joined | .returned joined _ | .unanswered joined _ => joined
  | _ => false

/-- the rows that the transaction has locked -/
def JoinStage.rows (c : Call) : JoinStage → List RowKey
  | .selected _ | .checked _ => [.invite c.code]
  | .writing _ w _ => .invite c.code :: w.rows
  | _ => []

/-- the committed database, the locks, and the calls that have joined, in the order of their COMMITs -/
structure InviteDb (ι : Type) where
  pg : Postgres
  locks : Locks RowKey ι
  joined : List ι

/-- the four statements of a join -/
def joinWrites (c : Call) (serverId : ℤ) : List Sql :=
  [.insertServerMember (newServerMember serverId c.auth c.now), .insertMemberRole ⟨serverId, c.auth, serverId⟩,
    .incrementMemberCount serverId, .incrementInviteUses c.code]

def expired (c : Call) (invite : Invite) : Prop :=
  0 < invite.maxAge ∧ invite.createdAt.millis + invite.maxAge * 1000 < c.now.millis

instance (c : Call) (invite : Invite) : Decidable (expired c invite) := inferInstanceAs (Decidable (_ ∧ _))

def usedUp (invite : Invite) : Prop := 0 < invite.maxUses ∧ invite.maxUses ≤ invite.uses

instance (invite : Invite) : Decidable (usedUp invite) := inferInstanceAs (Decidable (_ ∧ _))

section Step

variable {ι : Type} [DecidableEq ι]

/-- ROLLBACK -/
def InviteDb.rollback (db : InviteDb ι) (i : ι) : InviteDb ι := { db with locks := db.locks.release i }

/-- COMMIT -/
def InviteDb.commit (db : InviteDb ι) (i : ι) (w : Writes) : InviteDb ι :=
  { pg := w.install db.pg, locks := db.locks.release i
    joined := if w.member.isSome then db.joined ++ [i] else db.joined }

/-- the next statement of call `i`; a statement that has to wait is sent again -/
def JoinStage.next (i : ι) (c : Call) : JoinStage → InviteDb ι → JoinStage × InviteDb ι
  | .arrived, db =>
    match db.pg.invites.find? fun v => v.code = c.code with
    | none => (.failed (.notFound "Invite not found"), db.rollback i)
    | some invite =>
      if db.locks.free i (.invite c.code) then
        (.selected invite, { db with locks := db.locks.take i (.invite c.code) })
      else (.arrived, db)
  | .selected invite, db =>
    if expired c invite then (.failed (.badRequest "Invite has expired"), db.rollback i)
    else if usedUp invite then (.failed (.badRequest "Invite has reached max uses"), db.rollback i)
    else if db.pg.hasMember invite.serverId c.auth then (.writing invite {} [], db)
    else (.checked invite, db)
  | .checked invite, db =>
    if db.pg.isBanned invite.serverId c.auth then
      (.failed (.forbidden "You are banned from this server"), db.rollback i)
    else (.writing invite {} (joinWrites c invite.serverId), db)
  | .writing invite w [], db => (.ended invite.serverId w.member.isSome, db.commit i w)
  | .writing invite w (stmt :: todo), db =>
    if (rowOf stmt).all (db.locks.free i) then
      match statement stmt (w.install db.pg) with
      | .error e => (.failed e, db.rollback i)
      | .ok (_, pg) =>
        (.writing invite (w.record pg stmt) todo,
          { db with locks := (rowOf stmt).elim db.locks (db.locks.take i) })
    else (.writing invite w (stmt :: todo), db)
  | .ended serverId joined, db =>
    match db.pg.servers.find? fun s => s.id = serverId with
    | none => (.unanswered joined (.notFound "Server not found"), db)
    | some server => (.returned joined server, db)
  | .returned joined server, db => (.returned joined server, db)
  | .failed e, db => (.failed e, db)
  | .unanswered joined e, db => (.unanswered joined e, db)

/-- the pending statement fails -/
def JoinStage.fail (i : ι) (e : AppError) : JoinStage → InviteDb ι → JoinStage × InviteDb ι
  | .arrived, db | .selected _, db | .checked _, db | .writing .., db => (.failed e, db.rollback i)
  | .ended _ joined, db => (.unanswered joined e, db)
  | .returned joined server, db => (.returned joined server, db)
  | .failed e', db => (.failed e', db)
  | .unanswered joined e', db => (.unanswered joined e', db)

inductive JoinOp (ι : Type) where
  | advance (i : ι)
  | fail (i : ι) (e : AppError)
deriving DecidableEq, Repr

abbrev Joins (ι : Type) := Pool ι JoinStage (InviteDb ι)

def joinStep (calls : ι → Call) (s : Joins ι) : JoinOp ι → Joins ι
  | .advance i =>
    let r := (s.task i).next i (calls i) s.shared
    ⟨Function.update s.task i r.1, r.2⟩
  | .fail i e =>
    let r := (s.task i).fail i e s.shared
    ⟨Function.update s.task i r.1, r.2⟩

omit [DecidableEq ι] in
/-- the calls have arrived -/
def arrivals (pg : Postgres) : Joins ι := ⟨fun _ => .arrived, pg, Locks.none, []⟩

end Step

/-! ## The four statements -/

variable {pg pg' : Postgres} {n : ℕ}

theorem exec_insertServerMember_iff {row : ServerMember} :
    Sql.exec pg (.insertServerMember row) = .ok (n, pg') ↔
      pg.hasMember row.serverId row.userId = false ∧ pg.hasServer row.serverId = true ∧ pg.hasUser row.userId = true ∧
        n = 1 ∧ pg' = { pg with serverMembers := pg.serverMembers.insertIgnore row } := by
  simp only [Sql.exec, bind_eq_ok, pure_eq_ok, requires_eq_ok, unique_eq_ok, Prod.mk.injEq]
  constructor
  · rintro ⟨serverMembers, hinsert, _, hserver, _, huser, rfl, rfl⟩
    refine ⟨?_, hserver, huser, rfl, ?_⟩
    · rw [← Bool.not_eq_true, hasMember_iff]
      rintro ⟨m, hm, h1, h2⟩
      exact (Table.insert?_eq_some hinsert).1 m hm (Prod.ext h1 h2)
    · rw [Table.insertIgnore, hinsert]
      rfl
  · rintro ⟨hmember, hserver, huser, rfl, rfl⟩
    refine ⟨_, Table.insert?_of_forall_ne fun m hm hkey => ?_, (), hserver, (), huser, rfl, rfl⟩
    obtain ⟨h1, h2⟩ := Prod.mk.inj hkey
    rw [hasMember_iff.2 ⟨m, hm, h1, h2⟩] at hmember
    cases hmember

theorem exec_insertMemberRole_iff {row : MemberRole} :
    Sql.exec pg (.insertMemberRole row) = .ok (n, pg') ↔
      row ∉ pg.memberRoles ∧ pg.hasRole row.roleId = true ∧ pg.hasMember row.serverId row.userId = true ∧
        n = 1 ∧ pg' = { pg with memberRoles := pg.memberRoles.insertIgnore row } := by
  simp only [Sql.exec, bind_eq_ok, pure_eq_ok, requires_eq_ok, unique_eq_ok, Postgres.memberRoleReferences,
    Prod.mk.injEq]
  constructor
  · rintro ⟨memberRoles, hinsert, _, ⟨_, hrole, hmember⟩, rfl, rfl⟩
    refine ⟨fun hmem => (Table.insert?_eq_some hinsert).1 row hmem rfl, hrole, hmember, rfl, ?_⟩
    rw [Table.insertIgnore, hinsert]
    rfl
  · rintro ⟨hnew, hrole, hmember, rfl, rfl⟩
    refine ⟨_, Table.insert?_of_forall_ne fun m hm hkey => ?_, (), ⟨(), hrole, hmember⟩, rfl, rfl⟩
    exact hnew (MemberRole.eq_of_key hkey ▸ hm)

theorem exec_incrementMemberCount_iff {server : Server} {serverId : ℤ}
    (h : pg.servers.find? (fun s => s.id = serverId) = some server) :
    Sql.exec pg (.incrementMemberCount serverId) = .ok (n, pg') ↔
      server.memberCount ≠ 2147483647 ∧ n = (pg.servers.count fun s => s.id = serverId) ∧
        pg' = { pg with servers := pg.servers.replace (oneMore server) } := by
  obtain ⟨hmem, rfl⟩ := Table.find?_key.1 h
  have hfull : (!pg.servers.any fun s => s.id = server.id && s.memberCount = 2147483647) = true ↔
      server.memberCount ≠ 2147483647 := by
    rw [Bool.not_eq_true', Table.any_eq_false]
    constructor
    · intro hall hcount
      simpa [hcount] using hall server hmem
    · intro hcount s hs
      by_cases hid : s.id = server.id
      · simp [Table.eq_of_key_eq hs hmem hid, hcount]
      · simp [hid]
  simp only [Sql.exec, bind_eq_ok, pure_eq_ok, requires_eq_ok, Prod.mk.injEq, hfull]
  rw [Table.updateWhere_eq_replace h]
  constructor
  · rintro ⟨_, hcount, rfl, rfl⟩
    exact ⟨hcount, rfl, rfl⟩
  · rintro ⟨hcount, rfl, rfl⟩
    exact ⟨(), hcount, rfl, rfl⟩

theorem exec_incrementInviteUses_iff {invite : Invite} {code : String}
    (h : pg.invites.find? (fun i => i.code = code) = some invite) :
    Sql.exec pg (.incrementInviteUses code) = .ok (n, pg') ↔
      invite.uses ≠ 2147483647 ∧ n = (pg.invites.count fun i => i.code = code) ∧
        pg' = { pg with invites := pg.invites.replace (usedOnce invite) } := by
  obtain ⟨hmem, rfl⟩ := Table.find?_key.1 h
  have hfull : (!pg.invites.any fun i => i.code = invite.code && i.uses = 2147483647) = true ↔
      invite.uses ≠ 2147483647 := by
    rw [Bool.not_eq_true', Table.any_eq_false]
    constructor
    · intro hall huses
      simpa [huses] using hall invite hmem
    · intro huses i hi
      by_cases hcode : i.code = invite.code
      · simp [Table.eq_of_key_eq hi hmem hcode, huses]
      · simp [hcode]
  simp only [Sql.exec, bind_eq_ok, pure_eq_ok, requires_eq_ok, Prod.mk.injEq, hfull]
  rw [Table.updateWhere_eq_replace h]
  constructor
  · rintro ⟨_, huses, rfl, rfl⟩
    exact ⟨huses, rfl, rfl⟩
  · rintro ⟨huses, rfl, rfl⟩
    exact ⟨(), huses, rfl, rfl⟩

/-! ## What a transaction has written -/

section Progress

variable (pg : Postgres) (c : Call) (serverId : ℤ)

def newMember : ServerMember := newServerMember serverId c.auth c.now

def newMemberRole : MemberRole := ⟨serverId, c.auth, serverId⟩

/-- the member can be inserted -/
structure CanJoin : Prop where
  notMember : pg.hasMember serverId c.auth = false
  server : pg.hasServer serverId = true
  user : pg.hasUser c.auth = true

/-- the assignment of @everyone can be inserted, once the member is there -/
structure CanAssign : Prop where
  notAssigned : newMemberRole c serverId ∉ pg.memberRoles
  role : pg.hasRole serverId = true

/-- the committed row of the server has room for one member more -/
structure CanCount (server : Server) : Prop where
  found : pg.servers.find? (fun s => s.id = serverId) = some server
  room : server.memberCount ≠ 2147483647

/-! the rows that the first, the first two, three and four statements write -/

def writes₁ : Writes := { member := some (newMember c serverId) }

def writes₂ : Writes := { writes₁ c serverId with role := some (newMemberRole c serverId) }

def writes₃ (server : Server) : Writes := { writes₂ c serverId with server := some (oneMore server) }

def writes₄ (server : Server) (invite : Invite) : Writes :=
  { writes₃ c serverId server with invite := some (usedOnce invite) }

/-- how far the four statements have come, and what holds of the committed rows that they have written -/
inductive Progress (invite : Invite) : Writes → List Sql → Prop
  | begun : Progress invite {} (joinWrites c serverId)
  | inserted (hjoin : CanJoin pg c serverId) : Progress invite (writes₁ c serverId) ((joinWrites c serverId).drop 1)
  | assigned (hjoin : CanJoin pg c serverId) (hassign : CanAssign pg c serverId) :
    Progress invite (writes₂ c serverId) ((joinWrites c serverId).drop 2)
  | counted {server : Server} (hjoin : CanJoin pg c serverId) (hassign : CanAssign pg c serverId)
      (hcount : CanCount pg serverId server) :
    Progress invite (writes₃ c serverId server) ((joinWrites c serverId).drop 3)
  | used {server : Server} (hjoin : CanJoin pg c serverId) (hassign : CanAssign pg c serverId)
      (hcount : CanCount pg serverId server) (huses : invite.uses ≠ 2147483647) :
    Progress invite (writes₄ c serverId server invite) []

end Progress

variable {c : Call} {serverId : ℤ} {invite : Invite} {w w' : Writes} {todo : List Sql} {stmt : Sql}

/-- each statement takes the transaction one step further, and writes the row that it has locked -/
theorem Progress.exec (h : Progress pg c serverId invite w (stmt :: todo))
    (hfound : pg.invites.find? (fun i => i.code = c.code) = some invite)
    (hexec : Sql.exec (w.install pg) stmt = .ok (n, pg')) :
    Progress pg c serverId invite (w.record pg' stmt) todo ∧
      ∀ k, k ∈ (w.record pg' stmt).rows → k ∈ w.rows ∨ rowOf stmt = some k := by
  cases h with
  | begun =>
    obtain ⟨hmember, hserver, huser, -, -⟩ := exec_insertServerMember_iff.1 hexec
    refine ⟨.inserted ⟨hmember, hserver, huser⟩, fun k hk => .inr ?_⟩
    obtain rfl := List.mem_singleton.1 hk
    rfl
  | inserted hjoin =>
    obtain ⟨hnew, hrole, -⟩ := exec_insertMemberRole_iff.1 hexec
    refine ⟨.assigned hjoin ⟨hnew, hrole⟩, fun k hk => ?_⟩
    rcases List.mem_pair.1 hk with rfl | rfl
    · exact .inl (List.mem_singleton.2 rfl)
    · exact .inr rfl
  | assigned hjoin hassign =>
    obtain ⟨server, hserver⟩ : ∃ server, pg.servers.find? (fun s => s.id = serverId) = some server := by
      obtain ⟨server, hmem, hid⟩ := Table.any_eq_true.1 hjoin.server
      exact ⟨server, Table.find?_key.2 ⟨hmem, of_decide_eq_true hid⟩⟩
    have hview : ((writes₂ c serverId).install pg).servers.find? (fun s => s.id = serverId) = some server := hserver
    obtain ⟨hroom, -, hpg'⟩ := (exec_incrementMemberCount_iff hview).1 hexec
    obtain ⟨hmem, hid⟩ := Table.find?_key.1 hserver
    have hafter : pg'.servers.find? (fun s => s.id = serverId) = some (oneMore server) := by
      rw [hpg']
      exact Table.find?_key.2 ⟨Table.mem_replace.2 (.inr ⟨rfl, server, hmem, rfl⟩), hid⟩
    have hrecord : (writes₂ c serverId).record pg' (.incrementMemberCount serverId) = writes₃ c serverId server := by
      rw [Writes.record, hafter, writes₃]
    rw [hrecord]
    refine ⟨.counted hjoin hassign ⟨hserver, hroom⟩, fun k hk => ?_⟩
    rcases List.mem_append.1 (show k ∈ (writes₂ c serverId).rows ++ [.server server.id] from hk) with hk | hk
    · exact .inl hk
    · rw [List.mem_singleton.1 hk, hid]
      exact .inr rfl
  | @counted server hjoin hassign hcount =>
    have hview : ((writes₃ c serverId server).install pg).invites.find? (fun i => i.code = c.code) = some invite :=
      hfound
    obtain ⟨huses, -, hpg'⟩ := (exec_incrementInviteUses_iff hview).1 hexec
    obtain ⟨hmem, hcode⟩ := Table.find?_key.1 hfound
    have hafter : pg'.invites.find? (fun i => i.code = c.code) = some (usedOnce invite) := by
      rw [hpg']
      exact Table.find?_key.2 ⟨Table.mem_replace.2 (.inr ⟨rfl, invite, hmem, rfl⟩), hcode⟩
    have hrecord : (writes₃ c serverId server).record pg' (.incrementInviteUses c.code) =
        writes₄ c serverId server invite := by
      rw [Writes.record, hafter, writes₄]
    rw [hrecord]
    refine ⟨.used hjoin hassign hcount huses, fun k hk => ?_⟩
    rcases List.mem_append.1 (show k ∈ (writes₃ c serverId server).rows ++ [.invite invite.code] from hk) with hk | hk
    · exact .inl hk
    · rw [List.mem_singleton.1 hk, hcode]
      exact .inr rfl

/-! ## What another COMMIT leaves alone -/

theorem find?_install_invites {code : String} (h : .invite code ∉ w'.rows) :
    (w'.install pg).invites.find? (fun i => i.code = code) = pg.invites.find? fun i => i.code = code := by
  rcases hw : w'.invite with _ | row <;> simp only [Writes.install, hw, Option.elim]
  refine Table.find?_replace_of_ne fun hcode => h ?_
  simp [Writes.rows, hw, hcode]

theorem hasServer_install {id : ℤ} (h : pg.hasServer id = true) : (w'.install pg).hasServer id = true := by
  rcases hw : w'.server with _ | row <;> simp only [Writes.install, hw, Option.elim, Postgres.hasServer] at h ⊢
  · exact h
  · obtain ⟨s, hs, hid⟩ := Table.any_eq_true.1 h
    by_cases hkey : s.id = row.id
    · exact Table.any_eq_true.2 ⟨row, Table.mem_replace.2 (.inr ⟨rfl, s, hs, hkey⟩), hkey ▸ hid⟩
    · exact Table.any_eq_true.2 ⟨s, Table.mem_replace.2 (.inl ⟨hs, hkey⟩), hid⟩

theorem CanJoin.install (h : CanJoin pg c serverId) (hk : .member serverId c.auth ∉ w'.rows) :
    CanJoin (w'.install pg) c serverId := by
  refine ⟨?_, hasServer_install h.server, h.user⟩
  have hnot := h.notMember
  rcases hw : w'.member with _ | row <;> simp only [Writes.install, hw, Option.elim, Postgres.hasMember] at hnot ⊢
  · exact hnot
  · rw [Table.any_eq_false] at hnot ⊢
    intro m hm
    rcases Table.mem_insertIgnore hm with hold | rfl
    · exact hnot m hold
    · by_contra hkey
      simp only [Bool.not_eq_false, Bool.and_eq_true, decide_eq_true_eq] at hkey
      exact hk (by simp [Writes.rows, hw, hkey])

theorem CanAssign.install (h : CanAssign pg c serverId) (hk : .memberRole serverId c.auth serverId ∉ w'.rows) :
    CanAssign (w'.install pg) c serverId := by
  refine ⟨fun hmem => ?_, h.role⟩
  rcases hw : w'.role with _ | row <;> simp only [Writes.install, hw, Option.elim] at hmem
  · exact h.notAssigned hmem
  · rcases Table.mem_insertIgnore hmem with hold | rfl
    · exact h.notAssigned hold
    · exact hk (by simp [Writes.rows, hw, newMemberRole])

theorem CanCount.install {server : Server} (h : CanCount pg serverId server) (hk : .server serverId ∉ w'.rows) :
    CanCount (w'.install pg) serverId server := by
  refine ⟨?_, h.room⟩
  rw [← h.found]
  rcases hw : w'.server with _ | row <;> simp only [Writes.install, hw, Option.elim]
  refine Table.find?_replace_of_ne fun hid => hk ?_
  simp [Writes.rows, hw, hid]

/-- a COMMIT that wrote none of the rows that the transaction has locked -/
theorem Progress.install (h : Progress pg c serverId invite w todo) (hdisjoint : ∀ k ∈ w.rows, k ∉ w'.rows) :
    Progress (w'.install pg) c serverId invite w todo := by
  have hmember : w.member = some (newMember c serverId) → .member serverId c.auth ∉ w'.rows := fun hw =>
    hdisjoint _ (by simp [Writes.rows, hw, newMember, newServerMember])
  have hrole : w.role = some (newMemberRole c serverId) → .memberRole serverId c.auth serverId ∉ w'.rows := fun hw =>
    hdisjoint _ (by simp [Writes.rows, hw, newMemberRole])
  have hserver : ∀ server : Server, w.server = some (oneMore server) → .server server.id ∉ w'.rows := fun server hw =>
    hdisjoint _ (by simp [Writes.rows, hw, oneMore])
  cases h with
  | begun => exact .begun
  | inserted hjoin => exact .inserted (hjoin.install (hmember rfl))
  | assigned hjoin hassign => exact .assigned (hjoin.install (hmember rfl)) (hassign.install (hrole rfl))
  | @counted server hjoin hassign hcount =>
    have hid : server.id = serverId := (Table.find?_key.1 hcount.found).2
    exact .counted (hjoin.install (hmember rfl)) (hassign.install (hrole rfl))
      (hcount.install (hid ▸ hserver server rfl))
  | @used server hjoin hassign hcount huses =>
    have hid : server.id = serverId := (Table.find?_key.1 hcount.found).2
    exact .used (hjoin.install (hmember rfl)) (hassign.install (hrole rfl))
      (hcount.install (hid ▸ hserver server rfl)) huses

/-! ## What the own COMMIT does -/

/-- **A COMMIT does what the transaction does alone.** After its four statements a transaction installs what the four
statements do to the rows that are committed then. -/
theorem commit_joined (h : Progress pg c invite.serverId invite w [])
    (hfound : pg.invites.find? (fun i => i.code = c.code) = some invite)
    (hbanned : pg.isBanned invite.serverId c.auth = false) :
    w.member = some (newMember c invite.serverId) ∧ Joined c.auth invite c.now pg (w.install pg) := by
  generalize hserverId : invite.serverId = serverId at h hbanned ⊢
  generalize htodo : ([] : List Sql) = todo at h
  cases h with
  | @used server hjoin hassign hcount huses =>
    obtain ⟨-, hcode⟩ := Table.find?_key.1 hfound
    subst hserverId
    have h₁ : Sql.exec pg (.insertServerMember (newMember c invite.serverId)) =
        .ok (1, (writes₁ c invite.serverId).install pg) :=
      exec_insertServerMember_iff.2 ⟨hjoin.notMember, hjoin.server, hjoin.user, rfl, rfl⟩
    have h₂ : Sql.exec ((writes₁ c invite.serverId).install pg) (.insertMemberRole (newMemberRole c invite.serverId)) =
        .ok (1, (writes₂ c invite.serverId).install pg) := by
      refine exec_insertMemberRole_iff.2 ⟨hassign.notAssigned, hassign.role, ?_, rfl, rfl⟩
      obtain ⟨m, hm, hkey⟩ := Table.exists_mem_insertIgnore pg.serverMembers (newMember c invite.serverId)
      exact hasMember_iff.2 ⟨m, hm, Prod.mk.inj hkey⟩
    have hview₂ : ((writes₂ c invite.serverId).install pg).servers.find? (fun s => s.id = invite.serverId) =
        some server := hcount.found
    have h₃ := (exec_incrementMemberCount_iff hview₂).2 ⟨hcount.room, rfl, rfl⟩
    have hview₃ : ((writes₃ c invite.serverId server).install pg).invites.find? (fun i => i.code = invite.code) =
        some invite := hcode ▸ hfound
    have h₄ := (exec_incrementInviteUses_iff hview₃).2 ⟨huses, rfl, rfl⟩
    exact ⟨rfl, hjoin.notMember, hbanned, _, _, _, _, _, _, _, h₁, h₂, h₃, h₄⟩
  | _ => cases htodo

/-! ## Accounting -/

section Accounts

variable {ι : Type} (calls : ι → Call) (pg₀ : Postgres)

/-- the server that the code of a call leads to -/
def serverOf (c : Call) : ℤ := ((pg₀.invites.find? fun v => v.code = c.code).map Invite.serverId).getD 0

def joinedWith (joined : List ι) (code : String) : ℕ := joined.countP fun i => (calls i).code = code

def joinedAt (joined : List ι) (serverId : ℤ) : ℕ := joined.countP fun i => serverOf pg₀ (calls i) = serverId

/-- the committed rows, from the rows at the start and the calls that have joined -/
structure Accounts (joined : List ι) (pg : Postgres) : Prop where
  invited : ∀ i ∈ joined, ∃ v ∈ pg₀.invites, v.code = (calls i).code ∧ v.serverId = serverOf pg₀ (calls i)
  members : pg.serverMembers.rows =
    pg₀.serverMembers.rows ++ joined.map fun i => newMember (calls i) (serverOf pg₀ (calls i))
  roles : pg.memberRoles.rows =
    pg₀.memberRoles.rows ++ joined.map fun i => newMemberRole (calls i) (serverOf pg₀ (calls i))
  servers : pg.servers.rows =
    pg₀.servers.rows.map fun s => { s with memberCount := s.memberCount + joinedAt calls pg₀ joined s.id }
  invites : pg.invites.rows =
    pg₀.invites.rows.map fun v => { v with uses := v.uses + joinedWith calls joined v.code }
  limit : ∀ v ∈ pg₀.invites, 0 < v.maxUses → v.uses ≤ v.maxUses → v.uses + joinedWith calls joined v.code ≤ v.maxUses

variable {calls pg₀} {joined : List ι} {i : ι}

theorem accounts_nil : Accounts calls pg₀ [] pg₀ where
  invited i hi := absurd hi List.not_mem_nil
  members := (List.append_nil _).symm
  roles := (List.append_nil _).symm
  servers := by simp [joinedAt]
  invites := by simp [joinedWith]
  limit v _ _ hv := by simpa [joinedWith] using hv

theorem joinedWith_snoc {code : String} :
    joinedWith calls (joined ++ [i]) code = joinedWith calls joined code + if (calls i).code = code then 1 else 0 := by
  rw [joinedWith, List.countP_append, List.countP_singleton, joinedWith]
  simp

theorem joinedAt_snoc {id : ℤ} :
    joinedAt calls pg₀ (joined ++ [i]) id =
      joinedAt calls pg₀ joined id + if serverOf pg₀ (calls i) = id then 1 else 0 := by
  rw [joinedAt, List.countP_append, List.countP_singleton, joinedAt]
  simp

/-- the committed invite is the one at the start with the uses that were added -/
theorem Accounts.found (h : Accounts calls pg₀ joined pg)
    (hfound : pg.invites.find? (fun v => v.code = (calls i).code) = some invite) :
    ∃ v ∈ pg₀.invites, v.code = (calls i).code ∧ serverOf pg₀ (calls i) = v.serverId ∧
      invite = { v with uses := v.uses + joinedWith calls joined v.code } := by
  obtain ⟨hmem, hcode⟩ := Table.find?_key.1 hfound
  rw [← Table.mem_rows, h.invites, List.mem_map] at hmem
  obtain ⟨v, hv, rfl⟩ := hmem
  have hserver : pg₀.invites.find? (fun v => v.code = (calls i).code) = some v := Table.find?_key.2 ⟨hv, hcode⟩
  exact ⟨v, hv, hcode, by rw [serverOf, hserver]; rfl, rfl⟩

/-- **A join adds one member, one assignment, one to the count and one use.** -/
theorem Accounts.join (h : Accounts calls pg₀ joined pg)
    (hfound : pg.invites.find? (fun v => v.code = (calls i).code) = some invite) (hleft : ¬ usedUp invite)
    (hjoined : Joined (calls i).auth invite (calls i).now pg pg') : Accounts calls pg₀ (joined ++ [i]) pg' := by
  obtain ⟨v, hv, hcode, hserver, rfl⟩ := h.found hfound
  obtain ⟨hmembers, hroles, hservers, hinvites⟩ := hjoined.rows
  refine ⟨fun j hj => ?_, ?_, ?_, ?_, ?_, fun u hu hpos hle => ?_⟩
  · rcases List.mem_append.1 hj with hj | hj
    · exact h.invited j hj
    · rw [List.mem_singleton.1 hj]
      exact ⟨v, hv, hcode, hserver.symm⟩
  · rw [hmembers, h.members, List.map_append, List.append_assoc, List.map_singleton, newMember, hserver]
  · rw [hroles, h.roles, List.map_append, List.append_assoc, List.map_singleton, newMemberRole, hserver]
  · rw [hservers, h.servers, List.map_map]
    refine List.map_congr_left fun s _ => ?_
    rw [joinedAt_snoc, hserver]
    by_cases hid : s.id = v.serverId
    · simp [oneMore, hid, add_assoc]
    · simp [hid, Ne.symm hid]
  · rw [hinvites, h.invites, List.map_map]
    refine List.map_congr_left fun u _ => ?_
    rw [joinedWith_snoc, ← hcode]
    by_cases hu : u.code = v.code
    · simp [usedOnce, hu, add_assoc]
    · simp [hu, Ne.symm hu]
  · rw [joinedWith_snoc, ← hcode]
    by_cases huv : v.code = u.code
    · obtain rfl := Table.eq_of_key_eq hv hu huv
      rw [if_pos rfl]
      simp only [usedUp, not_and, not_le] at hleft
      have := hleft hpos
      push_cast
      omega
    · rw [if_neg huv]
      exact h.limit u hu hpos hle

end Accounts

/-! ## The invariant -/

/-- what a transaction may rely on: the invite is still as it was read, and the rows it has written are as they were -/
def Stands (pg : Postgres) (c : Call) : JoinStage → Prop
  | .selected invite => pg.invites.find? (fun v => v.code = c.code) = some invite
  | .checked invite =>
    pg.invites.find? (fun v => v.code = c.code) = some invite ∧ ¬ expired c invite ∧ ¬ usedUp invite
  | .writing invite w todo =>
    pg.invites.find? (fun v => v.code = c.code) = some invite ∧ ¬ expired c invite ∧ ¬ usedUp invite ∧
      (w = {} ∧ todo = [] ∧ pg.hasMember invite.serverId c.auth = true ∨
        pg.isBanned invite.serverId c.auth = false ∧ Progress pg c invite.serverId invite w todo)
  | _ => True

theorem hasMember_install {userId : ℤ} (h : pg.hasMember serverId userId = true) :
    (w'.install pg).hasMember serverId userId = true := by
  obtain ⟨m, hm, hkey⟩ := hasMember_iff.1 h
  refine hasMember_iff.2 ⟨m, ?_, hkey⟩
  rcases hw : w'.member with _ | row <;> simp only [Writes.install, hw, Option.elim]
  · exact hm
  · exact Table.subset_insertIgnore hm

theorem Stands.install {t : JoinStage} (h : Stands pg c t) (hdisjoint : ∀ k ∈ t.rows c, k ∉ w'.rows) :
    Stands (w'.install pg) c t := by
  cases t with
  | selected invite =>
    exact (find?_install_invites (hdisjoint _ (List.mem_singleton_self _))).trans h
  | checked invite =>
    exact ⟨(find?_install_invites (hdisjoint _ (List.mem_singleton_self _))).trans h.1, h.2⟩
  | writing invite w todo =>
    obtain ⟨hfound, hfresh, hleft, hrest⟩ := h
    refine ⟨(find?_install_invites (hdisjoint _ List.mem_cons_self)).trans hfound, hfresh, hleft, ?_⟩
    refine hrest.imp (fun h => ⟨h.1, h.2.1, hasMember_install h.2.2⟩) fun h => ⟨h.1, ?_⟩
    exact h.2.install fun k hk => hdisjoint k (List.mem_cons_of_mem _ hk)
  | _ => trivial

section Inv

variable {ι : Type} [DecidableEq ι] {calls : ι → Call} {pg₀ : Postgres} {s : Joins ι} {i : ι}

omit [DecidableEq ι] in
structure Inv (calls : ι → Call) (pg₀ : Postgres) (s : Joins ι) : Prop where
  locks : ∀ i, ∀ k ∈ (s.task i).rows (calls i), s.shared.locks k = some i
  tasks : ∀ i, Stands s.shared.pg (calls i) (s.task i)
  accounts : Accounts calls pg₀ s.shared.joined s.shared.pg
  nodup : s.shared.joined.Nodup
  joined : ∀ i, i ∈ s.shared.joined ↔ (s.task i).joined = true

omit [DecidableEq ι] in
theorem inv_arrivals : Inv calls pg₀ (arrivals pg₀) where
  locks i k hk := absurd hk List.not_mem_nil
  tasks i := trivial
  accounts := accounts_nil
  nodup := List.nodup_nil
  joined i := by simp [arrivals, JoinStage.joined]

/-- a step that commits nothing -/
theorem Inv.quiet (h : Inv calls pg₀ s) {t : JoinStage} {locks : Locks RowKey ι}
    (hflag : t.joined = (s.task i).joined)
    (hothers : ∀ j, j ≠ i → ∀ k, s.shared.locks k = some j → locks k = some j)
    (hrows : ∀ k ∈ t.rows (calls i), locks k = some i) (ht : Stands s.shared.pg (calls i) t) :
    Inv calls pg₀ ⟨Function.update s.task i t, { s.shared with locks }⟩ := by
  refine { h with locks := fun j k hk => ?_, tasks := fun j => ?_, joined := fun j => ?_ }
  · by_cases hj : j = i
    · subst hj
      simp only [Function.update_self] at hk
      exact hrows k hk
    · simp only [Function.update_of_ne hj] at hk
      exact hothers j hj k (h.locks j k hk)
  · by_cases hj : j = i
    · subst hj
      simp only [Function.update_self]
      exact ht
    · simp only [Function.update_of_ne hj]
      exact h.tasks j
  · by_cases hj : j = i
    · subst hj
      simp only [Function.update_self, hflag]
      exact h.joined j
    · simp only [Function.update_of_ne hj]
      exact h.joined j

/-- ROLLBACK -/
theorem Inv.rollback (h : Inv calls pg₀ s) (hflag : (s.task i).joined = false) (e : AppError) :
    Inv calls pg₀ ⟨Function.update s.task i (.failed e), s.shared.rollback i⟩ :=
  h.quiet hflag.symm (fun _ hj _ hk => Locks.held_release hj hk) (fun _ hk => absurd hk List.not_mem_nil) trivial

/-- a step that takes no lock and gives none up -/
theorem Inv.local (h : Inv calls pg₀ s) {t : JoinStage} (hflag : t.joined = (s.task i).joined)
    (hrows : t.rows (calls i) = (s.task i).rows (calls i)) (ht : Stands s.shared.pg (calls i) t) :
    Inv calls pg₀ ⟨Function.update s.task i t, s.shared⟩ :=
  h.quiet hflag (fun _ _ _ hk => hk) (fun k hk => h.locks i k (hrows ▸ hk)) ht

/-- COMMIT -/
theorem Inv.commit (h : Inv calls pg₀ s) {w : Writes} (htask : s.task i = .writing invite w []) :
    Inv calls pg₀ ⟨Function.update s.task i (.ended invite.serverId w.member.isSome), s.shared.commit i w⟩ := by
  have hi := h.tasks i
  rw [htask] at hi
  obtain ⟨hfound, -, hleft, hrest⟩ := hi
  have hrows : ∀ k ∈ w.rows, s.shared.locks k = some i := fun k hk =>
    h.locks i k (by rw [htask]; exact List.mem_cons_of_mem _ hk)
  have hnew : i ∉ s.shared.joined := by
    rw [h.joined, htask]
    exact Bool.false_ne_true
  have hjoined : w.member.isSome = true →
      Joined (calls i).auth invite (calls i).now s.shared.pg (w.install s.shared.pg) := by
    intro hw
    rcases hrest with ⟨rfl, -⟩ | ⟨hbanned, hprogress⟩
    · cases hw
    · exact (commit_joined hprogress hfound hbanned).2
  have hnone : w.member.isSome = false → w.install s.shared.pg = s.shared.pg := by
    intro hw
    rcases hrest with ⟨rfl, -⟩ | ⟨hbanned, hprogress⟩
    · rfl
    · rw [(commit_joined hprogress hfound hbanned).1] at hw
      cases hw
  refine ⟨fun j k hk => ?_, fun j => ?_, ?_, ?_, fun j => ?_⟩
  · by_cases hj : j = i
    · subst hj
      simp only [Function.update_self] at hk
      exact absurd hk List.not_mem_nil
    · simp only [Function.update_of_ne hj] at hk
      exact Locks.held_release hj (h.locks j k hk)
  · by_cases hj : j = i
    · subst hj
      simp only [Function.update_self]
      trivial
    · simp only [Function.update_of_ne hj]
      -- what `j` relies on is locked by `j`, what is installed is locked by `i`
      exact (h.tasks j).install fun k hk hk' => hj (Locks.disjoint (h.locks j k hk) (hrows k hk'))
  · rcases hw : w.member.isSome with _ | _
    · simp only [InviteDb.commit, hw, Bool.false_eq_true, if_false, hnone hw]
      exact h.accounts
    · simp only [InviteDb.commit, hw, if_true]
      exact h.accounts.join hfound hleft (hjoined hw)
  · rw [InviteDb.commit]
    dsimp only
    split_ifs
    · exact List.nodup_append.2 ⟨h.nodup, List.nodup_singleton i, by
        rintro j hj _ hi rfl
        exact hnew (List.mem_singleton.1 hi ▸ hj)⟩
    · exact h.nodup
  · by_cases hj : j = i
    · subst hj
      rcases hw : w.member.isSome with _ | _ <;> simp [InviteDb.commit, hw, hnew, JoinStage.joined]
    · simp only [Function.update_of_ne hj, ← h.joined j, InviteDb.commit]
      split_ifs
      · simp [hj]
      · rfl

theorem Inv.next (h : Inv calls pg₀ s) (i : ι) : Inv calls pg₀ (joinStep calls s (.advance i)) := by
  have hi := h.tasks i
  rw [joinStep]
  generalize hr : (s.task i).next i (calls i) s.shared = r
  cases ht : s.task i with
  | arrived =>
    rw [ht, JoinStage.next] at hr
    rcases hfind : s.shared.pg.invites.find? fun v => v.code = (calls i).code with _ | invite
    · rw [hfind] at hr
      subst hr
      exact h.rollback (by rw [ht]; rfl) _
    · simp only [hfind] at hr
      split_ifs at hr with hfree
      · subst hr
        refine h.quiet (by rw [ht]; rfl) (fun j _ k hk => Locks.held_take hfree hk) (fun k hk => ?_) hfind
        rw [List.mem_singleton.1 hk]
        exact Locks.take_self
      · subst hr
        exact h.local (by rw [ht]) (by rw [ht]) trivial
  | selected invite =>
    rw [ht] at hi
    rw [ht, JoinStage.next] at hr
    split_ifs at hr with hexpired husedUp hmember
    · subst hr
      exact h.rollback (by rw [ht]; rfl) _
    · subst hr
      exact h.rollback (by rw [ht]; rfl) _
    · subst hr
      exact h.local (by rw [ht]; rfl) (by rw [ht]; rfl) ⟨hi, hexpired, husedUp, .inl ⟨rfl, rfl, hmember⟩⟩
    · subst hr
      exact h.local (by rw [ht]; rfl) (by rw [ht]; rfl) ⟨hi, hexpired, husedUp⟩
  | checked invite =>
    rw [ht] at hi
    rw [ht, JoinStage.next] at hr
    split_ifs at hr with hbanned
    · subst hr
      exact h.rollback (by rw [ht]; rfl) _
    · subst hr
      rw [Bool.not_eq_true] at hbanned
      exact h.local (by rw [ht]; rfl) (by rw [ht]; rfl) ⟨hi.1, hi.2.1, hi.2.2, .inr ⟨hbanned, .begun⟩⟩
  | writing invite w todo =>
    rw [ht] at hi
    cases todo with
    | nil =>
      rw [ht, JoinStage.next] at hr
      subst hr
      exact h.commit ht
    | cons stmt todo =>
      rw [ht, JoinStage.next] at hr
      split_ifs at hr with hfree
      · obtain ⟨hfound, hfresh, hleft, ⟨-, htodo, -⟩ | ⟨hbanned, hprogress⟩⟩ := hi
        · cases htodo
        · rcases hstmt : statement stmt (w.install s.shared.pg) with e | ⟨n, pg⟩
          · rw [hstmt] at hr
            subst hr
            exact h.rollback (by rw [ht]; rfl) _
          · rw [hstmt] at hr
            subst hr
            obtain ⟨hnext, hrows⟩ := hprogress.exec hfound (statement_eq_ok.1 hstmt)
            refine h.quiet (by rw [ht]; rfl) (fun j _ k hk => ?_) (fun k hk => ?_)
              ⟨hfound, hfresh, hleft, .inr ⟨hbanned, hnext⟩⟩
            · rcases hrow : rowOf stmt with _ | key <;> simp only [hrow, Option.all, Option.elim] at hfree ⊢
              · exact hk
              · exact Locks.held_take hfree hk
            · have hheld : k ∈ (s.task i).rows (calls i) ∨ rowOf stmt = some k := by
                rw [ht]
                rcases List.mem_cons.1 hk with rfl | hk
                · exact .inl List.mem_cons_self
                · exact (hrows k hk).imp_left (List.mem_cons_of_mem _)
              rcases hheld with hk | hrow
              · have hk := h.locks i k hk
                rcases hrow : rowOf stmt with _ | key <;> simp only [hrow, Option.all, Option.elim] at hfree ⊢
                · exact hk
                · exact Locks.held_take hfree hk
              · simp only [hrow, Option.elim]
                exact Locks.take_self
      · subst hr
        exact h.local (by rw [ht]) (by rw [ht]) hi
  | ended serverId joined =>
    rw [ht, JoinStage.next] at hr
    rcases hfind : s.shared.pg.servers.find? fun s => s.id = serverId with _ | server
    · rw [hfind] at hr
      subst hr
      exact h.local (by rw [ht]; rfl) (by rw [ht]; rfl) trivial
    · rw [hfind] at hr
      subst hr
      exact h.local (by rw [ht]; rfl) (by rw [ht]; rfl) trivial
  | _ =>
    rw [ht, JoinStage.next] at hr
    subst hr
    exact h.local (by rw [ht]) (by rw [ht]) trivial

theorem Inv.fail (h : Inv calls pg₀ s) (i : ι) (e : AppError) : Inv calls pg₀ (joinStep calls s (.fail i e)) := by
  rw [joinStep]
  cases ht : s.task i with
  | arrived => exact h.rollback (by rw [ht]; rfl) e
  | selected invite => exact h.rollback (by rw [ht]; rfl) e
  | checked invite => exact h.rollback (by rw [ht]; rfl) e
  | writing invite w todo => exact h.rollback (by rw [ht]; rfl) e
  | _ => exact h.local (by rw [ht]; rfl) (by rw [ht]; rfl) trivial

theorem inv_run (ops : List (JoinOp ι)) : Inv calls pg₀ (Core.run (joinStep calls) (arrivals pg₀) ops) := by
  refine run_inv (fun s o h => ?_) inv_arrivals ops
  cases o with
  | advance i => exact h.next i
  | fail i e => exact h.fail i e

/-- **Invite use accounting.** In every interleaving of calls of `use_invite`, statement by statement and with errors
anywhere, the committed rows are those at the start and, for each call that has committed a membership, one member row,
one @everyone assignment, one more in the count of the server and one more use of the code, which stays within the limit
of its invite. Each call is listed once, and the others have added nothing: those in progress, those that failed before
their COMMIT, and those that found the user a member. -/
theorem invite_accounting (calls : ι → Call) (pg₀ : Postgres) (ops : List (JoinOp ι)) :
    let s := Core.run (joinStep calls) (arrivals pg₀) ops
    Accounts calls pg₀ s.shared.joined s.shared.pg ∧ s.shared.joined.Nodup ∧
      ∀ i, i ∈ s.shared.joined ↔ (s.task i).joined = true :=
  ⟨(inv_run ops).accounts, (inv_run ops).nodup, (inv_run ops).joined⟩

end Inv

/-- **The own COMMIT is the transaction of `use_invite`, run at that moment.** -/
theorem commit_eq_tx {ι : Type} [DecidableEq ι] {calls : ι → Call} {pg₀ : Postgres} {s : Joins ι} {i : ι}
    (h : Inv calls pg₀ s) (htask : s.task i = .writing invite w []) :
    (inviteTx (calls i).auth (calls i).code (calls i).now).run statement s.shared.pg =
      (.ok invite.serverId, (s.shared.commit i w).pg) := by
  have hi := h.tasks i
  rw [htask] at hi
  obtain ⟨hfound, hfresh, hleft, hrest⟩ := hi
  unfold expired at hfresh
  unfold usedUp at hleft
  rw [inviteTx, run_bind_of_ok (run_select _), hfound, run_bind_of_ok (run_orFail_some _ _), joinServer,
    run_bind_of_ok (a := ()) (failIf_eq_ok.2 ⟨hfresh, rfl⟩), run_bind_of_ok (a := ()) (failIf_eq_ok.2 ⟨hleft, rfl⟩),
    run_bind_of_ok (run_select _)]
  rcases hrest with ⟨rfl, -, hmember⟩ | ⟨hbanned, hprogress⟩
  · rw [if_pos hmember]
    rfl
  · obtain ⟨-, hnot, -, _, _, _, _, _, _, _, h₁, h₂, h₃, h₄⟩ := commit_joined hprogress hfound hbanned
    have hnobody : ¬ s.shared.pg.isBanned invite.serverId (calls i).auth = true := by
      rw [hbanned]
      exact Bool.false_ne_true
    unfold Postgres.isBanned at hnobody
    rw [if_neg (by rw [hnot]; exact Bool.false_ne_true), run_bind_of_ok (run_select _),
      run_bind_of_ok (a := ()) (failIf_eq_ok.2 ⟨hnobody, rfl⟩), run_bind_of_ok (run_execute_of_exec h₁),
      run_bind_of_ok (run_execute_of_exec h₂),
      run_bind_of_ok (run_execute_of_exec h₃),
      run_bind_of_ok (run_execute_of_exec h₄)]
    rfl

/-! ## An error after the COMMIT -/

/-- user 2 uses the invite to server 100 -/
def oneCall (_ : Fin 1) : Call := ⟨2, "join", ⟨0⟩⟩

/-- the transaction commits, then the SELECT of `fetch_server` fails -/
def lostResponse : List (JoinOp (Fin 1)) := List.replicate 8 (.advance 0) ++ [.fail 0 (.internal "")]

/-- **The call returns an error and user 2 is a member, counted in the server and in the invite.** -/
theorem joined_and_failed :
    let s := Core.run (joinStep oneCall) (arrivals invited) lostResponse
    s.task 0 = .unanswered true (.internal "") ∧
      invited.hasMember 100 2 = false ∧ s.shared.pg.hasMember 100 2 = true ∧
      (invited.servers.rows.map Server.memberCount = [1] ∧ s.shared.pg.servers.rows.map Server.memberCount = [2]) ∧
      invited.invites.rows.map Invite.uses = [0] ∧ s.shared.pg.invites.rows.map Invite.uses = [1] := by
  decide

end Lumiere.Routes.InviteRaces
