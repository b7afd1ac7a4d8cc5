/-
Who may do what in a server: the checks that the handlers of `lumiere-server/src/routes/servers.rs`, `roles.rs` and
`messages.rs` share. Each SELECT is a read of its own; none of them writes.

- `run_getUserPermissions`, `mem_userPermissions`: what `get_user_permissions` returns.
- `requirePermissions_eq_ok`: when `require_permissions` lets a request through.
-/
import Lumiere.Core.Prog
import Lumiere.Db.Statements
import Lumiere.Models.Error
import Lumiere.Permissions

namespace Lumiere.Db

open Lumiere.Models

def dbErr (e : DbError) : AppError := .internal ("Database error: " ++ e.display)

/-- a statement as the handlers see it -/
def statement (w : Sql) (pg : Postgres) : Except AppError (ℕ × Postgres) :=
  match Sql.exec pg w with
  | .ok r => .ok r
  | .error e => .error (dbErr e)

theorem statement_eq_ok {w : Sql} {pg : Postgres} {r : ℕ × Postgres} : statement w pg = .ok r ↔ Sql.exec pg w = .ok r := by
  rw [statement]
  rcases Sql.exec pg w with e | r' <;> simp

namespace Postgres

variable (pg : Postgres) (serverId userId : ℤ)

/-- `roles` LEFT JOIN the assignments to the user, default roles kept without one -/
def rolePermissions : List (BitVec 64) :=
  (pg.roles.select fun r => r.serverId = serverId).flatMap fun r =>
    match pg.memberRoles.select fun m => m.roleId = r.id && m.userId = userId with
    | [] => if r.isDefault then [r.permissions] else []
    | ms => ms.map fun _ => r.permissions

/-- MAX(position) over the roles assigned in the server -/
def highestPosition : Option ℤ :=
  ((pg.memberRoles.select fun m => m.serverId = serverId && m.userId = userId).flatMap fun m =>
    (pg.roles.select fun r => r.id = m.roleId).map Role.position).max?

/-- what `get_user_permissions` computes from its two reads -/
def userPermissions : Permissions :=
  if pg.isOwner serverId userId then .all
  else
    let perms := Permissions.union (pg.rolePermissions serverId userId)
    if perms.contains .administrator then .all else perms

end Postgres

end Lumiere.Db

namespace Lumiere.Routes

open Lumiere.Core Lumiere.Core.Prog Lumiere.Models Lumiere.Db

abbrev Handler := Prog Postgres Sql AppError

def requireMember (serverId userId : ℤ) : Handler Unit := do
  let isMember ← select fun pg => pg.hasMember serverId userId
  failIf (!isMember) (.forbidden "Not a member of this server")

def getUserPermissions (serverId userId : ℤ) : Handler Permissions := do
  let isOwner ← select fun pg => pg.isOwner serverId userId
  if isOwner then pure .all
  else
    let rolePerms ← select fun pg => pg.rolePermissions serverId userId
    let perms := Permissions.union rolePerms
    if perms.contains .administrator then pure .all else pure perms

def requirePermissions (serverId userId : ℤ) (required : Permissions) : Handler Unit := do
  requireMember serverId userId
  let perms ← getUserPermissions serverId userId
  failIf (!perms.contains required) (.forbidden "Missing required permissions")

def checkRoleHierarchy (serverId actorId targetId : ℤ) : Handler Unit := do
  let isOwner ← select fun pg => pg.isOwner serverId actorId
  when (!isOwner) do
    let actorHighest ← select fun pg => (pg.highestPosition serverId actorId).getD 0
    let targetHighest ← select fun pg => (pg.highestPosition serverId targetId).getD 0
    failIf (actorHighest ≤ targetHighest) (.forbidden "Cannot modify a member with equal or higher role")

/-- the owner counts as `i32::MAX` -/
def getActorHighestPosition (serverId userId : ℤ) : Handler ℤ := do
  let isOwner ← select fun pg => pg.isOwner serverId userId
  if isOwner then pure 2147483647
  else
    let highest ← select fun pg => pg.highestPosition serverId userId
    pure (highest.getD 0)

/-- the owner check that several handlers make inline -/
def requireOwner (serverId userId : ℤ) (e : AppError) : Handler Unit := do
  let isOwner ← select fun pg => pg.isOwner serverId userId
  failIf (!isOwner) e

def refuseOwner (serverId userId : ℤ) (e : AppError) : Handler Unit := do
  let isOwner ← select fun pg => pg.isOwner serverId userId
  failIf isOwner e

/-! ## What the checks read -/

variable {pg : Postgres} {serverId userId : ℤ}

/-- the role counts for the user in the server: a default role, or an assigned one -/
def Effective (pg : Postgres) (serverId userId : ℤ) (r : Role) : Prop :=
  r ∈ pg.roles ∧ r.serverId = serverId ∧
    (r.isDefault = true ∨ ∃ m ∈ pg.memberRoles, m.roleId = r.id ∧ m.userId = userId)

theorem mem_rolePermissions {x : BitVec 64} :
    x ∈ pg.rolePermissions serverId userId ↔ ∃ r, Effective pg serverId userId r ∧ r.permissions = x := by
  simp only [Postgres.rolePermissions, List.mem_flatMap, Table.mem_select, decide_eq_true_eq]
  refine exists_congr fun r => ?_
  rw [Effective]
  rcases h : pg.memberRoles.select fun m => m.roleId = r.id && m.userId = userId with _ | ⟨m, ms⟩
  · have hnone : ¬ ∃ m ∈ pg.memberRoles, m.roleId = r.id ∧ m.userId = userId := by
      rintro ⟨m, hm, hid, hu⟩
      have hmem : m ∈ pg.memberRoles.select fun m => m.roleId = r.id && m.userId = userId :=
        Table.mem_select.2 ⟨hm, by simp [hid, hu]⟩
      rw [h] at hmem
      cases hmem
    by_cases hd : r.isDefault = true
    · simp [hd, and_assoc, eq_comm]
    · simp [hd, hnone]
  · have hsome : ∃ m ∈ pg.memberRoles, m.roleId = r.id ∧ m.userId = userId := by
      have hmem : m ∈ pg.memberRoles.select fun m => m.roleId = r.id && m.userId = userId := h ▸ List.mem_cons_self
      rw [Table.mem_select, Bool.and_eq_true, decide_eq_true_eq, decide_eq_true_eq] at hmem
      exact ⟨m, hmem⟩
    simp only [hsome, or_true, and_true, List.mem_map]
    refine and_congr_right fun _ => ⟨?_, fun hx => ⟨m, List.mem_cons_self, hx⟩⟩
    rintro ⟨_, _, hx⟩
    exact hx

theorem mem_userPermissions {b : ℕ} :
    b ∈ pg.userPermissions serverId userId ↔ b ∈ Permissions.all ∧ (pg.isOwner serverId userId = true ∨
      ∃ r, Effective pg serverId userId r ∧ (r.permissions.getLsbD 0 = true ∨ r.permissions.getLsbD b = true)) := by
  have hadmin : (Permissions.union (pg.rolePermissions serverId userId)).contains .administrator = true ↔
      ∃ r, Effective pg serverId userId r ∧ r.permissions.getLsbD 0 = true := by
    rw [Permissions.contains_administrator, Permissions.mem_union]
    simp only [mem_rolePermissions]
    constructor
    · rintro ⟨-, _, ⟨r, hr, rfl⟩, h⟩
      exact ⟨r, hr, h⟩
    · rintro ⟨r, hr, h⟩
      exact ⟨by decide, _, ⟨r, hr, rfl⟩, h⟩
  rw [Postgres.userPermissions]
  by_cases ho : pg.isOwner serverId userId = true
  · simp [ho]
  · rw [if_neg ho, or_iff_right ho]
    by_cases ha : (Permissions.union (pg.rolePermissions serverId userId)).contains .administrator = true
    · rw [if_pos ha]
      obtain ⟨r, hr, h⟩ := hadmin.1 ha
      exact ⟨fun hb => ⟨hb, r, hr, .inl h⟩, And.left⟩
    · rw [if_neg ha, Permissions.mem_union]
      rw [hadmin] at ha
      simp only [mem_rolePermissions]
      constructor
      · rintro ⟨hb, _, ⟨r, hr, rfl⟩, h⟩
        exact ⟨hb, r, hr, .inr h⟩
      · rintro ⟨hb, r, hr, h | h⟩
        · exact absurd ⟨r, hr, h⟩ ha
        · exact ⟨hb, _, ⟨r, hr, rfl⟩, h⟩

theorem userPermissions_subset_all : pg.userPermissions serverId userId ⊆ .all := fun _ hb => (mem_userPermissions.1 hb).1

/-- permissions depend on the owner and on the effective roles only -/
theorem userPermissions_congr {pg' : Postgres} (ho : pg'.isOwner serverId userId = pg.isOwner serverId userId)
    (hr : ∀ r, Effective pg' serverId userId r ↔ Effective pg serverId userId r) :
    pg'.userPermissions serverId userId = pg.userPermissions serverId userId :=
  Permissions.ext fun b => by simp only [mem_userPermissions, ho, hr]

/-! ## The checks alone -/

theorem run_requireMember :
    (requireMember serverId userId).run statement pg =
      (if pg.hasMember serverId userId then .ok () else .error (.forbidden "Not a member of this server"), pg) := by
  rw [requireMember, run_bind_of_ok (run_select _)]
  rw [run_failIf]
  by_cases h : pg.hasMember serverId userId = true <;> simp [h]

theorem run_getUserPermissions :
    (getUserPermissions serverId userId).run statement pg = (.ok (pg.userPermissions serverId userId), pg) := by
  rw [getUserPermissions, run_bind_of_ok (run_select _), Postgres.userPermissions]
  by_cases ho : pg.isOwner serverId userId = true
  · simp [ho]
  · rw [if_neg ho, if_neg ho, run_bind_of_ok (run_select _)]
    dsimp only
    split_ifs <;> rfl

theorem run_requirePermissions {required : Permissions} :
    (requirePermissions serverId userId required).run statement pg =
      (if pg.hasMember serverId userId then
        if (pg.userPermissions serverId userId).contains required then .ok ()
        else .error (.forbidden "Missing required permissions")
      else .error (.forbidden "Not a member of this server"), pg) := by
  rw [requirePermissions, run_bind, run_requireMember]
  by_cases hm : pg.hasMember serverId userId = true
  · simp only [if_pos hm]
    rw [run_bind_of_ok run_getUserPermissions]
    rw [run_failIf]
    by_cases hp : (pg.userPermissions serverId userId).contains required = true <;> simp [hp]
  · simp only [if_neg hm]

theorem requirePermissions_eq_ok {required : Permissions} {pg' : Postgres} :
    (requirePermissions serverId userId required).run statement pg = (.ok (), pg') ↔
      pg.hasMember serverId userId = true ∧ required ⊆ pg.userPermissions serverId userId ∧ pg' = pg := by
  rw [run_requirePermissions, Prod.mk.injEq, ← Permissions.contains_iff]
  constructor
  · rintro ⟨h, h'⟩
    split_ifs at h with hm hp
    exact ⟨hm, hp, h'.symm⟩
  · rintro ⟨hm, hp, rfl⟩
    rw [if_pos hm, if_pos hp]
    exact ⟨rfl, rfl⟩

/-! ## They only read -/

theorem readOnly_requireMember : (requireMember serverId userId).ReadOnly :=
  issues_bind (issues_select _) fun _ => issues_failIf _ _

theorem readOnly_getUserPermissions : (getUserPermissions serverId userId).ReadOnly := by
  refine issues_bind (issues_select _) fun isOwner => ?_
  split_ifs
  · exact issues_pure _
  · refine issues_bind (issues_select _) fun _ => ?_
    dsimp only
    split_ifs <;> exact issues_pure _

theorem readOnly_requirePermissions {required : Permissions} : (requirePermissions serverId userId required).ReadOnly :=
  issues_bind readOnly_requireMember fun _ => issues_bind readOnly_getUserPermissions fun _ => issues_failIf _ _

theorem readOnly_checkRoleHierarchy {targetId : ℤ} : (checkRoleHierarchy serverId userId targetId).ReadOnly :=
  issues_bind (issues_select _) fun _ => issues_when fun _ =>
    issues_bind (issues_select _) fun _ => issues_bind (issues_select _) fun _ => issues_failIf _ _

theorem readOnly_getActorHighestPosition : (getActorHighestPosition serverId userId).ReadOnly := by
  refine issues_bind (issues_select _) fun isOwner => ?_
  split_ifs
  · exact issues_pure _
  · exact issues_bind (issues_select _) fun _ => issues_pure _

theorem readOnly_requireOwner {e : AppError} : (requireOwner serverId userId e).ReadOnly :=
  issues_bind (issues_select _) fun _ => issues_failIf _ _

theorem readOnly_refuseOwner {e : AppError} : (refuseOwner serverId userId e).ReadOnly :=
  issues_bind (issues_select _) fun _ => issues_failIf _ _

end Lumiere.Routes
