/-
The positions of roles (`lumiere-server/src/routes/roles.rs`). `get_actor_highest_position` returns `i32::MAX` for the
owner, and `create_role` adds one to the highest position of the server, but `update_role` and `reorder_roles` write the
positions of their bodies as they are.

- `inRange_iff`: the marker and the sum are sound exactly if every position is below `i32::MAX`.
- `createRole_below_iff`, `updateRole_below_iff`, `reorderRoles_below_iff`: what three handlers make of the positions.
- `positions_inRange_iff`: the positions stay in range all along a run exactly if none of the three, when it is let
  through, writes a position of `i32::MAX`.
- `second_owner`: a member whose role is at `i32::MAX`.
-/
import Lumiere.Core.Outcome
import Lumiere.Routes.Hierarchy

namespace Lumiere.Routes

open Lumiere.Core Lumiere.Core.Prog Lumiere.Models Lumiere.Db

variable {pg pg' : Postgres} {w : Sql} {n : ℕ} {auth serverId roleId : ℤ}

/-! ## Positions in range -/

/-- `MAX(position)` over the roles of the server -/
def topPosition (pg : Postgres) (serverId : ℤ) : Option ℤ :=
  ((pg.roles.select fun r => r.serverId = serverId).map Role.position).max?

def Below (pg : Postgres) : Prop := ∀ r ∈ pg.roles, r.position < 2147483647

/-- positions are below `i32::MAX`, which therefore marks the owner, and the next position is the highest plus one -/
structure InRange (pg : Postgres) : Prop where
  below : Below pg
  marker : ∀ serverId userId, (getActorHighestPosition serverId userId).run statement pg = (.ok 2147483647, pg) ↔
    pg.isOwner serverId userId = true
  next : ∀ serverId, nextPosition (topPosition pg serverId) = (topPosition pg serverId).getD 0 + 1

theorem Below.rank (h : Below pg) (serverId userId : ℤ) : rank pg serverId userId < 2147483647 := by
  by_cases hheld : ∃ p, HeldAt pg serverId userId p
  · obtain ⟨p, hp⟩ := hheld
    obtain ⟨m, _, _, _, s, hrank⟩ := heldAt_rank hp
    obtain ⟨r, hr, _, _, hposition⟩ := mem_ranks.1 hrank
    rw [← hposition]
    exact h r hr
  · rw [rank_of_none (not_exists.1 hheld)]
    decide

theorem Below.top (h : Below pg) (serverId : ℤ) : (topPosition pg serverId).getD 0 < 2147483647 := by
  unfold topPosition
  rcases hmax : List.max? _ with _ | p
  · decide
  · obtain ⟨r, hr, hposition⟩ := List.mem_map.1 (List.max?_eq_some_iff.1 hmax).1
    rw [Option.getD_some, ← hposition]
    exact h r (Table.mem_select.1 hr).1

theorem nextPosition_of_lt {maxPos : Option ℤ} (h : maxPos.getD 0 < 2147483647) :
    nextPosition maxPos = maxPos.getD 0 + 1 := by
  unfold nextPosition
  exact if_neg (by omega)

theorem run_highestPosition_owner (howner : pg.isOwner serverId auth = true) :
    (getActorHighestPosition serverId auth).run statement pg = (.ok 2147483647, pg) := by
  rw [getActorHighestPosition, run_bind_of_ok (run_select _), howner]
  rfl

theorem inRange_iff : InRange pg ↔ Below pg := by
  constructor
  · exact InRange.below
  · intro h
    refine ⟨h, fun serverId userId => ⟨fun hrun => ?_, run_highestPosition_owner⟩, fun serverId => ?_⟩
    · rcases howner : pg.isOwner serverId userId with _ | _
      · rw [run_getActorHighestPosition howner, Prod.mk.injEq, Except.ok.injEq] at hrun
        exact absurd hrun.1 (h.rank serverId userId).ne
      · rfl
    · exact nextPosition_of_lt (h.top serverId)

/-! ## Statements -/

/-- the statement writes no position of `i32::MAX` -/
def Tame : Sql → Prop
  | .insertRole row => row.position < 2147483647
  | .updateRole _ _ _ => False
  | .updateRolePosition _ _ _ => False
  | _ => True

theorem exec_below (h : Sql.exec pg w = .ok (n, pg')) (hpg : Below pg) (hw : Tame w) : Below pg' := by
  intro r hr
  have hroles := exec_roles h
  cases w with
  | insertRole row =>
    obtain ⟨-, -, name, hmem⟩ := hroles
    rcases (hmem r).1 hr with hold | hnew
    · exact hpg r hold
    · rw [hnew]
      exact hw
  | updateRole id serverId changes => exact hw.elim
  | updateRolePosition position id serverId => exact hw.elim
  | deleteServer id => exact hpg r ((hroles r).1 hr).1
  | deleteRole id serverId => exact hpg r ((hroles r).1 hr).1
  | _ =>
    rw [hroles] at hr
    exact hpg r hr

theorem run_tame {p : Handler Unit} (h : p.Issues Tame) (hpg : Below pg) : Below (p.run statement pg).2 := by
  refine issues_run (fun w pg n pg' hw hpg hrun => ?_) h hpg
  exact exec_below (statement_eq_ok.1 hrun) hpg hw

/-- the positions after a move -/
theorem Moves.below_iff {S : ℤ} {f : ℤ → Option ℤ} (h : Moves S f pg pg') (hpg : Below pg) :
    Below pg' ↔ ∀ r ∈ pg.roles, r.serverId = S → ∀ p ∈ f r.id, p < 2147483647 := by
  constructor
  · intro hpg' r hr hserver p hp
    obtain ⟨r', hr', hid⟩ := h.exists_role hr
    have hposition := h.role hr hr' hid hserver
    rw [Option.mem_def.1 hp, Option.getD_some] at hposition
    rw [← hposition]
    exact hpg' r' hr'
  · intro hall r' hr'
    have hmem : (r'.id, r'.serverId, r'.position) ∈ Routes.ranks pg' := mem_ranks.2 ⟨r', hr', rfl, rfl, rfl⟩
    rw [h.ranks, List.mem_map] at hmem
    obtain ⟨⟨id, serverId, position⟩, hold, hmoved⟩ := hmem
    obtain ⟨r, hr, hid, hserver, hposition⟩ := mem_ranks.1 hold
    simp only [movedTo, Prod.mk.injEq] at hmoved
    obtain ⟨-, -, hmoved⟩ := hmoved
    rw [← hmoved, ← hposition, ← hid, ← hserver]
    split_ifs with hS
    · rcases hf : f r.id with _ | p
      · exact hpg r hr
      · exact hall r hr hS p hf
    · exact hpg r hr

/-! ## Permission strings -/

/-- the word of a permission string that may be absent, if it can be parsed -/
def grantedBits (value : Option String) : Option (Option (BitVec 64)) :=
  value.mapM fun value => (Str.parseI64 value).map (BitVec.ofInt 64)

theorem run_parseOptional (pg : Postgres) (e : AppError) (value : Option String) :
    (parseOptional e value).run statement pg = ((grantedBits value).elim (.error e) .ok, pg) := by
  cases value with
  | none => rfl
  | some value =>
    unfold parseOptional parsePermissions grantedBits
    rcases hparse : Str.parseI64 value with _ | parsed
    · simp [run_bind, hparse]
    · simp [run_bind, hparse]

theorem parseOptional_eq_ok {e : AppError} {value : Option String} {bits : Option (BitVec 64)} :
    (parseOptional e value).run statement pg = (.ok bits, pg') ↔ grantedBits value = some bits ∧ pg' = pg := by
  rw [run_parseOptional, Prod.mk.injEq, eq_comm (a := pg)]
  rcases grantedBits value with _ | parsed
  · simp
  · simp

/-- the actor has all of the bits -/
def HasBits (pg : Postgres) (serverId auth : ℤ) (bits : BitVec 64) : Prop :=
  bits &&& ~~~(pg.userPermissions serverId auth).bits = 0

theorem refuseForbiddenBits_iff {bits : BitVec 64} {message : String} {u : Unit} :
    (refuseForbiddenBits auth serverId bits message).run statement pg = (.ok u, pg') ↔
      HasBits pg serverId auth bits ∧ pg' = pg := by
  rw [refuseForbiddenBits, run_bind_of_ok run_getUserPermissions, failIf_eq_ok, not_not]
  exact Iff.rfl

/-! ## `create_role` -/

/-- the actor may create the role -/
structure MayCreateRole (pg : Postgres) (auth serverId : ℤ) (body : CreateRoleRequest) (bits : BitVec 64) : Prop where
  valid : body.validate = []
  allowed : pg.hasMember serverId auth = true ∧ .manageRoles ⊆ pg.userPermissions serverId auth
  parsed : ∃ parsed, grantedBits body.permissions = some parsed ∧ parsed.getD 0 = bits
  bits : HasBits pg serverId auth bits

/-- everything `create_role` does before its INSERT: the highest position, and the permissions of the role -/
def createRoleChecks (auth serverId : ℤ) (body : CreateRoleRequest) : Handler (Option ℤ × BitVec 64) := do
  failIf (body.validate ≠ []) (.validation body.validate)
  requirePermissions serverId auth .manageRoles
  let maxPos ← select fun pg => topPosition pg serverId
  let parsed ← parseOptional (.badRequest "Invalid permissions value") body.permissions
  let permissions := parsed.getD 0
  when (permissions ≠ 0) (refuseForbiddenBits auth serverId permissions "Cannot grant permissions you don't have")
  pure (maxPos, permissions)

def newRole (serverId : ℤ) (body : CreateRoleRequest) (roleId : ℤ) (now : DateTime) (maxPos : Option ℤ)
    (permissions : BitVec 64) : Role :=
  { id := roleId, serverId, name := Str.trim body.name, color := body.color.getD 0, hoist := body.hoist.getD false,
    icon := none, position := nextPosition maxPos, permissions, mentionable := body.mentionable.getD false,
    isDefault := false, createdAt := now }

theorem createRole_eq {body : CreateRoleRequest} {now : DateTime} :
    createRole auth serverId body roleId now = (createRoleChecks auth serverId body >>= fun checked => do
      execute (.insertRole (newRole serverId body roleId now checked.1 checked.2))
      fetchRole roleId) := by
  simp only [createRole, createRoleChecks, bind_bind]
  rfl

theorem readOnly_createRoleChecks {body : CreateRoleRequest} : (createRoleChecks auth serverId body).ReadOnly :=
  issues_bind (issues_failIf _ _) fun _ => issues_bind readOnly_requirePermissions fun _ =>
    issues_bind (issues_select _) fun _ => issues_bind readOnly_parseOptional fun _ =>
      issues_bind (issues_when fun _ => readOnly_refuseForbiddenBits) fun _ => issues_pure _

theorem createRoleChecks_iff {body : CreateRoleRequest} {maxPos : Option ℤ} {bits : BitVec 64} :
    (createRoleChecks auth serverId body).run statement pg = (.ok (maxPos, bits), pg) ↔
      MayCreateRole pg auth serverId body bits ∧ topPosition pg serverId = maxPos := by
  unfold createRoleChecks
  simp only [run_bind_eq_ok, failIf_eq_ok, run_select, parseOptional_eq_ok, run_pure, Prod.mk.injEq, Except.ok.injEq,
    not_not]
  constructor
  · rintro ⟨_, _, ⟨hvalid, rfl⟩, _, _, hperms, _, _, ⟨rfl, rfl⟩, parsed, _, ⟨hparsed, rfl⟩, _, _, hbits, ⟨rfl, rfl⟩, rfl⟩
    obtain ⟨hmember, hperms, rfl⟩ := requirePermissions_eq_ok.1 hperms
    refine ⟨⟨hvalid, ⟨hmember, hperms⟩, ⟨parsed, hparsed, rfl⟩, ?_⟩, rfl⟩
    by_cases hzero : parsed.getD 0 = 0
    · rw [hzero]
      exact BitVec.zero_and
    · rw [when, if_pos hzero] at hbits
      exact (refuseForbiddenBits_iff.1 hbits).1
  · rintro ⟨⟨hvalid, ⟨hmember, hperms⟩, ⟨parsed, hparsed, rfl⟩, hbits⟩, rfl⟩
    refine ⟨(), pg, ⟨hvalid, rfl⟩, (), pg, requirePermissions_eq_ok.2 ⟨hmember, hperms, rfl⟩, _, pg, ⟨rfl, rfl⟩, parsed,
      pg, ⟨hparsed, rfl⟩, (), pg, ?_, ⟨rfl, rfl⟩, rfl⟩
    by_cases hzero : parsed.getD 0 = 0
    · rw [when, if_neg (not_not.2 hzero)]
      rfl
    · rw [when, if_pos hzero]
      exact refuseForbiddenBits_iff.2 ⟨hbits, rfl⟩

/-- the row of the role is accepted: the name fits, the id is new and the server is there -/
structure RoleStorable (pg : Postgres) (serverId : ℤ) (body : CreateRoleRequest) (roleId : ℤ) : Prop where
  name : ∃ name, varchar 100 (Str.trim body.name) = .ok name
  id : ∀ r ∈ pg.roles, r.id ≠ roleId
  server : pg.hasServer serverId = true

theorem insertRole_iff {body : CreateRoleRequest} {now : DateTime} {maxPos : Option ℤ} {bits : BitVec 64} :
    (∃ n pg', Sql.exec pg (.insertRole (newRole serverId body roleId now maxPos bits)) = .ok (n, pg')) ↔
      RoleStorable pg serverId body roleId := by
  simp only [Sql.exec, bind_eq_ok, pure_eq_ok, requires_eq_ok, unique_eq_ok, Prod.mk.injEq]
  constructor
  · rintro ⟨_, _, name, hname, roles, hinsert, _, hserver, -⟩
    exact ⟨⟨name, hname⟩, (Table.insert?_eq_some hinsert).1, hserver⟩
  · rintro ⟨⟨name, hname⟩, hid, hserver⟩
    rcases hinsert : pg.roles.insert? { newRole serverId body roleId now maxPos bits with name } with _ | roles
    · obtain ⟨r, hr, hkey⟩ := Table.insert?_eq_none hinsert
      exact absurd hkey (hid r hr)
    · exact ⟨1, _, name, hname, roles, hinsert, (), hserver, rfl, rfl⟩

theorem insertRole_below_iff (hpg : Below pg) {row : Role} (h : Sql.exec pg (.insertRole row) = .ok (n, pg')) :
    Below pg' ↔ row.position < 2147483647 := by
  constructor
  · intro hpg'
    obtain ⟨-, -, name, hmem⟩ := exec_roles h
    exact hpg' { row with name } ((hmem _).2 (.inr rfl))
  · exact exec_below h hpg

/-- the highest position of the server leaves room for another -/
def CreationBelow (pg : Postgres) (auth serverId : ℤ) (body : CreateRoleRequest) (roleId : ℤ) : Prop :=
  (∃ bits, MayCreateRole pg auth serverId body bits) → RoleStorable pg serverId body roleId →
    (topPosition pg serverId).getD 0 + 1 < 2147483647

/-- the INSERT of `create_role` and the read after it -/
theorem insertNewRole_below_iff (hpg : Below pg) (serverId roleId : ℤ) (body : CreateRoleRequest) (now : DateTime)
    (bits : BitVec 64) :
    (do execute (.insertRole (newRole serverId body roleId now (topPosition pg serverId) bits)); fetchRole roleId
      : Handler RoleResponse).Ends statement pg (fun _ => Below) (fun _ => Below) ↔
        (RoleStorable pg serverId body roleId → (topPosition pg serverId).getD 0 + 1 < 2147483647) := by
  rw [← nextPosition_of_lt (hpg.top serverId), ends_bind_readOnly fun _ => readOnly_fetchRole, ends_execute,
    and_iff_left fun _ _ => hpg]
  constructor
  · intro h hstorable
    obtain ⟨n, pg', hexec⟩ := @insertRole_iff pg serverId roleId body now (topPosition pg serverId) bits |>.2 hstorable
    exact (insertRole_below_iff hpg hexec).1 (h n pg' (statement_eq_ok.2 hexec))
  · intro h n pg' hrun
    have hexec := statement_eq_ok.1 hrun
    have hstorable := insertRole_iff.1 ⟨n, pg', hexec⟩
    exact (insertRole_below_iff hpg hexec).2 (h hstorable)

theorem createRole_below_iff (hpg : Below pg) (body : CreateRoleRequest) (now : DateTime) :
    Below ((createRole auth serverId body roleId now).run statement pg).2 ↔
      CreationBelow pg auth serverId body roleId := by
  rw [← ends_state (P := Below), createRole_eq, ends_checked readOnly_createRoleChecks fun _ => hpg]
  have hinsert : ∀ checked : Option ℤ × BitVec 64,
      (createRoleChecks auth serverId body).run statement pg = (.ok checked, pg) →
        ((do execute (.insertRole (newRole serverId body roleId now checked.1 checked.2)); fetchRole roleId
          : Handler RoleResponse).Ends statement pg (fun _ => Below) (fun _ => Below) ↔
            (RoleStorable pg serverId body roleId → (topPosition pg serverId).getD 0 + 1 < 2147483647)) := by
    intro checked hrun
    rw [← (createRoleChecks_iff.1 hrun).2, insertNewRole_below_iff hpg]
  rw [forall₂_congr hinsert, CreationBelow, forall_exists_index]
  constructor
  · intro h bits hallowed
    exact h (topPosition pg serverId, bits) (createRoleChecks_iff.2 ⟨hallowed, rfl⟩)
  · intro h checked hrun
    exact h checked.2 (createRoleChecks_iff.1 hrun).1

/-! ## `update_role` -/

/-- the actor is the owner, or its highest role is above the position -/
def Outranks (pg : Postgres) (serverId auth position : ℤ) : Prop :=
  pg.isOwner serverId auth = true ∨ position < rank pg serverId auth

/-- what the actor's position is compared for -/
theorem outranks_iff (hpg : Below pg) (position : ℤ) :
    ∃ p, (getActorHighestPosition serverId auth).run statement pg = (.ok p, pg) ∧
      (¬ (p ≤ position ∧ p ≠ 2147483647) ↔ Outranks pg serverId auth position) ∧
      (p ≠ 2147483647 ↔ pg.isOwner serverId auth = false) ∧
      (pg.isOwner serverId auth = false → p = rank pg serverId auth) := by
  rcases howner : pg.isOwner serverId auth with _ | _
  · have hrank := hpg.rank serverId auth
    refine ⟨rank pg serverId auth, run_getActorHighestPosition howner, ?_, iff_of_true hrank.ne rfl, fun _ => rfl⟩
    rw [Outranks, howner]
    simp only [Bool.false_eq_true, false_or]
    omega
  · refine ⟨2147483647, run_highestPosition_owner howner, ?_, by simp, nofun⟩
    rw [Outranks, howner]
    simp

/-- the actor may update the role -/
structure MayUpdateRole (pg : Postgres) (auth serverId roleId : ℤ) (body : UpdateRoleRequest)
    (permissions : Option (BitVec 64)) : Prop where
  allowed : pg.hasMember serverId auth = true ∧ .manageRoles ⊆ pg.userPermissions serverId auth
  role : ∃ r ∈ pg.roles, r.id = roleId ∧ r.serverId = serverId ∧ Outranks pg serverId auth r.position
  fields : body.isEmpty = false
  parsed : grantedBits body.permissions = some permissions
  bits : ∀ bits ∈ permissions, HasBits pg serverId auth bits

/-- everything `update_role` does before its UPDATE: the new permissions -/
def updateRoleChecks (auth serverId roleId : ℤ) (body : UpdateRoleRequest) : Handler (Option (BitVec 64)) := do
  requirePermissions serverId auth .manageRoles
  let actorHighest ← getActorHighestPosition serverId auth
  let role ← serverRole roleId serverId
  failIf (actorHighest ≤ role.position ∧ actorHighest ≠ 2147483647)
    (.forbidden "Cannot modify roles at or above your highest role position")
  failIf body.isEmpty (.badRequest "No fields to update")
  let permissions ← parseOptional (.badRequest "Invalid permissions value") body.permissions
  permissions.forM fun bits => refuseForbiddenBits auth serverId bits "Cannot grant permissions you don't have"
  pure permissions

theorem updateRole_eq {body : UpdateRoleRequest} :
    updateRole auth serverId roleId body = (updateRoleChecks auth serverId roleId body >>= fun permissions => do
      execute (.updateRole roleId serverId (body.changes permissions))
      fetchRole roleId) := by
  simp only [updateRole, updateRoleChecks, bind_bind]
  rfl

theorem readOnly_updateRoleChecks {body : UpdateRoleRequest} : (updateRoleChecks auth serverId roleId body).ReadOnly :=
  issues_bind readOnly_requirePermissions fun _ => issues_bind readOnly_getActorHighestPosition fun _ =>
    issues_bind readOnly_serverRole fun _ => issues_bind (issues_failIf _ _) fun _ =>
      issues_bind (issues_failIf _ _) fun _ => issues_bind readOnly_parseOptional fun _ =>
        issues_bind (issues_forM_option fun _ _ => readOnly_refuseForbiddenBits) fun _ => issues_pure _

theorem serverRole_iff {r : Role} : (serverRole roleId serverId).run statement pg = (.ok r, pg') ↔
    (r ∈ pg.roles ∧ r.id = roleId ∧ r.serverId = serverId) ∧ pg' = pg := by
  constructor
  · intro h
    obtain ⟨hr, hid, hserver, hsame⟩ := serverRole_eq_ok h
    exact ⟨⟨hr, hid, hserver⟩, hsame⟩
  · rintro ⟨⟨hr, rfl, rfl⟩, rfl⟩
    have hfind : pg'.roles.find? (fun x => x.id = r.id && x.serverId = r.serverId) = some r := by
      refine Table.find?_of_mem hr (by simp) fun b hb hp => ?_
      simp only [Bool.and_eq_true, decide_eq_true_eq] at hp
      exact Table.eq_of_key_eq hb hr hp.1
    rw [serverRole, run_bind_of_ok (run_select _), hfind]
    rfl

theorem forbiddenBits_iff {permissions : Option (BitVec 64)} {message : String} {u : PUnit} :
    (permissions.forM fun bits => refuseForbiddenBits auth serverId bits message : Handler PUnit).run statement pg =
      (.ok u, pg') ↔ (∀ bits ∈ permissions, HasBits pg serverId auth bits) ∧ pg' = pg := by
  cases permissions with
  | none =>
    refine ⟨fun h => ⟨nofun, (Prod.mk.inj h).2.symm⟩, fun h => ?_⟩
    rw [h.2]
    rfl
  | some bits => simpa using refuseForbiddenBits_iff

theorem updateRoleChecks_iff (hpg : Below pg) {body : UpdateRoleRequest} {permissions : Option (BitVec 64)} :
    (updateRoleChecks auth serverId roleId body).run statement pg = (.ok permissions, pg) ↔
      MayUpdateRole pg auth serverId roleId body permissions := by
  unfold updateRoleChecks
  simp only [run_bind_eq_ok, failIf_eq_ok, parseOptional_eq_ok, serverRole_iff, forbiddenBits_iff, run_pure,
    Prod.mk.injEq, Except.ok.injEq, Bool.not_eq_true]
  constructor
  · rintro ⟨_, _, hperms, actorHighest, _, hactor, r, _, ⟨⟨hr, hid, hserver⟩, rfl⟩, _, _, ⟨hguard, rfl⟩, _, _,
      ⟨hfields, rfl⟩, parsed, _, ⟨hparsed, rfl⟩, _, _, ⟨hbits, rfl⟩, rfl, -⟩
    obtain ⟨hmember, hperms, rfl⟩ := requirePermissions_eq_ok.1 hperms
    obtain rfl := readOnly_getActorHighestPosition.eq_of_run hactor
    obtain ⟨p, hp, houtranks, -⟩ := outranks_iff hpg r.position
    rw [hp, Prod.mk.injEq, Except.ok.injEq] at hactor
    rw [← hactor.1] at hguard
    exact ⟨⟨hmember, hperms⟩, ⟨r, hr, hid, hserver, houtranks.1 hguard⟩, hfields, hparsed, hbits⟩
  · rintro ⟨⟨hmember, hperms⟩, ⟨r, hr, hid, hserver, houtranks⟩, hfields, hparsed, hbits⟩
    obtain ⟨p, hp, hguard, -⟩ := outranks_iff hpg r.position
    have hallowed := requirePermissions_eq_ok.2 ⟨hmember, hperms, rfl⟩
    exact ⟨(), pg, hallowed, p, pg, hp, r, pg, ⟨⟨hr, hid, hserver⟩, rfl⟩, (), pg, ⟨hguard.2 houtranks, rfl⟩, (), pg,
      ⟨hfields, rfl⟩, permissions, pg, ⟨hparsed, rfl⟩, (), pg, ⟨hbits, rfl⟩, rfl, rfl⟩

/-- the new position of the role is below `i32::MAX` -/
def UpdateBelow (pg : Postgres) (auth serverId roleId : ℤ) (body : UpdateRoleRequest) : Prop :=
  ∀ permissions, MayUpdateRole pg auth serverId roleId body permissions →
    (∃ changes, (body.changes permissions).checked = .ok changes) → ∀ p ∈ body.position, p < 2147483647

theorem updateRow_below_iff (hpg : Below pg) {r : Role} (hr : r ∈ pg.roles) (body : UpdateRoleRequest)
    (permissions : Option (BitVec 64)) :
    (do execute (.updateRole r.id r.serverId (body.changes permissions)); fetchRole r.id
      : Handler RoleResponse).Ends statement pg (fun _ => Below) (fun _ => Below) ↔
        ((∃ changes, (body.changes permissions).checked = .ok changes) → ∀ p ∈ body.position, p < 2147483647) := by
  have hbelow : ∀ {n pg'}, Sql.exec pg (.updateRole r.id r.serverId (body.changes permissions)) = .ok (n, pg') →
      (Below pg' ↔ ∀ p ∈ body.position, p < 2147483647) := by
    intro n pg' hexec
    rw [(exec_moves hexec (.inl ⟨_, rfl, rfl⟩)).below_iff hpg]
    constructor
    · intro h p hp
      exact h r hr rfl p (by rwa [if_pos rfl])
    · intro h r' _ _ p hp
      by_cases hid : r'.id = r.id
      · rw [if_pos hid] at hp
        exact h p hp
      · rw [if_neg hid] at hp
        cases hp
  rw [ends_bind_readOnly fun _ => readOnly_fetchRole, ends_execute, and_iff_left fun _ _ => hpg]
  constructor
  · intro h ⟨changes, hchanges⟩
    have hexec : ∃ n pg', Sql.exec pg (.updateRole r.id r.serverId (body.changes permissions)) = .ok (n, pg') := by
      rw [Sql.exec, hchanges]
      exact ⟨_, _, rfl⟩
    obtain ⟨n, pg', hexec⟩ := hexec
    exact (hbelow hexec).1 (h n pg' (statement_eq_ok.2 hexec))
  · intro h n pg' hrun
    have hexec := statement_eq_ok.1 hrun
    have hchecked := hexec
    rw [Sql.exec, bind_eq_ok] at hchecked
    obtain ⟨changes, hchanges, -⟩ := hchecked
    exact (hbelow hexec).2 (h ⟨changes, hchanges⟩)

theorem updateRole_below_iff (hpg : Below pg) (body : UpdateRoleRequest) :
    Below ((updateRole auth serverId roleId body).run statement pg).2 ↔ UpdateBelow pg auth serverId roleId body := by
  rw [← ends_state (P := Below), updateRole_eq, ends_checked readOnly_updateRoleChecks fun _ => hpg, UpdateBelow]
  refine forall_congr' fun permissions => ?_
  rw [updateRoleChecks_iff hpg]
  refine forall_congr' fun hallowed => ?_
  obtain ⟨r, hr, rfl, rfl, -⟩ := hallowed.role
  exact updateRow_below_iff hpg hr body permissions

/-! ## `reorder_roles` -/

/-- the actor may reorder the roles of the list -/
structure MayReorder (pg : Postgres) (auth serverId : ℤ) (body : List RolePositionUpdate) : Prop where
  allowed : pg.hasMember serverId auth = true ∧ .manageRoles ⊆ pg.userPermissions serverId auth
  roles : pg.isOwner serverId auth = true ∨ ∀ update ∈ body, ∃ r ∈ pg.roles, r.id = update.id ∧
    r.serverId = serverId ∧ r.position < rank pg serverId auth

/-- the checks of `reorder_roles` -/
def reorderChecks (auth serverId : ℤ) (body : List RolePositionUpdate) : Handler Unit := do
  requirePermissions serverId auth .manageRoles
  let actorHighest ← getActorHighestPosition serverId auth
  when (actorHighest ≠ 2147483647) do
    body.forM fun update => do
      let role ← serverRole update.id serverId
      failIf (actorHighest ≤ role.position)
        (.forbidden "Cannot reorder roles at or above your highest role position")

theorem reorderRoles_eq {body : List RolePositionUpdate} :
    reorderRoles auth serverId body = (reorderChecks auth serverId body >>= fun _ => do
      body.forM fun update => execute (.updateRolePosition update.position update.id serverId)
      getRoles auth serverId) := by
  simp only [reorderRoles, reorderChecks, bind_bind]

theorem readOnly_reorderChecks {body : List RolePositionUpdate} : (reorderChecks auth serverId body).ReadOnly :=
  issues_bind readOnly_requirePermissions fun _ => issues_bind readOnly_getActorHighestPosition fun _ =>
    issues_when fun _ => issues_forM fun _ _ => issues_bind readOnly_serverRole fun _ => issues_failIf _ _

/-- the loop over the roles of the list -/
theorem run_guards_iff {body : List RolePositionUpdate} {p : ℤ} :
    (body.forM fun update => do
      let role ← serverRole update.id serverId
      failIf (p ≤ role.position) (.forbidden "Cannot reorder roles at or above your highest role position")
        : Handler PUnit).run statement pg = (.ok (), pg) ↔
      ∀ update ∈ body, ∃ r ∈ pg.roles, r.id = update.id ∧ r.serverId = serverId ∧ r.position < p := by
  constructor
  · exact checks_guard
  · intro h
    induction body with
    | nil => rfl
    | cons update body ih =>
      obtain ⟨r, hr, hid, hserver, hbelow⟩ := h update List.mem_cons_self
      have hrole : (serverRole update.id serverId).run statement pg = (.ok r, pg) :=
        serverRole_iff.2 ⟨⟨hr, hid, hserver⟩, rfl⟩
      have hguard : (do
          let role ← serverRole update.id serverId
          failIf (p ≤ role.position) (.forbidden "Cannot reorder roles at or above your highest role position")
            : Handler PUnit).run statement pg = (.ok (), pg) := by
        rw [run_bind_of_ok hrole]
        exact failIf_eq_ok.2 ⟨not_le.2 hbelow, rfl⟩
      exact (run_bind_of_ok hguard).trans (ih fun u hu => h u (List.mem_cons_of_mem update hu))

theorem reorderChecks_iff (hpg : Below pg) {body : List RolePositionUpdate} :
    (reorderChecks auth serverId body).run statement pg = (.ok (), pg) ↔ MayReorder pg auth serverId body := by
  obtain ⟨p, hp, -, howner, hrank⟩ := @outranks_iff pg auth serverId hpg 0
  have hguards : (when (p ≠ 2147483647) (body.forM fun update => do
      let role ← serverRole update.id serverId
      failIf (p ≤ role.position) (.forbidden "Cannot reorder roles at or above your highest role position"))
        : Handler Unit).run statement pg = (.ok (), pg) ↔
      (pg.isOwner serverId auth = true ∨ ∀ update ∈ body, ∃ r ∈ pg.roles, r.id = update.id ∧
        r.serverId = serverId ∧ r.position < rank pg serverId auth) := by
    by_cases hmax : p ≠ 2147483647
    · have hnot := howner.1 hmax
      rw [when, if_pos hmax, hnot, ← hrank hnot]
      simpa using run_guards_iff
    · rw [when, if_neg hmax]
      refine iff_of_true rfl (.inl ?_)
      rwa [howner, Bool.not_eq_false] at hmax
  unfold reorderChecks
  rw [run_bind_eq_ok]
  constructor
  · rintro ⟨_, _, hperms, hrest⟩
    obtain ⟨hmember, hperms, rfl⟩ := requirePermissions_eq_ok.1 hperms
    rw [run_bind_of_ok hp] at hrest
    exact ⟨⟨hmember, hperms⟩, hguards.1 hrest⟩
  · rintro ⟨⟨hmember, hperms⟩, hroles⟩
    refine ⟨(), pg, requirePermissions_eq_ok.2 ⟨hmember, hperms, rfl⟩, ?_⟩
    rw [run_bind_of_ok hp]
    exact hguards.2 hroles

/-- no position of the list is refused -/
theorem run_reorderWrites (pg : Postgres) (serverId : ℤ) (body : List RolePositionUpdate) :
    ∃ pg', (body.forM fun update => execute (.updateRolePosition update.position update.id serverId)
      : Handler PUnit).run statement pg = (.ok (), pg') ∧ Moves serverId (lastPosition body) pg pg' := by
  have hrun : ∃ pg', (body.forM fun update => execute (.updateRolePosition update.position update.id serverId)
      : Handler PUnit).run statement pg = (.ok (), pg') := by
    induction body generalizing pg with
    | nil => exact ⟨pg, rfl⟩
    | cons update body ih =>
      obtain ⟨n, pg₁, hexec⟩ : ∃ n pg₁, Sql.exec pg (.updateRolePosition update.position update.id serverId) =
        .ok (n, pg₁) := ⟨_, _, rfl⟩
      obtain ⟨pg', hrest⟩ := ih pg₁
      have hfirst : (execute (.updateRolePosition update.position update.id serverId) : Handler PUnit).run statement pg =
          (.ok (), pg₁) := execute_eq_ok.2 ⟨n, statement_eq_ok.2 hexec⟩
      exact ⟨pg', (run_bind_of_ok hfirst).trans hrest⟩
  obtain ⟨pg', hrun⟩ := hrun
  exact ⟨pg', hrun, writes_moves hrun⟩

/-- the last position that the list gives to a role of the server is below `i32::MAX` -/
def ReorderBelow (pg : Postgres) (auth serverId : ℤ) (body : List RolePositionUpdate) : Prop :=
  MayReorder pg auth serverId body → ∀ r ∈ pg.roles, r.serverId = serverId → ∀ p ∈ lastPosition body r.id, p < 2147483647

theorem reorderRoles_below_iff (hpg : Below pg) (body : List RolePositionUpdate) :
    Below ((reorderRoles auth serverId body).run statement pg).2 ↔ ReorderBelow pg auth serverId body := by
  obtain ⟨pg', hrun, hmoves⟩ := run_reorderWrites pg serverId body
  rw [← ends_state (P := Below), reorderRoles_eq, ends_checked readOnly_reorderChecks fun _ => hpg, ReorderBelow,
    ← hmoves.below_iff hpg, ← reorderChecks_iff hpg]
  constructor
  · intro h hchecks
    have hends := h () hchecks
    rwa [ends_bind_readOnly fun _ => readOnly_getRoles, ends_of_ok hrun] at hends
  · intro h _ hchecks
    rw [ends_bind_readOnly fun _ => readOnly_getRoles, ends_of_ok hrun]
    exact h hchecks

/-! ## Runs -/

/-- a request that is let through writes no position of `i32::MAX` -/
def PositionsBelow (pg : Postgres) : Op → Prop
  | .request (.createRole auth serverId body roleId _) => CreationBelow pg auth serverId body roleId
  | .request (.updateRole auth serverId roleId body) => UpdateBelow pg auth serverId roleId body
  | .request (.reorderRoles auth serverId body) => ReorderBelow pg auth serverId body
  | _ => True

def Request.setsPositions : Request → Bool
  | .createRole .. | .updateRole .. | .reorderRoles .. => true
  | _ => false

/-- the other requests write no positions, but for that of a new server's default role -/
theorem tame_of_footprint {r : Request} {w : Sql} (hw : r.Footprint w) (hr : r.setsPositions = false) : Tame w := by
  cases w with
  | insertRole row =>
    cases r <;> simp [Request.Footprint] at hw
    · rw [hw]
      exact (by decide : (0 : ℤ) < 2147483647)
    · cases hr
  | updateRole id serverId changes =>
    cases r <;> simp [Request.Footprint] at hw
    cases hr
  | updateRolePosition position id serverId =>
    cases r <;> simp [Request.Footprint] at hw
    cases hr
  | _ => trivial

theorem positionsBelow_of_other {r : Request} (hr : r.setsPositions = false) : PositionsBelow pg (.request r) := by
  cases r with
  | createRole auth serverId body roleId now => cases hr
  | updateRole auth serverId roleId body => cases hr
  | reorderRoles auth serverId body => cases hr
  | _ => trivial

theorem step_below_of_other {verifyPassword : String → String → Except String Bool} (hpg : Below pg) {r : Request}
    (hr : r.setsPositions = false) : Below (step verifyPassword pg (.request r)) := by
  have hissues : (r.handle verifyPassword).Issues Tame := (issues_request r).mono fun w hw => tame_of_footprint hw hr
  exact run_tame hissues hpg

theorem step_below_iff (verifyPassword : String → String → Except String Bool) (hpg : Below pg) (op : Op) :
    Below (step verifyPassword pg op) ↔ PositionsBelow pg op := by
  cases op with
  | elsewhere w =>
    refine iff_of_true (fun r hr => ?_) trivial
    rw [step, w.roles] at hr
    exact hpg r hr
  | request r =>
    rcases hr : r.setsPositions with _ | _
    · exact iff_of_true (step_below_of_other hpg hr) (positionsBelow_of_other hr)
    · cases r with
      | createRole auth serverId body roleId now =>
        rw [step, Request.handle, run_respond]
        exact createRole_below_iff hpg body now
      | updateRole auth serverId roleId body =>
        rw [step, Request.handle, run_respond]
        exact updateRole_below_iff hpg body
      | reorderRoles auth serverId body =>
        rw [step, Request.handle, run_respond]
        exact reorderRoles_below_iff hpg body
      | _ => cases hr

/-- **Positions are in range all along a run exactly if no request that is let through writes `i32::MAX`.** -/
theorem positions_inRange_iff (verifyPassword : String → String → Except String Bool) (users : Table User.id)
    (ops : List Op) :
    (∀ l, l <+: ops → InRange (Core.run (step verifyPassword) (noServers users) l)) ↔
      Every (step verifyPassword) PositionsBelow (noServers users) ops := by
  have hstart : Below (noServers users) := fun r hr => absurd hr Table.not_mem_empty
  simp only [inRange_iff]
  have hstep : ∀ op ∈ ops, ∀ pg, Below pg → (Below (step verifyPassword pg op) ↔ PositionsBelow pg op) := by
    intro op _ pg hpg
    exact step_below_iff verifyPassword hpg op
  exact every_iff_prefixes hstep hstart

/-! ## A second owner -/

/-- the owner gives the role of member 2 the highest position there is -/
def crownTrace : List Op :=
  moderatorTrace ++ [.request (.updateRole 1 100 110 ⟨none, none, none, none, none, none, some 2147483647⟩)]

/-- **Member 2 passes for the owner, and the next role of the server goes to the bottom.** -/
theorem second_owner :
    let pg := Core.run (step fun _ _ => .ok true) (noServers threeUsers) crownTrace
    (∃ r ∈ pg.roles.rows, r.id = 110 ∧ r.position = 2147483647) ∧
      pg.isOwner 100 2 = false ∧
      ((getActorHighestPosition 100 2).run statement pg).1 = .ok 2147483647 ∧
      nextPosition (topPosition pg 100) = -2147483648 := by
  decide

end Lumiere.Routes
