/-
Permission isolation between servers. `get_user_permissions` joins `member_roles` by role and user only, so an assignment
made under one server counts in the server of its role. Every handler but `update_member` assigns a role of the server it
works on; `update_member` takes the role ids from its body and never looks at the servers of the roles.

- `OwnRoles`: the request inserts no role of another server (the @everyone roles apart, which count anyway).
- `Isolated`: an assigned role that is no default role belongs to the server of its assignment. Every request that
  satisfies `OwnRoles` keeps it (`step_isolated`).
- `SameElsewhere A`: what the permissions in servers other than A are computed from is unchanged. Each of the nine
  handlers issues statements of its own server only, which have this effect whatever the state.
- `permissions_isolated`: in a run whose requests satisfy `OwnRoles`, a request on A changes no permissions elsewhere.
- `foreign_role_assigned`: the member of two servers who owns the first gives itself a role of the second.
-/
import Lumiere.Routes.Assignments

namespace Lumiere.Routes

open Lumiere.Core Lumiere.Core.Prog Lumiere.Models Lumiere.Db

/-! ## The invariant -/

/-- a role that the server may assign without a trace elsewhere -/
def OwnRole (pg : Postgres) (serverId roleId : ℤ) : Prop :=
  ∀ r ∈ pg.roles.rows, r.id = roleId → r.serverId = serverId ∨ r.isDefault = true

instance (pg : Postgres) (serverId roleId : ℤ) : Decidable (OwnRole pg serverId roleId) :=
  inferInstanceAs (Decidable (∀ r ∈ pg.roles.rows, r.id = roleId → r.serverId = serverId ∨ r.isDefault = true))

structure Isolated (pg : Postgres) : Prop where
  refs : References pg
  everyone : ∀ {serverId}, pg.hasServer serverId = true →
    ∃ r ∈ pg.roles, r.id = serverId ∧ r.serverId = serverId ∧ r.isDefault = true
  own : ∀ m ∈ pg.memberRoles, OwnRole pg m.serverId m.roleId

variable {pg pg' : Postgres} {w : Sql} {n : ℕ}

/-- the statements after which a role has another id or server, or is gone -/
theorem exec_role_kept (h : Sql.exec pg w = .ok (n, pg')) {r : Role} (hr : r ∈ pg.roles)
    (hserver : ∀ id, w = .deleteServer id → ¬ (r.serverId = id ∧ pg.hasServer id = true))
    (hrole : ∀ id serverId, w = .deleteRole id serverId → ¬ (r.id = id ∧ r.serverId = serverId)) :
    ∃ r' ∈ pg'.roles, r'.id = r.id ∧ r'.serverId = r.serverId ∧ r'.isDefault = r.isDefault := by
  have hroles := exec_roles h
  cases w with
  | insertRole row =>
    obtain ⟨-, -, name, hmem⟩ := hroles
    exact ⟨r, (hmem r).2 (.inl hr), rfl, rfl, rfl⟩
  | updateRole id serverId changes =>
    obtain ⟨c, -, -, hmem⟩ := hroles
    refine ⟨_, (hmem _).2 ⟨r, hr, rfl⟩, ?_⟩
    split_ifs <;> exact ⟨rfl, rfl, rfl⟩
  | updateRolePosition position id serverId =>
    refine ⟨_, (hroles _).2 ⟨r, hr, rfl⟩, ?_⟩
    split_ifs <;> exact ⟨rfl, rfl, rfl⟩
  | deleteServer id => exact ⟨r, (hroles r).2 ⟨hr, hserver id rfl⟩, rfl, rfl, rfl⟩
  | deleteRole id serverId => exact ⟨r, (hroles r).2 ⟨hr, hrole id serverId rfl⟩, rfl, rfl, rfl⟩
  | _ => exact ⟨r, by rw [hroles]; exact hr, rfl, rfl, rfl⟩

/-- where a role comes from: it was there, or it has just been inserted under a new id -/
theorem exec_role_origin (h : Sql.exec pg w = .ok (n, pg')) {r : Role} (hr : r ∈ pg'.roles) :
    (∃ r' ∈ pg.roles, r'.id = r.id ∧ r'.serverId = r.serverId ∧ r'.isDefault = r.isDefault) ∨
      pg.hasRole r.id = false ∧ ∃ row, w = .insertRole row ∧ r.id = row.id ∧ r.serverId = row.serverId ∧
        r.isDefault = row.isDefault := by
  have hroles := exec_roles h
  cases w with
  | insertRole row =>
    obtain ⟨-, hnew, name, hmem⟩ := hroles
    rcases (hmem r).1 hr with hold | rfl
    · exact .inl ⟨r, hold, rfl, rfl, rfl⟩
    · refine .inr ⟨?_, row, rfl, rfl, rfl, rfl⟩
      rw [← Bool.not_eq_true, hasRole_iff]
      rintro ⟨r', hr', hid⟩
      exact hnew r' hr' hid
  | updateRole id serverId changes =>
    obtain ⟨c, -, -, hmem⟩ := hroles
    obtain ⟨r', hr', rfl⟩ := (hmem r).1 hr
    refine .inl ⟨r', hr', ?_⟩
    split_ifs <;> exact ⟨rfl, rfl, rfl⟩
  | updateRolePosition position id serverId =>
    obtain ⟨r', hr', rfl⟩ := (hroles r).1 hr
    refine .inl ⟨r', hr', ?_⟩
    split_ifs <;> exact ⟨rfl, rfl, rfl⟩
  | deleteServer id => exact .inl ⟨r, ((hroles r).1 hr).1, rfl, rfl, rfl⟩
  | deleteRole id serverId => exact .inl ⟨r, ((hroles r).1 hr).1, rfl, rfl, rfl⟩
  | _ => exact .inl ⟨r, by rw [← hroles]; exact hr, rfl, rfl, rfl⟩

/-- where an assignment comes from -/
theorem exec_memberRole_origin (h : Sql.exec pg w = .ok (n, pg')) {m : MemberRole} (hm : m ∈ pg'.memberRoles) :
    m ∈ pg.memberRoles ∨ pg.hasRole m.roleId = true ∧ pg.hasMember m.serverId m.userId = true ∧
      (w = .insertMemberRole m ∨ w = .insertMemberRoleIgnore m) := by
  have hassigned := exec_memberRoles h
  cases w with
  | insertMemberRole row =>
    obtain ⟨hrole, hmember, hmem⟩ := hassigned
    rcases (hmem m).1 hm with hold | rfl
    · exact .inl hold
    · exact .inr ⟨hrole, hmember, .inl rfl⟩
  | insertMemberRoleIgnore row =>
    obtain ⟨hrefs, hmem⟩ := hassigned
    rcases (hmem m).1 hm with hold | rfl
    · exact .inl hold
    · rcases hrefs with hold | ⟨hrole, hmember⟩
      · exact .inl hold
      · exact .inr ⟨hrole, hmember, .inr rfl⟩
  | deleteServer id => exact .inl ((hassigned m).1 hm).1
  | deleteServerMember id userId => exact .inl ((hassigned m).1 hm).1
  | deleteMemberRoles id userId => exact .inl ((hassigned m).1 hm).1
  | deleteRole id serverId => exact .inl ((hassigned m).1 hm).1
  | _ => exact .inl (by rw [← hassigned]; exact hm)

theorem SameRoles.ownRole (h : SameRoles pg pg') {serverId roleId : ℤ} :
    OwnRole pg' serverId roleId ↔ OwnRole pg serverId roleId := by
  rw [OwnRole, OwnRole, h.1]

/-- what a statement has to satisfy to keep `Isolated` -/
def Fits (pg : Postgres) : Sql → Prop
  | .insertServer _ => False
  | .deleteRole roleId serverId => ∀ r ∈ pg.roles, r.id = roleId → r.serverId = serverId → r.isDefault = false
  | .insertMemberRole row => row.roleId = row.serverId
  | .insertMemberRoleIgnore row => pg.hasMember row.serverId row.userId = true → OwnRole pg row.serverId row.roleId
  | _ => True

/-- assignments stay within their servers, also where a server has no @everyone role yet -/
theorem exec_own (h : Sql.exec pg w = .ok (n, pg')) (hpg : Isolated pg)
    (hw : Fits pg w ∨ ∃ row, w = .insertServer row) :
    ∀ m ∈ pg'.memberRoles, OwnRole pg' m.serverId m.roleId := by
  intro m hm r hr hid
  have hrole : pg.hasRole m.roleId = true := by
    rcases exec_memberRole_origin h hm with hold | ⟨hrole, -⟩
    · exact hpg.refs.role m hold
    · exact hrole
  obtain ⟨r', hr', hid', hserver, hdefault⟩ : ∃ r' ∈ pg.roles, r'.id = r.id ∧ r'.serverId = r.serverId ∧
      r'.isDefault = r.isDefault := by
    rcases exec_role_origin h hr with hold | ⟨hnew, -⟩
    · exact hold
    · rw [hid, hrole] at hnew
      cases hnew
  rw [← hserver, ← hdefault]
  rcases exec_memberRole_origin h hm with hold | ⟨-, hmember, rfl | rfl⟩
  · exact hpg.own m hold r' hr' (hid'.trans hid)
  · rcases hw with hw | ⟨row, hw⟩
    · -- the role with the id of the server is the server's own
      obtain ⟨e, he, heid, heserver, -⟩ := hpg.everyone (hpg.refs.server hmember)
      have hself : m.roleId = m.serverId := hw
      have hsame : r' = e := Table.eq_of_key_eq hr' he ((hid'.trans hid).trans (hself.trans heid.symm))
      exact .inl (hsame ▸ heserver)
    · cases hw
  · rcases hw with hw | ⟨row, hw⟩
    · exact hw hmember r' hr' (hid'.trans hid)
    · cases hw

/-- servers come from `INSERT INTO servers` only -/
theorem exec_hasServer_origin (h : Sql.exec pg w = .ok (n, pg')) {serverId : ℤ} (hs : pg'.hasServer serverId = true) :
    pg.hasServer serverId = true ∨ ∃ row, w = .insertServer row ∧ serverId = row.id := by
  have howners := exec_owners h
  obtain ⟨ownerId, hmem⟩ := hasServer_iff.1 hs
  rw [hasServer_iff]
  cases w with
  | insertServer row =>
    rw [howners, List.mem_append, List.mem_singleton, Prod.mk.injEq] at hmem
    rcases hmem with hmem | ⟨rfl, -⟩
    · exact .inl ⟨ownerId, hmem⟩
    · exact .inr ⟨row, rfl, rfl⟩
  | updateServerOwner id newOwner =>
    rw [howners, List.mem_map] at hmem
    obtain ⟨⟨id', owner'⟩, hmem, heq⟩ := hmem
    dsimp only at heq
    split_ifs at heq with hid <;> obtain ⟨rfl, -⟩ := Prod.mk.inj heq
    · exact .inl ⟨owner', hmem⟩
    · exact .inl ⟨owner', hmem⟩
  | deleteServer id =>
    rw [howners, List.mem_filter] at hmem
    exact .inl ⟨ownerId, hmem.1⟩
  | _ => exact .inl ⟨ownerId, by rw [← howners]; exact hmem⟩

theorem exec_isolated (h : Sql.exec pg w = .ok (n, pg')) (hpg : Isolated pg) (hw : Fits pg w) : Isolated pg' where
  refs := exec_references h hpg.refs
  everyone {serverId} hs := by
    rcases exec_hasServer_origin h hs with hold | ⟨row, rfl, -⟩
    · obtain ⟨r, hr, hid, hserver, hdefault⟩ := hpg.everyone hold
      obtain ⟨r', hr', h1, h2, h3⟩ := exec_role_kept h hr
        (by
          rintro id rfl ⟨rfl, -⟩
          obtain ⟨ownerId, hmem⟩ := hasServer_iff.1 hs
          rw [exec_owners h, List.mem_filter, hserver] at hmem
          simp at hmem)
        (by
          rintro id serverId' rfl ⟨hrid, hrserver⟩
          rw [hw r hr hrid hrserver] at hdefault
          cases hdefault)
      exact ⟨r', hr', h1.trans hid, h2.trans hserver, h3.trans hdefault⟩
    · exact hw.elim
  own := exec_own h hpg (.inl hw)

/-- a new server and its @everyone role -/
theorem exec_newServer_isolated {row : Server} {now : DateTime} {n' : ℕ} {pg'' : Postgres} (hpg : Isolated pg)
    (h : Sql.exec pg (.insertServer row) = .ok (n, pg'))
    (h' : Sql.exec pg' (.insertRole (everyoneRole row.id now)) = .ok (n', pg'')) : Isolated pg'' := by
  have hroles : pg'.roles = pg.roles := exec_roles h
  have hassigned : pg''.memberRoles = pg'.memberRoles := exec_memberRoles h'
  have hrefs := exec_references h hpg.refs
  have hown := exec_own h hpg (.inr ⟨row, rfl⟩)
  refine ⟨exec_references h' hrefs, fun {serverId} hs => ?_, fun m hm r hr hid => ?_⟩
  · rcases exec_hasServer_origin h' hs with hs' | ⟨_, hw, -⟩
    · rcases exec_hasServer_origin h hs' with hold | ⟨row', hw, rfl⟩
      · obtain ⟨r, hr, hid, hserver, hdefault⟩ := hpg.everyone hold
        obtain ⟨r', hr', h1, h2, h3⟩ := exec_role_kept h' (hroles ▸ hr) (by simp) (by simp)
        exact ⟨r', hr', h1.trans hid, h2.trans hserver, h3.trans hdefault⟩
      · obtain rfl := Sql.insertServer.inj hw
        obtain ⟨-, -, name, hmem⟩ := exec_roles h'
        exact ⟨_, (hmem _).2 (.inr rfl), rfl, rfl, rfl⟩
    · cases hw
  · rw [hassigned] at hm
    rcases exec_role_origin h' hr with ⟨r', hr', h1, h2, h3⟩ | ⟨hnew, -⟩
    · rw [← h2, ← h3]
      exact hown m hm r' hr' (h1.trans hid)
    · rw [hid, hrefs.role m hm] at hnew
      cases hnew

/-! ## The requests that keep it -/

/-- a statement that fits whatever the state -/
def Routine (w : Sql) : Prop := ∀ pg, Fits pg w

theorem run_routine {α : Type} {p : Handler α} (h : p.Issues Routine) (hpg : Isolated pg) :
    Isolated (p.run statement pg).2 :=
  issues_run (fun _ pg _ _ hw hpg h => exec_isolated (statement_eq_ok.1 h) hpg (hw pg)) h hpg

theorem createServer_isolated {auth serverId textChannelId voiceChannelId : ℤ} {body : CreateServerRequest}
    {now : DateTime} (hpg : Isolated pg) :
    Isolated ((createServer auth body serverId textChannelId voiceChannelId now).run statement pg).2 := by
  refine run_bind_of_readOnly (issues_failIf _ _) hpg fun _ _ => run_bind_of_readOnly (issues_select _) hpg fun _ _ =>
    run_bind_of_readOnly (issues_failIf _ _) hpg fun _ _ => run_bind_inv (run_atomically_inv hpg fun u s' h => ?_)
      fun _ _ _ h => run_routine readOnly_fetchServer.issues h
  obtain ⟨_, pg₁, hinsert, h⟩ := run_bind_eq_ok.1 h
  obtain ⟨_, pg₂, heveryone, h⟩ := run_bind_eq_ok.1 h
  obtain ⟨_, hinsert⟩ := execute_eq_ok.1 hinsert
  obtain ⟨_, heveryone⟩ := execute_eq_ok.1 heveryone
  have hpg₂ := exec_newServer_isolated hpg (statement_eq_ok.1 hinsert) (statement_eq_ok.1 heveryone)
  obtain rfl : _ = s' := congrArg Prod.snd h
  exact run_routine (issues_bind (issues_execute fun _ => trivial) fun _ =>
    issues_bind (issues_execute fun _ => trivial) fun _ => issues_bind (issues_execute fun _ => trivial) fun _ =>
      issues_bind (issues_execute fun _ => trivial) fun _ => issues_execute fun _ => rfl) hpg₂

/-- the role that `delete_role` deletes is no default role -/
theorem deleteRole_isolated {auth serverId roleId : ℤ} (hpg : Isolated pg) :
    Isolated ((deleteRole auth serverId roleId).run statement pg).2 := by
  refine run_bind_of_readOnly readOnly_requirePermissions hpg fun _ _ =>
    run_bind_of_readOnly readOnly_serverRole hpg fun role hrole =>
    run_bind_of_readOnly (issues_failIf _ _) hpg fun _ hdefault =>
    run_bind_of_readOnly readOnly_getActorHighestPosition hpg fun _ _ =>
    run_bind_of_readOnly (issues_select _) hpg fun _ _ => run_bind_of_readOnly (issues_orFail _ _) hpg fun _ _ =>
    run_bind_of_readOnly (issues_failIf _ _) hpg fun _ _ => run_execute_inv hpg fun n pg' h => ?_
  obtain ⟨hmem, rfl, rfl, -⟩ := serverRole_eq_ok hrole
  refine exec_isolated (statement_eq_ok.1 h) hpg fun r hr hid _ => ?_
  rw [Table.eq_of_key_eq hr hmem hid, ← Bool.not_eq_true]
  exact (failIf_eq_ok.1 hdefault).1

/-- an `update_member` that inserts roles inserts roles of its server or default roles -/
def OwnRoles (pg : Postgres) : Op → Prop
  | .request (.updateMember auth serverId userId body) =>
    reachesRoles pg auth serverId userId body = true → pg.hasMember serverId userId = true →
      ∀ id ∈ (body.roles.getD []).takeWhile pg.hasRole, OwnRole pg serverId id
  | _ => True

instance (pg : Postgres) : (op : Op) → Decidable (OwnRoles pg op)
  | .request (.updateMember auth serverId userId body) => inferInstanceAs (Decidable (
      reachesRoles pg auth serverId userId body = true → pg.hasMember serverId userId = true →
        ∀ id ∈ (body.roles.getD []).takeWhile pg.hasRole, OwnRole pg serverId id))
  | .request (.createServer ..) | .request (.updateServer ..) | .request (.deleteServer ..)
  | .request (.updateSelfMember ..) | .request (.kickMember ..) | .request (.leaveServer ..) | .request (.createBan ..)
  | .request (.removeBan ..) | .request (.createInvite ..) | .request (.useInvite ..) | .request (.deleteInvite ..)
  | .request (.createRole ..) | .request (.updateRole ..) | .request (.deleteRole ..) | .request (.reorderRoles ..)
  | .request (.setChannelOverride ..) | .request (.deleteChannelOverride ..) | .elsewhere _ => isTrue trivial

theorem updateMember_isolated {auth serverId userId : ℤ} {body : UpdateMemberRequest} (hpg : Isolated pg)
    (h : OwnRoles pg (.request (.updateMember auth serverId userId body))) :
    Isolated ((updateMember auth serverId userId body).run statement pg).2 := by
  refine updateMember_inv (fun _ => Isolated.refs) ?_ ?_ hpg
  · rintro w (⟨_, rfl⟩ | ⟨_, rfl⟩ | rfl) pg₁ n pg₂ hexec hpg₁ <;> exact exec_isolated hexec hpg₁ trivial
  · intro hreach id hid pg₁ n pg₂ hsame hpg₁ hexec
    refine exec_isolated hexec hpg₁ fun hmember => hsame.ownRole.2 (h hreach ?_ id hid)
    rw [← hsame.2]
    exact hmember

theorem OtherWrite.isolated (w : OtherWrite) (hpg : Isolated pg) : Isolated (w.apply pg) where
  refs := w.references hpg.refs
  everyone {serverId} hs := by
    obtain ⟨ownerId, hmem⟩ := hasServer_iff.1 hs
    rw [Postgres.owners, w.owners] at hmem
    rw [w.roles]
    exact hpg.everyone (hasServer_iff.2 ⟨ownerId, hmem⟩)
  own := by
    rw [w.memberRoles]
    simp only [OwnRole, w.roles]
    exact hpg.own

variable {verifyPassword : String → String → Except String Bool}

/-- one request or write of another module -/
theorem step_isolated {op : Op} (h : OwnRoles pg op) (hpg : Isolated pg) : Isolated (step verifyPassword pg op) := by
  cases op with
  | elsewhere w => exact w.isolated hpg
  | request r =>
    rw [step]
    cases r <;> simp only [Request.handle, run_respond]
    case createServer => exact createServer_isolated hpg
    case updateServer =>
      refine run_routine (issues_updateServer.mono ?_) hpg
      rintro w (⟨_, rfl⟩ | ⟨_, rfl⟩) <;> exact fun _ => trivial
    case deleteServer =>
      refine run_routine (issues_deleteServer.mono ?_) hpg
      rintro w rfl
      exact fun _ => trivial
    case updateMember => exact updateMember_isolated hpg h
    case updateSelfMember =>
      refine run_routine (issues_updateSelfMember.mono ?_) hpg
      rintro w ⟨_, rfl⟩
      exact fun _ => trivial
    case kickMember =>
      refine run_routine (issues_kickMember.mono ?_) hpg
      rintro w (rfl | rfl) <;> exact fun _ => trivial
    case leaveServer =>
      refine run_routine (issues_leaveServer.mono ?_) hpg
      rintro w (rfl | rfl) <;> exact fun _ => trivial
    case createBan =>
      refine run_routine (issues_createBan.mono ?_) hpg
      rintro w (rfl | rfl | rfl) <;> exact fun _ => trivial
    case removeBan =>
      refine run_routine (issues_removeBan.mono ?_) hpg
      rintro w rfl
      exact fun _ => trivial
    case createInvite =>
      refine run_routine (issues_createInvite.mono ?_) hpg
      rintro w ⟨_, rfl⟩
      exact fun _ => trivial
    case useInvite =>
      refine run_routine (issues_useInvite.mono ?_) hpg
      rintro w (⟨_, rfl⟩ | ⟨_, rfl⟩ | ⟨_, rfl⟩ | ⟨_, rfl⟩)
      · exact fun _ => trivial
      · exact fun _ => rfl
      · exact fun _ => trivial
      · exact fun _ => trivial
    case deleteInvite =>
      refine run_routine (issues_deleteInvite.mono ?_) hpg
      rintro w rfl
      exact fun _ => trivial
    case createRole =>
      refine run_routine (issues_createRole.mono ?_) hpg
      rintro w ⟨_, rfl, -⟩
      exact fun _ => trivial
    case updateRole =>
      refine run_routine (issues_updateRole.mono ?_) hpg
      rintro w ⟨_, rfl⟩
      exact fun _ => trivial
    case deleteRole => exact deleteRole_isolated hpg
    case reorderRoles =>
      refine run_routine (issues_reorderRoles.mono ?_) hpg
      rintro w ⟨_, _, rfl⟩
      exact fun _ => trivial
    case setChannelOverride =>
      refine run_routine (issues_setChannelOverride.mono ?_) hpg
      rintro w ⟨_, rfl⟩
      exact fun _ => trivial
    case deleteChannelOverride =>
      refine run_routine (issues_deleteChannelOverride.mono ?_) hpg
      rintro w rfl
      exact fun _ => trivial

theorem noServers_isolated (users : Table User.id) : Isolated (noServers users) where
  refs := noServers_references users
  everyone h := by cases h
  own m hm := absurd hm Table.not_mem_empty

theorem run_isolated {users : Table User.id} {ops : List Op}
    (h : Every (step verifyPassword) OwnRoles (noServers users) ops) :
    Isolated (Core.run (step verifyPassword) (noServers users) ops) :=
  run_inv_of_every (fun _ _ => step_isolated) (noServers_isolated users) h

/-! ## What a request on one server leaves alone -/

/-- what the permissions in servers other than A are computed from -/
structure SameElsewhere (A : ℤ) (pg pg' : Postgres) : Prop where
  owner : ∀ {B}, B ≠ A → ∀ userId, pg'.isOwner B userId = pg.isOwner B userId
  role : ∀ r : Role, r.serverId ≠ A → (r ∈ pg'.roles ↔ r ∈ pg.roles)
  /-- the assignments of a role under its own server -/
  assigned : ∀ r ∈ pg.roles, r.serverId ≠ A → ∀ userId,
    (⟨r.serverId, userId, r.id⟩ ∈ pg'.memberRoles ↔ ⟨r.serverId, userId, r.id⟩ ∈ pg.memberRoles)

theorem SameElsewhere.refl (A : ℤ) (pg : Postgres) : SameElsewhere A pg pg :=
  ⟨fun _ _ => rfl, fun _ _ => Iff.rfl, fun _ _ _ _ => Iff.rfl⟩

theorem SameElsewhere.trans {A : ℤ} {pg'' : Postgres} (h : SameElsewhere A pg pg') (h' : SameElsewhere A pg' pg'') :
    SameElsewhere A pg pg'' where
  owner hB u := (h'.owner hB u).trans (h.owner hB u)
  role r hr := (h'.role r hr).trans (h.role r hr)
  assigned r hr hA u := (h'.assigned r ((h.role r hA).2 hr) hA u).trans (h.assigned r hr hA u)

/-- a statement on the roles or members of server A, or on neither -/
def OnServer (A : ℤ) : Sql → Prop
  | .insertServer _ | .updateServerOwner .. | .deleteServer _ => False
  | .insertRole row => row.serverId = A
  | .insertMemberRole row | .insertMemberRoleIgnore row => row.serverId = A
  | .updateRole _ serverId _ | .updateRolePosition _ _ serverId | .deleteRole _ serverId => serverId = A
  | .deleteServerMember serverId _ | .deleteMemberRoles serverId _ => serverId = A
  | _ => True

theorem exec_sameElsewhere {A : ℤ} (h : Sql.exec pg w = .ok (n, pg')) (hw : OnServer A w) : SameElsewhere A pg pg' where
  owner {B} _ userId := by
    have howners := exec_owners h
    rw [Bool.eq_iff_iff, isOwner_iff, isOwner_iff]
    cases w with
    | insertServer | updateServerOwner | deleteServer => exact hw.elim
    | _ => rw [howners]
  role r hr := by
    have hroles := exec_roles h
    cases w with
    | insertRole row =>
      obtain ⟨-, -, name, hmem⟩ := hroles
      rw [hmem r]
      refine or_iff_left ?_
      rintro rfl
      exact hr hw
    | updateRole id serverId changes =>
      obtain ⟨c, -, -, hmem⟩ := hroles
      rw [hmem r]
      constructor
      · rintro ⟨r', hr', rfl⟩
        split_ifs at hr ⊢ with hc
        · exact absurd (hc.2.trans hw) hr
        · exact hr'
      · exact fun hold => ⟨r, hold, if_neg fun hc => hr (hc.2.trans hw)⟩
    | updateRolePosition position id serverId =>
      rw [hroles r]
      constructor
      · rintro ⟨r', hr', rfl⟩
        split_ifs at hr ⊢ with hc
        · exact absurd (hc.2.trans hw) hr
        · exact hr'
      · exact fun hold => ⟨r, hold, if_neg fun hc => hr (hc.2.trans hw)⟩
    | deleteRole id serverId =>
      rw [hroles r]
      exact and_iff_left fun hc => hr (hc.2.trans hw)
    | deleteServer => exact hw.elim
    | _ => rw [hroles]
  assigned r hr hA userId := by
    have hassigned := exec_memberRoles h
    cases w with
    | insertMemberRole row =>
      rw [hassigned.2.2]
      refine or_iff_left ?_
      rintro rfl
      exact hA hw
    | insertMemberRoleIgnore row =>
      rw [hassigned.2]
      refine or_iff_left ?_
      rintro rfl
      exact hA hw
    | deleteServerMember serverId member =>
      rw [hassigned]
      exact and_iff_left fun hc => hA (hc.1.trans hw)
    | deleteMemberRoles serverId member =>
      rw [hassigned]
      exact and_iff_left fun hc => hA (hc.1.trans hw)
    | deleteRole id serverId =>
      rw [hassigned]
      refine and_iff_left ?_
      rintro ⟨r', hr', -, hserver, hid⟩
      rw [Table.eq_of_key_eq hr' hr hid] at hserver
      exact hA (hserver.trans hw)
    | deleteServer => exact hw.elim
    | _ => rw [hassigned]

theorem run_sameElsewhere {α : Type} {A : ℤ} {p : Handler α} (h : p.Issues (OnServer A)) {pg₀ : Postgres}
    (hpg : SameElsewhere A pg₀ pg) : SameElsewhere A pg₀ (p.run statement pg).2 :=
  issues_run (fun _ _ _ _ hw hpg h => hpg.trans (exec_sameElsewhere (statement_eq_ok.1 h) hw)) h hpg

/-- the server of the nine requests, for an invite the server that it leads to -/
def Request.server? (pg : Postgres) : Request → Option ℤ
  | .updateMember _ serverId _ _ | .kickMember _ serverId _ | .leaveServer _ serverId | .createBan _ serverId _ _
  | .createRole _ serverId _ _ _ | .updateRole _ serverId _ _ | .deleteRole _ serverId _
  | .reorderRoles _ serverId _ => some serverId
  | .useInvite _ code _ => (pg.invites.find? fun i => i.code = code).map Invite.serverId
  | _ => none

theorem useInvite_sameElsewhere {A auth : ℤ} {code : String} {now : DateTime}
    (h : (pg.invites.find? fun i => i.code = code).map Invite.serverId = some A) :
    SameElsewhere A pg ((useInvite auth code now).run statement pg).2 := by
  refine run_bind_inv (I := SameElsewhere A pg) (run_atomically_inv (.refl A pg) fun serverId s' hbody => ?_)
    fun _ _ _ h => run_sameElsewhere readOnly_fetchServer.issues h
  rw [run_bind_of_ok (run_select _)] at hbody
  obtain ⟨invite, pg₁, hrow, hjoin⟩ := run_bind_eq_ok.1 hbody
  obtain ⟨hfind, rfl⟩ := orFail_eq_ok.1 hrow
  rw [hfind, Option.map_some, Option.some.injEq] at h
  subst h
  obtain rfl : _ = s' := congrArg Prod.snd hjoin
  refine run_sameElsewhere (issues_joinServer.mono ?_) (.refl _ _)
  rintro w (rfl | rfl | rfl | rfl)
  · trivial
  · rfl
  · trivial
  · trivial

/-- a request on server A, whatever the state -/
theorem request_sameElsewhere {A : ℤ} {r : Request} (h : r.server? pg = some A) :
    SameElsewhere A pg (step verifyPassword pg (.request r)) := by
  rw [step]
  cases r <;> simp only [Request.handle, run_respond]
  case useInvite => exact useInvite_sameElsewhere h
  all_goals cases h
  case updateMember =>
    refine run_sameElsewhere (issues_updateMember.mono ?_) (.refl _ _)
    rintro w (⟨_, rfl⟩ | ⟨_, -, rfl⟩ | rfl | ⟨_, rfl⟩)
    · trivial
    · trivial
    · rfl
    · rfl
  case kickMember =>
    refine run_sameElsewhere (issues_kickMember.mono ?_) (.refl _ _)
    rintro w (rfl | rfl)
    · rfl
    · trivial
  case leaveServer =>
    refine run_sameElsewhere (issues_leaveServer.mono ?_) (.refl _ _)
    rintro w (rfl | rfl)
    · rfl
    · trivial
  case createBan =>
    refine run_sameElsewhere (issues_createBan.mono ?_) (.refl _ _)
    rintro w (rfl | rfl | rfl)
    · rfl
    · trivial
    · trivial
  case createRole =>
    refine run_sameElsewhere (issues_createRole.mono ?_) (.refl _ _)
    rintro w ⟨_, rfl, -, hserver, -⟩
    exact hserver
  case updateRole =>
    refine run_sameElsewhere (issues_updateRole.mono ?_) (.refl _ _)
    rintro w ⟨_, rfl⟩
    rfl
  case deleteRole =>
    refine run_sameElsewhere (issues_deleteRole.mono ?_) (.refl _ _)
    rintro w rfl
    rfl
  case reorderRoles =>
    refine run_sameElsewhere (issues_reorderRoles.mono ?_) (.refl _ _)
    rintro w ⟨_, _, rfl⟩
    rfl

/-- under the invariant a role counts for a user by an assignment under its own server -/
theorem Isolated.effective_iff (hpg : Isolated pg) {serverId userId : ℤ} {r : Role} :
    Effective pg serverId userId r ↔ r ∈ pg.roles ∧ r.serverId = serverId ∧
      (r.isDefault = true ∨ ⟨serverId, userId, r.id⟩ ∈ pg.memberRoles) := by
  refine and_congr_right fun hr => and_congr_right fun hserver => ⟨?_, ?_⟩
  · rintro (hd | ⟨⟨s, u, id⟩, hm, rfl, rfl⟩)
    · exact .inl hd
    · rcases hpg.own _ hm r hr rfl with h | hd
      · have hs : s = serverId := h.symm.trans hserver
        exact .inr (hs ▸ hm)
      · exact .inl hd
  · rintro (hd | hm)
    · exact .inl hd
    · exact .inr ⟨_, hm, rfl, rfl⟩

theorem SameElsewhere.userPermissions {A B : ℤ} (h : SameElsewhere A pg pg') (hpg : Isolated pg) (hpg' : Isolated pg')
    (hB : B ≠ A) (userId : ℤ) : pg'.userPermissions B userId = pg.userPermissions B userId := by
  refine userPermissions_congr (h.owner hB userId) fun r => ?_
  rw [hpg.effective_iff, hpg'.effective_iff]
  constructor
  · rintro ⟨hr, rfl, hassigned⟩
    have hr' := (h.role r hB).1 hr
    exact ⟨hr', rfl, hassigned.imp_right (h.assigned r hr' hB userId).1⟩
  · rintro ⟨hr, rfl, hassigned⟩
    exact ⟨(h.role r hB).2 hr, rfl, hassigned.imp_right (h.assigned r hr hB userId).2⟩

/-- **A request on one server changes no permissions in another, as long as no foreign role is assigned.** -/
theorem permissions_isolated (verifyPassword : String → String → Except String Bool) (users : Table User.id)
    (ops : List Op) (r : Request)
    (h : Every (step verifyPassword) OwnRoles (noServers users) (ops ++ [.request r])) (A : ℤ)
    (hA : r.server? (Core.run (step verifyPassword) (noServers users) ops) = some A) (B userId : ℤ) (hB : B ≠ A) :
    ((getUserPermissions B userId).run statement
        (Core.run (step verifyPassword) (noServers users) (ops ++ [.request r]))).1 =
      ((getUserPermissions B userId).run statement (Core.run (step verifyPassword) (noServers users) ops)).1 := by
  have hpg := run_isolated ((every_append _ _ _).1 h).1
  have hpg' := run_isolated h
  rw [run_snoc] at hpg' ⊢
  rw [run_getUserPermissions, run_getUserPermissions, (request_sameElsewhere hA).userPermissions hpg hpg' hB userId]

/-! ## Two servers -/

def twoUsers : Table User.id := ⟨[account 1 "ada", account 2 "bob"], adaAndBob.nodup⟩

/-- user 1 owns server 100 and is a member of server 200, whose owner has made role 203 with MANAGE_SERVER -/
def twoServersTrace : List Op :=
  [.request (.createServer 1 ⟨"first", none, none⟩ 100 101 102 ⟨0⟩),
   .request (.createServer 2 ⟨"second", none, none⟩ 200 201 202 ⟨0⟩),
   .request (.createInvite 2 201 ⟨none, none, none⟩ "join" ⟨0⟩),
   .request (.useInvite 1 "join" ⟨0⟩),
   .request (.createRole 2 200 ⟨"mods", none, none, none, some "4"⟩ 203 ⟨0⟩)]

/-- user 1 lists a role for itself on its own server 100 -/
def assignSelf (roleId : ℤ) : Request := .updateMember 1 100 1 ⟨none, some [roleId], none⟩

theorem permissions_isolated_ownRole :
    Every (step fun _ _ => .ok true) OwnRoles (noServers twoUsers)
        (twoServersTrace ++ [.request (assignSelf 100)]) ∧
      ((getUserPermissions 200 1).run statement
          (Core.run (step fun _ _ => .ok true) (noServers twoUsers) (twoServersTrace ++ [.request (assignSelf 100)]))).1 =
        ((getUserPermissions 200 1).run statement
          (Core.run (step fun _ _ => .ok true) (noServers twoUsers) twoServersTrace)).1 :=
  ⟨by decide, permissions_isolated (fun _ _ => .ok true) twoUsers twoServersTrace (assignSelf 100) (by decide) 100 rfl
    200 1 (by decide)⟩

/-- **The owner of server 100 gives itself MANAGE_SERVER in server 200.** -/
theorem foreign_role_assigned :
    (assignSelf 203).server? (Core.run (step fun _ _ => .ok true) (noServers twoUsers) twoServersTrace) = some 100 ∧
      ((getUserPermissions 200 1).run statement
          (Core.run (step fun _ _ => .ok true) (noServers twoUsers) twoServersTrace)).1 =
        .ok Permissions.defaultEveryone ∧
      ((getUserPermissions 200 1).run statement
          (Core.run (step fun _ _ => .ok true) (noServers twoUsers)
            (twoServersTrace ++ [.request (assignSelf 203)]))).1 =
        .ok (Permissions.defaultEveryone ||| .manageServer) := by
  decide

end Lumiere.Routes
