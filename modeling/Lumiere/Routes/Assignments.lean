/-
How `update_member` assigns roles. It deletes the member's assignments and inserts the listed ones one by one, stopping
at the first id that names no role. The statements before the insertions change neither the roles nor the members, so
which ids get inserted is known from the state at the start.

- `reachesRoles`: the checks and the other fields let the request go on to its roles.
- `updateMember_inv`: what a property needs to survive `update_member`: the three statements on the member's own rows
  keep it, and so does each insertion that can happen.
-/
import Lumiere.Db.Effects
import Lumiere.Routes.Footprints

namespace Lumiere.Routes

open Lumiere.Core Lumiere.Core.Prog Lumiere.Models Lumiere.Db

variable {pg pg' : Postgres} {w : Sql} {n : ℕ} {auth serverId userId : ℤ} {body : UpdateMemberRequest}

theorem run_respond {α : Type} (h : Handler α) : ((respond h).run statement pg).2 = (h.run statement pg).2 := by
  rw [respond, run_bind]
  rcases h.run statement pg with ⟨e | a, pg'⟩ <;> rfl

theorem serverRole_eq_ok {roleId : ℤ} {r : Role} (h : (serverRole roleId serverId).run statement pg = (.ok r, pg')) :
    r ∈ pg.roles ∧ r.id = roleId ∧ r.serverId = serverId ∧ pg' = pg := by
  rw [serverRole, run_bind_of_ok (run_select _), orFail_eq_ok] at h
  obtain ⟨hr, hp⟩ := Table.mem_of_find? h.1
  rw [Bool.and_eq_true, decide_eq_true_eq, decide_eq_true_eq] at hp
  exact ⟨hr, hp.1, hp.2, h.2⟩

/-! ## References -/

theorem OtherWrite.references (w : OtherWrite) (hpg : References pg) : References (w.apply pg) where
  server {serverId userId} hm := by
    rw [Postgres.hasMember, w.serverMembers] at hm
    obtain ⟨ownerId, hmem⟩ := hasServer_iff.1 (hpg.server hm)
    exact hasServer_iff.2 ⟨ownerId, by rw [Postgres.owners, w.owners]; exact hmem⟩
  role m hm := by
    rw [w.memberRoles] at hm
    rw [Postgres.hasRole, w.roles]
    exact hpg.role m hm

theorem noServers_references (users : Table User.id) : References (noServers users) :=
  ⟨nofun, fun _ hm => absurd hm Table.not_mem_empty⟩

theorem run_references (verifyPassword : String → String → Except String Bool) (users : Table User.id) (ops : List Op) :
    References (Core.run (step verifyPassword) (noServers users) ops) := by
  refine run_inv (fun pg op hpg => ?_) (noServers_references users) ops
  cases op with
  | request r =>
    exact issues_run (fun _ _ _ _ _ hpg h => exec_references (statement_eq_ok.1 h) hpg) (issues_true _) hpg
  | elsewhere w => exact w.references hpg

/-! ## What `update_member` does -/

/-- the tables that decide which roles `update_member` can insert -/
def SameRoles (pg pg' : Postgres) : Prop :=
  pg'.roles = pg.roles ∧ ∀ serverId userId, pg'.hasMember serverId userId = pg.hasMember serverId userId

theorem SameRoles.refl (pg : Postgres) : SameRoles pg pg := ⟨rfl, fun _ _ => rfl⟩

theorem SameRoles.trans {pg'' : Postgres} (h : SameRoles pg pg') (h' : SameRoles pg' pg'') : SameRoles pg pg'' :=
  ⟨h'.1.trans h.1, fun s u => (h'.2 s u).trans (h.2 s u)⟩

theorem SameRoles.hasRole (h : SameRoles pg pg') : pg'.hasRole = pg.hasRole := by
  funext id
  rw [Postgres.hasRole, Postgres.hasRole, h.1]

/-- the statements of `update_member` before the insertions -/
def OnMember (serverId userId : ℤ) (w : Sql) : Prop :=
  (∃ nickname, w = .updateNickname serverId userId nickname) ∨
    (∃ disabledUntil, w = .updateTimeout serverId userId disabledUntil) ∨ w = .deleteMemberRoles serverId userId

theorem onMember_updateMemberFields : (updateMemberFields serverId userId body).Issues (OnMember serverId userId) := by
  refine issues_updateMemberFields.mono ?_
  rintro w (h | ⟨timeout, -, h⟩)
  · exact .inl h
  · exact .inr (.inl ⟨timeout, h⟩)

theorem OnMember.sameRoles (hw : OnMember serverId userId w) (h : Sql.exec pg w = .ok (n, pg')) : SameRoles pg pg' := by
  have hroles := exec_roles h
  have hmember := fun serverId userId => exec_hasMember serverId userId h
  rcases hw with ⟨_, rfl⟩ | ⟨_, rfl⟩ | rfl <;> exact ⟨hroles, hmember⟩

theorem insert_sameRoles {row : MemberRole} (h : Sql.exec pg (.insertMemberRoleIgnore row) = .ok (n, pg')) :
    SameRoles pg pg' := ⟨exec_roles h, fun serverId userId => exec_hasMember serverId userId h⟩

/-- an insertion that succeeds is of a role that exists -/
theorem hasRole_of_insert {row : MemberRole} (hrefs : References pg)
    (h : Sql.exec pg (.insertMemberRoleIgnore row) = .ok (n, pg')) : pg.hasRole row.roleId = true := by
  rcases (exec_insertMemberRoleIgnore h).2 with hold | ⟨hrole, -⟩
  · exact hrefs.role _ hold
  · exact hrole

/-- the checks and the other fields of `update_member` let it go on to the roles -/
def reachesRoles (pg : Postgres) (auth serverId userId : ℤ) (body : UpdateMemberRequest) : Bool :=
  (do
    updateMemberChecks auth serverId userId body
    updateMemberFields serverId userId body : Handler Unit).succeeds statement pg

section Invariant

variable {I : Postgres → Prop} (hrefs : ∀ pg, I pg → References pg)

include hrefs

/-- the insertions, which stop at the first role that does not exist -/
theorem insertRoles_inv {pg₁ : Postgres} {roleIds : List ℤ}
    (hinsert : ∀ id ∈ roleIds.takeWhile pg.hasRole, ∀ pg₁ n pg₂, SameRoles pg pg₁ → I pg₁ →
      Sql.exec pg₁ (.insertMemberRoleIgnore ⟨serverId, userId, id⟩) = .ok (n, pg₂) → I pg₂)
    (hsame : SameRoles pg pg₁) (hpg₁ : I pg₁) :
    I ((roleIds.forM fun id => (execute (.insertMemberRoleIgnore ⟨serverId, userId, id⟩) : Handler Unit)).run
      statement pg₁).2 := by
  induction roleIds generalizing pg₁ with
  | nil => exact hpg₁
  | cons id roleIds ih =>
    have hhead : ∀ n pg₂, statement (.insertMemberRoleIgnore ⟨serverId, userId, id⟩) pg₁ = .ok (n, pg₂) →
        I pg₂ ∧ SameRoles pg pg₂ ∧ pg.hasRole id = true := by
      intro n pg₂ h
      have hexec := statement_eq_ok.1 h
      have hrole : pg.hasRole id = true := by
        rw [← hsame.hasRole]
        exact hasRole_of_insert (hrefs pg₁ hpg₁) hexec
      refine ⟨hinsert id ?_ pg₁ n pg₂ hsame hpg₁ hexec, hsame.trans (insert_sameRoles hexec), hrole⟩
      rw [List.takeWhile_cons_of_pos hrole]
      exact List.mem_cons_self
    refine run_bind_inv (I := I) (run_execute_inv hpg₁ fun n pg₂ h => (hhead n pg₂ h).1) fun _ pg₂ h hpg₂ => ?_
    obtain ⟨n, h⟩ := execute_eq_ok.1 h
    obtain ⟨-, hsame₂, hrole⟩ := hhead n pg₂ h
    refine ih (fun id' hid' => hinsert id' ?_) hsame₂ hpg₂
    rw [List.takeWhile_cons_of_pos hrole]
    exact List.mem_cons_of_mem id hid'

/-- **A property of the database over `update_member`.** -/
theorem updateMember_inv (hmember : ∀ w, OnMember serverId userId w → ∀ pg n pg', Sql.exec pg w = .ok (n, pg') →
      I pg → I pg')
    (hinsert : reachesRoles pg auth serverId userId body = true →
      ∀ id ∈ (body.roles.getD []).takeWhile pg.hasRole, ∀ pg₁ n pg₂, SameRoles pg pg₁ → I pg₁ →
        Sql.exec pg₁ (.insertMemberRoleIgnore ⟨serverId, userId, id⟩) = .ok (n, pg₂) → I pg₂)
    (hpg : I pg) : I ((updateMember auth serverId userId body).run statement pg).2 := by
  have hstatement : ∀ w pg₁ n pg₂, OnMember serverId userId w → I pg₁ ∧ SameRoles pg pg₁ →
      statement w pg₁ = .ok (n, pg₂) → I pg₂ ∧ SameRoles pg pg₂ := fun w pg₁ n pg₂ hw hpg₁ h =>
    ⟨hmember w hw pg₁ n pg₂ (statement_eq_ok.1 h) hpg₁.1, hpg₁.2.trans (hw.sameRoles (statement_eq_ok.1 h))⟩
  refine run_bind_of_readOnly readOnly_updateMemberChecks hpg fun _ hchecks => ?_
  have hfields : I ((updateMemberFields serverId userId body).run statement pg).2 ∧
      SameRoles pg ((updateMemberFields serverId userId body).run statement pg).2 :=
    issues_run (I := fun pg₁ => I pg₁ ∧ SameRoles pg pg₁) hstatement onMember_updateMemberFields ⟨hpg, .refl pg⟩
  refine run_bind_inv (I := I) hfields.1 fun _ pg₁ hrun hpg₁ => ?_
  have hsame : SameRoles pg pg₁ := by
    have := hfields.2
    rwa [hrun] at this
  have hreach : reachesRoles pg auth serverId userId body = true := succeeds_of_run ((run_bind_of_ok hchecks).trans hrun)
  refine run_bind_inv (I := I) ?_ fun _ pg₂ _ hpg₂ => by rwa [run_readOnly readOnly_getMember]
  rcases hroles : body.roles with _ | roleIds
  · exact hpg₁
  · rw [hroles] at hinsert
    have hdelete : ∀ n pg₂, statement (.deleteMemberRoles serverId userId) pg₁ = .ok (n, pg₂) →
        I pg₂ ∧ SameRoles pg pg₂ := fun n pg₂ h => hstatement _ pg₁ n pg₂ (.inr (.inr rfl)) ⟨hpg₁, hsame⟩ h
    refine run_bind_inv (I := I) (run_execute_inv hpg₁ fun n pg₂ h => (hdelete n pg₂ h).1) fun _ pg₂ h hpg₂ => ?_
    obtain ⟨n, h⟩ := execute_eq_ok.1 h
    exact insertRoles_inv hrefs (hinsert hreach) (hdelete n pg₂ h).2 hpg₂

end Invariant

end Lumiere.Routes
