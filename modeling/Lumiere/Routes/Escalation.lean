/-
No privilege escalation inside a server. `create_role` and `update_role` compare the bits they write with the actor's;
`update_member` asks for MANAGE_ROLES and a higher position, and then assigns whatever roles the body lists.

P is what the members hold before the actor starts, as `get_user_permissions` returns it.

- `AssignsHeld P a S`: an `update_member` on S assigns roles whose bits the member or the actor a held before.
- `Bounded P a S`: every role that counts for a user has bits that the user or the actor held before. The five requests
  of the actor keep it, as long as they satisfy `AssignsHeld` (`step_bounded`).
- `no_escalation`: after any such requests every user's permissions are within P u ∪ P a.
- `moderator_assigns_admin`: an actor whose only extra permission is MANAGE_ROLES hands out ADMINISTRATOR.
-/
import Lumiere.Routes.Isolation

namespace Lumiere.Routes

open Lumiere.Core Lumiere.Core.Prog Lumiere.Models Lumiere.Db Permissions

variable {pg pg' : Postgres} {w : Sql} {n : ℕ} {a S : ℤ} {P : ℤ → Permissions}
  {verifyPassword : String → String → Except String Bool}

/-- the five requests that change roles, by the actor on the server -/
def ByActor (a S : ℤ) : Request → Prop
  | .createRole auth serverId _ _ _ | .updateRole auth serverId _ _ | .deleteRole auth serverId _
  | .reorderRoles auth serverId _ | .updateMember auth serverId _ _ => auth = a ∧ serverId = S
  | _ => False

instance (a S : ℤ) : (r : Request) → Decidable (ByActor a S r)
  | .createRole .. | .updateRole .. | .deleteRole .. | .reorderRoles .. | .updateMember .. => instDecidableAnd
  | .createServer .. | .updateServer .. | .deleteServer .. | .updateSelfMember .. | .kickMember .. | .leaveServer ..
  | .createBan .. | .removeBan .. | .createInvite .. | .useInvite .. | .deleteInvite .. | .setChannelOverride ..
  | .deleteChannelOverride .. => isFalse id

/-- every bit of the role is one that the user or the actor held before -/
def Held (P : ℤ → Permissions) (a userId : ℤ) (r : Role) : Prop :=
  fromBitsTruncate r.permissions ⊆ P userId ||| P a

/-- an `update_member` that inserts roles of the server inserts only such roles -/
def AssignsHeld (P : ℤ → Permissions) (a S : ℤ) (pg : Postgres) : Request → Prop
  | .updateMember auth serverId userId body =>
    reachesRoles pg auth serverId userId body = true → pg.hasMember serverId userId = true →
      ∀ id ∈ (body.roles.getD []).takeWhile pg.hasRole, ∀ r ∈ pg.roles.rows, r.id = id → r.serverId = S →
        Held P a userId r
  | _ => True

instance (P : ℤ → Permissions) (a userId : ℤ) (r : Role) : Decidable (Held P a userId r) :=
  inferInstanceAs (Decidable (fromBitsTruncate r.permissions ⊆ P userId ||| P a))

instance (P : ℤ → Permissions) (a S : ℤ) (pg : Postgres) : (r : Request) → Decidable (AssignsHeld P a S pg r)
  | .updateMember auth serverId userId body => inferInstanceAs (Decidable (
      reachesRoles pg auth serverId userId body = true → pg.hasMember serverId userId = true →
        ∀ id ∈ (body.roles.getD []).takeWhile pg.hasRole, ∀ r ∈ pg.roles.rows, r.id = id → r.serverId = S →
          Held P a userId r))
  | .createServer .. | .updateServer .. | .deleteServer .. | .updateSelfMember .. | .kickMember .. | .leaveServer ..
  | .createBan .. | .removeBan .. | .createInvite .. | .useInvite .. | .deleteInvite .. | .createRole ..
  | .updateRole .. | .deleteRole .. | .reorderRoles .. | .setChannelOverride .. | .deleteChannelOverride .. =>
    isTrue trivial

/-! ## The invariant -/

structure Bounded (P : ℤ → Permissions) (a S : ℤ) (pg : Postgres) : Prop where
  refs : References pg
  /-- who owns the server held everything before -/
  owner : ∀ userId, pg.isOwner S userId = true → Permissions.all ⊆ P userId
  held : ∀ userId r, Effective pg S userId r → Held P a userId r

/-- an administrator has every permission -/
theorem all_subset_of_administrator {serverId userId : ℤ} (h : 0 ∈ pg.userPermissions serverId userId) :
    Permissions.all ⊆ pg.userPermissions serverId userId := by
  intro b hb
  rw [mem_userPermissions] at h ⊢
  rcases h.2 with ho | ⟨r, hr, h0 | h0⟩
  · exact ⟨hb, .inl ho⟩
  · exact ⟨hb, .inr ⟨r, hr, .inl h0⟩⟩
  · exact ⟨hb, .inr ⟨r, hr, .inl h0⟩⟩

/-- what the invariant says about the permissions -/
theorem Bounded.userPermissions (h : Bounded P a S pg) (hfull : ∀ userId, 0 ∈ P userId → Permissions.all ⊆ P userId)
    (hadmin : 0 ∉ P a) (userId : ℤ) : pg.userPermissions S userId ⊆ P userId ||| P a := by
  intro b hb
  obtain ⟨hall, ho | ⟨r, hr, hbit⟩⟩ := mem_userPermissions.1 hb
  · exact mem_or.2 (.inl (h.owner userId ho b hall))
  · rcases hbit with h0 | hbit
    · rcases mem_or.1 (h.held userId r hr 0 (mem_fromBitsTruncate.2 ⟨h0, by decide⟩)) with h0 | h0
      · exact mem_or.2 (.inl (hfull userId h0 b hall))
      · exact absurd h0 hadmin
    · exact h.held userId r hr b (mem_fromBitsTruncate.2 ⟨hbit, hall⟩)

/-- what a statement of the five requests has to satisfy to keep `Bounded` -/
def Restrained (P : ℤ → Permissions) (a S : ℤ) (pg : Postgres) : Sql → Prop
  | .insertRole row => row.isDefault = false
  | .updateRole _ _ changes => ∀ bits ∈ changes.permissions, fromBitsTruncate bits ⊆ P a
  | .insertMemberRoleIgnore row => pg.hasMember row.serverId row.userId = true →
    ∀ r ∈ pg.roles, r.id = row.roleId → r.serverId = S → Held P a row.userId r
  | .updateRolePosition .. | .deleteRole .. | .deleteMemberRoles .. | .updateNickname .. | .updateTimeout .. => True
  | _ => False

/-- a role that counts after the statement counted before, perhaps with other bits, or has just been assigned -/
theorem exec_effective (h : Sql.exec pg w = .ok (n, pg')) (hrefs : References pg) (hw : Restrained P a S pg w)
    {userId : ℤ} {r : Role} (hr : Effective pg' S userId r) :
    (∃ r', Effective pg S userId r' ∧
        (r.permissions = r'.permissions ∨ fromBitsTruncate r.permissions ⊆ P a)) ∨ Held P a userId r := by
  obtain ⟨hmem, hserver, hcounts⟩ := hr
  have hroles := exec_roles h
  have hassigned := exec_memberRoles h
  cases w with
  | insertRole row =>
    obtain ⟨-, hnew, name, hroles⟩ := hroles
    rw [hassigned] at hcounts
    rcases (hroles r).1 hmem with hold | rfl
    · exact .inl ⟨r, ⟨hold, hserver, hcounts⟩, .inl rfl⟩
    · -- nobody has the new role
      rcases hcounts with hd | ⟨m, hm, hid, -⟩
      · have hno : row.isDefault = false := hw
        rw [hno] at hd
        cases hd
      · obtain ⟨r', hr', hid'⟩ := hasRole_iff.1 (hrefs.role m hm)
        exact absurd (hid'.trans hid) (hnew r' hr')
  | updateRole id serverId changes =>
    obtain ⟨c, hperms, -, hroles⟩ := hroles
    obtain ⟨r', hr', rfl⟩ := (hroles r).1 hmem
    rw [hassigned] at hcounts
    refine .inl ⟨r', ?_⟩
    split_ifs at hserver hcounts ⊢
    · refine ⟨⟨hr', hserver, hcounts⟩, ?_⟩
      rcases hc : changes.permissions with _ | bits
      · rw [hc] at hperms
        exact .inl (by rw [RoleChanges.apply, hperms]; rfl)
      · refine .inr ?_
        rw [hc] at hperms
        rw [RoleChanges.apply, hperms]
        exact hw bits hc
    · exact ⟨⟨hr', hserver, hcounts⟩, .inl rfl⟩
  | updateRolePosition position id serverId =>
    obtain ⟨r', hr', rfl⟩ := (hroles r).1 hmem
    rw [hassigned] at hcounts
    refine .inl ⟨r', ?_⟩
    split_ifs at hserver hcounts ⊢ <;> exact ⟨⟨hr', hserver, hcounts⟩, .inl rfl⟩
  | insertMemberRoleIgnore row =>
    rw [hroles] at hmem
    rcases hcounts with hd | ⟨m, hm, hid, huser⟩
    · exact .inl ⟨r, ⟨hmem, hserver, .inl hd⟩, .inl rfl⟩
    · rcases (hassigned.2 m).1 hm with hold | rfl
      · exact .inl ⟨r, ⟨hmem, hserver, .inr ⟨m, hold, hid, huser⟩⟩, .inl rfl⟩
      · rcases hassigned.1 with hold | ⟨-, hmember⟩
        · exact .inl ⟨r, ⟨hmem, hserver, .inr ⟨m, hold, hid, huser⟩⟩, .inl rfl⟩
        · exact .inr (huser ▸ hw hmember r hmem hid.symm hserver)
  | deleteRole id serverId =>
    refine .inl ⟨r, ⟨((hroles r).1 hmem).1, hserver, ?_⟩, .inl rfl⟩
    exact hcounts.imp_right fun ⟨m, hm, h⟩ => ⟨m, ((hassigned m).1 hm).1, h⟩
  | deleteMemberRoles id userId =>
    rw [hroles] at hmem
    refine .inl ⟨r, ⟨hmem, hserver, ?_⟩, .inl rfl⟩
    exact hcounts.imp_right fun ⟨m, hm, h⟩ => ⟨m, ((hassigned m).1 hm).1, h⟩
  | updateNickname | updateTimeout =>
    rw [hroles] at hmem
    rw [hassigned] at hcounts
    exact .inl ⟨r, ⟨hmem, hserver, hcounts⟩, .inl rfl⟩
  | _ => exact hw.elim

theorem exec_bounded (h : Sql.exec pg w = .ok (n, pg')) (hpg : Bounded P a S pg) (hw : Restrained P a S pg w) :
    Bounded P a S pg' where
  refs := exec_references h hpg.refs
  owner userId ho := by
    refine hpg.owner userId ?_
    have howners := exec_owners h
    rw [isOwner_iff] at ho ⊢
    cases w with
    | insertServer | updateServerOwner | deleteServer => exact hw.elim
    | _ => rwa [howners] at ho
  held userId r hr := by
    rcases exec_effective h hpg.refs hw hr with ⟨r', hr', hsame | hactor⟩ | hheld
    · have hheld := hpg.held userId r' hr'
      rwa [Held, ← hsame] at hheld
    · exact fun b hb => mem_or.2 (.inr (hactor b hb))
    · exact hheld

/-! ## The five requests -/

theorem run_restrained {α : Type} {p : Handler α} (h : p.Issues fun w => ∀ pg, Restrained P a S pg w)
    (hpg : Bounded P a S pg) : Bounded P a S (p.run statement pg).2 :=
  issues_run (fun _ pg _ _ hw hpg h => exec_bounded (statement_eq_ok.1 h) hpg (hw pg)) h hpg

theorem refuseForbiddenBits_eq_ok {auth serverId : ℤ} {bits : BitVec 64} {message : String} {u : Unit}
    (h : (refuseForbiddenBits auth serverId bits message).run statement pg = (.ok u, pg')) :
    fromBitsTruncate bits ⊆ pg.userPermissions serverId auth := by
  rw [refuseForbiddenBits, run_bind_of_ok run_getUserPermissions, failIf_eq_ok] at h
  intro b hb
  exact and_not_eq_zero.1 (not_not.1 h.1) b (mem_fromBitsTruncate.1 hb).1

/-- the new bits of a role are bits of the actor -/
theorem updateRole_bounded {roleId : ℤ} {body : UpdateRoleRequest} (hpg : Bounded P a S pg)
    (hactor : pg.userPermissions S a ⊆ P a) :
    Bounded P a S ((updateRole a S roleId body).run statement pg).2 := by
  refine run_bind_of_readOnly readOnly_requirePermissions hpg fun _ _ =>
    run_bind_of_readOnly readOnly_getActorHighestPosition hpg fun _ _ =>
    run_bind_of_readOnly readOnly_serverRole hpg fun _ _ =>
    run_bind_of_readOnly (issues_failIf _ _) hpg fun _ _ => run_bind_of_readOnly (issues_failIf _ _) hpg fun _ _ =>
    run_bind_of_readOnly readOnly_parseOptional hpg fun permissions _ =>
    run_bind_of_readOnly (issues_forM_option fun _ _ => readOnly_refuseForbiddenBits) hpg fun _ hchecked =>
    run_bind_inv (run_execute_inv hpg fun n pg' h => ?_) fun _ _ _ h => by rwa [run_readOnly readOnly_fetchRole]
  refine exec_bounded (statement_eq_ok.1 h) hpg fun bits hbits b hb => hactor b ?_
  obtain rfl : permissions = some bits := hbits
  exact refuseForbiddenBits_eq_ok hchecked b hb

theorem updateMember_bounded {userId : ℤ} {body : UpdateMemberRequest} (hpg : Bounded P a S pg)
    (h : AssignsHeld P a S pg (.updateMember a S userId body)) :
    Bounded P a S ((updateMember a S userId body).run statement pg).2 := by
  refine updateMember_inv (fun _ => Bounded.refs) ?_ ?_ hpg
  · rintro w (⟨_, rfl⟩ | ⟨_, rfl⟩ | rfl) pg₁ n pg₂ hexec hpg₁ <;> exact exec_bounded hexec hpg₁ trivial
  · intro hreach id hid pg₁ n pg₂ hsame hpg₁ hexec
    refine exec_bounded hexec hpg₁ fun hmember r hr => h hreach ?_ id hid r ?_
    · rw [← hsame.2]
      exact hmember
    · rw [← hsame.1]
      exact hr

/-- one request of the actor -/
theorem step_bounded {r : Request} (hby : ByActor a S r) (h : AssignsHeld P a S pg r)
    (hfull : ∀ userId, 0 ∈ P userId → Permissions.all ⊆ P userId) (hadmin : 0 ∉ P a) (hpg : Bounded P a S pg) :
    Bounded P a S (step verifyPassword pg (.request r)) := by
  rw [step]
  cases r <;> simp only [Request.handle, run_respond] <;> try exact hby.elim
  all_goals obtain ⟨rfl, rfl⟩ := hby
  case updateMember => exact updateMember_bounded hpg h
  case createRole =>
    refine run_restrained (issues_createRole.mono ?_) hpg
    rintro w ⟨row, rfl, -, -, hdefault⟩
    exact fun _ => hdefault
  case updateRole =>
    refine updateRole_bounded hpg fun b hb => ?_
    rcases mem_or.1 (hpg.userPermissions hfull hadmin _ b hb) with h | h <;> exact h
  case deleteRole =>
    refine run_restrained (issues_deleteRole.mono ?_) hpg
    rintro w rfl
    exact fun _ => trivial
  case reorderRoles =>
    refine run_restrained (issues_reorderRoles.mono ?_) hpg
    rintro w ⟨_, _, rfl⟩
    exact fun _ => trivial

/-- **What an actor hands out is what it had.** An actor without ADMINISTRATOR is not the owner either. -/
theorem no_escalation (verifyPassword : String → String → Except String Bool) (users : Table User.id) (ops : List Op)
    (a S : ℤ) (reqs : List Request) :
    let pg := Core.run (step verifyPassword) (noServers users) ops
    let act := fun pg r => step verifyPassword pg (.request r)
    0 ∉ pg.userPermissions S a → (∀ r ∈ reqs, ByActor a S r) →
      Every act (AssignsHeld (pg.userPermissions S) a S) pg reqs →
        ∀ userId, (Core.run act pg reqs).userPermissions S userId ⊆
          pg.userPermissions S userId ||| pg.userPermissions S a := by
  intro pg act hadmin hby hheld userId
  have hfull : ∀ userId, 0 ∈ pg.userPermissions S userId → Permissions.all ⊆ pg.userPermissions S userId :=
    fun _ => all_subset_of_administrator
  have hstart : Bounded (pg.userPermissions S) a S pg := by
    refine ⟨run_references verifyPassword users ops, fun u ho b hb => ?_, fun u r hr b hb => mem_or.2 (.inl ?_)⟩
    · exact mem_userPermissions.2 ⟨hb, .inl ho⟩
    · obtain ⟨hbit, hall⟩ := mem_fromBitsTruncate.1 hb
      exact mem_userPermissions.2 ⟨hall, .inr ⟨r, hr, .inr hbit⟩⟩
  have hreqs : Every act (fun pg₁ r => AssignsHeld (pg.userPermissions S) a S pg₁ r ∧ ByActor a S r) pg reqs :=
    hheld.and (every_of_forall hby)
  have hrun : Bounded (pg.userPermissions S) a S (Core.run act pg reqs) :=
    run_inv_of_every (fun _ _ h hpg => step_bounded h.2 h.1 hfull hadmin hpg) hstart hreqs
  exact hrun.userPermissions hfull hadmin userId

/-! ## A moderator -/

def threeUsers : Table User.id := ⟨[account 1 "ada", account 2 "bob", account 3 "eve"], by decide⟩

/-- user 1 owns server 100 with the roles 110 (MANAGE_ROLES) and 111 (ADMINISTRATOR); member 2 has role 110 -/
def moderatorTrace : List Op :=
  [.request (.createServer 1 ⟨"first", none, none⟩ 100 101 102 ⟨0⟩),
   .request (.createInvite 1 101 ⟨none, none, none⟩ "join" ⟨0⟩),
   .request (.useInvite 2 "join" ⟨0⟩),
   .request (.useInvite 3 "join" ⟨0⟩),
   .request (.createRole 1 100 ⟨"mods", none, none, none, some "8"⟩ 110 ⟨0⟩),
   .request (.createRole 1 100 ⟨"admins", none, none, none, some "1"⟩ 111 ⟨0⟩),
   .request (.updateMember 1 100 2 ⟨none, some [110], none⟩)]

def moderated : Postgres := Core.run (step fun _ _ => .ok true) (noServers threeUsers) moderatorTrace

/-- member 2 assigns a role to member 3 -/
def assignThird (roleId : ℤ) : Request := .updateMember 2 100 3 ⟨none, some [roleId], none⟩

theorem no_escalation_mods :
    0 ∉ moderated.userPermissions 100 2 ∧
      (Core.run (fun pg r => step (fun _ _ => .ok true) pg (.request r)) moderated [assignThird 110]).userPermissions 100 3 ⊆
        moderated.userPermissions 100 3 ||| moderated.userPermissions 100 2 :=
  ⟨by decide, no_escalation (fun _ _ => .ok true) threeUsers moderatorTrace 2 100 [assignThird 110] (by decide) (by decide)
    (by decide) 3⟩

/-- **A successful request of member 2, who lacks ADMINISTRATOR, makes member 3 an administrator.** -/
theorem moderator_assigns_admin :
    moderated.isOwner 100 2 = false ∧
      ((getUserPermissions 100 2).run statement moderated).1 =
        .ok (Permissions.defaultEveryone ||| .manageRoles) ∧
      ((getUserPermissions 100 3).run statement moderated).1 = .ok Permissions.defaultEveryone ∧
      ((assignThird 111).handle fun _ _ => .ok true).succeeds statement moderated = true ∧
      ((getUserPermissions 100 3).run statement (step (fun _ _ => .ok true) moderated (.request (assignThird 111)))).1 =
        .ok Permissions.all := by
  decide

end Lumiere.Routes
