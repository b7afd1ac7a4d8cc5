/-
The structure of a server, kept by every handler that writes servers, members, roles or channels: the owner is a member,
the one default role has the id of the server, every member holds it, and there is a text channel.

- `Structured`: the invariant, on the whole database with the references it rests on.
- `Sound`: the statements that keep it on their own. The two transactions, `create_server` and `use_invite`, keep it as
  a whole (`Founded.structured`, `Joined.structured`).
- `pgStep_structured`: one request, whoever makes it. The checks before its writes make them sound.
- `servers_wellFormed`: every server, after every run.
-/
import Lumiere.Routes.Concurrent
import Lumiere.Routes.Isolation
import Lumiere.Routes.PgRequests

namespace Lumiere.Routes

open Lumiere.Core Lumiere.Core.Prog Lumiere.Models Lumiere.Db

/-! ## The invariant -/

structure Structured (pg : Postgres) : Prop where
  refs : References pg
  owner : ∀ {serverId userId}, (serverId, userId) ∈ pg.owners → pg.hasMember serverId userId = true
  everyone : ∀ {serverId}, pg.hasServer serverId = true →
    ∃ r ∈ pg.roles, r.id = serverId ∧ r.serverId = serverId ∧ r.isDefault = true
  default : ∀ r ∈ pg.roles, r.isDefault = true → r.id = r.serverId
  assigned : ∀ {serverId userId}, pg.hasMember serverId userId = true →
    (⟨serverId, userId, serverId⟩ : MemberRole) ∈ pg.memberRoles
  text : ∀ {serverId}, pg.hasServer serverId = true → ∃ id, (id, some serverId, 0) ∈ pg.places

variable {pg pg' : Postgres} {w : Sql} {n : ℕ}

/-- the statements that keep the structure on their own, each in the states in which it does -/
def Sound : Stmt → Postgres → Prop
  | .sql (.insertServer _), _ => False
  | .sql (.insertServerMember _), _ => False
  | .sql (.insertRole row), _ => row.isDefault = false
  | .sql (.updateServerOwner serverId ownerId), pg => pg.hasMember serverId ownerId = true
  | .sql (.deleteServerMember serverId userId), pg => pg.isOwner serverId userId = false
  | .sql (.deleteRole roleId serverId), pg =>
    ∀ r ∈ pg.roles, r.id = roleId → r.serverId = serverId → r.isDefault = false
  | .deleteChannel channelId, pg =>
    ∀ serverId, pg.hasServer serverId = true → ∃ id, id ≠ channelId ∧ (id, some serverId, 0) ∈ pg.places
  | _, _ => True

/-! ## One statement -/

/-- a server that is there after a sound statement was there before -/
theorem Sound.hasServer (hw : Sound (.sql w) pg) (h : Sql.exec pg w = .ok (n, pg')) {serverId : ℤ}
    (hs : pg'.hasServer serverId = true) : pg.hasServer serverId = true := by
  rcases exec_hasServer_origin h hs with hold | ⟨row, rfl, -⟩
  · exact hold
  · exact hw.elim

/-- a server that is there after a statement is not the one that the statement has deleted -/
theorem hasServer_of_deleteServer {id serverId : ℤ} (h : Sql.exec pg (.deleteServer id) = .ok (n, pg'))
    (hs : pg'.hasServer serverId = true) : serverId ≠ id := by
  obtain ⟨ownerId, hmem⟩ := hasServer_iff.1 hs
  have howners : pg'.owners = pg.owners.filter fun o => o.1 ≠ id := exec_owners h
  rw [howners, List.mem_filter] at hmem
  exact of_decide_eq_true hmem.2

theorem exec_owner (h : Sql.exec pg w = .ok (n, pg')) (hpg : Structured pg) (hw : Sound (.sql w) pg)
    {serverId userId : ℤ} (ho : (serverId, userId) ∈ pg'.owners) : pg'.hasMember serverId userId = true := by
  have howners := exec_owners h
  have hmember := exec_hasMember serverId userId h
  cases w with
  | insertServer row => exact hw.elim
  | insertServerMember row => exact hw.elim
  | updateServerOwner id newOwner =>
    simp only at howners hmember
    rw [howners, List.mem_map] at ho
    obtain ⟨⟨id', old⟩, hold, heq⟩ := ho
    rw [hmember]
    by_cases hid : id' = id
    · simp only [if_pos hid, Prod.mk.injEq] at heq
      obtain ⟨rfl, rfl⟩ := heq
      rw [hid]
      exact hw
    · simp only [if_neg hid, Prod.mk.injEq] at heq
      obtain ⟨rfl, rfl⟩ := heq
      exact hpg.owner hold
  | deleteServer id =>
    simp only at howners hmember
    rw [howners, List.mem_filter] at ho
    exact hmember.2 ⟨hpg.owner ho.1, fun hid => of_decide_eq_true ho.2 hid.1⟩
  | deleteServerMember id member =>
    simp only at howners hmember
    rw [howners] at ho
    refine hmember.2 ⟨hpg.owner ho, ?_⟩
    rintro ⟨rfl, rfl⟩
    rw [Sound, isOwner_iff.2 ho] at hw
    cases hw
  | _ =>
    simp only at howners hmember
    rw [hmember]
    exact hpg.owner (howners ▸ ho)

theorem exec_everyone (h : Sql.exec pg w = .ok (n, pg')) (hpg : Structured pg) (hw : Sound (.sql w) pg)
    {serverId : ℤ} (hs : pg'.hasServer serverId = true) :
    ∃ r ∈ pg'.roles, r.id = serverId ∧ r.serverId = serverId ∧ r.isDefault = true := by
  obtain ⟨r, hr, hid, hserver, hdefault⟩ := hpg.everyone (hw.hasServer h hs)
  obtain ⟨r', hr', h1, h2, h3⟩ := exec_role_kept h hr
    (by
      rintro id rfl ⟨rfl, -⟩
      exact hasServer_of_deleteServer h hs hserver.symm)
    (by
      rintro id server rfl ⟨h1, h2⟩
      have hno := hw r hr h1 h2
      rw [hdefault] at hno
      cases hno)
  exact ⟨r', hr', h1.trans hid, h2.trans hserver, h3.trans hdefault⟩

theorem exec_default (h : Sql.exec pg w = .ok (n, pg')) (hpg : Structured pg) (hw : Sound (.sql w) pg) :
    ∀ r ∈ pg'.roles, r.isDefault = true → r.id = r.serverId := by
  intro r hr hdefault
  rcases exec_role_origin h hr with ⟨r', hr', h1, h2, h3⟩ | ⟨-, row, rfl, -, -, h3⟩
  · rw [← h1, ← h2]
    exact hpg.default r' hr' (h3.trans hdefault)
  · rw [h3, show row.isDefault = false from hw] at hdefault
    cases hdefault

/-- a role that is not the @everyone role of the server of a member is not the role that every member of it holds -/
theorem Structured.ne_everyone (hpg : Structured pg) {serverId userId : ℤ} (hm : pg.hasMember serverId userId = true)
    {r : Role} (hr : r ∈ pg.roles) (hid : r.id = serverId) : r.serverId = serverId ∧ r.isDefault = true := by
  obtain ⟨r', hr', hid', hserver, hdefault⟩ := hpg.everyone (hpg.refs.server hm)
  obtain rfl := Table.eq_of_key_eq hr hr' (hid.trans hid'.symm)
  exact ⟨hserver, hdefault⟩

theorem exec_assigned (h : Sql.exec pg w = .ok (n, pg')) (hpg : Structured pg) (hw : Sound (.sql w) pg)
    {serverId userId : ℤ} (hm : pg'.hasMember serverId userId = true) :
    (⟨serverId, userId, serverId⟩ : MemberRole) ∈ pg'.memberRoles := by
  have hmember := exec_hasMember serverId userId h
  have hassigned := exec_memberRoles h
  cases w with
  | insertServer row => exact hw.elim
  | insertServerMember row => exact hw.elim
  | insertMemberRole row => exact (hassigned.2.2 _).2 (.inl (hpg.assigned (hmember ▸ hm)))
  | insertMemberRoleIgnore row => exact (hassigned.2 _).2 (.inl (hpg.assigned (hmember ▸ hm)))
  | deleteServer id =>
    obtain ⟨hold, hno⟩ := hmember.1 hm
    refine (hassigned _).2 ⟨hpg.assigned hold, ?_⟩
    rintro ⟨hserver, ⟨r, hr, hrs, hid⟩ | ⟨hid, -⟩⟩
    · exact hno ⟨(hpg.ne_everyone hold hr hid).1.symm.trans hrs, hserver⟩
    · exact hno ⟨hid, hserver⟩
  | deleteServerMember id member =>
    obtain ⟨hold, hno⟩ := hmember.1 hm
    exact (hassigned _).2 ⟨hpg.assigned hold, fun ⟨h1, h2, _⟩ => hno ⟨h1, h2⟩⟩
  | deleteMemberRoles id member =>
    refine (hassigned _).2 ⟨hpg.assigned (hmember ▸ hm), ?_⟩
    rintro ⟨rfl, -, hne⟩
    exact hne rfl
  | deleteRole roleId id =>
    have hold : pg.hasMember serverId userId = true := hmember ▸ hm
    refine (hassigned _).2 ⟨hpg.assigned hold, ?_⟩
    rintro ⟨r, hr, h1, h2, hid⟩
    have hno := hw r hr h1 h2
    rw [(hpg.ne_everyone hold hr hid).2] at hno
    cases hno
  | _ =>
    simp only at hmember hassigned
    rw [hassigned]
    exact hpg.assigned (hmember ▸ hm)

theorem exec_text (h : Sql.exec pg w = .ok (n, pg')) (hpg : Structured pg) (hw : Sound (.sql w) pg) {serverId : ℤ}
    (hs : pg'.hasServer serverId = true) : ∃ id, (id, some serverId, 0) ∈ pg'.places := by
  obtain ⟨id, hmem⟩ := hpg.text (hw.hasServer h hs)
  have hplaces := exec_places h
  refine ⟨id, ?_⟩
  cases w with
  | insertChannel row =>
    simp only at hplaces
    rw [hplaces]
    exact List.mem_append_left _ hmem
  | deleteServer server =>
    simp only at hplaces
    rw [hplaces, List.mem_filter]
    refine ⟨hmem, ?_⟩
    simp [hasServer_of_deleteServer h hs]
  | _ =>
    simp only at hplaces
    rw [hplaces]
    exact hmem

theorem exec_structured {w : Stmt} (h : Stmt.exec pg w = .ok (n, pg')) (hpg : Structured pg) (hw : Sound w pg) :
    Structured pg' := by
  by_cases hsql : ∃ v, w = .sql v
  · obtain ⟨w, rfl⟩ := hsql
    exact ⟨exec_references h hpg.refs, exec_owner h hpg hw, exec_everyone h hpg hw, exec_default h hpg hw,
      exec_assigned h hpg hw, exec_text h hpg hw⟩
  · rw [not_exists] at hsql
    obtain ⟨howners, hmembers, hroles, hassigned⟩ := Stmt.exec_skeleton h hsql
    have hplaces := Stmt.exec_places h
    have hserver : ∀ {serverId}, pg'.hasServer serverId = true → pg.hasServer serverId = true := fun hs => by
      rw [hasServer_iff, howners] at hs
      exact hasServer_iff.2 hs
    have hmember : pg'.hasMember = pg.hasMember := by
      funext serverId userId
      rw [Postgres.hasMember, hmembers]
      rfl
    refine ⟨⟨fun hm => ?_, ?_⟩, ?_, ?_, ?_, ?_, fun {serverId} hs => ?_⟩
    · rw [hmember] at hm
      rw [hasServer_iff, howners]
      exact hasServer_iff.1 (hpg.refs.server hm)
    · simp only [hassigned, Postgres.hasRole, hroles]
      exact hpg.refs.role
    · simp only [howners, hmember]
      exact hpg.owner
    · simp only [hroles]
      exact fun hs => hpg.everyone (hserver hs)
    · rw [hroles]
      exact hpg.default
    · simp only [hmember, hassigned]
      exact hpg.assigned
    · cases w with
      | sql v => exact absurd rfl (hsql v)
      | deleteChannel channelId =>
        obtain ⟨id, hne, hmem⟩ := hw serverId (hserver hs)
        simp only at hplaces
        rw [hplaces]
        exact ⟨id, List.mem_filter.2 ⟨hmem, by simpa using hne⟩⟩
      | _ =>
        simp only at hplaces
        rw [hplaces]
        exact hpg.text (hserver hs)

/-! ## The two transactions -/

variable {auth serverId : ℤ} {now : DateTime}

theorem Founded.structured {body : CreateServerRequest} {textChannelId voiceChannelId : ℤ}
    (h : Founded auth body serverId textChannelId voiceChannelId now pg pg') (hpg : Structured pg) :
    Structured pg' := by
  have hrefs := h.references hpg.refs
  have howners := h.owners
  obtain ⟨n₁, n₂, n₃, n₄, n₅, n₆, n₇, pg₁, pg₂, pg₃, pg₄, pg₅, pg₆, h₁, h₂, h₃, h₄, h₅, h₆, h₇⟩ := h
  have hmember : ∀ s u, pg'.hasMember s u = true ↔ pg.hasMember s u = true ∨ serverId = s ∧ auth = u := fun s u => by
    rw [show pg'.hasMember s u = pg₆.hasMember s u from exec_hasMember s u h₇]
    rw [(exec_hasMember s u h₆).2, show pg₅.hasMember s u = pg₄.hasMember s u from exec_hasMember s u h₅,
      show pg₄.hasMember s u = pg₃.hasMember s u from exec_hasMember s u h₄,
      show pg₃.hasMember s u = pg₂.hasMember s u from exec_hasMember s u h₃,
      show pg₂.hasMember s u = pg₁.hasMember s u from exec_hasMember s u h₂,
      show pg₁.hasMember s u = pg.hasMember s u from exec_hasMember s u h₁]
    rfl
  have hroles : ∃ name, ∀ r, r ∈ pg'.roles ↔ r ∈ pg.roles ∨ r = { everyoneRole serverId now with name } := by
    obtain ⟨-, -, name, hmem⟩ := exec_roles h₂
    refine ⟨name, fun r => ?_⟩
    rw [show pg'.roles = pg₆.roles from exec_roles h₇, show pg₆.roles = pg₅.roles from exec_roles h₆,
      show pg₅.roles = pg₄.roles from exec_roles h₅, show pg₄.roles = pg₃.roles from exec_roles h₄,
      show pg₃.roles = pg₂.roles from exec_roles h₃, hmem r, show pg₁.roles = pg.roles from exec_roles h₁]
  have hassigned : ∀ m, m ∈ pg'.memberRoles ↔ m ∈ pg.memberRoles ∨ m = ⟨serverId, auth, serverId⟩ := fun m => by
    rw [(exec_memberRoles h₇).2.2 m, show pg₆.memberRoles = pg₅.memberRoles from exec_memberRoles h₆,
      show pg₅.memberRoles = pg₄.memberRoles from exec_memberRoles h₅,
      show pg₄.memberRoles = pg₃.memberRoles from exec_memberRoles h₄,
      show pg₃.memberRoles = pg₂.memberRoles from exec_memberRoles h₃,
      show pg₂.memberRoles = pg₁.memberRoles from exec_memberRoles h₂,
      show pg₁.memberRoles = pg.memberRoles from exec_memberRoles h₁]
  have hplaces : pg'.places = pg.places ++ [(textChannelId, some serverId, 0)] ++ [(voiceChannelId, some serverId, 2)] := by
    rw [show pg'.places = pg₆.places from exec_places h₇,
      show pg₆.places = pg₅.places from exec_places h₆,
      show pg₅.places = pg₄.places from exec_places h₅,
      show pg₄.places = pg₃.places ++ [(voiceChannelId, some serverId, 2)] from exec_places h₄,
      show pg₃.places = pg₂.places ++ [(textChannelId, some serverId, 0)] from exec_places h₃,
      show pg₂.places = pg₁.places from exec_places h₂,
      show pg₁.places = pg.places from exec_places h₁]
  obtain ⟨name, hroles⟩ := hroles
  have hserver : ∀ {s}, pg'.hasServer s = true → pg.hasServer s = true ∨ s = serverId := fun hs => by
    obtain ⟨ownerId, hmem⟩ := hasServer_iff.1 hs
    rw [howners, List.mem_append, List.mem_singleton] at hmem
    rcases hmem with hold | heq
    · exact .inl (hasServer_iff.2 ⟨ownerId, hold⟩)
    · exact .inr (Prod.mk.inj heq).1
  refine ⟨hrefs, fun {s u} ho => ?_, fun {s} hs => ?_, fun r hr hdefault => ?_, fun {s u} hm => ?_, fun {s} hs => ?_⟩
  · rw [howners, List.mem_append, List.mem_singleton] at ho
    rcases ho with hold | heq
    · exact (hmember s u).2 (.inl (hpg.owner hold))
    · obtain ⟨rfl, rfl⟩ := Prod.mk.inj heq
      exact (hmember _ _).2 (.inr ⟨rfl, rfl⟩)
  · rcases hserver hs with hold | rfl
    · obtain ⟨r, hr, hrest⟩ := hpg.everyone hold
      exact ⟨r, (hroles r).2 (.inl hr), hrest⟩
    · exact ⟨_, (hroles _).2 (.inr rfl), rfl, rfl, rfl⟩
  · rcases (hroles r).1 hr with hold | rfl
    · exact hpg.default r hold hdefault
    · rfl
  · rcases (hmember s u).1 hm with hold | ⟨rfl, rfl⟩
    · exact (hassigned _).2 (.inl (hpg.assigned hold))
    · exact (hassigned _).2 (.inr rfl)
  · rw [hplaces]
    rcases hserver hs with hold | rfl
    · obtain ⟨id, hmem⟩ := hpg.text hold
      exact ⟨id, List.mem_append_left _ (List.mem_append_left _ hmem)⟩
    · exact ⟨textChannelId, by simp⟩

theorem Joined.structured {invite : Invite} (h : Joined auth invite now pg pg') (hpg : Structured pg) :
    Structured pg' := by
  have hrefs := h.references hpg.refs
  have hmember : ∀ s u, pg'.hasMember s u = true ↔
      pg.hasMember s u = true ∨ invite.serverId = s ∧ auth = u := fun s u => h.hasMember
  obtain ⟨-, -, n₁, n₂, n₃, n₄, pg₁, pg₂, pg₃, h₁, h₂, h₃, h₄⟩ := h
  have howners : pg'.owners = pg.owners := by
    rw [show pg'.owners = pg₃.owners from exec_owners h₄, show pg₃.owners = pg₂.owners from exec_owners h₃,
      show pg₂.owners = pg₁.owners from exec_owners h₂]
    exact exec_owners h₁
  have hroles : pg'.roles = pg.roles := by
    rw [show pg'.roles = pg₃.roles from exec_roles h₄, show pg₃.roles = pg₂.roles from exec_roles h₃,
      show pg₂.roles = pg₁.roles from exec_roles h₂]
    exact exec_roles h₁
  have hassigned : ∀ m, m ∈ pg'.memberRoles ↔
      m ∈ pg.memberRoles ∨ m = ⟨invite.serverId, auth, invite.serverId⟩ := fun m => by
    rw [show pg'.memberRoles = pg₃.memberRoles from exec_memberRoles h₄,
      show pg₃.memberRoles = pg₂.memberRoles from exec_memberRoles h₃, (exec_memberRoles h₂).2.2 m,
      show pg₁.memberRoles = pg.memberRoles from exec_memberRoles h₁]
  have hplaces : pg'.places = pg.places := by
    rw [show pg'.places = pg₃.places from exec_places h₄,
      show pg₃.places = pg₂.places from exec_places h₃,
      show pg₂.places = pg₁.places from exec_places h₂]
    exact exec_places h₁
  have hserver : ∀ {s}, pg'.hasServer s = true → pg.hasServer s = true := fun hs => by
    rw [hasServer_iff, howners] at hs
    exact hasServer_iff.2 hs
  refine ⟨hrefs, fun {s u} ho => ?_, fun {s} hs => ?_, ?_, fun {s u} hm => ?_, fun {s} hs => ?_⟩
  · exact (hmember s u).2 (.inl (hpg.owner (howners ▸ ho)))
  · rw [hroles]
    exact hpg.everyone (hserver hs)
  · rw [hroles]
    exact hpg.default
  · rcases (hmember s u).1 hm with hold | ⟨rfl, rfl⟩
    · exact (hassigned _).2 (.inl (hpg.assigned hold))
    · exact (hassigned _).2 (.inr rfl)
  · rw [hplaces]
    exact hpg.text (hserver hs)

/-! ## The checks before a write -/

/-- every statement that the handler executes is sound -/
def SoundSteps {α : Type} (pg : Postgres) (h : Handler α) : Prop := h.AllSteps statement (fun w => Sound (.sql w)) pg

theorem run_structured {α : Type} {h : Handler α} (hh : SoundSteps pg h) (hpg : Structured pg) :
    Structured (h.run statement pg).2 :=
  allSteps_inv (fun w _ _ _ hw hpg h => exec_structured (w := .sql w) (statement_eq_ok.1 h) hpg hw) hh hpg

theorem refuseOwner_eq_ok {userId : ℤ} {e : AppError} {u : Unit}
    (h : (refuseOwner serverId userId e).run statement pg = (.ok u, pg')) : pg.isOwner serverId userId = false := by
  rw [refuseOwner, run_bind_of_ok (run_select _)] at h
  exact Bool.not_eq_true _ ▸ (failIf_eq_ok.1 h).1

theorem requireMember_eq_ok {userId : ℤ} {u : Unit}
    (h : (requireMember serverId userId).run statement pg = (.ok u, pg')) : pg.hasMember serverId userId = true := by
  rw [run_requireMember, Prod.mk.injEq] at h
  by_contra hm
  rw [if_neg hm] at h
  cases h.1

theorem kickMember_sound {userId : ℤ} : SoundSteps pg (kickMember auth serverId userId) := by
  refine allSteps_bind_of_readOnly readOnly_requirePermissions fun _ _ =>
    allSteps_bind_of_readOnly readOnly_refuseOwner fun _ howner =>
    allSteps_bind_of_readOnly readOnly_checkRoleHierarchy fun _ _ =>
    allSteps_bind.2 ⟨allSteps_affected (refuseOwner_eq_ok howner), fun _ _ _ => Issues.allSteps ?_⟩
  exact issues_bind (issues_failIf _ _) fun _ => issues_execute fun _ => trivial

theorem leaveServer_sound : SoundSteps pg (leaveServer auth serverId) := by
  refine allSteps_bind_of_readOnly readOnly_refuseOwner fun _ howner =>
    allSteps_bind.2 ⟨allSteps_affected (refuseOwner_eq_ok howner), fun _ _ _ => Issues.allSteps ?_⟩
  exact issues_bind (issues_failIf _ _) fun _ => issues_execute fun _ => trivial

theorem createBan_sound {userId : ℤ} {reason : Option String} :
    SoundSteps pg (createBan auth serverId userId reason) := by
  refine allSteps_bind_of_readOnly readOnly_requirePermissions fun _ _ =>
    allSteps_bind_of_readOnly readOnly_refuseOwner fun _ howner =>
    allSteps_bind_of_readOnly readOnly_checkRoleHierarchy fun _ _ =>
    allSteps_bind.2 ⟨allSteps_execute (refuseOwner_eq_ok howner), fun _ _ _ => Issues.allSteps ?_⟩
  exact issues_bind (issues_execute fun _ => trivial) fun _ => issues_execute fun _ => trivial

theorem updateServer_sound {body : UpdateServerRequest} : SoundSteps pg (updateServer auth serverId body) := by
  refine allSteps_bind.2 ⟨?_, fun _ _ _ => Issues.allSteps ?_⟩
  · rcases body.ownerId with _ | newOwner
    · exact allSteps_pure _
    · exact allSteps_bind_of_readOnly readOnly_requireOwner fun _ _ =>
        allSteps_bind_of_readOnly readOnly_requireMember fun _ hmember => allSteps_execute (requireMember_eq_ok hmember)
  · exact issues_bind (issues_when fun _ => readOnly_requirePermissions.issues) fun _ =>
      issues_bind (issues_when fun _ => issues_execute fun _ => trivial) fun _ => readOnly_fetchServer.issues

theorem deleteRole_sound {roleId : ℤ} : SoundSteps pg (deleteRole auth serverId roleId) := by
  refine allSteps_bind_of_readOnly readOnly_requirePermissions fun _ _ =>
    allSteps_bind_of_readOnly readOnly_serverRole fun role hrole =>
    allSteps_bind_of_readOnly (issues_failIf _ _) fun _ hdefault =>
    allSteps_bind_of_readOnly readOnly_getActorHighestPosition fun _ _ =>
    allSteps_bind_of_readOnly (issues_select _) fun _ _ => allSteps_bind_of_readOnly (issues_orFail _ _) fun _ _ =>
    allSteps_bind_of_readOnly (issues_failIf _ _) fun _ _ => allSteps_execute fun r hr hid _ => ?_
  obtain ⟨hmem, rfl, rfl, -⟩ := serverRole_eq_ok hrole
  rw [Table.eq_of_key_eq hr hmem hid, ← Bool.not_eq_true]
  exact (failIf_eq_ok.1 hdefault).1

theorem createServer_structured {body : CreateServerRequest} {textChannelId voiceChannelId : ℤ} (hpg : Structured pg) :
    Structured ((createServer auth body serverId textChannelId voiceChannelId now).run statement pg).2 :=
  run_bind_of_readOnly (issues_failIf _ _) hpg fun _ _ => run_bind_of_readOnly (issues_select _) hpg fun _ _ =>
    run_bind_of_readOnly (issues_failIf _ _) hpg fun _ _ =>
    run_bind_inv (run_atomically_inv hpg fun _ _ h => (createServer_tx h).structured hpg) fun _ _ _ h =>
      run_structured readOnly_fetchServer.allSteps h

theorem useInvite_structured {code : String} (hpg : Structured pg) :
    Structured ((useInvite auth code now).run statement pg).2 := by
  rw [useInvite_eq]
  refine run_bind_inv (run_atomically_inv hpg fun _ _ h => ?_) fun _ _ _ h =>
    run_structured readOnly_fetchServer.allSteps h
  obtain ⟨invite, -, -, ⟨-, rfl⟩ | hjoin⟩ := inviteTx_eq_ok h
  · exact hpg
  · exact hjoin.structured hpg

/-! ## Deleting a channel -/

theorem serverChannel_eq_ok {channelId type : ℤ} {message : String}
    (h : (serverChannel channelId message).run statement pg = (.ok (serverId, type), pg')) :
    (channelId, some serverId, type) ∈ pg.places ∧ pg' = pg := by
  simp only [serverChannel, run_bind_eq_ok, run_select, orFail_eq_ok, run_pure, Prod.mk.injEq, Except.ok.injEq] at h
  obtain ⟨_, _, ⟨rfl, rfl⟩, c, _, ⟨hfind, rfl⟩, _, _, ⟨hserver, rfl⟩, ⟨rfl, rfl⟩, rfl⟩ := h
  obtain ⟨hmem, hid⟩ := Table.mem_of_find? hfind
  exact ⟨mem_places.2 ⟨c, hmem, of_decide_eq_true hid, hserver, rfl⟩, rfl⟩

theorem places_unique {id type type' : ℤ} {server server' : Option ℤ} (h : (id, server, type) ∈ pg.places)
    (h' : (id, server', type') ∈ pg.places) : server = server' ∧ type = type' := by
  obtain ⟨c, hc, rfl, rfl, rfl⟩ := mem_places.1 h
  obtain ⟨d, hd, hid, rfl, rfl⟩ := mem_places.1 h'
  obtain rfl := Table.eq_of_key_eq hc hd hid.symm
  exact ⟨rfl, rfl⟩

theorem deleteChannelChecks_sound {channelId : ℤ} {place : ℤ × ℤ} (hpg : Structured pg)
    (h : (deleteChannelChecks auth channelId).run statement pg = (.ok place, pg')) :
    Sound (.deleteChannel channelId) pg := by
  intro serverId hs
  obtain ⟨id, hmem⟩ := hpg.text hs
  by_cases hid : id = channelId
  · subst hid
    obtain ⟨⟨_, type⟩, _, hplace, hchecks⟩ := run_bind_eq_ok.1 h
    obtain ⟨hplace, rfl⟩ := serverChannel_eq_ok hplace
    obtain ⟨hserver, rfl⟩ := places_unique hplace hmem
    obtain rfl := Option.some.inj hserver
    obtain ⟨_, _, hperms, hlast⟩ := run_bind_eq_ok.1 hchecks
    obtain ⟨-, -, rfl⟩ := requirePermissions_eq_ok.1 hperms
    obtain ⟨_, _, hcount, -⟩ := run_bind_eq_ok.1 hlast
    rw [when, if_pos rfl, run_bind_of_ok (run_select _)] at hcount
    obtain ⟨c, hc, htext, hne⟩ := Table.exists_ne_of_count (not_le.1 (failIf_eq_ok.1 hcount).1) id
    obtain ⟨h1, h2⟩ := Bool.and_eq_true_iff.1 htext
    exact ⟨c.id, hne, mem_places.2 ⟨c, hc, rfl, of_decide_eq_true h1, of_decide_eq_true h2⟩⟩
  · exact ⟨id, hid, hmem⟩

theorem deleteChannel_sound {channelId : ℤ} (hpg : Structured pg) :
    (deleteChannel auth channelId).AllSteps perform Sound pg := by
  refine allSteps_bind_of_readOnly (readOnly_sql readOnly_deleteChannelChecks) fun ⟨_, type⟩ h => ?_
  rw [run_sql] at h
  have hsound := deleteChannelChecks_sound hpg h
  by_cases htype : type = 4
  · refine allSteps_bind.2 ⟨?_, fun _ pg₁ h₁ => allSteps_execute ?_⟩
    · rw [when, if_pos htype]
      exact allSteps_execute trivial
    · -- moving the children out of a category leaves servers and places alone
      rw [when, if_pos htype] at h₁
      obtain ⟨_, h₁⟩ := execute_eq_ok.1 h₁
      have h₁ := perform_eq_ok.1 h₁
      have hplaces : pg₁.places = pg.places := Stmt.exec_places h₁
      have howners := (Stmt.exec_skeleton h₁ (by simp)).1
      intro serverId hs
      rw [hplaces]
      refine hsound serverId (hasServer_iff.2 ?_)
      rw [← howners]
      exact hasServer_iff.1 hs
  · refine allSteps_bind.2 ⟨?_, fun _ pg₁ h₁ => allSteps_execute ?_⟩
    · rw [when, if_neg htype]
      exact allSteps_pure _
    · rw [when, if_neg htype] at h₁
      obtain rfl : pg = pg₁ := congrArg Prod.snd h₁
      exact hsound

/-! ## One request -/

theorem request_structured {verifyPassword : String → String → Except String Bool} (hpg : Structured pg)
    (r : Request) : Structured ((r.handle verifyPassword).run statement pg).2 := by
  have hrest : (∀ w, r.Footprint w → ∀ pg, Sound (.sql w) pg) →
      Structured ((r.handle verifyPassword).run statement pg).2 := fun h =>
    run_structured (Issues.allSteps ((issues_request r).mono h)) hpg
  cases r with
  | createServer auth body serverId textChannelId voiceChannelId now =>
    rw [Request.handle, run_respond]
    exact createServer_structured hpg
  | updateServer auth serverId body =>
    rw [Request.handle, run_respond]
    exact run_structured updateServer_sound hpg
  | useInvite auth code now =>
    rw [Request.handle, run_respond]
    exact useInvite_structured hpg
  | kickMember auth serverId userId => exact run_structured kickMember_sound hpg
  | leaveServer auth serverId => exact run_structured leaveServer_sound hpg
  | createBan auth serverId userId reason => exact run_structured createBan_sound hpg
  | deleteRole auth serverId roleId => exact run_structured deleteRole_sound hpg
  | createRole auth serverId body roleId now =>
    refine hrest ?_
    rintro w ⟨row, rfl, -, -, hdefault⟩ _
    exact hdefault
  | updateMember auth serverId userId body =>
    refine hrest ?_
    rintro w (⟨_, rfl⟩ | ⟨_, _, rfl⟩ | rfl | ⟨_, rfl⟩) _ <;> trivial
  | reorderRoles auth serverId body =>
    refine hrest ?_
    rintro w ⟨_, _, rfl⟩ _
    trivial
  | updateSelfMember auth serverId nickname =>
    refine hrest ?_
    rintro w ⟨_, rfl⟩ _
    trivial
  | createInvite auth channelId body code now =>
    refine hrest ?_
    rintro w ⟨_, rfl⟩ _
    trivial
  | updateRole auth serverId roleId body =>
    refine hrest ?_
    rintro w ⟨_, rfl⟩ _
    trivial
  | setChannelOverride auth channelId overrideId body =>
    refine hrest ?_
    rintro w ⟨_, rfl⟩ _
    trivial
  | deleteServer auth serverId password =>
    refine hrest ?_
    rintro w rfl _
    trivial
  | removeBan auth serverId userId =>
    refine hrest ?_
    rintro w rfl _
    trivial
  | deleteInvite auth code =>
    refine hrest ?_
    rintro w rfl _
    trivial
  | deleteChannelOverride auth channelId overrideId =>
    refine hrest ?_
    rintro w rfl _
    trivial

/-- **Every request keeps the structure.** -/
theorem pgStep_structured {env : Env} (r : PgRequest) (hpg : Structured pg) : Structured (pgStep env pg r) := by
  have hsteps : StepsOf env Sound pg r → Structured (pgStep env pg r) := fun h =>
    allSteps_inv (fun _ _ _ _ hw hpg h => exec_structured (perform_eq_ok.1 h) hpg hw) h hpg
  cases r with
  | server r =>
    rw [pgStep_server]
    exact request_structured hpg r
  | createChannel auth serverId body channelId now =>
    refine hsteps (Issues.allSteps (issues_bind (issues_createChannel.mono ?_) fun _ => issues_pure _))
    rintro w (rfl | ⟨_, _, _, rfl⟩) _ <;> trivial
  | updateChannel auth channelId body =>
    refine hsteps (Issues.allSteps (issues_bind (issues_updateChannel.mono ?_) fun _ => issues_pure _))
    rintro w (⟨_, rfl, _⟩ | rfl | ⟨_, _, _, rfl⟩) _ <;> trivial
  | deleteChannel auth channelId => exact hsteps (deleteChannel_sound hpg)
  | reorderChannels auth serverId body =>
    refine hsteps (Issues.allSteps (issues_reorderChannels.mono ?_))
    rintro w ⟨_, _, rfl⟩ _
    trivial
  | deleteMe auth password now =>
    refine hsteps (Issues.allSteps (issues_deleteMe.mono ?_))
    rintro w rfl _
    trivial

theorem noServers_structured (users : Table User.id) : Structured (noServers users) where
  refs := noServers_references users
  owner h := by cases h
  everyone h := by cases h
  default r hr := absurd hr Table.not_mem_empty
  assigned h := by cases h
  text h := by cases h

/-! ## Every server -/

structure WellFormed (pg : Postgres) (s : Server) : Prop where
  owner : pg.hasMember s.id s.ownerId = true
  everyone : ∃! r, r ∈ pg.roles ∧ r.serverId = s.id ∧ r.isDefault = true
  everyoneId : ∀ r ∈ pg.roles, r.serverId = s.id → r.isDefault = true → r.id = s.id
  text : ∃ c ∈ pg.channels, c.serverId = some s.id ∧ c.type = 0
  assigned : ∀ m ∈ pg.serverMembers, m.serverId = s.id → (⟨s.id, m.userId, s.id⟩ : MemberRole) ∈ pg.memberRoles

theorem Structured.wellFormed (hpg : Structured pg) {s : Server} (hs : s ∈ pg.servers) : WellFormed pg s := by
  have howner : (s.id, s.ownerId) ∈ pg.owners := List.mem_map.2 ⟨s, hs, rfl⟩
  have hserver : pg.hasServer s.id = true := hasServer_iff.2 ⟨_, howner⟩
  obtain ⟨r, hr, hid, hrs, hdefault⟩ := hpg.everyone hserver
  have hids : ∀ r ∈ pg.roles, r.serverId = s.id → r.isDefault = true → r.id = s.id := fun r' hr' hrs' h =>
    (hpg.default r' hr' h).trans hrs'
  refine ⟨hpg.owner howner, ⟨r, ⟨hr, hrs, hdefault⟩, ?_⟩, hids, ?_, fun m hm hserver => ?_⟩
  · rintro r' ⟨hr', hrs', hdefault'⟩
    exact Table.eq_of_key_eq hr' hr ((hids r' hr' hrs' hdefault').trans hid.symm)
  · obtain ⟨id, hmem⟩ := hpg.text hserver
    obtain ⟨c, hc, -, hcs, htype⟩ := mem_places.1 hmem
    exact ⟨c, hc, hcs, htype⟩
  · exact hpg.assigned (hasMember_iff.2 ⟨m, hm, hserver, rfl⟩)

/-- **Server structure.** After every run of requests, one at a time, from a database with accounts only, every server
has its owner among its members, one default role, whose id is the server's, a text channel, and an assignment of the
default role to each of its members. -/
theorem servers_wellFormed (env : Env) (users : Table User.id) (rs : List PgRequest) :
    ∀ s ∈ (Core.run (pgStep env) (noServers users) rs).servers,
      WellFormed (Core.run (pgStep env) (noServers users) rs) s := by
  intro s hs
  have hpg : Structured (Core.run (pgStep env) (noServers users) rs) :=
    run_inv (fun _ r h => pgStep_structured r h) (noServers_structured users) rs
  exact hpg.wellFormed hs

/-- user 1 founds a server; user 2 joins it, gets a role of its own, and leaves after the role is deleted -/
def joinAndLeaveTrace : List PgRequest :=
  [.server (.createServer 1 ⟨"first", none, none⟩ 100 101 102 ⟨0⟩),
   .server (.createInvite 1 101 ⟨none, none, none⟩ "join" ⟨0⟩),
   .server (.useInvite 2 "join" ⟨0⟩),
   .server (.createRole 1 100 ⟨"helper", none, none, none, none⟩ 103 ⟨0⟩),
   .server (.updateMember 1 100 2 ⟨none, some [103], none⟩),
   .server (.deleteRole 1 100 103),
   .deleteChannel 1 102,
   .server (.updateServer 1 100 ⟨none, none, none, none, none, none, none, none, none, none, some 2⟩),
   .server (.leaveServer 1 100)]

/-- the password is right, and no letter has a capital -/
def plainEnv : Env := ⟨fun _ _ => .ok true, ⟨id, Char.isAlphanum⟩⟩

/-- the server in the end: user 2 is its owner and only member -/
def firstServer : Server :=
  { newServer 100 ⟨"first", none, none⟩ 2 ⟨0⟩ with systemChannelId := some 101, memberCount := 1 }

theorem servers_wellFormed_joinAndLeave :
    WellFormed (Core.run (pgStep plainEnv) (noServers adaAndBob) joinAndLeaveTrace) firstServer :=
  servers_wellFormed plainEnv adaAndBob joinAndLeaveTrace firstServer (by decide)

end Lumiere.Routes
