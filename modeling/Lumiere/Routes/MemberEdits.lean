/-
What `update_member` leaves behind (`lumiere-server/src/routes/servers.rs`). The nickname, the timeout, the deletion of
the old roles and each insertion of a new one commit on their own; the member is read again at the end, and that can
fail too.

- `updateMemberChecks_iff`: what the checks ask for.
- `run_updateMemberFields`, `run_updateMemberRoles`, `run_getMember`: the two groups of statements and the answer, and
  when each of them gets through. `run_updateMember`: the request as a whole.
- `updateMember_iff`: the request is all or nothing, and leaves the listed roles and @everyone, exactly if what can be
  refused after the first write is not refused, or what was written was there before.
- `half_edited`: a request that fails at an unknown role, after it has renamed the member.
-/
import Lumiere.Core.Outcome
import Lumiere.Routes.Hierarchy
import Lumiere.Routes.ServerEdits
import Lumiere.Routes.Timeouts
import Mathlib.Data.List.TakeWhile

namespace Lumiere.Routes

open Lumiere.Core Lumiere.Core.Prog Lumiere.Models Lumiere.Db

variable {pg pg₁ pg' : Postgres} {auth serverId userId : ℤ} {body : UpdateMemberRequest}

/-! ## The checks -/

/-- the actor may make this request about the user -/
structure MayEdit (pg : Postgres) (auth serverId userId : ℤ) (body : UpdateMemberRequest) : Prop where
  member : pg.hasMember serverId auth = true
  outranks : pg.isOwner serverId auth = true ∨ rank pg serverId userId < rank pg serverId auth
  nickname : body.nickname.isSome = true →
    (if userId = auth then .changeNickname else .manageNicknames) ⊆ pg.userPermissions serverId auth
  roles : body.roles.isSome = true → .manageRoles ⊆ pg.userPermissions serverId auth
  timeout : body.communicationDisabledUntil.isSome = true → .moderateMembers ⊆ pg.userPermissions serverId auth

theorem run_checkRoleHierarchy : (checkRoleHierarchy serverId auth userId).succeeds statement pg = true ↔
    (pg.isOwner serverId auth = true ∨ rank pg serverId userId < rank pg serverId auth) := by
  rw [succeeds_iff_ends, checkRoleHierarchy, ends_bind, ends_select, ends_when, ends_bind, ends_select, ends_bind,
    ends_select, ends_failIf]
  by_cases howner : pg.isOwner serverId auth = true
  · simp [howner]
  · simp [howner, rank]

theorem succeeds_requireMember :
    (requireMember serverId userId).succeeds statement pg = true ↔ pg.hasMember serverId userId = true := by
  rw [Prog.succeeds, run_requireMember]
  by_cases h : pg.hasMember serverId userId = true <;> simp [h]

theorem updateMemberChecks_iff :
    (updateMemberChecks auth serverId userId body).succeeds statement pg = true ↔
      MayEdit pg auth serverId userId body := by
  rw [succeeds_iff_ends, updateMemberChecks, ends_bind, ends_succeeds readOnly_requireMember, ends_bind,
    ends_succeeds readOnly_checkRoleHierarchy, succeeds_requireMember, run_checkRoleHierarchy, ends_bind,
    ends_of_ok run_getUserPermissions]
  simp only [ends_bind, ends_passes, and_true, Bool.and_eq_true, Bool.not_eq_true', not_and, Bool.not_eq_false,
    decide_eq_true_eq, decide_eq_false_iff_not, Permissions.contains_iff]
  constructor
  · rintro ⟨hmember, houtranks, hself, hother, hroles, htimeout⟩
    refine ⟨hmember, houtranks, fun hnick => ?_, hroles, htimeout⟩
    split_ifs with h
    · exact hself ⟨hnick, h⟩
    · exact hother ⟨hnick, h⟩
  · rintro ⟨hmember, houtranks, hnick, hroles, htimeout⟩
    refine ⟨hmember, houtranks, fun h => ?_, fun h => ?_, hroles, htimeout⟩
    · have hself := hnick h.1
      rwa [if_pos h.2] at hself
    · have hother := hnick h.1
      rwa [if_neg h.2] at hother

/-! ## The member -/

/-- the row of a member -/
def memberAt (pg : Postgres) (serverId userId : ℤ) : Option ServerMember :=
  pg.serverMembers.find? fun m => m.serverId = serverId && m.userId = userId

theorem memberAt_eq_some {m : ServerMember} :
    memberAt pg serverId userId = some m ↔ m ∈ pg.serverMembers ∧ m.serverId = serverId ∧ m.userId = userId := by
  constructor
  · intro h
    obtain ⟨hm, hkey⟩ := Table.mem_of_find? h
    simpa using And.intro hm hkey
  · rintro ⟨hm, rfl, rfl⟩
    refine Table.find?_of_mem hm (by simp) fun m' hm' hkey => Table.eq_of_key_eq hm' hm ?_
    simpa using hkey

/-- the row of the member, updated -/
def editMember (pg : Postgres) (serverId userId : ℤ) (f : ServerMember → ServerMember)
    (hf : ∀ m, ((f m).serverId, (f m).userId) = (m.serverId, m.userId)) : Postgres :=
  { pg with
    serverMembers := pg.serverMembers.updateWhere (fun m => m.serverId = serverId && m.userId = userId) f hf }

theorem memberAt_editMember {f : ServerMember → ServerMember}
    (hf : ∀ m, ((f m).serverId, (f m).userId) = (m.serverId, m.userId)) :
    memberAt (editMember pg serverId userId f hf) serverId userId = (memberAt pg serverId userId).map f := by
  refine Option.ext fun m => ?_
  rw [memberAt_eq_some, Option.map_eq_some_iff]
  simp only [editMember, Table.mem_updateWhere, memberAt_eq_some, Bool.and_eq_true, decide_eq_true_eq]
  constructor
  · rintro ⟨⟨b, hb, rfl⟩, hserver, huser⟩
    by_cases hkey : b.serverId = serverId ∧ b.userId = userId
    · exact ⟨b, ⟨hb, hkey⟩, (if_pos hkey).symm⟩
    · rw [if_neg hkey] at hserver huser
      exact absurd ⟨hserver, huser⟩ hkey
  · rintro ⟨b, ⟨hb, hkey⟩, rfl⟩
    obtain ⟨hserver, huser⟩ := Prod.mk.inj (hf b)
    exact ⟨⟨b, hb, if_pos hkey⟩, hserver.trans hkey.1, huser.trans hkey.2⟩

/-- the row of the member is changed, no other table and nobody's membership -/
structure RowEdited (serverId userId : ℤ) (f : ServerMember → ServerMember) (pg pg₁ : Postgres) : Prop where
  row : memberAt pg₁ serverId userId = (memberAt pg serverId userId).map f
  hasMember : ∀ s u, pg₁.hasMember s u = pg.hasMember s u
  users : pg₁.users = pg.users
  roles : pg₁.roles = pg.roles
  memberRoles : pg₁.memberRoles = pg.memberRoles

theorem rowEdited_editMember {f : ServerMember → ServerMember}
    (hf : ∀ m, ((f m).serverId, (f m).userId) = (m.serverId, m.userId)) :
    RowEdited serverId userId f pg (editMember pg serverId userId f hf) :=
  ⟨memberAt_editMember hf, fun _ _ => hasMember_updateWhere hf, rfl, rfl, rfl⟩

theorem RowEdited.refl : RowEdited serverId userId id pg pg :=
  ⟨Option.map_id'.symm, fun _ _ => rfl, rfl, rfl, rfl⟩

theorem RowEdited.trans {f g : ServerMember → ServerMember} (h : RowEdited serverId userId f pg pg₁)
    (h' : RowEdited serverId userId g pg₁ pg') : RowEdited serverId userId (g ∘ f) pg pg' where
  row := by rw [h'.row, h.row, Option.map_map]
  hasMember s u := (h'.hasMember s u).trans (h.hasMember s u)
  users := h'.users.trans h.users
  roles := h'.roles.trans h.roles
  memberRoles := h'.memberRoles.trans h.memberRoles

/-! ## The fields -/

/-- the nickname as the column keeps it, if the request names one -/
def UpdateMemberRequest.storedNickname (body : UpdateMemberRequest) : Except DbError (Option (Option String)) :=
  match body.nickname with
  | none => .ok none
  | some nickname => (varchar? 32 nickname).map some

/-- the row with the fields of the request -/
def UpdateMemberRequest.edit (body : UpdateMemberRequest) (nickname : Option (Option String)) (m : ServerMember) :
    ServerMember :=
  { m with
    nickname := nickname.getD m.nickname
    communicationDisabledUntil := body.communicationDisabledUntil.getD m.communicationDisabledUntil }

theorem run_timeout (pg : Postgres) (serverId userId : ℤ) (timeout : Option (Option DateTime)) :
    ∃ pg₁, (timeout.forM fun t => (execute (.updateTimeout serverId userId t) : Handler Unit)).run statement pg =
        (.ok (), pg₁) ∧
      RowEdited serverId userId
        (fun m => { m with communicationDisabledUntil := timeout.getD m.communicationDisabledUntil }) pg pg₁ := by
  rcases timeout with _ | t
  · exact ⟨pg, rfl, RowEdited.refl⟩
  · exact ⟨_, rfl, rowEdited_editMember (f := fun m => { m with communicationDisabledUntil := t }) fun _ => rfl⟩

theorem run_nickname (pg : Postgres) (serverId userId : ℤ) (nickname : Option String) :
    (execute (.updateNickname serverId userId nickname) : Handler Unit).run statement pg =
      match varchar? 32 nickname with
      | .ok stored => (.ok (), editMember pg serverId userId (fun m => { m with nickname := stored }) fun _ => rfl)
      | .error e => (.error (dbErr e), pg) := by
  rw [execute, run_exec, statement, Sql.exec]
  rcases varchar? 32 nickname with e | stored <;> rfl

/-- a nickname that does not fit fails the first statement -/
theorem updateMemberFields_refused {e : DbError} (h : body.storedNickname = .error e) :
    (updateMemberFields serverId userId body).run statement pg = (.error (dbErr e), pg) := by
  rw [UpdateMemberRequest.storedNickname] at h
  rcases hnick : body.nickname with _ | nickname
  · rw [hnick] at h
    cases h
  · rw [hnick] at h
    dsimp only at h
    rcases hstored : varchar? 32 nickname with e' | stored
    · rw [hstored] at h
      obtain rfl := Except.error.inj h
      rw [updateMemberFields, hnick]
      refine run_bind_of_error ?_
      rw [Option.forM, run_nickname, hstored]
    · rw [hstored] at h
      cases h

theorem run_updateMemberFields (pg : Postgres) (serverId userId : ℤ) {nickname : Option (Option String)}
    (h : body.storedNickname = .ok nickname) :
    ∃ pg₁, (updateMemberFields serverId userId body).run statement pg = (.ok (), pg₁) ∧
      RowEdited serverId userId (body.edit nickname) pg pg₁ := by
  rw [UpdateMemberRequest.storedNickname] at h
  rw [updateMemberFields]
  rcases hnick : body.nickname with _ | name
  · rw [hnick] at h
    obtain rfl := Except.ok.inj h
    obtain ⟨pg₁, hrun, hedited⟩ := run_timeout pg serverId userId body.communicationDisabledUntil
    exact ⟨pg₁, hrun, hedited⟩
  · rw [hnick] at h
    dsimp only at h
    rcases hstored : varchar? 32 name with e | stored
    · rw [hstored] at h
      cases h
    · rw [hstored] at h
      obtain rfl := Except.ok.inj h
      have hfirst := run_nickname pg serverId userId name
      rw [hstored] at hfirst
      obtain ⟨pg₁, hrun, hedited⟩ := run_timeout
        (editMember pg serverId userId (fun m => { m with nickname := stored }) fun _ => rfl) serverId userId
        body.communicationDisabledUntil
      exact ⟨pg₁, (run_bind_of_ok hfirst).trans hrun,
        (rowEdited_editMember (f := fun m => { m with nickname := stored }) fun _ => rfl).trans hedited⟩

/-! ## The roles -/

/-- the row can be inserted: it is there, or the role and the membership that it refers to are -/
def grantable (pg : Postgres) (serverId userId roleId : ℤ) : Bool :=
  (pg.memberRoles.any fun m => m.serverId = serverId && m.userId = userId && m.roleId = roleId) ||
    pg.hasRole roleId && pg.hasMember serverId userId

theorem grantable_iff {roleId : ℤ} : grantable pg serverId userId roleId = true ↔
    ⟨serverId, userId, roleId⟩ ∈ pg.memberRoles ∨ pg.hasRole roleId = true ∧ pg.hasMember serverId userId = true := by
  rw [grantable, Bool.or_eq_true, Bool.and_eq_true, Table.any_eq_true]
  refine or_congr_left ?_
  constructor
  · rintro ⟨m, hm, hkey⟩
    simp only [Bool.and_eq_true, decide_eq_true_eq, and_assoc] at hkey
    obtain ⟨rfl, rfl, rfl⟩ := hkey
    exact hm
  · intro hm
    exact ⟨_, hm, by simp⟩

/-- the roles are added to those of the member, and nothing else changes -/
structure Assigned (serverId userId : ℤ) (roleIds : List ℤ) (pg pg₁ : Postgres) : Prop where
  serverMembers : pg₁.serverMembers = pg.serverMembers
  users : pg₁.users = pg.users
  roles : pg₁.roles = pg.roles
  memberRoles : ∀ m, m ∈ pg₁.memberRoles ↔ m ∈ pg.memberRoles ∨ ∃ id ∈ roleIds, m = ⟨serverId, userId, id⟩

theorem Assigned.refl : Assigned serverId userId [] pg pg := ⟨rfl, rfl, rfl, by simp⟩

theorem Assigned.cons {roleId : ℤ} {roleIds : List ℤ} (h : Assigned serverId userId [roleId] pg pg₁)
    (h' : Assigned serverId userId roleIds pg₁ pg') : Assigned serverId userId (roleId :: roleIds) pg pg' where
  serverMembers := h'.serverMembers.trans h.serverMembers
  users := h'.users.trans h.users
  roles := h'.roles.trans h.roles
  memberRoles m := by rw [h'.memberRoles, h.memberRoles, List.exists_mem_cons_iff]; simp [or_assoc]

/-- a role that could be inserted makes no other one grantable -/
theorem Assigned.grantable {roleId : ℤ} (hrole : grantable pg serverId userId roleId = true)
    (h : Assigned serverId userId [roleId] pg pg₁) : grantable pg₁ serverId userId = grantable pg serverId userId := by
  funext id
  have hhas : pg₁.hasRole id = pg.hasRole id := by rw [Postgres.hasRole, Postgres.hasRole, h.roles]
  have hmember : pg₁.hasMember serverId userId = pg.hasMember serverId userId := by
    rw [Postgres.hasMember, Postgres.hasMember, h.serverMembers]
  rw [Bool.eq_iff_iff, grantable_iff, grantable_iff, h.memberRoles, hhas, hmember]
  constructor
  · rintro ((hold | ⟨_, hmem, heq⟩) | hrefs)
    · exact .inl hold
    · obtain rfl := List.mem_singleton.1 hmem
      obtain rfl := congrArg MemberRole.roleId heq
      exact grantable_iff.1 hrole
    · exact .inr hrefs
  · rintro (hold | hrefs)
    · exact .inl (.inl hold)
    · exact .inr hrefs

theorem run_insertRole (pg : Postgres) (serverId userId roleId : ℤ) :
    let insert : Handler Unit := execute (.insertMemberRoleIgnore ⟨serverId, userId, roleId⟩)
    (grantable pg serverId userId roleId = true ∧
        ∃ pg₁, insert.run statement pg = (.ok (), pg₁) ∧ Assigned serverId userId [roleId] pg pg₁) ∨
      grantable pg serverId userId roleId = false ∧ ∃ e, insert.run statement pg = (.error e, pg) := by
  intro insert
  rcases hexec : Sql.exec pg (.insertMemberRoleIgnore ⟨serverId, userId, roleId⟩) with e | ⟨n, pg₁⟩
  · refine .inr ⟨?_, dbErr e, ?_⟩
    · rw [← Bool.not_eq_true, grantable_iff]
      intro h
      simp only [Sql.exec, Postgres.memberRoleReferences] at hexec
      rcases hinsert : pg.memberRoles.insert? ⟨serverId, userId, roleId⟩ with _ | memberRoles
      · rw [hinsert] at hexec
        cases hexec
      · rw [hinsert] at hexec
        rcases h with hold | ⟨hrole, hmember⟩
        · exact (Table.insert?_eq_some hinsert).1 _ hold rfl
        · rw [hrole, hmember] at hexec
          cases hexec
    · rw [show insert = execute (.insertMemberRoleIgnore ⟨serverId, userId, roleId⟩) from rfl, execute, run_exec,
        statement, hexec]
  · have hrows := exec_memberRoles hexec
    refine .inl ⟨grantable_iff.2 hrows.1, pg₁, execute_eq_ok.2 ⟨n, statement_eq_ok.2 hexec⟩, ?_⟩
    obtain ⟨rfl, -⟩ := exec_insertMemberRoleIgnore hexec
    exact ⟨rfl, rfl, rfl, fun m => by simpa using hrows.2 m⟩

/-- the loop stops at the first role that cannot be inserted -/
theorem run_assignRoles (pg : Postgres) (serverId userId : ℤ) (roleIds : List ℤ) :
    ∃ r pg₁, (roleIds.forM fun id =>
        (execute (.insertMemberRoleIgnore ⟨serverId, userId, id⟩) : Handler Unit)).run statement pg = (r, pg₁) ∧
      Assigned serverId userId (roleIds.takeWhile (grantable pg serverId userId)) pg pg₁ ∧
      (r.isOk = true ↔ ∀ id ∈ roleIds, grantable pg serverId userId id = true) := by
  induction roleIds generalizing pg with
  | nil => exact ⟨.ok (), pg, rfl, Assigned.refl, iff_of_true rfl (by simp)⟩
  | cons id roleIds ih =>
    rcases run_insertRole pg serverId userId id with ⟨hid, pg₁, hrun, hassigned⟩ | ⟨hid, e, hrun⟩
    · obtain ⟨r, pg₂, hrest, hassigned', hok⟩ := ih pg₁
      rw [hassigned.grantable hid] at hassigned' hok
      refine ⟨r, pg₂, (run_bind_of_ok hrun).trans hrest, ?_, ?_⟩
      · rw [List.takeWhile_cons_of_pos hid]
        exact hassigned.cons hassigned'
      · rw [hok, List.forall_mem_cons]
        exact (and_iff_right hid).symm
    · refine ⟨.error e, pg, run_bind_of_error hrun, ?_, ?_⟩
      · rw [List.takeWhile_cons_of_neg (by rw [hid]; exact Bool.false_ne_true)]
        exact Assigned.refl
      · rw [List.forall_mem_cons, hid]
        exact iff_of_false Bool.false_ne_true fun h => Bool.false_ne_true h.1

/-- the roles the member keeps or gets, and whether all of the list does -/
structure RolesWritten (pg : Postgres) (serverId userId : ℤ) (roleIds : List ℤ) (pg₁ : Postgres) : Prop where
  serverMembers : pg₁.serverMembers = pg.serverMembers
  users : pg₁.users = pg.users
  memberRoles : ∀ id, ⟨serverId, userId, id⟩ ∈ pg₁.memberRoles ↔
    id ∈ roleIds ∨ id = serverId ∧ ⟨serverId, userId, serverId⟩ ∈ pg.memberRoles

/-- the role can be inserted when the other ones have been deleted -/
def assignable (pg : Postgres) (serverId userId roleId : ℤ) : Bool :=
  (roleId = serverId && grantable pg serverId userId roleId) || pg.hasRole roleId && pg.hasMember serverId userId

theorem run_updateMemberRoles (pg : Postgres) (serverId userId : ℤ) (roleIds : List ℤ) :
    ∃ r pg₁, (updateMemberRoles serverId userId roleIds).run statement pg = (r, pg₁) ∧
      RolesWritten pg serverId userId (roleIds.takeWhile (assignable pg serverId userId)) pg₁ ∧
      (r.isOk = true ↔ ∀ id ∈ roleIds, assignable pg serverId userId id = true) := by
  have hexec : ∃ n pg₀, Sql.exec pg (.deleteMemberRoles serverId userId) = .ok (n, pg₀) ∧
      pg₀.serverMembers = pg.serverMembers ∧ pg₀.users = pg.users ∧ pg₀.roles = pg.roles := ⟨_, _, rfl, rfl, rfl, rfl⟩
  obtain ⟨n, pg₀, hexec, hmembers, husers, hroles⟩ := hexec
  have hrows := exec_memberRoles hexec
  have hgrantable : grantable pg₀ serverId userId = assignable pg serverId userId := by
    funext id
    have hhas : pg₀.hasRole id = pg.hasRole id := by rw [Postgres.hasRole, Postgres.hasRole, hroles]
    have hmember : pg₀.hasMember serverId userId = pg.hasMember serverId userId := by
      rw [Postgres.hasMember, Postgres.hasMember, hmembers]
    rw [Bool.eq_iff_iff, grantable_iff, hrows, hhas, hmember, assignable, Bool.or_eq_true, Bool.and_eq_true,
      decide_eq_true_eq, grantable_iff, Bool.and_eq_true]
    simp only [true_and, not_not]
    tauto
  obtain ⟨r, pg₁, hrun, hassigned, hok⟩ := run_assignRoles pg₀ serverId userId roleIds
  rw [hgrantable] at hassigned hok
  refine ⟨r, pg₁, ?_, ⟨hassigned.serverMembers.trans hmembers, hassigned.users.trans husers, fun id => ?_⟩, hok⟩
  · rw [updateMemberRoles, run_bind_of_ok ((execute_eq_ok (u := ())).2 ⟨n, statement_eq_ok.2 hexec⟩)]
    exact hrun
  · rw [hassigned.memberRoles, hrows]
    constructor
    · rintro (⟨hold, hkept⟩ | ⟨id', hid', heq⟩)
      · have hid : id = serverId := by simpa using hkept
        exact .inr ⟨hid, by rwa [hid] at hold⟩
      · obtain rfl := congrArg MemberRole.roleId heq
        exact .inl hid'
    · rintro (hid | ⟨rfl, hold⟩)
      · exact .inr ⟨id, hid, rfl⟩
      · exact .inl ⟨hold, by simp⟩

theorem RowEdited.assignable {f : ServerMember → ServerMember} (h : RowEdited serverId userId f pg pg₁) :
    assignable pg₁ serverId userId = assignable pg serverId userId := by
  funext id
  rw [Routes.assignable, Routes.assignable, Routes.grantable, Routes.grantable, h.memberRoles, h.hasMember,
    Postgres.hasRole, h.roles]
  rfl

/-! ## The answer -/

theorem RowEdited.hasAccount {f : ServerMember → ServerMember} (h : RowEdited serverId userId f pg pg₁) :
    hasAccount pg₁ = hasAccount pg := by
  funext id
  rw [Routes.hasAccount, h.users]
  rfl

theorem memberRow_isSome_iff : (memberRow pg serverId userId).isSome = true ↔
    pg.hasMember serverId userId = true ∧ hasAccount pg userId = true := by
  refine ⟨fun h => ?_, fun h => memberRow_isSome h.1 h.2⟩
  rw [memberRow] at h
  rcases hfind : pg.serverMembers.find? fun m => m.serverId = serverId && m.userId = userId with _ | m
  · rw [hfind] at h
    cases h
  · rw [hfind] at h
    obtain ⟨hm, hkey⟩ := Table.mem_of_find? hfind
    rw [Bool.and_eq_true, decide_eq_true_eq, decide_eq_true_eq] at hkey
    refine ⟨hasMember_iff.2 ⟨m, hm, hkey⟩, ?_⟩
    rcases huser : pg.users.find? fun u => u.id = m.userId && u.deletedAt.isNone with _ | u
    · simp [huser] at h
    · obtain ⟨hu, hlive⟩ := Table.mem_of_find? huser
      rw [hkey.2] at hlive
      exact Table.any_eq_true.2 ⟨u, hu, hlive⟩

theorem run_getMember (userId : ℤ) (hauth : pg.hasMember serverId auth = true) :
    ∃ r, (getMember auth serverId userId).run statement pg = (r, pg) ∧
      (r.isOk = true ↔ pg.hasMember serverId userId = true ∧ hasAccount pg userId = true) := by
  have hrequire : (requireMember serverId auth).run statement pg = (.ok (), pg) := by
    rw [run_requireMember, if_pos hauth]
  rw [getMember, run_bind_of_ok hrequire, run_bind_of_ok (run_select _), ← memberRow_isSome_iff]
  rcases memberRow pg serverId userId with _ | row
  · exact ⟨_, rfl, iff_of_false Bool.false_ne_true Bool.false_ne_true⟩
  · exact ⟨_, rfl, iff_of_true rfl rfl⟩

/-! ## The request as a whole -/

/-- nothing is refused after the first write -/
def Completes (pg : Postgres) (serverId userId : ℤ) (body : UpdateMemberRequest) : Prop :=
  (∀ roleIds, body.roles = some roleIds → ∀ id ∈ roleIds, assignable pg serverId userId id = true) ∧
    pg.hasMember serverId userId = true ∧ hasAccount pg userId = true

/-- the member has @everyone -/
def HasEveryone (pg : Postgres) (serverId userId : ℤ) : Prop := ⟨serverId, userId, serverId⟩ ∈ pg.memberRoles

/-- the row and the roles that the request writes are those that the member has -/
def Unaffected (pg : Postgres) (serverId userId : ℤ) (body : UpdateMemberRequest)
    (nickname : Option (Option String)) : Prop :=
  (memberAt pg serverId userId).map (body.edit nickname) = memberAt pg serverId userId ∧
    ∀ roleIds, body.roles = some roleIds → ∀ id,
      id ∈ roleIds.takeWhile (assignable pg serverId userId) ∨ id = serverId ∧ HasEveryone pg serverId userId ↔
        ⟨serverId, userId, id⟩ ∈ pg.memberRoles

/-- the member's row and roles are as before -/
def SameMember (serverId userId : ℤ) (pg pg' : Postgres) : Prop :=
  memberAt pg' serverId userId = memberAt pg serverId userId ∧
    ∀ id, ⟨serverId, userId, id⟩ ∈ pg'.memberRoles ↔ ⟨serverId, userId, id⟩ ∈ pg.memberRoles

/-- the member's roles are the listed ones and @everyone, if the request lists any -/
def RolesAre (serverId userId : ℤ) (body : UpdateMemberRequest) (pg' : Postgres) : Prop :=
  ∀ roleIds, body.roles = some roleIds → ∀ id, ⟨serverId, userId, id⟩ ∈ pg'.memberRoles ↔ id ∈ roleIds ∨ id = serverId

/-- the state that the request leaves when its checks and its nickname are in order -/
structure Edited (pg : Postgres) (serverId userId : ℤ) (body : UpdateMemberRequest) (nickname : Option (Option String))
    (pg' : Postgres) : Prop where
  row : memberAt pg' serverId userId = (memberAt pg serverId userId).map (body.edit nickname)
  roles : ∀ roleIds, body.roles = some roleIds → ∀ id, ⟨serverId, userId, id⟩ ∈ pg'.memberRoles ↔
    id ∈ roleIds.takeWhile (assignable pg serverId userId) ∨ id = serverId ∧ HasEveryone pg serverId userId
  noRoles : body.roles = none → pg'.memberRoles = pg.memberRoles

theorem edited_same {nickname : Option (Option String)} (h : Edited pg serverId userId body nickname pg') :
    SameMember serverId userId pg pg' ↔ Unaffected pg serverId userId body nickname := by
  rw [SameMember, Unaffected, h.row]
  refine and_congr_right fun _ => ?_
  rcases hbody : body.roles with _ | roleIds
  · rw [h.noRoles hbody]
    exact iff_of_true (fun _ => Iff.rfl) nofun
  · simp only [h.roles roleIds hbody, Option.some.injEq, forall_eq']

theorem edited_roles {nickname : Option (Option String)} (h : Edited pg serverId userId body nickname pg')
    (hcompletes : Completes pg serverId userId body) :
    RolesAre serverId userId body pg' ↔
      ∀ roleIds, body.roles = some roleIds → serverId ∈ roleIds ∨ HasEveryone pg serverId userId := by
  refine forall_congr' fun roleIds => forall_congr' fun hbody => ?_
  have hall := List.takeWhile_eq_self_iff.2 (hcompletes.1 roleIds hbody)
  simp only [h.roles roleIds hbody, hall]
  constructor
  · intro heq
    exact ((heq serverId).2 (.inr rfl)).imp_right And.right
  · rintro heveryone id
    refine or_congr_right' fun hid => ⟨And.left, ?_⟩
    rintro rfl
    exact ⟨rfl, heveryone.resolve_left hid⟩

theorem run_updateMember {nickname : Option (Option String)} (hallowed : MayEdit pg auth serverId userId body)
    (hnickname : body.storedNickname = .ok nickname) :
    ∃ r pg', (updateMember auth serverId userId body).run statement pg = (r, pg') ∧
      Edited pg serverId userId body nickname pg' ∧ (r.isOk = true ↔ Completes pg serverId userId body) := by
  have hchecks : (updateMemberChecks auth serverId userId body).run statement pg = (.ok (), pg) := by
    obtain ⟨_, pg₀, hrun⟩ := succeeds_iff.1 (updateMemberChecks_iff.2 hallowed)
    obtain rfl := readOnly_updateMemberChecks.eq_of_run hrun
    exact hrun
  obtain ⟨pg₁, hfields, hedited⟩ := run_updateMemberFields pg serverId userId hnickname
  rw [updateMember, run_bind_of_ok hchecks, run_bind_of_ok hfields, Completes]
  rcases hbody : body.roles with _ | roleIds
  · obtain ⟨r, hget, hok⟩ := run_getMember userId ((hedited.hasMember serverId auth).trans hallowed.member)
    refine ⟨r, pg₁, hget, ⟨hedited.row, fun _ h => ?_, fun _ => hedited.memberRoles⟩, ?_⟩
    · rw [hbody] at h
      cases h
    · rw [hok, hedited.hasMember, hedited.hasAccount]
      exact (and_iff_right (by rintro _ ⟨⟩)).symm
  · obtain ⟨r, pg₂, hroles, hwritten, hrolesOk⟩ := run_updateMemberRoles pg₁ serverId userId roleIds
    rw [hedited.assignable] at hwritten hrolesOk
    have hrow : Edited pg serverId userId body nickname pg₂ := by
      refine ⟨?_, fun ids h id => ?_, fun h => ?_⟩
      · rw [memberAt, hwritten.serverMembers]
        exact hedited.row
      · obtain rfl := Option.some.inj (hbody.symm.trans h)
        rw [hwritten.memberRoles, hedited.memberRoles]
        exact Iff.rfl
      · rw [hbody] at h
        cases h
    simp only [Option.some.injEq, forall_eq']
    rcases r with e | _
    · refine ⟨.error e, pg₂, run_bind_of_error hroles, hrow, iff_of_false Bool.false_ne_true fun h => ?_⟩
      exact Bool.false_ne_true (hrolesOk.2 h.1)
    · have hmembers : ∀ s u, pg₂.hasMember s u = pg.hasMember s u := by
        intro s u
        rw [← hedited.hasMember, Postgres.hasMember, hwritten.serverMembers]
        rfl
      obtain ⟨r, hget, hok⟩ := run_getMember userId ((hmembers serverId auth).trans hallowed.member)
      refine ⟨r, pg₂, (run_bind_of_ok hroles).trans hget, hrow, ?_⟩
      rw [hok, hmembers, hasAccount, hwritten.users, ← hasAccount, hedited.hasAccount]
      exact (and_iff_right (hrolesOk.1 rfl)).symm

/-- how the request ends, where Q and E ask for something that is known from the state at the start -/
theorem ends_updateMember {Q : MemberResponse → Postgres → Prop} {E : AppError → Postgres → Prop}
    {completed failed : Option (Option String) → Prop} (hrefused : ∀ e, E e pg)
    (hQ : ∀ nickname r pg', Edited pg serverId userId body nickname pg' → Completes pg serverId userId body →
      (Q r pg' ↔ completed nickname))
    (hE : ∀ nickname e pg', Edited pg serverId userId body nickname pg' → (E e pg' ↔ failed nickname)) :
    (updateMember auth serverId userId body).Ends statement pg Q E ↔
      (MayEdit pg auth serverId userId body → ∀ nickname, body.storedNickname = .ok nickname →
        (Completes pg serverId userId body → completed nickname) ∧
          (¬ Completes pg serverId userId body → failed nickname)) := by
  rw [← updateMemberChecks_iff]
  by_cases hchecks : (updateMemberChecks auth serverId userId body).succeeds statement pg = true
  · rw [forall_prop_of_true hchecks]
    rcases hnickname : body.storedNickname with e | nickname
    · obtain ⟨_, _, hrun⟩ := succeeds_iff.1 hchecks
      obtain rfl := readOnly_updateMemberChecks.eq_of_run hrun
      rw [updateMember, ends_bind, ends_of_ok hrun, ends_bind, ends_of_error (updateMemberFields_refused hnickname)]
      exact iff_of_true (hrefused _) (by rintro _ ⟨⟩)
    · obtain ⟨r, pg', hrun, hedited, hok⟩ := run_updateMember (updateMemberChecks_iff.1 hchecks) hnickname
      simp only [Except.ok.injEq, forall_eq']
      rw [← hok]
      rcases r with e | r
      · rw [ends_of_error hrun, hE nickname e pg' hedited]
        have hfails : (.error e : Except AppError MemberResponse).isOk = false := rfl
        rw [hfails]
        simp
      · rw [ends_of_ok hrun, hQ nickname r pg' hedited (hok.1 rfl)]
        exact ⟨fun h => ⟨fun _ => h, fun hno => absurd rfl hno⟩, fun h => h.1 rfl⟩
  · rw [updateMember, ends_guarded readOnly_updateMemberChecks hrefused]
    exact iff_of_true (fun h => absurd h hchecks) fun h => absurd h hchecks

theorem SameMember.refl : SameMember serverId userId pg pg := ⟨rfl, fun _ => Iff.rfl⟩

/-- what is written was there before, or nothing is refused after it -/
def EditStands (pg : Postgres) (auth serverId userId : ℤ) (body : UpdateMemberRequest) : Prop :=
  MayEdit pg auth serverId userId body → ∀ nickname, body.storedNickname = .ok nickname →
    (Completes pg serverId userId body →
      ∀ roleIds, body.roles = some roleIds → serverId ∈ roleIds ∨ HasEveryone pg serverId userId) ∧
    (¬ Completes pg serverId userId body → Unaffected pg serverId userId body nickname)

/-- **`update_member` is all or nothing exactly if nothing is refused after a write that changed the member.** On success
the list leaves @everyone out only if the member has it. -/
theorem updateMember_iff (pg : Postgres) (auth serverId userId : ℤ) (body : UpdateMemberRequest) :
    (updateMember auth serverId userId body).Ends statement pg
        (fun _ pg' => RolesAre serverId userId body pg') (fun _ pg' => SameMember serverId userId pg pg') ↔
      EditStands pg auth serverId userId body :=
  ends_updateMember (fun _ => SameMember.refl) (fun _ _ _ hedited hcompletes => edited_roles hedited hcompletes)
    fun _ _ _ hedited => edited_same hedited

/-! ## A member half edited -/

/-- a nickname, and a role that does not exist -/
def renameAndPromote : UpdateMemberRequest := ⟨some (some "bo"), some [999], none⟩

/-- **The request is refused, and the member has been renamed.** -/
theorem half_edited :
    ((updateMember 1 100 2 renameAndPromote).run statement twoMembers).1.isOk = false ∧
      (memberAt twoMembers 100 2).map ServerMember.nickname = some none ∧
      (memberAt ((updateMember 1 100 2 renameAndPromote).run statement twoMembers).2 100 2).map ServerMember.nickname =
        some (some "bo") := by
  decide

end Lumiere.Routes
