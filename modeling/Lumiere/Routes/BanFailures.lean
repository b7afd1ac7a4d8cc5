/-
What `create_ban` leaves behind (`lumiere-server/src/routes/servers.rs`). The member is removed first; the ban row, whose
reason is a VARCHAR(512) and whose user has to exist, comes in a later statement, and the count in a third.

- `createBanChecks_iff`: what the checks ask for.
- `run_upsertBan`, `upsertBan_refused`: when the ban can be recorded, and with which reason.
- `createBan_iff`: the request is all or nothing exactly if no member is removed before a refusal, and the reason is kept
  as it was given.
- `kicked_unbanned`: a reason of 513 characters.
-/
import Lumiere.Routes.MemberCounts
import Lumiere.Routes.MemberEdits

namespace Lumiere.Routes

open Lumiere.Core Lumiere.Core.Prog Lumiere.Models Lumiere.Db

variable {pg pg' : Postgres} {auth serverId userId : ℤ} {reason : Option String}

/-! ## The checks -/

/-- everything `create_ban` checks before its first write -/
def createBanChecks (auth serverId userId : ℤ) : Handler Unit := do
  requirePermissions serverId auth .banMembers
  refuseOwner serverId userId (.forbidden "Cannot ban the server owner")
  checkRoleHierarchy serverId auth userId

/-- the actor may ban the user -/
structure MayBan (pg : Postgres) (auth serverId userId : ℤ) : Prop where
  member : pg.hasMember serverId auth = true
  permission : .banMembers ⊆ pg.userPermissions serverId auth
  notOwner : pg.isOwner serverId userId = false
  outranks : pg.isOwner serverId auth = true ∨ rank pg serverId userId < rank pg serverId auth

theorem readOnly_createBanChecks : (createBanChecks auth serverId userId).ReadOnly :=
  issues_bind readOnly_requirePermissions fun _ => issues_bind readOnly_refuseOwner fun _ => readOnly_checkRoleHierarchy

theorem createBanChecks_iff :
    (createBanChecks auth serverId userId).succeeds statement pg = true ↔ MayBan pg auth serverId userId := by
  rw [succeeds_iff_ends, createBanChecks, ends_bind, ends_succeeds readOnly_requirePermissions,
    succeeds_requirePermissions, ends_bind,
    refuseOwner, ends_bind, ends_select, ends_passes, ← succeeds_iff_ends, run_checkRoleHierarchy, Bool.not_eq_true]
  exact ⟨fun ⟨⟨hmember, hperms⟩, howner, hrank⟩ => ⟨hmember, hperms, howner, hrank⟩,
    fun h => ⟨⟨h.member, h.permission⟩, h.notOwner, h.outranks⟩⟩

/-! ## The three statements -/

/-- the database without the member -/
def withoutMember (pg : Postgres) (serverId userId : ℤ) : Postgres :=
  pg.deleteServerMembers fun m => m.serverId = serverId && m.userId = userId

/-- the reason that the ban row keeps, if the ban can be recorded -/
def storedReason (pg : Postgres) (auth serverId userId : ℤ) (reason : Option String) : Option (Option String) :=
  match varchar? 512 reason with
  | .ok reason => if pg.hasServer serverId && pg.hasUser userId && pg.hasUser auth then some reason else none
  | .error _ => none

/-- the database with the ban -/
def withBan (pg : Postgres) (auth serverId userId : ℤ) (reason : Option String) : Postgres :=
  { pg with
    bans := pg.bans.upsert ⟨serverId, userId, reason, some auth⟩
      (fun b => { b with reason, bannedBy := some auth }) fun _ => rfl }

theorem run_upsertBan {stored : Option String} (h : storedReason pg auth serverId userId reason = some stored) :
    (execute (.upsertBan ⟨serverId, userId, reason, some auth⟩) : Handler Unit).run statement pg =
      (.ok (), withBan pg auth serverId userId stored) := by
  rw [storedReason] at h
  rcases hfits : varchar? 512 reason with e | r
  · rw [hfits] at h
    cases h
  · rw [hfits] at h
    dsimp only at h
    split_ifs at h with hrefs
    obtain rfl := Option.some.inj h
    simp only [Bool.and_eq_true] at hrefs
    obtain ⟨⟨hserver, huser⟩, hauth⟩ := hrefs
    have hexec : Sql.exec pg (.upsertBan ⟨serverId, userId, reason, some auth⟩) =
        .ok (1, withBan pg auth serverId userId r) := by
      simp only [Sql.exec, bind_eq_ok, requires_eq_ok, Option.all_some]
      exact ⟨r, hfits, (), hserver, (), huser, (), hauth, rfl⟩
    exact execute_eq_ok.2 ⟨1, statement_eq_ok.2 hexec⟩

theorem upsertBan_refused (h : storedReason pg auth serverId userId reason = none) :
    ∃ e, (execute (.upsertBan ⟨serverId, userId, reason, some auth⟩) : Handler Unit).run statement pg =
      (.error e, pg) := by
  rcases run_execute_cases statement (.upsertBan ⟨serverId, userId, reason, some auth⟩) pg with
    ⟨n, pg₁, hexec, -⟩ | hrun
  · simp only [statement_eq_ok, Sql.exec, bind_eq_ok, requires_eq_ok, Option.all_some] at hexec
    obtain ⟨r, hfits, _, hserver, _, huser, _, hauth, -⟩ := hexec
    rw [storedReason, hfits, hserver, huser, hauth] at h
    cases h
  · exact hrun

/-- the members that remain -/
def remainingMembers (pg : Postgres) (serverId userId : ℤ) : ℕ :=
  pg.serverMembers.count fun m => m.serverId = serverId && m.userId ≠ userId

theorem members_withoutMember :
    (withoutMember pg serverId userId).members serverId = remainingMembers pg serverId userId := by
  rw [Postgres.members, withoutMember, Postgres.deleteServerMembers, remainingMembers, Table.count, Table.count,
    Table.deleteWhere, List.countP_filter]
  refine List.countP_congr fun m _ => ?_
  by_cases hserver : m.serverId = serverId <;> simp [hserver]

theorem hasMember_withoutMember : (withoutMember pg serverId userId).hasMember serverId userId = false := by
  rw [Postgres.hasMember, Table.any_eq_false]
  exact fun m hm => (Table.mem_deleteWhere.1 hm).2

/-- without the member there is nothing to delete -/
theorem withoutMember_same :
    ((withoutMember pg serverId userId).serverMembers = pg.serverMembers ∧
      (withoutMember pg serverId userId).memberRoles = pg.memberRoles) ↔ pg.hasMember serverId userId = false := by
  have hmembers : (withoutMember pg serverId userId).serverMembers = pg.serverMembers ↔
      pg.hasMember serverId userId = false := by
    rw [withoutMember, Postgres.deleteServerMembers, Table.deleteWhere_eq_self, Postgres.hasMember, Table.any_eq_false]
  rw [hmembers]
  refine and_iff_left_of_imp fun hno => ?_
  rw [withoutMember, Postgres.deleteServerMembers, Table.deleteWhere_eq_self]
  intro m _
  rw [Postgres.hasMember, Table.any_eq_false] at hno
  rw [Table.any_eq_false]
  intro sm hsm
  rw [hno sm hsm]
  rfl

/-! ## The request as a whole -/

/-- the tables that a ban writes are as before -/
structure SameModeration (pg pg' : Postgres) : Prop where
  members : pg'.serverMembers = pg.serverMembers ∧ pg'.memberRoles = pg.memberRoles
  bans : pg'.bans = pg.bans
  memberCounts : pg'.memberCounts = pg.memberCounts

theorem SameModeration.refl : SameModeration pg pg := ⟨⟨rfl, rfl⟩, rfl, rfl⟩

/-- the user is no member and banned for the reason, and the count of the server is right -/
structure BannedFor (serverId userId : ℤ) (reason : Option String) (pg' : Postgres) : Prop where
  notMember : pg'.hasMember serverId userId = false
  ban : ∃ b ∈ pg'.bans, b.serverId = serverId ∧ b.userId = userId ∧ b.reason = reason
  count : CountRight serverId pg'

/-- no member is removed before a refusal, and the ban row keeps the reason -/
def BanStands (pg : Postgres) (auth serverId userId : ℤ) (reason : Option String) : Prop :=
  MayBan pg auth serverId userId →
    match storedReason pg auth serverId userId reason with
    | some stored =>
      if remainingMembers pg serverId userId ≤ 2147483647 then stored = reason
      else pg.hasMember serverId userId = false ∧ ⟨serverId, userId, stored, some auth⟩ ∈ pg.bans
    | none => pg.hasMember serverId userId = false

theorem mem_withBan : ⟨serverId, userId, reason, some auth⟩ ∈ (withBan pg auth serverId userId reason).bans := by
  refine Table.mem_upsert_self _ fun b hkey => ?_
  obtain ⟨hserver, huser⟩ := Prod.mk.inj hkey
  rw [hserver, huser]

theorem withBan_same :
    (withBan pg auth serverId userId reason).bans = pg.bans ↔ ⟨serverId, userId, reason, some auth⟩ ∈ pg.bans := by
  refine Table.upsert_eq_self _ fun b hkey => ?_
  obtain ⟨hserver, huser⟩ := Prod.mk.inj hkey
  rw [hserver, huser]

/-- the count fits an INTEGER, or the statement fails -/
theorem exec_recount (pg : Postgres) (serverId : ℤ) :
    pg.members serverId ≤ 2147483647 ∧ (∃ r, Sql.exec pg (.recountMembers serverId) = .ok r) ∨
      ¬ pg.members serverId ≤ 2147483647 ∧ ∃ e, Sql.exec pg (.recountMembers serverId) = .error e := by
  rw [Sql.exec, integer]
  by_cases h : pg.members serverId ≤ 2147483647
  · refine .inl ⟨h, ?_⟩
    rw [if_pos ⟨by omega, by exact_mod_cast h⟩]
    exact ⟨_, rfl⟩
  · refine .inr ⟨h, ?_⟩
    rw [if_neg fun hle => h (by exact_mod_cast hle.2)]
    exact ⟨_, rfl⟩

/-- the statements of `create_ban`, after its checks -/
def recordBan (auth serverId userId : ℤ) (reason : Option String) : Handler Unit := do
  execute (.deleteServerMember serverId userId)
  execute (.upsertBan ⟨serverId, userId, reason, some auth⟩)
  execute (.recountMembers serverId)

theorem createBan_eq : createBan auth serverId userId reason = (do
    createBanChecks auth serverId userId
    recordBan auth serverId userId reason) := by
  rw [createBan, createBanChecks, bind_bind]
  refine congrArg _ (funext fun _ => ?_)
  rw [bind_bind]
  rfl

/-- the ban cannot be recorded, and the member has been removed -/
theorem recordBan_refused (h : storedReason pg auth serverId userId reason = none) :
    ∃ e, (recordBan auth serverId userId reason).run statement pg = (.error e, withoutMember pg serverId userId) := by
  have hdelete : (execute (.deleteServerMember serverId userId) : Handler Unit).run statement pg =
      (.ok (), withoutMember pg serverId userId) := rfl
  have hstored : storedReason (withoutMember pg serverId userId) auth serverId userId reason = none := h
  obtain ⟨e, hrun⟩ := upsertBan_refused hstored
  exact ⟨e, (run_bind_of_ok hdelete).trans (run_bind_of_error hrun)⟩

theorem ends_recordBan :
    (recordBan auth serverId userId reason).Ends statement pg
        (fun _ pg' => BannedFor serverId userId reason pg') (fun _ pg' => SameModeration pg pg') ↔
      match storedReason pg auth serverId userId reason with
      | some stored =>
        if remainingMembers pg serverId userId ≤ 2147483647 then stored = reason
        else pg.hasMember serverId userId = false ∧ ⟨serverId, userId, stored, some auth⟩ ∈ pg.bans
      | none => pg.hasMember serverId userId = false := by
  rcases hstored : storedReason pg auth serverId userId reason with _ | stored
  · obtain ⟨e, hrun⟩ := recordBan_refused hstored
    rw [ends_of_error hrun]
    exact ⟨fun h => withoutMember_same.1 h.members, fun h => ⟨withoutMember_same.2 h, rfl, rfl⟩⟩
  · have hdelete : (execute (.deleteServerMember serverId userId) : Handler Unit).run statement pg =
        (.ok (), withoutMember pg serverId userId) := rfl
    have hsame : storedReason (withoutMember pg serverId userId) auth serverId userId reason = some stored := hstored
    rw [recordBan, ends_bind, ends_of_ok hdelete, ends_bind, ends_of_ok (run_upsertBan hsame), ends_execute]
    have hmembers : (withBan (withoutMember pg serverId userId) auth serverId userId stored).members serverId =
        remainingMembers pg serverId userId := members_withoutMember
    dsimp only
    rcases exec_recount (withBan (withoutMember pg serverId userId) auth serverId userId stored) serverId with
      ⟨hcount, ⟨n, pg₃⟩, hexec⟩ | ⟨hcount, e, hexec⟩
    · rw [hmembers] at hcount
      rw [if_pos hcount, statement_eq_ok.2 hexec]
      have hright := countRight_recount hexec
      simp only [Sql.exec, bind_eq_ok, pure_eq_ok, Prod.mk.injEq] at hexec
      obtain ⟨_, -, -, rfl⟩ := hexec
      constructor
      · intro h
        obtain ⟨b, hb, hserver, huser, hreason⟩ := (h.1 n _ rfl).ban
        rw [Table.eq_of_key_eq hb mem_withBan (by rw [hserver, huser])] at hreason
        exact hreason
      · rintro rfl
        refine ⟨fun n' pg' heq => ?_, by rintro _ ⟨⟩⟩
        obtain ⟨-, rfl⟩ := Prod.mk.inj (Except.ok.inj heq)
        exact ⟨hasMember_withoutMember, ⟨_, mem_withBan, rfl, rfl, rfl⟩, hright⟩
    · rw [hmembers] at hcount
      rw [if_neg hcount, statement, hexec]
      constructor
      · intro h
        have hmoderation := h.2 _ rfl
        exact ⟨withoutMember_same.1 hmoderation.members, withBan_same.1 hmoderation.bans⟩
      · rintro ⟨hno, hban⟩
        exact ⟨by rintro _ _ ⟨⟩, fun _ _ => ⟨withoutMember_same.2 hno, withBan_same.2 hban, rfl⟩⟩

/-- **`create_ban` is all or nothing exactly if no member is removed before a refusal, and keeps the reason exactly if it
is stored as given.** -/
theorem createBan_iff (pg : Postgres) (auth serverId userId : ℤ) (reason : Option String) :
    (createBan auth serverId userId reason).Ends statement pg
        (fun _ pg' => BannedFor serverId userId reason pg') (fun _ pg' => SameModeration pg pg') ↔
      BanStands pg auth serverId userId reason := by
  rw [createBan_eq, ends_guarded readOnly_createBanChecks fun _ => SameModeration.refl, createBanChecks_iff, ends_recordBan,
    BanStands]

/-! ## A member removed and not banned -/

/-- a text of `length` characters -/
def exes (length : ℕ) : String := String.ofList (List.replicate length 'x')

theorem varchar_exes {n length : ℕ} (h : n < length) : varchar n (exes length) = .error (.tooLong n) := by
  have hnul : ¬ ((exes length).toList.any fun c => c.toNat = 0) = true := by
    simp [exes]
  have hlength : ¬ (exes length).length ≤ n := by
    simp [exes]
    exact h
  have hblank : ¬ ((exes length).toList.drop n).all (· = ' ') = true := by
    simp [exes]
    omega
  rw [varchar, if_neg hnul, if_neg hlength, if_neg hblank]

/-- **The ban is refused, and the member is gone.** -/
theorem kicked_unbanned :
    ((createBan 1 100 2 (some (exes 513))).run statement twoMembers).1.isOk = false ∧
      twoMembers.hasMember 100 2 = true ∧
      ((createBan 1 100 2 (some (exes 513))).run statement twoMembers).2.hasMember 100 2 = false ∧
      ((createBan 1 100 2 (some (exes 513))).run statement twoMembers).2.isBanned 100 2 = false ∧
      (serverRow ((createBan 1 100 2 (some (exes 513))).run statement twoMembers).2 100).map Server.memberCount =
        some 2 := by
  have hlong : storedReason twoMembers 1 100 2 (some (exes 513)) = none := by
    rw [storedReason, varchar?, varchar_exes (by decide)]
    rfl
  have hchecks : (createBanChecks 1 100 2).run statement twoMembers = (.ok (), twoMembers) := by
    obtain ⟨_, pg₁, hrun⟩ := succeeds_iff.1
      (show (createBanChecks 1 100 2).succeeds statement twoMembers = true from by decide)
    obtain rfl := readOnly_createBanChecks.eq_of_run hrun
    exact hrun
  obtain ⟨e, hrun⟩ := recordBan_refused hlong
  rw [createBan_eq, run_bind_of_ok hchecks, hrun]
  have hgone : twoMembers.hasMember 100 2 = true ∧ (withoutMember twoMembers 100 2).hasMember 100 2 = false ∧
      (withoutMember twoMembers 100 2).isBanned 100 2 = false ∧
      (serverRow (withoutMember twoMembers 100 2) 100).map Server.memberCount = some 2 := by
    decide
  exact ⟨rfl, hgone⟩

end Lumiere.Routes
