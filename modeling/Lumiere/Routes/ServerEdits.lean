/-
What a refused `update_server` leaves behind (`lumiere-server/src/routes/servers.rs`). The transfer of ownership commits
before the other fields are checked and written, and the check is made of an actor who no longer owns the server.

- `exec_updateServer_ok`: when the new fields can be stored.
- `ends_updateFields`: the rest of the request, after the transfer.
- `updateServer_kept_iff`: a refused request has left the row of the server as it was, exactly if no transfer is followed
  by a refusal. The row is without `updated_at`, which a trigger sets on every `UPDATE`.
- `handed_over`: a request that is refused and has given the server away.
-/
import Lumiere.Core.Outcome
import Lumiere.Db.Effects
import Lumiere.Routes.Footprints

namespace Lumiere.Routes

open Lumiere.Core Lumiere.Core.Prog Lumiere.Models Lumiere.Db

variable {pg pg' : Postgres} {auth serverId : ℤ} {body : UpdateServerRequest}

theorem succeeds_requirePermissions {required : Permissions} :
    (requirePermissions serverId auth required).succeeds statement pg = true ↔
      pg.hasMember serverId auth = true ∧ required ⊆ pg.userPermissions serverId auth := by
  rw [succeeds_iff]
  constructor
  · rintro ⟨_, _, hrun⟩
    obtain ⟨hmember, hperms, -⟩ := requirePermissions_eq_ok.1 hrun
    exact ⟨hmember, hperms⟩
  · exact fun h => ⟨(), pg, requirePermissions_eq_ok.2 ⟨h.1, h.2, rfl⟩⟩

/-! ## The row -/

def serverRow (pg : Postgres) (serverId : ℤ) : Option Server := pg.servers.find? fun s => s.id = serverId

theorem serverRow_eq_none : serverRow pg serverId = none ↔ pg.hasServer serverId = false :=
  Table.find?_eq_none.trans Table.any_eq_false.symm

theorem isOwner_iff_row {userId : ℤ} :
    pg.isOwner serverId userId = true ↔ ∃ s, serverRow pg serverId = some s ∧ s.ownerId = userId := by
  simp only [Postgres.isOwner, Table.any_eq_true, Bool.and_eq_true, decide_eq_true_eq, serverRow, Table.find?_key]
  constructor
  · rintro ⟨s, hs, hid, howner⟩
    exact ⟨s, ⟨hs, hid⟩, howner⟩
  · rintro ⟨s, ⟨hs, hid⟩, howner⟩
    exact ⟨s, hs, hid, howner⟩

/-- the server after an update of its row -/
theorem serverRow_updateWhere (pg : Postgres) (serverId : ℤ) {f : Server → Server} (hf : ∀ s, (f s).id = s.id) :
    serverRow { pg with servers := pg.servers.updateWhere (fun s => s.id = serverId) f hf } serverId =
      (serverRow pg serverId).map f := by
  refine (Table.find?_updateWhere hf serverId).trans ?_
  rcases h : pg.servers.find? (fun s => s.id = serverId) with _ | s
  · rw [serverRow, h]
    rfl
  · rw [serverRow, h, Option.map_some, Option.map_some, if_pos (decide_eq_true (Table.find?_key.1 h).2)]

/-! ## The other fields -/

/-- the new values fit their columns, and the channels they name exist -/
structure Storable (pg : Postgres) (changes : ServerChanges) : Prop where
  fits : changes.checked.isOk = true
  systemChannel : ∀ id, changes.systemChannelId = some (some id) → pg.hasChannel id = true
  rulesChannel : ∀ id, changes.rulesChannelId = some (some id) → pg.hasChannel id = true

theorem channelReference_eq_ok {constraint : String} {channelId : Option (Option ℤ)} {u : Unit} :
    pg.channelReference constraint channelId = .ok u ↔ ∀ id, channelId = some (some id) → pg.hasChannel id = true := by
  unfold Postgres.channelReference
  split
  · simp [requires_eq_ok]
  · rename_i hnone
    exact iff_of_true rfl fun id hid => (hnone id hid).elim

theorem exec_updateServer_ok {changes : ServerChanges} (hserver : pg.hasServer serverId = true) :
    (∃ r, Sql.exec pg (.updateServer serverId changes) = .ok r) ↔ Storable pg changes := by
  have hchannels : ∀ c, changes.checked = .ok c →
      c.systemChannelId = changes.systemChannelId ∧ c.rulesChannelId = changes.rulesChannelId := by
    intro c hc
    simp only [ServerChanges.checked, bind_eq_ok, pure_eq_ok] at hc
    obtain ⟨_, -, _, -, _, -, _, -, _, -, rfl⟩ := hc
    exact ⟨rfl, rfl⟩
  simp only [Sql.exec, bind_eq_ok, if_pos hserver]
  constructor
  · rintro ⟨r, c, hc, _, hsystem, _, hrules, -⟩
    obtain ⟨hs, hr⟩ := hchannels c hc
    rw [channelReference_eq_ok] at hsystem hrules
    refine ⟨by rw [hc]; rfl, fun id hid => ?_, fun id hid => ?_⟩
    · exact hsystem id (hs.trans hid)
    · exact hrules id (hr.trans hid)
  · intro h
    obtain ⟨c, hc⟩ : ∃ c, changes.checked = .ok c := by
      have hok := h.fits
      rcases hchecked : changes.checked with e | c
      · rw [hchecked] at hok
        cases hok
      · exact ⟨c, rfl⟩
    obtain ⟨hs, hr⟩ := hchannels c hc
    refine ⟨_, c, hc, (), ?_, (), ?_, rfl⟩
    · exact channelReference_eq_ok.2 (hs ▸ h.systemChannel)
    · exact channelReference_eq_ok.2 (hr ▸ h.rulesChannel)

/-- the request after the transfer -/
def updateFields (auth serverId : ℤ) (body : UpdateServerRequest) : Handler Server := do
  when body.hasOtherFields (requirePermissions serverId auth .manageServer)
  when body.hasOtherFields (execute (.updateServer serverId body.changes))
  fetchServer serverId

theorem updateServer_eq : updateServer auth serverId body = (do
    body.ownerId.forM (transferOwnership auth serverId)
    updateFields auth serverId body) := rfl

/-- the actor may change the fields, and they can be stored -/
def FieldsAccepted (pg : Postgres) (auth serverId : ℤ) (changes : ServerChanges) : Prop :=
  pg.hasMember serverId auth = true ∧ .manageServer ⊆ pg.userPermissions serverId auth ∧ Storable pg changes

theorem run_fetchServer {row : Server} (hrow : serverRow pg serverId = some row) :
    (fetchServer serverId).run statement pg = (.ok row, pg) := by
  rw [serverRow] at hrow
  rw [fetchServer, run_bind_of_ok (run_select _), hrow, run_orFail_some]

/-- nothing after the transfer is written before the last refusal -/
theorem ends_updateFields {P : Postgres → Prop} {row : Server} (hrow : serverRow pg serverId = some row) :
    (updateFields auth serverId body).Ends statement pg (fun _ _ => True) (fun _ pg' => P pg') ↔
      (body.hasOtherFields = true → FieldsAccepted pg auth serverId body.changes) ∨ P pg := by
  have hserver : pg.hasServer serverId = true := by
    by_contra hno
    rw [serverRow_eq_none.2 (Bool.eq_false_iff.2 hno)] at hrow
    cases hrow
  by_cases hother : body.hasOtherFields = true
  · rw [updateFields, when, if_pos hother, when, if_pos hother, ends_bind]
    by_cases hallowed : pg.hasMember serverId auth = true ∧ .manageServer ⊆ pg.userPermissions serverId auth
    · have hcheck := requirePermissions_eq_ok.2 ⟨hallowed.1, hallowed.2, rfl⟩
      rw [ends_of_ok hcheck, ends_bind, ends_execute]
      constructor
      · rintro ⟨-, herror⟩
        rw [or_iff_not_imp_right]
        intro hP _
        refine ⟨hallowed.1, hallowed.2, (exec_updateServer_ok hserver).1 ?_⟩
        rcases hexec : Sql.exec pg (.updateServer serverId body.changes) with e | r
        · exact absurd (herror (dbErr e) (by rw [statement, hexec])) hP
        · exact ⟨r, rfl⟩
      · intro h
        constructor
        · intro n pg₁ hexec
          obtain ⟨checked, rfl⟩ := exec_updateServer (statement_eq_ok.1 hexec)
          have hrow₁ := serverRow_updateWhere pg serverId checked.apply_id
          rw [hrow] at hrow₁
          rw [ends_of_ok (run_fetchServer hrow₁)]
          trivial
        · intro e hexec
          rcases h with haccepted | hP
          · obtain ⟨r, hr⟩ := (exec_updateServer_ok hserver).2 (haccepted hother).2.2
            rw [statement, hr] at hexec
            cases hexec
          · exact hP
    · rcases hcheck : (requirePermissions serverId auth .manageServer).run statement pg with ⟨e | _, pg₁⟩
      · obtain rfl := readOnly_requirePermissions.eq_of_run hcheck
        rw [ends_of_error hcheck, or_iff_right]
        exact fun h => hallowed ⟨(h hother).1, (h hother).2.1⟩
      · obtain ⟨hmember, hperms, -⟩ := requirePermissions_eq_ok.1 hcheck
        exact absurd ⟨hmember, hperms⟩ hallowed
  · refine iff_of_true ?_ (.inl fun h => absurd h hother)
    rw [updateFields, when, if_neg hother, when, if_neg hother]
    exact (ends_of_ok (run_fetchServer hrow)).2 trivial

/-- a server that is not there stays away -/
theorem updateFields_noServer (auth : ℤ) (body : UpdateServerRequest) (h : pg.hasServer serverId = false) :
    serverRow ((updateFields auth serverId body).run statement pg).2 serverId = none := by
  refine issues_run (P := fun w => ∃ changes, w = .updateServer serverId changes)
    (I := fun s => serverRow s serverId = none) ?_ ?_ (serverRow_eq_none.2 h)
  · rintro w s n s' ⟨changes, rfl⟩ hrow hexec
    obtain ⟨checked, rfl⟩ := exec_updateServer (statement_eq_ok.1 hexec)
    rw [serverRow_updateWhere, hrow]
    rfl
  · exact issues_bind (issues_when fun _ => readOnly_requirePermissions.issues) fun _ =>
      issues_bind (issues_when fun _ => issues_execute ⟨_, rfl⟩) fun _ => readOnly_fetchServer.issues

/-! ## The transfer -/

/-- the server with another owner -/
def handOver (pg : Postgres) (serverId newOwner : ℤ) : Postgres :=
  { pg with
    servers := pg.servers.updateWhere (fun s => s.id = serverId) (fun s => { s with ownerId := newOwner })
      (Server.id_owned newOwner) }

theorem serverRow_handOver (pg : Postgres) (serverId newOwner : ℤ) :
    serverRow (handOver pg serverId newOwner) serverId =
      (serverRow pg serverId).map fun s => { s with ownerId := newOwner } :=
  serverRow_updateWhere pg serverId (f := fun s => { s with ownerId := newOwner }) fun _ => rfl

/-- the transfer goes through -/
def Transfers (pg : Postgres) (auth serverId newOwner : ℤ) : Prop :=
  pg.isOwner serverId auth = true ∧ pg.hasMember serverId newOwner = true ∧ pg.hasUser newOwner = true

theorem run_transferOwnership {newOwner : ℤ} (h : Transfers pg auth serverId newOwner) :
    (transferOwnership auth serverId newOwner).run statement pg = (.ok (), handOver pg serverId newOwner) := by
  obtain ⟨howner, hmember, huser⟩ := h
  have hfirst : (requireOwner serverId auth (.forbidden "Only the owner can transfer ownership")).run statement pg =
      (.ok (), pg) := by
    rw [requireOwner, run_bind_of_ok (run_select _), run_failIf, howner]
    rfl
  have hsecond : (requireMember serverId newOwner).run statement pg = (.ok (), pg) := by
    rw [run_requireMember, if_pos hmember]
  have hexec : Sql.exec pg (.updateServerOwner serverId newOwner) =
      .ok (pg.servers.count fun s => s.id = serverId, handOver pg serverId newOwner) := by
    rw [Sql.exec, huser, Bool.or_true]
    rfl
  rw [transferOwnership, run_bind_of_ok hfirst, run_bind_of_ok hsecond]
  exact execute_eq_ok.2 ⟨_, statement_eq_ok.2 hexec⟩

theorem transferOwnership_refused {newOwner : ℤ} (h : ¬ Transfers pg auth serverId newOwner) :
    ∃ e, (transferOwnership auth serverId newOwner).run statement pg = (.error e, pg) := by
  rw [transferOwnership]
  rcases hfirst : (requireOwner serverId auth (.forbidden "Only the owner can transfer ownership")).run statement pg
    with ⟨e | _, pg₁⟩
  · obtain rfl := readOnly_requireOwner.eq_of_run hfirst
    exact ⟨e, run_bind_of_error hfirst⟩
  obtain rfl := readOnly_requireOwner.eq_of_run hfirst
  rw [run_bind_of_ok hfirst]
  rcases hsecond : (requireMember serverId newOwner).run statement pg₁ with ⟨e | _, pg₂⟩
  · obtain rfl := readOnly_requireMember.eq_of_run hsecond
    exact ⟨e, run_bind_of_error hsecond⟩
  obtain rfl := readOnly_requireMember.eq_of_run hsecond
  rw [run_bind_of_ok hsecond]
  rcases run_execute_cases statement (.updateServerOwner serverId newOwner) pg₂ with ⟨n, pg₃, hexec, -⟩ | ⟨e, hrun⟩
  · have howner : pg₂.isOwner serverId auth = true := by
      rw [requireOwner, run_bind_of_ok (run_select _), failIf_eq_ok] at hfirst
      simpa using hfirst.1
    have hmember : pg₂.hasMember serverId newOwner = true := by
      rw [requireMember, run_bind_of_ok (run_select _), failIf_eq_ok] at hsecond
      simpa using hsecond.1
    have huser : pg₂.hasUser newOwner = true := by
      have hserver : pg₂.hasServer serverId = true := hasServer_iff.2 ⟨auth, isOwner_iff.1 howner⟩
      have hrefs := statement_eq_ok.1 hexec
      simp only [Sql.exec, bind_eq_ok, requires_eq_ok, hserver, Bool.not_true, Bool.false_or] at hrefs
      exact hrefs.choose_spec.1
    exact absurd ⟨howner, hmember, huser⟩ h
  · exact ⟨e, hrun⟩

/-! ## The request as a whole -/

/-- what the roles of the user grant in the server, to somebody who does not own it -/
def grantedPermissions (pg : Postgres) (serverId userId : ℤ) : Permissions :=
  let perms := Permissions.union (pg.rolePermissions serverId userId)
  if perms.contains .administrator then .all else perms

/-- no refusal follows a transfer to somebody else -/
def TransferStands (pg : Postgres) (auth serverId : ℤ) (body : UpdateServerRequest) : Prop :=
  ∀ newOwner, body.ownerId = some newOwner → newOwner ≠ auth → Transfers pg auth serverId newOwner →
    body.hasOtherFields = true → pg.hasMember serverId auth = true ∧
      .manageServer ⊆ grantedPermissions pg serverId auth ∧ Storable pg body.changes

theorem fieldsAccepted_handOver {newOwner : ℤ} {changes : ServerChanges} (hne : newOwner ≠ auth) :
    FieldsAccepted (handOver pg serverId newOwner) auth serverId changes ↔ pg.hasMember serverId auth = true ∧
      .manageServer ⊆ grantedPermissions pg serverId auth ∧ Storable pg changes := by
  have howner : (handOver pg serverId newOwner).isOwner serverId auth = false := by
    rw [Bool.eq_false_iff, ne_eq, isOwner_iff_row, serverRow_handOver]
    rintro ⟨s, hs, hid⟩
    obtain ⟨s', -, rfl⟩ := Option.map_eq_some_iff.1 hs
    exact hne hid
  have hperms : (handOver pg serverId newOwner).userPermissions serverId auth = grantedPermissions pg serverId auth := by
    rw [Postgres.userPermissions, howner]
    rfl
  have hstorable : Storable (handOver pg serverId newOwner) changes ↔ Storable pg changes :=
    ⟨fun h => ⟨h.fits, h.systemChannel, h.rulesChannel⟩, fun h => ⟨h.fits, h.systemChannel, h.rulesChannel⟩⟩
  rw [FieldsAccepted, hperms, hstorable]
  exact Iff.rfl

/-- the request as a refused one leaves the row -/
def RowKept (serverId : ℤ) (pg pg' : Postgres) : Prop := serverRow pg' serverId = serverRow pg serverId

/-- without a transfer the only write is the last step that can fail -/
theorem updateFields_kept : (updateFields auth serverId body).AllOrNothing statement (RowKept serverId) pg := by
  rcases hrow : serverRow pg serverId with _ | row
  · intro e pg' hrun
    have hnone := updateFields_noServer auth body (serverRow_eq_none.1 hrow)
    rw [hrun] at hnone
    rw [RowKept, hrow]
    exact hnone
  · rw [allOrNothing_iff, ends_updateFields hrow]
    exact .inr rfl

/-- **A refused `update_server` changes nothing exactly if no transfer is followed by a refusal.** -/
theorem updateServer_kept_iff (pg : Postgres) (auth serverId : ℤ) (body : UpdateServerRequest) :
    (updateServer auth serverId body).AllOrNothing statement (RowKept serverId) pg ↔
      TransferStands pg auth serverId body := by
  rw [updateServer_eq]
  rcases howner : body.ownerId with _ | newOwner
  · refine iff_of_true updateFields_kept fun newOwner hsome => ?_
    rw [howner] at hsome
    cases hsome
  rw [TransferStands, howner]
  simp only [Option.some.injEq, forall_eq']
  rw [allOrNothing_iff, ends_bind]
  change (transferOwnership auth serverId newOwner).Ends statement pg _ _ ↔ _
  by_cases htransfer : Transfers pg auth serverId newOwner
  · rw [ends_of_ok (run_transferOwnership htransfer)]
    obtain ⟨row, hrow, hauth⟩ := isOwner_iff_row.1 htransfer.1
    have hrow' := serverRow_handOver pg serverId newOwner
    rw [hrow, Option.map_some] at hrow'
    rw [ends_updateFields hrow']
    by_cases hne : newOwner = auth
    · -- the owner stays the same
      refine iff_of_true (.inr ?_) fun h => absurd hne h
      rw [RowKept, hrow', hrow, hne, ← hauth]
    · have hgone : ¬ RowKept serverId pg (handOver pg serverId newOwner) := by
        rw [RowKept, hrow', hrow]
        intro h
        exact hne ((congrArg Server.ownerId (Option.some.inj h)).trans hauth)
      rw [or_iff_left hgone, fieldsAccepted_handOver hne]
      exact ⟨fun h _ _ => h, fun h => h hne htransfer⟩
  · obtain ⟨e, hrun⟩ := transferOwnership_refused htransfer
    rw [ends_of_error hrun]
    exact iff_of_true rfl fun _ h => absurd h htransfer

/-! ## A server given away -/

/-- user 2 is a member of server 100 of user 1 -/
def twoMembers : Postgres := Core.run (step fun _ _ => .ok true) (noServers adaAndBob)
  [.request (.createServer 1 ⟨"first", none, none⟩ 100 101 102 ⟨0⟩),
   .request (.createInvite 1 101 ⟨none, none, none⟩ "join" ⟨0⟩),
   .request (.useInvite 2 "join" ⟨0⟩)]

/-- a new owner and a new name -/
def renameAndLeave : UpdateServerRequest :=
  ⟨some "second", none, none, none, none, none, none, none, none, none, some 2⟩

/-- **The request is refused, and the server has changed hands.** Its owner no longer has MANAGE_SERVER when the name is
checked. -/
theorem handed_over :
    ((updateServer 1 100 renameAndLeave).run statement twoMembers).1 =
        .error (.forbidden "Missing required permissions") ∧
      (serverRow twoMembers 100).map Server.ownerId = some 1 ∧
      (serverRow ((updateServer 1 100 renameAndLeave).run statement twoMembers).2 100).map Server.ownerId = some 2 := by
  decide

end Lumiere.Routes
