/-
Servers owned by deleted accounts. `delete_me` refuses an account that owns a server; no other handler looks at
`deleted_at`, and an access token outlives its account.

- `LiveOwners`: every server is owned by an account that is not deleted.
- `NamesLive`: a statement that makes an account the owner of a server finds it not deleted.
- `liveOwners_iff`: over whole runs the first holds exactly if every statement satisfies the second.
- `deleted_owner`: an ownership transfer, and a new server, after the account is deleted.
-/
import Lumiere.Routes.Structure

namespace Lumiere.Routes

open Lumiere.Core Lumiere.Core.Prog Lumiere.Models Lumiere.Db

/-! ## The invariant -/

def liveUser (pg : Postgres) (userId : ℤ) : Bool := pg.users.any fun u => u.id = userId && u.deletedAt.isNone

def LiveOwners (pg : Postgres) : Prop := ∀ s ∈ pg.servers.rows, liveUser pg s.ownerId = true

instance (pg : Postgres) : Decidable (LiveOwners pg) :=
  inferInstanceAs (Decidable (∀ s ∈ pg.servers.rows, liveUser pg s.ownerId = true))

/-- the owner that the statement names is not deleted when it runs -/
def NamesLive : Stmt → Postgres → Prop
  | .sql (.insertServer row), pg => liveUser pg row.ownerId = true
  | .sql (.updateServerOwner _ ownerId), pg => liveUser pg ownerId = true
  | _, _ => True

variable {pg pg' : Postgres} {n : ℕ} {auth serverId : ℤ}

theorem liveOwners_iff_owners : LiveOwners pg ↔ ∀ {s o}, (s, o) ∈ pg.owners → liveUser pg o = true := by
  simp only [LiveOwners, Postgres.owners, List.mem_map, Prod.mk.injEq]
  constructor
  · rintro h _ _ ⟨s, hs, rfl, rfl⟩
    exact h s hs
  · intro h s hs
    exact h ⟨s, hs, rfl, rfl⟩

theorem live_congr (h : pg'.users = pg.users) : liveUser pg' = liveUser pg := by
  funext userId
  rw [liveUser, h]
  rfl

/-! ## One statement -/

theorem exec_liveOwners {w : Stmt} (h : Stmt.exec pg w = .ok (n, pg')) (hpg : LiveOwners pg) (hw : NamesLive w pg)
    (hdelete : ∀ userId now, w = .softDeleteUser userId now → ∀ o ∈ pg.owners, o.2 ≠ userId) : LiveOwners pg' := by
  rw [liveOwners_iff_owners] at hpg ⊢
  intro s o hmem
  have husers := Stmt.exec_users h
  cases w with
  | sql w =>
    rw [live_congr husers]
    have howners := exec_owners (w := w) h
    cases w with
    | insertServer row =>
      simp only at howners
      rw [howners, List.mem_append, List.mem_singleton] at hmem
      rcases hmem with hold | heq
      · exact hpg hold
      · obtain ⟨-, rfl⟩ := Prod.mk.inj heq
        exact hw
    | updateServerOwner id newOwner =>
      simp only at howners
      rw [howners, List.mem_map] at hmem
      obtain ⟨⟨id', old⟩, hold, heq⟩ := hmem
      split_ifs at heq <;> obtain ⟨rfl, rfl⟩ := Prod.mk.inj heq
      · exact hw
      · exact hpg hold
    | deleteServer id =>
      simp only at howners
      rw [howners, List.mem_filter] at hmem
      exact hpg hmem.1
    | _ =>
      simp only at howners
      exact hpg (howners ▸ hmem)
  | softDeleteUser userId now =>
    have howners := (Stmt.exec_skeleton h (by simp)).1
    rw [howners] at hmem
    obtain ⟨u, hu, hlive⟩ := Table.any_eq_true.1 (hpg hmem)
    have hne : u.id ≠ userId := by
      rw [of_decide_eq_true (Bool.and_eq_true_iff.1 hlive).1]
      exact hdelete userId now rfl _ hmem
    exact Table.any_eq_true.2 ⟨u, (husers u).2 ⟨u, hu, if_neg hne⟩, hlive⟩
  | _ =>
    have howners := (Stmt.exec_skeleton h (by simp)).1
    rw [live_congr husers]
    exact hpg (howners ▸ hmem)

/-! ## One request -/

/-- `delete_me` looks whether the account owns a server -/
theorem deleteMe_liveOwners {verifyPassword : String → String → Except String Bool} {password : String}
    {now : DateTime} (hpg : LiveOwners pg) :
    LiveOwners ((deleteMePostgres verifyPassword auth password now).run perform pg).2 := by
  refine run_bind_of_readOnly (readOnly_sql readOnly_deleteMeChecks) hpg fun _ hchecks =>
    run_execute_inv hpg fun n pg' h => ?_
  rw [run_sql] at hchecks
  simp only [deleteMeChecks, run_bind_eq_ok, run_select, failIf_eq_ok, Prod.mk.injEq, Except.ok.injEq] at hchecks
  obtain ⟨_, _, -, _, _, -, _, _, -, _, _, -, _, _, ⟨rfl, rfl⟩, howns, rfl⟩ := hchecks
  refine exec_liveOwners (perform_eq_ok.1 h) hpg trivial ?_
  rintro userId now' heq ⟨s, o⟩ hmem rfl
  obtain ⟨rfl, -⟩ := Stmt.softDeleteUser.inj heq
  refine howns (Table.any_eq_true.2 ?_)
  obtain ⟨row, hrow, hpair⟩ := List.mem_map.1 hmem
  exact ⟨row, hrow, decide_eq_true (Prod.mk.inj hpair).2⟩

/-- two handlers name owners -/
theorem namesLive_of_footprint {r : Request} {w : Sql} (hw : r.Footprint w)
    (hcreate : ∀ auth body s t v now, r ≠ .createServer auth body s t v now)
    (hupdate : ∀ auth s body, r ≠ .updateServer auth s body) (pg : Postgres) : NamesLive (.sql w) pg := by
  cases w with
  | insertServer row =>
    cases r <;> simp [Request.Footprint] at hw
    exact absurd rfl (hcreate _ _ _ _ _ _)
  | updateServerOwner id newOwner =>
    cases r <;> simp [Request.Footprint] at hw
    exact absurd rfl (hupdate _ _ _)
  | _ => trivial

theorem pgStep_liveOwners {env : Env} {r : PgRequest} (hr : StepsOf env NamesLive pg r) (hpg : LiveOwners pg) :
    LiveOwners (pgStep env pg r) := by
  have hsteps : (r.handle env).Issues (fun w => ∀ userId now, w ≠ .softDeleteUser userId now) →
      LiveOwners (pgStep env pg r) := fun hissues =>
    allSteps_inv (fun w pg _ _ hw hpg h => exec_liveOwners (perform_eq_ok.1 h) hpg hw.1
      fun userId now heq => absurd heq (hw.2 userId now)) (hr.and (Issues.allSteps (hissues.mono fun _ h _ => h))) hpg
  cases r with
  | server r => exact hsteps (issues_lift ((issues_true _).mono fun w _ => by simp))
  | createChannel auth serverId body channelId now =>
    refine hsteps (issues_bind (issues_createChannel.mono ?_) fun _ => issues_pure _)
    rintro w (rfl | ⟨_, _, _, rfl⟩) <;> simp
  | updateChannel auth channelId body =>
    refine hsteps (issues_bind (issues_updateChannel.mono ?_) fun _ => issues_pure _)
    rintro w (⟨_, rfl, _⟩ | rfl | ⟨_, _, _, rfl⟩) <;> simp
  | deleteChannel auth channelId =>
    refine hsteps (issues_deleteChannel.mono ?_)
    rintro w (rfl | rfl) <;> simp
  | reorderChannels auth serverId body =>
    refine hsteps (issues_reorderChannels.mono ?_)
    rintro w ⟨_, _, rfl⟩
    simp
  | deleteMe auth password now => exact deleteMe_liveOwners hpg

/-! ## The other direction -/

/-- a new server whose founder is deleted stays -/
theorem createServer_namesLive {body : CreateServerRequest} {textChannelId voiceChannelId : ℤ} {now : DateTime}
    (h : LiveOwners ((createServer auth body serverId textChannelId voiceChannelId now).run statement pg).2) :
    (createServer auth body serverId textChannelId voiceChannelId now).AllSteps statement
      (fun w => NamesLive (.sql w)) pg := by
  rw [createServer_eq] at h ⊢
  refine allSteps_bind_of_readOnly (issues_failIf _ _) fun _ hvalid =>
    allSteps_bind_of_readOnly (issues_select _) fun count hcount =>
    allSteps_bind_of_readOnly (issues_failIf _ _) fun _ hmax =>
    allSteps_bind.2 ⟨allSteps_atomically fun _ pg₁ htx => ?_, fun _ _ _ => readOnly_fetchServer.allSteps⟩
  have hfounded := createServer_tx htx
  have hcommit : (atomically (createServerTx auth body serverId textChannelId voiceChannelId now)).run statement pg =
      (.ok (), pg₁) := by
    rw [atomically, run_tx, htx]
    rfl
  rw [run_bind_of_ok hvalid, run_bind_of_ok hcount, run_bind_of_ok hmax, run_bind_of_ok hcommit,
    run_readOnly readOnly_fetchServer] at h
  have hlive : liveUser pg auth = true := by
    rw [← live_congr hfounded.users]
    refine liveOwners_iff_owners.1 h (s := serverId) ?_
    rw [hfounded.owners]
    exact List.mem_append_right _ (List.mem_singleton.2 rfl)
  refine allSteps_bind.2 ⟨allSteps_execute hlive, fun _ _ _ => Issues.allSteps ?_⟩
  exact issues_bind (issues_execute fun _ => trivial) fun _ => issues_bind (issues_execute fun _ => trivial) fun _ =>
    issues_bind (issues_execute fun _ => trivial) fun _ => issues_bind (issues_execute fun _ => trivial) fun _ =>
      issues_bind (issues_execute fun _ => trivial) fun _ => issues_execute fun _ => trivial

theorem requireOwner_eq_ok {userId : ℤ} {e : AppError} {u : Unit}
    (h : (requireOwner serverId userId e).run statement pg = (.ok u, pg')) : (serverId, userId) ∈ pg.owners := by
  rw [requireOwner, run_bind_of_ok (run_select _)] at h
  have hnot := (failIf_eq_ok.1 h).1
  exact isOwner_iff.1 (by simpa using hnot)

/-- what `update_server` does after the transfer leaves owners and accounts alone -/
theorem run_rest_updateServer (auth serverId : ℤ) (body : UpdateServerRequest) (pg : Postgres) :
    let rest : Handler Server := do
      when body.hasOtherFields (requirePermissions serverId auth .manageServer)
      when body.hasOtherFields (execute (.updateServer serverId body.changes))
      fetchServer serverId
    (rest.run statement pg).2.owners = pg.owners ∧ (rest.run statement pg).2.users = pg.users := by
  intro rest
  have hissues : rest.Issues fun w => w = .updateServer serverId body.changes :=
    issues_bind (issues_when fun _ => readOnly_requirePermissions.issues) fun _ =>
      issues_bind (issues_when fun _ => issues_execute rfl) fun _ => readOnly_fetchServer.issues
  refine issues_run (I := fun s => s.owners = pg.owners ∧ s.users = pg.users) ?_ hissues ⟨rfl, rfl⟩
  rintro w s n s' rfl ⟨howners, husers⟩ h
  have h := statement_eq_ok.1 h
  exact ⟨(show s'.owners = s.owners from exec_owners h).trans howners, (exec_users h).trans husers⟩

/-- a server that has been transferred to a deleted account stays with it -/
theorem updateServer_namesLive {body : UpdateServerRequest}
    (h : LiveOwners ((updateServer auth serverId body).run statement pg).2) :
    (updateServer auth serverId body).AllSteps statement (fun w => NamesLive (.sql w)) pg := by
  refine allSteps_bind.2 ⟨?_, fun _ _ _ => Issues.allSteps ?_⟩
  · rcases hbody : body.ownerId with _ | newOwner
    · exact allSteps_pure _
    · refine allSteps_bind_of_readOnly readOnly_requireOwner fun _ howner =>
        allSteps_bind_of_readOnly readOnly_requireMember fun _ hmember => ?_
      rw [execute, AllSteps]
      rcases hexec : statement (.updateServerOwner serverId newOwner) pg with e | ⟨n, pg₁⟩
      · trivial
      · refine ⟨?_, allSteps_pure _⟩
        have htransfer : (body.ownerId.forM (transferOwnership auth serverId) : Handler PUnit).run statement pg =
            (.ok PUnit.unit, pg₁) := by
          rw [hbody]
          show (transferOwnership auth serverId newOwner).run statement pg = _
          rw [transferOwnership, run_bind_of_ok howner, run_bind_of_ok hmember]
          exact execute_eq_ok.2 ⟨n, hexec⟩
        rw [updateServer, run_bind_of_ok htransfer] at h
        obtain ⟨howners, husers⟩ := run_rest_updateServer auth serverId body pg₁
        have hexec := statement_eq_ok.1 hexec
        have hmap : pg₁.owners = pg.owners.map fun o => if o.1 = serverId then (o.1, newOwner) else o :=
          exec_owners hexec
        have hlive : liveUser _ newOwner = true := liveOwners_iff_owners.1 h (s := serverId) (by
          rw [howners, hmap]
          exact List.mem_map.2 ⟨_, requireOwner_eq_ok howner, if_pos rfl⟩)
        rwa [live_congr (husers.trans (exec_users hexec))] at hlive
  · exact issues_bind (issues_when fun _ => readOnly_requirePermissions.issues) fun _ =>
      issues_bind (issues_when fun _ => issues_execute fun _ => trivial) fun _ => readOnly_fetchServer.issues

/-- a deleted owner shows when the request is over -/
theorem stepsOf_namesLive {env : Env} {r : PgRequest} (h : LiveOwners (pgStep env pg r)) :
    StepsOf env NamesLive pg r := by
  have hrest : (r.handle env).Issues (fun w => ∀ pg, NamesLive w pg) → StepsOf env NamesLive pg r := fun hissues =>
    Issues.allSteps hissues
  cases r with
  | server r =>
    rw [pgStep_server] at h
    refine allSteps_sql.2 ?_
    by_cases hcreate : ∃ auth body s t v now, r = .createServer auth body s t v now
    · obtain ⟨auth, body, s, t, v, now, rfl⟩ := hcreate
      rw [Request.handle, run_respond] at h
      exact allSteps_bind.2 ⟨createServer_namesLive h, fun _ _ _ => allSteps_pure _⟩
    by_cases hupdate : ∃ auth s body, r = .updateServer auth s body
    · obtain ⟨auth, s, body, rfl⟩ := hupdate
      rw [Request.handle, run_respond] at h
      exact allSteps_bind.2 ⟨updateServer_namesLive h, fun _ _ _ => allSteps_pure _⟩
    simp only [not_exists] at hcreate hupdate
    exact Issues.allSteps ((issues_request r).mono fun w hw => namesLive_of_footprint hw hcreate hupdate)
  | createChannel auth serverId body channelId now =>
    refine hrest (issues_bind (issues_createChannel.mono ?_) fun _ => issues_pure _)
    rintro w (rfl | ⟨_, _, _, rfl⟩) _ <;> trivial
  | updateChannel auth channelId body =>
    refine hrest (issues_bind (issues_updateChannel.mono ?_) fun _ => issues_pure _)
    rintro w (⟨_, rfl, _⟩ | rfl | ⟨_, _, _, rfl⟩) _ <;> trivial
  | deleteChannel auth channelId =>
    refine hrest (issues_deleteChannel.mono ?_)
    rintro w (rfl | rfl) _ <;> trivial
  | reorderChannels auth serverId body =>
    refine hrest (issues_reorderChannels.mono ?_)
    rintro w ⟨_, _, rfl⟩ _
    trivial
  | deleteMe auth password now =>
    refine hrest (issues_deleteMe.mono ?_)
    rintro w rfl _
    trivial

/-! ## Runs -/

/-- **Who owns a server has an account.** In a run of requests, by any users and whether or not their accounts are
deleted, every server in every state has an owner that is not deleted, exactly if no request makes a deleted account the
owner of a server. -/
theorem liveOwners_iff (env : Env) (users : Table User.id) (rs : List PgRequest) :
    (∀ l, l <+: rs → LiveOwners (Core.run (pgStep env) (noServers users) l)) ↔
      Every (pgStep env) (fun pg r => StepsOf env NamesLive pg r) (noServers users) rs := by
  constructor
  · exact every_of_prefixes fun _ _ => stepsOf_namesLive
  · intro h l hl
    exact run_inv_of_every (fun _ _ => pgStep_liveOwners) (by intro s hs; cases hs) (h.of_prefix hl)

/-- user 2 joins the server of user 1 and deletes its account; user 1 hands the server over to it -/
def transferTrace : List PgRequest :=
  [.server (.createServer 1 ⟨"first", none, none⟩ 100 101 102 ⟨0⟩),
   .server (.createInvite 1 101 ⟨none, none, none⟩ "join" ⟨0⟩),
   .server (.useInvite 2 "join" ⟨0⟩),
   .deleteMe 2 "secret" ⟨5⟩,
   .server (.updateServer 1 100 ⟨none, none, none, none, none, none, none, none, none, none, some 2⟩)]

/-- user 2 deletes its account and founds a server with the token it still has -/
def posthumousTrace : List PgRequest :=
  [.deleteMe 2 "secret" ⟨5⟩, .server (.createServer 2 ⟨"first", none, none⟩ 100 101 102 ⟨6⟩)]

/-- **A deleted account owns a server**, handed over to it or founded by it. -/
theorem deleted_owner :
    ¬ LiveOwners (Core.run (pgStep plainEnv) (noServers adaAndBob) transferTrace) ∧
      ¬ LiveOwners (Core.run (pgStep plainEnv) (noServers adaAndBob) posthumousTrace) := by
  decide

end Lumiere.Routes
