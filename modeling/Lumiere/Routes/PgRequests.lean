/-
Runs of all handlers that write servers, members, roles, channels and overrides, one request at a time.

- `PgRequest.handle`, `pgStep`: the handler of a request, alone.
- `issues_createChannel` and the others: the statements that the channel handlers can issue.
-/
import Lumiere.Core.Steps
import Lumiere.Routes.Channels

namespace Lumiere.Routes

open Lumiere.Core Lumiere.Core.Prog Lumiere.Models Lumiere.Db

inductive PgRequest where
  | server (r : Request)
  | createChannel (auth serverId : ℤ) (body : CreateChannelRequest) (channelId : ℤ) (now : DateTime)
  | updateChannel (auth channelId : ℤ) (body : UpdateChannelRequest)
  | deleteChannel (auth channelId : ℤ)
  | reorderChannels (auth serverId : ℤ) (body : List ChannelPositionUpdate)
  | deleteMe (auth : ℤ) (password : String) (now : DateTime)

/-- what the handlers take from elsewhere: the password check and the Unicode tables -/
structure Env where
  verifyPassword : String → String → Except String Bool
  unicode : Unicode

/-- the handler of a request -/
def PgRequest.handle (env : Env) : PgRequest → PgHandler Unit
  | .server r => sql (r.handle env.verifyPassword)
  | .createChannel auth serverId body channelId now => do
    let _ ← Routes.createChannel env.unicode auth serverId body channelId now
    pure ()
  | .updateChannel auth channelId body => do
    let _ ← Routes.updateChannel env.unicode auth channelId body
    pure ()
  | .deleteChannel auth channelId => Routes.deleteChannel auth channelId
  | .reorderChannels auth serverId body => Routes.reorderChannels auth serverId body
  | .deleteMe auth password now => deleteMePostgres env.verifyPassword auth password now

def pgStep (env : Env) (pg : Postgres) (r : PgRequest) : Postgres := ((r.handle env).run perform pg).2

/-- a request on servers or roles alone -/
theorem pgStep_server (env : Env) (pg : Postgres) (r : Request) :
    pgStep env pg (.server r) = ((r.handle env.verifyPassword).run statement pg).2 := by
  rw [pgStep, PgRequest.handle, run_sql]

/-- every statement that the request executes satisfies P in the state in which it is executed -/
def StepsOf (env : Env) (P : Stmt → Postgres → Prop) (pg : Postgres) (r : PgRequest) : Prop :=
  (r.handle env).AllSteps perform P pg

instance {env : Env} {P : Stmt → Postgres → Prop} [∀ w pg, Decidable (P w pg)] (pg : Postgres) (r : PgRequest) :
    Decidable (StepsOf env P pg r) :=
  inferInstanceAs (Decidable ((r.handle env).AllSteps perform P pg))

theorem perform_sql (w : Sql) (pg : Postgres) : perform (.sql w) pg = statement w pg := rfl

theorem allSteps_sql {α : Type} {h : Handler α} {P : Stmt → Postgres → Prop} {pg : Postgres} :
    (sql h).AllSteps perform P pg ↔ h.AllSteps statement (fun w => P (.sql w)) pg := allSteps_lift perform_sql

theorem readOnly_sql {α : Type} {h : Handler α} (hh : h.ReadOnly) : (sql h).ReadOnly := issues_lift hh

/-! ## What the handlers read -/

variable {auth serverId channelId : ℤ}

theorem readOnly_fetchChannel : (fetchChannel channelId).ReadOnly :=
  issues_bind (issues_select _) fun _ => issues_bind (issues_orFail _ _) fun _ => issues_bind (issues_select _) fun _ =>
    issues_pure _

theorem readOnly_serverChannel {message : String} : (serverChannel channelId message).ReadOnly :=
  issues_bind (issues_select _) fun _ => issues_bind (issues_orFail _ _) fun _ => issues_bind (issues_orFail _ _) fun _ =>
    issues_pure _

theorem readOnly_checkParent {parentId : ℤ} : (checkParent serverId parentId).ReadOnly :=
  issues_bind (issues_select _) fun _ => issues_bind (issues_orFail _ _) fun _ => issues_bind (issues_failIf _ _) fun _ =>
    issues_bind (issues_select _) fun _ => issues_failIf _ _

theorem readOnly_createChannelChecks {body : CreateChannelRequest} : (createChannelChecks auth serverId body).ReadOnly :=
  issues_bind (issues_failIf _ _) fun _ => issues_bind readOnly_requirePermissions fun _ =>
    issues_bind (issues_failIf _ _) fun _ => issues_bind (issues_select _) fun _ => issues_bind (issues_failIf _ _) fun _ =>
      issues_bind (issues_forM_option fun _ _ => readOnly_checkParent) fun _ => issues_bind (issues_failIf _ _) fun _ =>
        issues_failIf _ _

theorem readOnly_updateChannelChecks {body : UpdateChannelRequest} :
    (updateChannelChecks auth channelId body).ReadOnly :=
  issues_bind readOnly_serverChannel fun _ => issues_bind readOnly_requirePermissions fun _ =>
    issues_bind (issues_failIf _ _) fun _ => issues_bind (issues_failIf _ _) fun _ => issues_bind (issues_failIf _ _)
      fun _ => issues_bind (issues_failIf _ _) fun _ => issues_pure _

theorem readOnly_deleteChannelChecks : (deleteChannelChecks auth channelId).ReadOnly :=
  issues_bind readOnly_serverChannel fun _ => issues_bind readOnly_requirePermissions fun _ =>
    issues_bind (issues_when fun _ => issues_bind (issues_select _) fun _ => issues_failIf _ _) fun _ => issues_pure _

theorem readOnly_deleteMeChecks {verifyPassword : String → String → Except String Bool} {password : String} :
    (deleteMeChecks verifyPassword auth password).ReadOnly :=
  issues_bind (issues_select _) fun _ => issues_bind (issues_orFail _ _) fun _ => issues_bind (issues_ofExcept _) fun _ =>
    issues_bind (issues_failIf _ _) fun _ => issues_bind (issues_select _) fun _ => issues_failIf _ _

/-! ## What the handlers write -/

/-- the writes of a new channel's overrides -/
theorem issues_createOverrides {overrides : List PermissionOverrideInput} :
    (createOverrides channelId overrides).Issues fun w =>
      ∃ ov ∈ overrides, ov.badType = false ∧ w = .insertOverride (ov.row channelId) := by
  refine issues_forM fun ov hov => ?_
  by_cases hbad : ov.badType = true
  · rw [failIf, if_pos hbad]
    trivial
  · rw [failIf, if_neg hbad]
    exact issues_execute ⟨ov, hov, Bool.not_eq_true _ ▸ hbad, rfl⟩

theorem issues_replaceOverrides {overrides : List PermissionOverrideInput} :
    (replaceOverrides channelId overrides).Issues fun w =>
      w = .deleteOverrides channelId ∨
        ∃ ov ∈ overrides, ov.badType = false ∧ w = .insertOverride (ov.row channelId) := by
  by_cases hbad : overrides.any PermissionOverrideInput.badType = true
  · rw [replaceOverrides, failIf, if_pos hbad]
    trivial
  · rw [replaceOverrides, failIf, if_neg hbad]
    refine issues_atomically (issues_bind (issues_execute (.inl rfl)) fun _ => issues_forM fun ov hov => ?_)
    refine issues_execute (.inr ⟨ov, hov, ?_, rfl⟩)
    by_contra hov'
    exact hbad (List.any_eq_true.2 ⟨ov, hov, Bool.not_eq_false _ ▸ hov'⟩)

theorem issues_createChannel {unicode : Unicode} {body : CreateChannelRequest} {now : DateTime} :
    (createChannel unicode auth serverId body channelId now).Issues fun w =>
      w = .sql (.insertChannel (createdChannel unicode serverId body channelId now)) ∨
        ∃ ov ∈ body.permissionOverrides.getD [], ov.badType = false ∧ w = .insertOverride (ov.row channelId) := by
  refine issues_bind (readOnly_sql readOnly_createChannelChecks).issues fun _ =>
    issues_bind (issues_execute (.inl rfl)) fun _ => issues_bind ?_ fun _ => (readOnly_sql readOnly_fetchChannel).issues
  rcases hov : body.permissionOverrides with _ | overrides
  · exact issues_pure _
  · exact issues_createOverrides.mono fun w h => .inr h

theorem issues_updateChannel {unicode : Unicode} {body : UpdateChannelRequest} :
    (updateChannel unicode auth channelId body).Issues fun w =>
      (∃ changes, w = .updateChannel channelId changes ∧ changes.parentId = body.parentId) ∨
        w = .deleteOverrides channelId ∨
        ∃ ov ∈ body.permissionOverrides.getD [], ov.badType = false ∧ w = .insertOverride (ov.row channelId) := by
  refine issues_bind (readOnly_sql readOnly_updateChannelChecks).issues fun _ =>
    issues_bind (issues_when fun _ => issues_execute (.inl ⟨_, rfl, rfl⟩)) fun _ => issues_bind ?_ fun _ =>
      (readOnly_sql readOnly_fetchChannel).issues
  rcases hov : body.permissionOverrides with _ | overrides
  · exact issues_pure _
  · exact issues_replaceOverrides.mono fun w h => .inr h

theorem issues_deleteChannel :
    (deleteChannel auth channelId).Issues fun w => w = .clearParent channelId ∨ w = .deleteChannel channelId :=
  issues_bind (readOnly_sql readOnly_deleteChannelChecks).issues fun _ =>
    issues_bind (issues_when fun _ => issues_execute (.inl rfl)) fun _ => issues_execute (.inr rfl)

theorem issues_reorderChannels {body : List ChannelPositionUpdate} :
    (reorderChannels auth serverId body).Issues fun w =>
      ∃ update ∈ body, w = .moveChannel update.id serverId update.position update.parentId :=
  issues_bind (readOnly_sql readOnly_requirePermissions).issues fun _ =>
    issues_forM fun update h => issues_execute ⟨update, h, rfl⟩

theorem issues_deleteMe {verifyPassword : String → String → Except String Bool} {password : String} {now : DateTime} :
    (deleteMePostgres verifyPassword auth password now).Issues fun w => w = .softDeleteUser auth now :=
  issues_bind (readOnly_sql readOnly_deleteMeChecks).issues fun _ => issues_execute rfl

end Lumiere.Routes
