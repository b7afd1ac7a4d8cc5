/-
Webhooks (`lumiere-server/src/routes/webhooks.rs`, and `follow_channel` of `routes/channels.rs`). A row names a server,
in which MANAGE_WEBHOOKS is checked, and a channel, into which `execute_webhook` posts.

- `HookStmt.exec`: the `webhooks` table beside the others. `hookStep`: a request, alone.
- `Contained`: the channel of every webhook is one of its server, and executing a webhook posts into it.
- `Placed`: a statement that gives a webhook a channel gives it one of the webhook's server. `contained_iff`: over whole
  runs the first holds exactly if every statement satisfies the second.
- `moved_out`: `update_webhook` with a channel of another server.
-/
import Lumiere.Routes.MessageWrites
import Lumiere.Routes.Structure

namespace Lumiere.Routes

open Lumiere.Core Lumiere.Core.Prog Lumiere.Models Lumiere.Db

/-! ## The table -/

/-- a `Webhook` with the columns that `execute_webhook` does not read -/
structure WebhookRow extends Webhook where
  creatorId : Option ℤ
  avatar : Option String
  type : ℤ
deriving DecidableEq, Repr

def WebhookRow.key (h : WebhookRow) : ℤ := h.id

structure Hooks where
  pg : Postgres
  webhooks : Table WebhookRow.key

/-- the webhooks whose server and channel are there -/
def Hooks.cascade (pg : Postgres) (webhooks : Table WebhookRow.key) : Hooks :=
  ⟨pg, webhooks.deleteWhere fun h => !(pg.hasServer h.serverId && pg.hasChannel h.channelId)⟩

inductive HookStmt where
  /-- a DELETE takes the webhooks with it that reference what it deletes -/
  | stmt (w : Stmt)
  | insertWebhook (row : WebhookRow)
  | updateName (id : ℤ) (name : String)
  | updateAvatar (id : ℤ) (avatar : Option String)
  | updateChannelId (id channelId : ℤ)
  | deleteWebhook (id : ℤ)

/-- `SET channel_id` -/
def Hooks.move (s : Hooks) (id channelId : ℤ) : Hooks :=
  { s with webhooks := s.webhooks.updateWhere (fun h => h.id = id) (fun h => { h with channelId }) fun _ => rfl }

def HookStmt.exec (s : Hooks) : HookStmt → Except DbError (ℕ × Hooks)
  | .stmt w => do
    let (n, pg) ← Stmt.exec s.pg w
    return (n, .cascade pg s.webhooks)
  | .insertWebhook row => do
    let name ← varchar 80 row.name
    let token ← varchar 68 row.token
    let webhooks ← unique "webhooks_pkey" s.webhooks { row with name, token }
    requires (.duplicateKey "webhooks_token_key") (!s.webhooks.any fun h => h.token = token)
    requires (.foreignKey "webhooks" "webhooks_server_id_fkey") (s.pg.hasServer row.serverId)
    requires (.foreignKey "webhooks" "webhooks_channel_id_fkey") (s.pg.hasChannel row.channelId)
    requires (.foreignKey "webhooks" "webhooks_creator_id_fkey") (row.creatorId.all s.pg.hasUser)
    return (1, { s with webhooks })
  | .updateName id name => do
    let name ← varchar 80 name
    return (s.webhooks.count fun h => h.id = id, { s with
      webhooks := s.webhooks.updateWhere (fun h => h.id = id) (fun h => { h with name }) fun _ => rfl })
  | .updateAvatar id avatar => do
    let avatar ← varchar? 255 avatar
    return (s.webhooks.count fun h => h.id = id, { s with
      webhooks := s.webhooks.updateWhere (fun h => h.id = id) (fun h => { h with avatar }) fun _ => rfl })
  | .updateChannelId id channelId => do
    if s.webhooks.any fun h => h.id = id then
      requires (.foreignKey "webhooks" "webhooks_channel_id_fkey") (s.pg.hasChannel channelId)
    return (s.webhooks.count fun h => h.id = id, s.move id channelId)
  | .deleteWebhook id =>
    .ok (s.webhooks.count fun h => h.id = id, { s with webhooks := s.webhooks.deleteWhere fun h => h.id = id })

/-! ## Handlers -/

abbrev HookHandler := Prog Hooks HookStmt AppError

/-- a statement as the handlers see it -/
def hookPerform (w : HookStmt) (s : Hooks) : Except AppError (ℕ × Hooks) :=
  match w.exec s with
  | .ok r => .ok r
  | .error e => .error (dbErr e)

theorem hookPerform_eq_ok {w : HookStmt} {s : Hooks} {r : ℕ × Hooks} : hookPerform w s = .ok r ↔ w.exec s = .ok r := by
  rw [hookPerform]
  rcases w.exec s with e | r' <;> simp

/-- a handler that knows nothing of webhooks -/
def onTables {α : Type} (h : PgHandler α) : HookHandler α := h.lift Hooks.pg .stmt

def requireManageWebhooks (serverId auth : ℤ) : HookHandler Unit :=
  onTables (sql (requirePermissions serverId auth .manageWebhooks))

/-- `SELECT server_id FROM channels` -/
def channelServer (channelId : ℤ) (message : String) : HookHandler (Option ℤ) := do
  let row ← select fun s => s.pg.channels.find? fun c => c.id = channelId
  let channel ← orFail (.notFound message) row
  pure channel.serverId

/-- `SELECT server_id FROM webhooks` -/
def webhookServer (webhookId : ℤ) : HookHandler ℤ := do
  let row ← select fun s => s.webhooks.find? fun h => h.id = webhookId
  let webhook ← orFail (.notFound "Webhook not found") row
  pure webhook.serverId

structure WebhookResponse where
  id : ℤ
  channelId : ℤ
  name : String
  avatar : Option String
  token : Option String
  type : ℤ
deriving DecidableEq, Repr

structure CreateWebhookRequest where
  name : String
  avatar : Option String
deriving DecidableEq, Repr

/-- `hash` is SHA-256 in hexadecimal -/
def createWebhook (hash : String → String) (auth channelId : ℤ) (body : CreateWebhookRequest) (webhookId : ℤ)
    (token : String) : HookHandler WebhookResponse := do
  let serverId? ← channelServer channelId "Channel not found"
  let serverId ← orFail (.badRequest "Cannot create webhooks for DMs") serverId?
  requireManageWebhooks serverId auth
  execute (.insertWebhook ⟨⟨webhookId, serverId, channelId, body.name, hash token⟩, some auth, none, 1⟩)
  pure ⟨webhookId, channelId, body.name, body.avatar, some token, 1⟩

def getWebhook (auth webhookId : ℤ) : HookHandler WebhookResponse := do
  let serverId ← webhookServer webhookId
  requireManageWebhooks serverId auth
  let row ← select fun s => s.webhooks.find? fun h => h.id = webhookId
  let webhook ← orFail (.notFound "Webhook not found") row
  pure ⟨webhook.id, webhook.channelId, webhook.name, webhook.avatar, none, webhook.type⟩

structure UpdateWebhookRequest where
  name : Option String
  avatar : Option (Option String)
  channelId : Option ℤ
deriving DecidableEq, Repr

def updateWebhook (auth webhookId : ℤ) (body : UpdateWebhookRequest) : HookHandler WebhookResponse := do
  let serverId ← webhookServer webhookId
  requireManageWebhooks serverId auth
  body.name.forM fun name => execute (.updateName webhookId name)
  body.avatar.forM fun avatar => execute (.updateAvatar webhookId avatar)
  body.channelId.forM fun channelId => execute (.updateChannelId webhookId channelId)
  getWebhook auth webhookId

def deleteWebhook (auth webhookId : ℤ) : HookHandler Unit := do
  let serverId ← webhookServer webhookId
  requireManageWebhooks serverId auth
  execute (.deleteWebhook webhookId)

structure FollowChannelResponse where
  channelId : ℤ
  webhookChannelId : ℤ
deriving DecidableEq, Repr

/-- a channel without a server is given the server id 0, without a check -/
def followChannel (auth channelId webhookChannelId webhookId : ℤ) (token : String) :
    HookHandler FollowChannelResponse := do
  let row ← select fun s => s.pg.channels.find? fun c => c.id = channelId
  let source ← orFail (.notFound "Channel not found") row
  failIf (source.type ≠ 5) (.badRequest "Can only follow announcement channels")
  let targetServerId ← channelServer webhookChannelId "Target channel not found"
  targetServerId.forM fun serverId => requireManageWebhooks serverId auth
  execute (.insertWebhook
    ⟨⟨webhookId, targetServerId.getD 0, webhookChannelId, "Announcement Follow", token⟩, some auth, none, 2⟩)
  pure ⟨channelId, webhookChannelId⟩

/-! ## Requests one at a time -/

inductive HookRequest where
  | tables (r : PgRequest)
  | createWebhook (auth channelId : ℤ) (body : CreateWebhookRequest) (webhookId : ℤ) (token : String)
  | updateWebhook (auth webhookId : ℤ) (body : UpdateWebhookRequest)
  | deleteWebhook (auth webhookId : ℤ)
  | followChannel (auth channelId webhookChannelId webhookId : ℤ) (token : String)

/-- with SHA-256 in hexadecimal -/
structure HookEnv extends Env where
  hash : String → String

def HookRequest.handle (env : HookEnv) : HookRequest → HookHandler Unit
  | .tables r => onTables (r.handle env.toEnv)
  | .createWebhook auth channelId body webhookId token => do
    let _ ← Routes.createWebhook env.hash auth channelId body webhookId token
    pure ()
  | .updateWebhook auth webhookId body => do
    let _ ← Routes.updateWebhook auth webhookId body
    pure ()
  | .deleteWebhook auth webhookId => Routes.deleteWebhook auth webhookId
  | .followChannel auth channelId webhookChannelId webhookId token => do
    let _ ← Routes.followChannel auth channelId webhookChannelId webhookId token
    pure ()

def hookStep (env : HookEnv) (s : Hooks) (r : HookRequest) : Hooks := ((r.handle env).run hookPerform s).2

/-! ## What is claimed, and of which statements -/

/-- the channel of the webhook is one of its server -/
def Inside (pg : Postgres) (h : Webhook) : Prop := ∃ c ∈ pg.channels.rows, c.id = h.channelId ∧ c.serverId = some h.serverId

instance (pg : Postgres) (h : Webhook) : Decidable (Inside pg h) :=
  inferInstanceAs (Decidable (∃ c ∈ pg.channels.rows, c.id = h.channelId ∧ c.serverId = some h.serverId))

def AllInside (s : Hooks) : Prop := ∀ h ∈ s.webhooks.rows, Inside s.pg h.toWebhook

instance (s : Hooks) : Decidable (AllInside s) :=
  inferInstanceAs (Decidable (∀ h ∈ s.webhooks.rows, Inside s.pg h.toWebhook))

/-- the columns that `execute_webhook` reads -/
def Hooks.table (s : Hooks) : Table Webhook.id where
  rows := s.webhooks.rows.map WebhookRow.toWebhook
  nodup := by
    rw [List.map_map]
    exact s.webhooks.nodup

/-- the channel of a message or of its event -/
def Effect.postsTo : Effect → Option ℤ
  | .cql (.insertWebhookMessage key _ _) => some key.channelId
  | .publish ⟨_, .webhookMessageCreate channelId ..⟩ => some channelId
  | _ => none

/-- what it writes goes into the channel of the webhook, which is one of the webhook's server -/
def PostsInside (s : Hooks) (webhookId : ℤ) (tokenHash : String) (w : Effect) : Prop :=
  ∃ h ∈ s.webhooks.rows, h.id = webhookId ∧ h.token = tokenHash ∧ w.postsTo = some h.channelId ∧ Inside s.pg h.toWebhook

structure Contained (s : Hooks) : Prop where
  inside : AllInside s
  posts : ∀ (w : World), w.pg = s.pg → w.webhooks = s.table → ∀ hash webhookId token content messageId,
    (executeWebhook hash webhookId token content messageId).AllSteps Effect.exec
      (fun e _ => PostsInside s webhookId (hash token) e) w

/-- a webhook that is given a channel is given one of its server -/
def Placed : HookStmt → Hooks → Prop
  | .insertWebhook row, s => Inside s.pg row.toWebhook
  | .updateChannelId id channelId, s =>
    ∀ h ∈ s.webhooks.rows, h.id = id → Inside s.pg { h.toWebhook with channelId }
  | _, _ => True

variable {s s' : Hooks} {w : HookStmt} {n : ℕ} {pg pg' : Postgres} {auth webhookId : ℤ}

/-! ## Statements -/

theorem inside_iff {h : Webhook} : Inside pg h ↔ ∃ type, (h.channelId, some h.serverId, type) ∈ pg.places := by
  constructor
  · rintro ⟨c, hc, hid, hserver⟩
    exact ⟨c.type, mem_places.2 ⟨c, hc, hid, hserver, rfl⟩⟩
  · rintro ⟨type, hplace⟩
    obtain ⟨c, hc, hid, hserver, -⟩ := mem_places.1 hplace
    exact ⟨c, hc, hid, hserver⟩

/-- a channel stays in its server as long as it is there -/
theorem exec_place {w : Stmt} (h : Stmt.exec pg w = .ok (n, pg')) {id type : ℤ} {server : Option ℤ}
    (hplace : (id, server, type) ∈ pg.places) (hthere : pg'.hasChannel id = true) : (id, server, type) ∈ pg'.places := by
  obtain ⟨c, hc, hid⟩ := Table.any_eq_true.1 hthere
  have hthere : (id, c.serverId, c.type) ∈ pg'.places := mem_places.2 ⟨c, hc, of_decide_eq_true hid, rfl, rfl⟩
  have hsublist : pg'.places ⊆ pg.places → (id, server, type) ∈ pg'.places := by
    intro hsub
    obtain ⟨rfl, rfl⟩ := places_unique hplace (hsub hthere)
    exact hthere
  have hsame : pg'.places = pg.places → (id, server, type) ∈ pg'.places := fun h => h ▸ hplace
  have hplaces := Stmt.exec_places h
  cases w with
  | sql w =>
    cases w with
    | insertChannel row => exact hplaces ▸ List.mem_append_left _ hplace
    | deleteServer serverId => exact hsublist (hplaces ▸ List.filter_subset_self _)
    | _ => exact hsame hplaces
  | deleteChannel channelId => exact hsublist (hplaces ▸ List.filter_subset_self _)
  | _ => exact hsame hplaces

theorem exec_updateChannelId {id channelId : ℤ} (h : (HookStmt.updateChannelId id channelId).exec s = .ok (n, s')) :
    s' = s.move id channelId := by
  simp only [HookStmt.exec] at h
  split_ifs at h
  · simp only [bind_eq_ok, pure_eq_ok, Prod.mk.injEq] at h
    obtain ⟨_, -, -, rfl⟩ := h
    rfl
  · exact (Prod.mk.inj (Except.ok.inj h)).2.symm

theorem mem_move {id channelId : ℤ} {row : WebhookRow} :
    row ∈ (s.move id channelId).webhooks.rows ↔
      ∃ row' ∈ s.webhooks.rows, (if row'.id = id then { row' with channelId } else row') = row := by
  refine List.mem_map.trans ?_
  simp only [decide_eq_true_eq]

/-- no statement but an insertion and a new channel takes a webhook out of its server -/
theorem exec_allInside (h : w.exec s = .ok (n, s')) (hs : AllInside s) (hw : Placed w s) : AllInside s' := by
  cases w with
  | stmt w =>
    simp only [HookStmt.exec, bind_eq_ok, pure_eq_ok, Prod.mk.injEq] at h
    obtain ⟨⟨n', pg'⟩, hexec, -, rfl⟩ := h
    intro row hrow
    obtain ⟨hold, hkept⟩ := Table.mem_deleteWhere.1 hrow
    simp only [Bool.not_eq_false', Bool.and_eq_true] at hkept
    obtain ⟨type, hplace⟩ := inside_iff.1 (hs row hold)
    exact inside_iff.2 ⟨type, exec_place hexec hplace hkept.2⟩
  | insertWebhook row =>
    simp only [HookStmt.exec, bind_eq_ok, pure_eq_ok, unique_eq_ok, Prod.mk.injEq] at h
    obtain ⟨name, -, token, -, webhooks, hinsert, -, -, -, -, -, -, -, -, -, rfl⟩ := h
    intro row' hrow'
    rcases ((Table.insert?_eq_some hinsert).2 row').1 hrow' with hold | rfl
    · exact hs row' hold
    · exact hw
  | updateName id name =>
    simp only [HookStmt.exec, bind_eq_ok, pure_eq_ok, Prod.mk.injEq] at h
    obtain ⟨name, -, -, rfl⟩ := h
    intro row hrow
    obtain ⟨row', hrow', rfl⟩ := List.mem_map.1 hrow
    split_ifs
    · exact hs row' hrow'
    · exact hs row' hrow'
  | updateAvatar id avatar =>
    simp only [HookStmt.exec, bind_eq_ok, pure_eq_ok, Prod.mk.injEq] at h
    obtain ⟨avatar, -, -, rfl⟩ := h
    intro row hrow
    obtain ⟨row', hrow', rfl⟩ := List.mem_map.1 hrow
    split_ifs
    · exact hs row' hrow'
    · exact hs row' hrow'
  | updateChannelId id channelId =>
    obtain rfl := exec_updateChannelId h
    intro row hrow
    obtain ⟨row', hrow', rfl⟩ := mem_move.1 hrow
    split_ifs with hid
    · exact hw row' hrow' hid
    · exact hs row' hrow'
  | deleteWebhook id =>
    obtain ⟨-, rfl⟩ := Prod.mk.inj (Except.ok.inj h)
    intro row hrow
    exact hs row (Table.mem_deleteWhere.1 hrow).1

/-- if all webhooks are in their servers afterwards, the statement has put its own there -/
theorem placed_of_exec (h : w.exec s = .ok (n, s')) (hs' : AllInside s') : Placed w s := by
  cases w with
  | insertWebhook row =>
    simp only [HookStmt.exec, bind_eq_ok, pure_eq_ok, unique_eq_ok, Prod.mk.injEq] at h
    obtain ⟨name, -, token, -, webhooks, hinsert, -, -, -, -, -, -, -, -, -, rfl⟩ := h
    exact hs' { row with name, token } (((Table.insert?_eq_some hinsert).2 _).2 (.inr rfl))
  | updateChannelId id channelId =>
    obtain rfl := exec_updateChannelId h
    intro row hrow hid
    exact hs' _ (mem_move.2 ⟨row, hrow, if_pos hid⟩)
  | _ => trivial

/-! ## Requests -/

theorem readOnly_requireManageWebhooks {serverId : ℤ} : (requireManageWebhooks serverId auth).ReadOnly :=
  issues_lift (readOnly_sql readOnly_requirePermissions)

theorem readOnly_channelServer {channelId : ℤ} {message : String} : (channelServer channelId message).ReadOnly :=
  issues_bind (issues_select _) fun _ => issues_bind (issues_orFail _ _) fun _ => issues_pure _

theorem readOnly_webhookServer : (webhookServer webhookId).ReadOnly :=
  issues_bind (issues_select _) fun _ => issues_bind (issues_orFail _ _) fun _ => issues_pure _

theorem readOnly_getWebhook : (getWebhook auth webhookId).ReadOnly :=
  issues_bind readOnly_webhookServer fun _ => issues_bind readOnly_requireManageWebhooks fun _ =>
    issues_bind (issues_select _) fun _ => issues_bind (issues_orFail _ _) fun _ => issues_pure _

theorem channelServer_eq_ok {channelId : ℤ} {message : String} {server : Option ℤ}
    (h : (channelServer channelId message).run hookPerform s = (.ok server, s')) :
    ∃ c ∈ s.pg.channels.rows, c.id = channelId ∧ c.serverId = server := by
  obtain ⟨row, s₁, hrow, h⟩ := run_bind_eq_ok.1 h
  obtain ⟨c, s₂, hc, h⟩ := run_bind_eq_ok.1 h
  obtain ⟨rfl, rfl⟩ := orFail_eq_ok.1 hc
  obtain ⟨hmem, hid⟩ := Table.mem_of_find? (Except.ok.inj (Prod.mk.inj hrow).1)
  exact ⟨c, hmem, of_decide_eq_true hid, Except.ok.inj (Prod.mk.inj h).1⟩

/-- every statement that the request executes is placed -/
def AllPlaced (env : HookEnv) (s : Hooks) (r : HookRequest) : Prop := (r.handle env).AllSteps hookPerform Placed s

theorem hookStep_allInside {env : HookEnv} {r : HookRequest} (hr : AllPlaced env s r) (hs : AllInside s) :
    AllInside (hookStep env s r) :=
  allSteps_inv (fun _ _ _ _ hw hs h => exec_allInside (hookPerform_eq_ok.1 h) hs hw) hr hs

/-! ## A statement that is not placed shows in the outcome -/

abbrev PlacementShows {α : Type} (p : HookHandler α) : Prop := p.Shows hookPerform Placed AllInside

theorem placementShows_execute (w : HookStmt) : PlacementShows (execute w) :=
  shows_execute fun _ _ _ h => placed_of_exec (hookPerform_eq_ok.1 h)

variable {env : HookEnv}

theorem createWebhook_placed {channelId : ℤ} {body : CreateWebhookRequest} {token : String} {hash : String → String} :
    (createWebhook hash auth channelId body webhookId token).AllSteps hookPerform Placed s := by
  refine allSteps_bind_of_readOnly readOnly_channelServer fun server hserver => ?_
  refine allSteps_bind_of_readOnly (issues_orFail _ _) fun serverId hsome => ?_
  refine allSteps_bind_of_readOnly readOnly_requireManageWebhooks fun _ _ => ?_
  refine allSteps_bind.2 ⟨allSteps_execute ?_, fun _ _ _ => allSteps_pure _⟩
  obtain ⟨rfl, -⟩ := orFail_eq_ok.1 hsome
  exact channelServer_eq_ok hserver

theorem shows_updateWebhook {body : UpdateWebhookRequest} : PlacementShows (updateWebhook auth webhookId body) := by
  refine shows_bind readOnly_webhookServer.issues fun _ => ?_
  refine shows_bind readOnly_requireManageWebhooks.issues fun _ => ?_
  refine shows_bind (issues_forM_option fun _ _ => issues_execute fun _ => trivial) fun _ => ?_
  refine shows_bind (issues_forM_option fun _ _ => issues_execute fun _ => trivial) fun _ => ?_
  exact shows_bind_readOnly (shows_forM_option fun _ => placementShows_execute _) fun _ => readOnly_getWebhook

theorem shows_followChannel {channelId webhookChannelId : ℤ} {token : String} :
    PlacementShows (followChannel auth channelId webhookChannelId webhookId token) := by
  refine shows_bind (issues_select _) fun _ => ?_
  refine shows_bind (issues_orFail _ _) fun _ => ?_
  refine shows_bind (issues_failIf _ _) fun _ => ?_
  refine shows_bind readOnly_channelServer.issues fun _ => ?_
  refine shows_bind (issues_forM_option fun _ _ => readOnly_requireManageWebhooks.issues) fun _ => ?_
  exact shows_bind_readOnly (placementShows_execute _) fun _ => issues_pure _

theorem allPlaced_of_step {r : HookRequest} (h : AllInside (hookStep env s r)) : AllPlaced env s r := by
  cases r with
  | tables r => exact Issues.allSteps (issues_lift ((issues_true _).mono fun _ _ _ => trivial))
  | createWebhook auth channelId body webhookId token =>
    exact allSteps_bind.2 ⟨createWebhook_placed, fun _ _ _ => allSteps_pure _⟩
  | updateWebhook auth webhookId body => exact shows_bind_readOnly shows_updateWebhook (fun _ => issues_pure _) s h
  | deleteWebhook auth webhookId =>
    refine Issues.allSteps (issues_bind readOnly_webhookServer.issues fun _ => ?_)
    exact issues_bind readOnly_requireManageWebhooks.issues fun _ => issues_execute fun _ => trivial
  | followChannel auth channelId webhookChannelId webhookId token =>
    exact shows_bind_readOnly shows_followChannel (fun _ => issues_pure _) s h

/-! ## Runs -/

/-- `execute_webhook` writes into the channel of the row -/
theorem contained_of_allInside (hs : AllInside s) : Contained s := by
  refine ⟨hs, fun w hpg htable hash webhookId token content messageId => ?_⟩
  refine allSteps_bind_of_readOnly (issues_failIf _ _) fun _ _ => ?_
  refine allSteps_bind_of_readOnly (issues_failIf _ _) fun _ _ => ?_
  refine allSteps_bind_of_readOnly (issues_select _) fun row hrow => ?_
  refine allSteps_bind_of_readOnly (issues_orFail _ _) fun webhook hwebhook => ?_
  obtain ⟨rfl, -⟩ := orFail_eq_ok.1 hwebhook
  obtain ⟨hmem, hkey⟩ := Table.mem_of_find? (Except.ok.inj (Prod.mk.inj hrow).1)
  simp only [Bool.and_eq_true, decide_eq_true_eq] at hkey
  rw [htable] at hmem
  obtain ⟨h, hh, rfl⟩ := List.mem_map.1 hmem
  refine allSteps_bind.2 ⟨allSteps_execute ?_, fun _ _ _ => allSteps_execute ?_⟩
  · exact ⟨h, hh, hkey.1, hkey.2, rfl, hs h hh⟩
  · exact ⟨h, hh, hkey.1, hkey.2, rfl, hs h hh⟩

/-- **Webhooks stay inside their server exactly as long as every webhook is given a channel of its own server.** The
statements in question are the `SET channel_id` of `update_webhook`, whose channel comes from the body, and the
insertion of `follow_channel`, where the channel has no server. -/
theorem contained_iff (env : HookEnv) (pg : Postgres) (rs : List HookRequest) :
    (∀ l, l <+: rs → Contained (Core.run (hookStep env) ⟨pg, .empty⟩ l)) ↔
      Every (hookStep env) (AllPlaced env) ⟨pg, .empty⟩ rs := by
  have hempty : AllInside ⟨pg, .empty⟩ := fun h hh => absurd hh List.not_mem_nil
  constructor
  · intro h
    exact every_of_prefixes (I := AllInside) (fun _ _ => allPlaced_of_step) fun l hl => (h l hl).inside
  · intro h l hl
    exact contained_of_allInside (run_inv_of_every (fun _ _ => hookStep_allInside) hempty (h.of_prefix hl))

/-- user 1 has server 100 with the channel 101, user 2 server 200 with the channel 201, and user 1 moves a webhook -/
def movedOutTrace : List HookRequest :=
  [.tables (.server (.createServer 1 ⟨"first", none, none⟩ 100 101 102 ⟨0⟩)),
   .tables (.server (.createServer 2 ⟨"second", none, none⟩ 200 201 202 ⟨0⟩)),
   .createWebhook 1 101 ⟨"hook", none⟩ 300 "secret",
   .updateWebhook 1 300 ⟨none, none, some 201⟩]

/-- webhook 300 of server 100 posts into a channel of server 200 -/
theorem moved_out :
    ¬ Contained (Core.run (hookStep ⟨plainEnv, id⟩)
      ⟨noServers ⟨[account 1 "ada", account 2 "bob"], by decide⟩, .empty⟩ movedOutTrace) :=
  fun h => absurd h.inside (by decide)

end Lumiere.Routes
