/-
Runs of the handlers that write messages and pins, one request at a time, and what each handler can execute.

- `MessageRequest.handle`, `messageStep`: the handler of a request, alone.
- `issues_editMessage` and the others: the statements of a handler, whatever it reads.
- `allSteps_sendMessage`, `allSteps_executeWebhook`: the row of a new message, of which the handler has checked the length.
-/
import Lumiere.Core.Steps
import Lumiere.Routes.MessageWrites

namespace Lumiere.Routes

open Lumiere.Core Lumiere.Core.Prog Lumiere.Models Lumiere.Db

/-! ## Requests -/

inductive MessageRequest where
  | sendMessage (auth channelId : ℤ) (body : SendMessageRequest) (messageId : Snowflake) (now : DateTime)
  | executeWebhook (webhookId : ℤ) (token : String) (content : Option String) (messageId : Snowflake)
  | editMessage (auth channelId messageId : ℤ) (body : EditMessageRequest) (now : DateTime)
  | deleteMessage (auth channelId messageId : ℤ)
  | bulkDelete (auth channelId : ℤ) (messages : List ℤ) (failed : ℕ → Bool)
  | pinMessage (auth channelId messageId : ℤ) (now : DateTime)
  | unpinMessage (auth channelId messageId : ℤ)

/-- `hash` is SHA-256 in hexadecimal -/
def MessageRequest.handle (hash : String → String) : MessageRequest → Route Unit
  | .sendMessage auth channelId body messageId now => answer (Routes.sendMessage auth channelId body messageId now)
  | .executeWebhook webhookId token content messageId => Routes.executeWebhook hash webhookId token content messageId
  | .editMessage auth channelId messageId body now => answer (Routes.editMessage auth channelId messageId body now)
  | .deleteMessage auth channelId messageId => Routes.deleteMessage auth channelId messageId
  | .bulkDelete auth channelId messages failed => Routes.bulkDelete auth channelId messages failed
  | .pinMessage auth channelId messageId now => Routes.pinMessage auth channelId messageId now
  | .unpinMessage auth channelId messageId => Routes.unpinMessage auth channelId messageId

def messageStep (hash : String → String) (w : World) (r : MessageRequest) : World :=
  ((r.handle hash).run Effect.exec w).2

def noMessages (w : World) : World := { w with chat := .empty }

@[simp] theorem message?_noMessages (w : World) (key : MessageKey) : (noMessages w).chat.message? key = none := rfl

/-! ## What the handlers execute -/

theorem exec_cql {q : Cql} {w w' : World} {n : ℕ} (h : (Effect.cql q).exec w = .ok (n, w')) :
    w'.chat = q.apply w.chat := by
  obtain ⟨-, rfl⟩ := Prod.mk.inj (Except.ok.inj h)
  rfl

/-- the other statements leave ScyllaDB alone -/
theorem exec_chat {e : Effect} {w w' : World} {n : ℕ} (he : ∀ q, e ≠ .cql q) (h : e.exec w = .ok (n, w')) :
    w'.chat = w.chat := by
  cases e with
  | sql q =>
    rw [Effect.exec] at h
    rcases hs : statement q w.pg with e | ⟨m, pg⟩
    · rw [hs] at h
      cases h
    · rw [hs] at h
      obtain ⟨-, rfl⟩ := Prod.mk.inj (Except.ok.inj h)
      rfl
  | cql q => exact absurd rfl (he q)
  | _ =>
    obtain ⟨-, rfl⟩ := Prod.mk.inj (Except.ok.inj h)
    rfl

/-- a publication -/
def Effect.Publishes : Effect → Prop
  | .publish _ | .publishDurable _ => True
  | _ => False

theorem Effect.Publishes.ne_cql {e : Effect} (h : e.Publishes) (q : Cql) : e ≠ .cql q := by
  rintro rfl
  exact h

variable {auth channelId messageId webhookId : ℤ} {now : DateTime} {newId : Snowflake} {w : World}

theorem readOnly_onPg {α : Type} {h : Handler α} (hh : h.ReadOnly) : (onPg h).ReadOnly := issues_lift hh

theorem readOnly_check {userId : ℤ} {perm : Permissions} :
    (onPg (checkChannelPermission channelId userId perm)).ReadOnly :=
  readOnly_onPg readOnly_checkChannelPermission

theorem readOnly_messageAuthor : (messageAuthor channelId messageId).ReadOnly :=
  issues_bind (issues_select _) fun _ => issues_bind (issues_orFail _ _) fun _ => issues_orFail _ _

theorem readOnly_getMessage : (getMessage auth channelId messageId).ReadOnly :=
  issues_bind readOnly_check fun _ => issues_bind (issues_select _) fun _ => issues_orFail _ _

theorem readOnly_refuseEdit {serverId : Option ℤ} {body : EditMessageRequest} :
    (refuseEdit auth serverId body).ReadOnly := by
  refine issues_bind (issues_failIf _ _) fun _ => ?_
  cases serverId with
  | none => exact issues_fail _
  | some sid => exact readOnly_onPg readOnly_requirePermissions

/-- the writes of `edit_message` after that of the content -/
def editRest (auth channelId messageId : ℤ) (body : EditMessageRequest) (now : DateTime) : Route MsgRow := do
  body.embeds.forM fun embeds =>
    execute (.cql (.updateEmbeds embeds.text now.millis (messageKey channelId messageId)))
  execute (.publish ⟨channelMessages channelId, .messageUpdate channelId messageId⟩)
  execute (.publishDurable ⟨persistMessages channelId, .messageUpdate channelId messageId⟩)
  getMessage auth channelId messageId

theorem editMessage_eq {body : EditMessageRequest} :
    editMessage auth channelId messageId body now = (do
      let serverId ← onPg (checkChannelPermission channelId auth .sendMessages)
      let authorId ← messageAuthor channelId messageId
      when (authorId ≠ auth) (refuseEdit auth serverId body)
      body.content.forM fun content =>
        execute (.cql (.updateContent content now.millis (messageKey channelId messageId)))
      editRest auth channelId messageId body now) := rfl

theorem issues_editRest {body : EditMessageRequest} :
    (editRest auth channelId messageId body now).Issues fun w =>
      (∃ embeds, w = .cql (.updateEmbeds embeds now.millis (messageKey channelId messageId))) ∨ w.Publishes :=
  issues_bind (issues_forM_option fun _ _ => issues_execute (.inl ⟨_, rfl⟩)) fun _ =>
    issues_bind (issues_execute (.inr trivial)) fun _ => issues_bind (issues_execute (.inr trivial)) fun _ =>
      readOnly_getMessage.issues

theorem issues_editMessage {body : EditMessageRequest} :
    (editMessage auth channelId messageId body now).Issues fun w =>
      (∃ content, w = .cql (.updateContent content now.millis (messageKey channelId messageId))) ∨
        (∃ embeds, w = .cql (.updateEmbeds embeds now.millis (messageKey channelId messageId))) ∨ w.Publishes := by
  rw [editMessage_eq]
  exact issues_bind readOnly_check.issues fun _ => issues_bind readOnly_messageAuthor.issues fun _ =>
    issues_bind (issues_when fun _ => readOnly_refuseEdit.issues) fun _ =>
      issues_bind (issues_forM_option fun _ _ => issues_execute (.inl ⟨_, rfl⟩)) fun _ =>
        issues_editRest.mono fun _ => .inr

theorem issues_deleteMessage :
    (deleteMessage auth channelId messageId).Issues fun w =>
      w = .cql (.softDelete (messageKey channelId messageId)) ∨ w.Publishes :=
  issues_bind readOnly_check.issues fun _ => issues_bind readOnly_messageAuthor.issues fun _ =>
    issues_bind (issues_when fun _ => issues_bind readOnly_check.issues fun _ => issues_pure _) fun _ =>
      issues_bind (issues_execute (.inl rfl)) fun _ => issues_bind (issues_execute (.inr trivial)) fun _ =>
        issues_execute (.inr trivial)

theorem issues_bulkDelete {messages : List ℤ} {failed : ℕ → Bool} :
    (bulkDelete auth channelId messages failed).Issues fun w =>
      (∃ id ∈ messages, w = .cql (.softDelete (messageKey channelId id))) ∨ w.Publishes := by
  refine issues_bind readOnly_check.issues fun _ => issues_bind (issues_failIf _ _) fun _ => issues_bind ?_ fun _ =>
    issues_bind (issues_execute (.inr trivial)) fun _ => issues_execute (.inr trivial)
  refine issues_forM fun ⟨id, i⟩ hid => issues_when fun _ => issues_execute (.inl ⟨id, ?_, rfl⟩)
  exact List.fst_mem_of_mem_zipIdx hid

theorem issues_unpinMessage :
    (unpinMessage auth channelId messageId).Issues fun w =>
      w = .cql (.unsetPinned (messageKey channelId messageId)) ∨ w = .cql (.deletePin channelId messageId) ∨
        w.Publishes :=
  issues_bind readOnly_check.issues fun _ => issues_bind (issues_execute (.inl rfl)) fun _ =>
    issues_bind (issues_execute (.inr (.inl rfl))) fun _ => issues_execute (.inr (.inr trivial))

/-- the two writes of `pin_message`, of a message that was found undeleted in a channel with room -/
def PinWrites (channelId messageId auth : ℤ) (now : DateTime) (e : Effect) : Prop :=
  e = .cql (.setPinned (messageKey channelId messageId)) ∨ e = .cql (.insertPin ⟨channelId, messageId, auth, now.millis⟩) ∨
    e.Publishes

theorem issues_pinMessage : (pinMessage auth channelId messageId now).Issues (PinWrites channelId messageId auth now) :=
  issues_bind readOnly_check.issues fun _ => issues_bind (issues_select _) fun _ => issues_bind (issues_failIf _ _) fun _ =>
    issues_bind (issues_select _) fun _ => issues_bind (issues_failIf _ _) fun _ =>
      issues_bind (issues_execute (.inl rfl)) fun _ => issues_bind (issues_execute (.inr (.inl rfl))) fun _ =>
        issues_execute (.inr (.inr trivial))

/-! ## New messages -/

def newKey (channelId : ℤ) (messageId : Snowflake) : MessageKey :=
  ⟨channelId, bucketFromSnowflake messageId, messageId.toI64⟩

/-- the mentions of a text that may be missing -/
def mentionsOf (content : Option String) : List ℤ × List ℤ × Bool := (content.map parseMentions).getD ([], [], false)

def sentRow (auth : ℤ) (body : SendMessageRequest) (mentionEveryone : Bool) : NewMessage :=
  { authorId := auth, content := body.content, type := if body.messageReference.isSome then 19 else 0, mentionEveryone,
    mentions := some (jsonIds (mentionsOf body.content).1),
    mentionRoles := some (jsonIds (mentionsOf body.content).2.1),
    embeds := body.embeds.map Json.text, attachments := body.attachments.map Json.text,
    referenceId := body.messageReference }

/-- what `send_message` executes -/
inductive SendWrites (auth channelId : ℤ) (body : SendMessageRequest) (messageId : Snowflake) : Effect → Prop
  | insert (mentionEveryone : Bool) (short : ∀ c ∈ body.content, c.length ≤ 4000) :
    SendWrites auth channelId body messageId
      (.cql (.insertMessage (newKey channelId messageId) (sentRow auth body mentionEveryone)))
  | last : SendWrites auth channelId body messageId (.setLastMessage messageId.toI64 channelId)
  | slowmode (userId seconds : ℤ) (now : DateTime) :
    SendWrites auth channelId body messageId (.setSlowmode channelId userId seconds now)
  | publish (e : Effect) (h : e.Publishes) : SendWrites auth channelId body messageId e

theorem allSteps_sendMessage {body : SendMessageRequest} :
    (sendMessage auth channelId body newId now).AllSteps Effect.exec
      (fun e _ => SendWrites auth channelId body newId e) w := by
  refine allSteps_bind_of_readOnly readOnly_check fun sid _ => ?_
  refine allSteps_bind_of_readOnly (issues_failIf _ _) fun _ _ => ?_
  refine allSteps_bind_of_readOnly (issues_failIf _ _) fun _ hshort => ?_
  have hshort : ∀ c ∈ body.content, c.length ≤ 4000 := by
    have h := (failIf_eq_ok.1 hshort).1
    intro c hc
    simp only [Option.any_eq_true, not_exists, not_and, decide_eq_true_eq, not_lt] at h
    exact h c hc
  refine allSteps_bind_of_readOnly (issues_select _) fun rateLimit _ => ?_
  refine allSteps_bind_of_readOnly (issues_select _) fun slowed _ => ?_
  refine allSteps_bind_of_readOnly (issues_failIf _ _) fun _ _ => ?_
  refine allSteps_bind_of_readOnly (issues_select _) fun timedOut _ => ?_
  refine allSteps_bind_of_readOnly (issues_failIf _ _) fun _ _ => ?_
  have hparsed : (body.content.map parseMentions).getD ([], [], false) = mentionsOf body.content := rfl
  rw [hparsed]
  refine allSteps_bind_of_readOnly (issues_select _) fun mentionEveryone _ => Issues.allSteps ?_
  refine issues_bind (issues_execute fun _ => .insert mentionEveryone hshort) fun _ => ?_
  refine issues_bind (issues_execute fun _ => .last) fun _ => ?_
  refine issues_bind (issues_when fun _ => issues_execute fun _ => .slowmode _ _ _) fun _ => ?_
  refine issues_bind (issues_execute fun _ => .publish _ trivial) fun _ => ?_
  refine issues_bind (issues_forM_option fun _ _ => issues_execute fun _ => .publish _ trivial) fun _ => ?_
  exact issues_bind (issues_execute fun _ => .publish _ trivial) fun _ => issues_pure _

/-- what `execute_webhook` executes -/
inductive WebhookWrites (webhookId : ℤ) (messageId : Snowflake) : Effect → Prop
  | insert (channelId : ℤ) (content : String) (short : content.length ≤ 4000) :
    WebhookWrites webhookId messageId (.cql (.insertWebhookMessage (newKey channelId messageId) webhookId (some content)))
  | publish (e : Effect) (h : e.Publishes) : WebhookWrites webhookId messageId e

theorem allSteps_executeWebhook {hash : String → String} {token : String} {content : Option String} :
    (executeWebhook hash webhookId token content newId).AllSteps Effect.exec
      (fun e _ => WebhookWrites webhookId newId e) w := by
  refine allSteps_bind_of_readOnly (issues_failIf _ _) fun _ _ => ?_
  refine allSteps_bind_of_readOnly (issues_failIf _ _) fun _ hshort => ?_
  have hshort : (content.getD "").length ≤ 4000 := not_lt.1 (failIf_eq_ok.1 hshort).1
  refine allSteps_bind_of_readOnly (issues_select _) fun row _ => ?_
  refine allSteps_bind_of_readOnly (issues_orFail _ _) fun webhook _ => Issues.allSteps ?_
  refine issues_bind (issues_execute fun _ => .insert webhook.channelId _ hshort) fun _ => ?_
  exact issues_execute fun _ => .publish _ trivial

/-! ## One request -/

/-- what a request can execute -/
def MessageRequest.Writes : MessageRequest → Effect → Prop
  | .sendMessage auth channelId body messageId _, e => SendWrites auth channelId body messageId e
  | .executeWebhook webhookId _ _ messageId, e => WebhookWrites webhookId messageId e
  | .editMessage _ channelId messageId _ now, e =>
    (∃ content, e = .cql (.updateContent content now.millis (messageKey channelId messageId))) ∨
      (∃ embeds, e = .cql (.updateEmbeds embeds now.millis (messageKey channelId messageId))) ∨ e.Publishes
  | .deleteMessage _ channelId messageId, e => e = .cql (.softDelete (messageKey channelId messageId)) ∨ e.Publishes
  | .bulkDelete _ channelId messages _, e =>
    (∃ id ∈ messages, e = .cql (.softDelete (messageKey channelId id))) ∨ e.Publishes
  | .pinMessage auth channelId messageId now, e => PinWrites channelId messageId auth now e
  | .unpinMessage _ channelId messageId, e => e = .cql (.unsetPinned (messageKey channelId messageId)) ∨
    e = .cql (.deletePin channelId messageId) ∨ e.Publishes

theorem allSteps_handle (hash : String → String) (r : MessageRequest) (w : World) :
    (r.handle hash).AllSteps Effect.exec (fun e _ => r.Writes e) w := by
  cases r with
  | sendMessage auth channelId body messageId now =>
    exact allSteps_bind.2 ⟨allSteps_sendMessage, fun _ _ _ => allSteps_pure _⟩
  | executeWebhook webhookId token content messageId => exact allSteps_executeWebhook
  | editMessage auth channelId messageId body now =>
    exact Issues.allSteps (issues_bind (issues_editMessage.mono fun _ h _ => h) fun _ => issues_pure _)
  | deleteMessage auth channelId messageId => exact Issues.allSteps (issues_deleteMessage.mono fun _ h _ => h)
  | bulkDelete auth channelId messages failed => exact Issues.allSteps (issues_bulkDelete.mono fun _ h _ => h)
  | pinMessage auth channelId messageId now => exact Issues.allSteps (issues_pinMessage.mono fun _ h _ => h)
  | unpinMessage auth channelId messageId => exact Issues.allSteps (issues_unpinMessage.mono fun _ h _ => h)

end Lumiere.Routes
