/-
Which events of a channel reach the members of its server. The handlers that write to a channel publish on
`channel.{}.messages`; a member's session subscribes to `server.{}.>`. `send_message` publishes on `server.{}.events` too,
the others do not.

- `Emits`: the subjects on which a route publishes when it succeeds, and the rules for it.
- `covered_once_iff`: a publication reaches a member of the server exactly once if the handler is `send_message`.
- `edit_unseen`: an edited message of a server channel reaches nobody's session.
-/
import Lumiere.Gateway.Subjects
import Lumiere.Routes.MessageWrites

namespace Lumiere.Gateway

open Lumiere.Core Lumiere.Core.Prog Lumiere.Models Lumiere.Db Lumiere.Routes

/-! ## What a route publishes -/

/-- an effect that publishes nothing on NATS core -/
def Effect.Silent : Effect → Prop
  | .publish _ => False
  | _ => True

/-- if the route succeeds it has published on these subjects, in this order -/
def Emits {α : Type} (w : World) (p : Route α) (subjects : List Subject) : Prop :=
  ∀ a w', p.run Effect.exec w = (.ok a, w') →
    ∃ publications, w'.published = w.published ++ publications ∧ publications.map Publication.subject = subjects

variable {α β : Type} {w : World} {p : Route α} {f : α → Route β} {subjects subjects' : List Subject}

theorem exec_silent {e : Effect} {n : ℕ} {w' : World} (he : Effect.Silent e) (h : e.exec w = .ok (n, w')) :
    w'.published = w.published := by
  cases e with
  | publish p => exact he.elim
  | sql s =>
    rw [Effect.exec] at h
    rcases hs : statement s w.pg with e | r
    · rw [hs] at h
      cases h
    · rw [hs] at h
      obtain ⟨-, rfl⟩ := Prod.mk.inj (Except.ok.inj h)
      rfl
  | _ =>
    obtain ⟨-, rfl⟩ := Prod.mk.inj (Except.ok.inj h)
    rfl

theorem emits_silent (hp : p.Issues Effect.Silent) : Emits w p [] := by
  intro a w' h
  have hsame := issues_run (I := fun w' : World => w'.published = w.published)
    (fun e w₁ n w₂ he hw h => (exec_silent he h).trans hw) hp rfl
  rw [h] at hsame
  exact ⟨[], by simpa using hsame, rfl⟩

theorem emits_publish (x : Publication) : Emits w (execute (.publish x)) [x.subject] := by
  intro a w' h
  obtain ⟨n, h⟩ := execute_eq_ok.1 h
  obtain ⟨-, rfl⟩ := Prod.mk.inj (Except.ok.inj h)
  exact ⟨[x], rfl, rfl⟩

theorem emits_bind (hp : Emits w p subjects)
    (hf : ∀ a w', p.run Effect.exec w = (.ok a, w') → Emits w' (f a) subjects') : Emits w (p >>= f) (subjects ++ subjects') := by
  intro b w'' h
  obtain ⟨a, w', hrun, h⟩ := run_bind_eq_ok.1 h
  obtain ⟨xs, hxs, rfl⟩ := hp a w' hrun
  obtain ⟨ys, hys, rfl⟩ := hf a w' hrun b w'' h
  exact ⟨xs ++ ys, by rw [hys, hxs, List.append_assoc], List.map_append⟩

/-- a silent prefix -/
theorem Emits.after (hp : p.Issues Effect.Silent)
    (hf : ∀ a w', p.run Effect.exec w = (.ok a, w') → Emits w' (f a) subjects) : Emits w (p >>= f) subjects :=
  emits_bind (emits_silent hp) hf

/-- a publication and a silent rest -/
theorem emits_publish_then {x : Publication} {f : Unit → Route β} (hf : ∀ u, (f u).Issues Effect.Silent) :
    Emits w (execute (.publish x) >>= f) [x.subject] :=
  emits_bind (emits_publish x) fun _ _ _ => emits_silent (hf _)

/-! ## The handlers -/

theorem silent_onPg {h : Handler α} (hr : h.ReadOnly) : (onPg h).Issues Effect.Silent := issues_lift hr.issues

variable {auth channelId serverId messageId : ℤ} {now : DateTime}

theorem silent_check {userId : ℤ} {perm : Permissions} :
    (onPg (checkChannelPermission channelId userId perm)).Issues Effect.Silent :=
  silent_onPg readOnly_checkChannelPermission

theorem silent_messageAuthor : (messageAuthor channelId messageId).Issues Effect.Silent :=
  issues_bind (issues_select _) fun _ => issues_bind (issues_orFail _ _) fun _ => issues_orFail _ _

theorem emits_editMessage {body : EditMessageRequest} :
    Emits w (editMessage auth channelId messageId body now) [channelMessages channelId] := by
  refine Emits.after silent_check fun sid _ _ => Emits.after silent_messageAuthor fun _ _ _ =>
    Emits.after (issues_when fun _ => ?_) fun _ _ _ => Emits.after ?_ fun _ _ _ => Emits.after ?_ fun _ _ _ =>
    emits_publish_then fun _ => ?_
  · refine issues_bind (issues_failIf _ _) fun _ => ?_
    cases sid with
    | none => exact issues_fail _
    | some sid => exact silent_onPg readOnly_requirePermissions
  · cases body.content with
    | none => trivial
    | some content => exact issues_execute trivial
  · cases body.embeds with
    | none => trivial
    | some embeds => exact issues_execute trivial
  · exact issues_bind (issues_execute trivial) fun _ => issues_bind silent_check fun _ =>
      issues_bind (issues_select _) fun _ => issues_orFail _ _

theorem emits_deleteMessage : Emits w (deleteMessage auth channelId messageId) [channelMessages channelId] := by
  refine Emits.after silent_check fun _ _ _ => Emits.after silent_messageAuthor fun _ _ _ =>
    Emits.after (issues_when fun _ => issues_bind silent_check fun _ => issues_pure _) fun _ _ _ =>
    Emits.after (issues_execute trivial) fun _ _ _ => emits_publish_then fun _ => issues_execute trivial

theorem emits_bulkDelete {messages : List ℤ} {failed : ℕ → Bool} :
    Emits w (bulkDelete auth channelId messages failed) [channelMessages channelId] := by
  refine Emits.after silent_check fun _ _ _ => Emits.after (issues_failIf _ _) fun _ _ _ =>
    Emits.after (issues_forM fun _ _ => issues_when fun _ => issues_execute trivial) fun _ _ _ =>
    emits_publish_then fun _ => issues_execute trivial

theorem emits_pinMessage : Emits w (pinMessage auth channelId messageId now) [channelMessages channelId] := by
  refine Emits.after silent_check fun _ _ _ => Emits.after (issues_select _) fun _ _ _ =>
    Emits.after (issues_failIf _ _) fun _ _ _ => Emits.after (issues_select _) fun _ _ _ =>
    Emits.after (issues_failIf _ _) fun _ _ _ => Emits.after (issues_execute trivial) fun _ _ _ =>
    Emits.after (issues_execute trivial) fun _ _ _ => emits_publish _

theorem emits_unpinMessage : Emits w (unpinMessage auth channelId messageId) [channelMessages channelId] := by
  refine Emits.after silent_check fun _ _ _ => Emits.after (issues_execute trivial) fun _ _ _ =>
    Emits.after (issues_execute trivial) fun _ _ _ => emits_publish _

theorem emits_addReaction {emoji : String} :
    Emits w (addReaction auth channelId messageId emoji now) [channelMessages channelId] := by
  refine Emits.after (issues_failIf _ _) fun _ _ _ => Emits.after silent_check fun _ _ _ =>
    Emits.after (issues_execute trivial) fun _ _ _ => emits_publish _

theorem emits_removeOwnReaction {emoji : String} :
    Emits w (removeOwnReaction auth channelId messageId emoji) [channelMessages channelId] := by
  refine Emits.after (issues_failIf _ _) fun _ _ _ => Emits.after silent_check fun _ _ _ =>
    Emits.after (issues_execute trivial) fun _ _ _ => emits_publish _

theorem emits_executeWebhook {hash : String → String} {webhookId : ℤ} {token : String} {content : Option String}
    {newId : Snowflake} {webhook : Webhook} (hw : findWebhook w webhookId (hash token) = some webhook) :
    Emits w (executeWebhook hash webhookId token content newId) [channelMessages webhook.channelId] := by
  refine Emits.after (issues_failIf _ _) fun _ w₁ h₁ => Emits.after (issues_failIf _ _) fun _ w₂ h₂ =>
    Emits.after (issues_select _) fun row w₃ h₃ => Emits.after (issues_orFail _ _) fun found w₄ h₄ =>
    Emits.after (issues_execute trivial) fun _ _ _ => ?_
  obtain rfl : w₁ = w := (failIf_eq_ok.1 h₁).2
  obtain rfl : w₂ = w₁ := (failIf_eq_ok.1 h₂).2
  rw [run_select, Prod.mk.injEq, Except.ok.injEq, hw] at h₃
  obtain ⟨rfl, rfl⟩ := h₃
  obtain rfl : webhook = found := Option.some.inj (orFail_eq_ok.1 h₄).1
  exact emits_publish _

/-- **A message sent to a server channel is published twice.** -/
theorem emits_sendMessage {body : SendMessageRequest} {newId : Snowflake} (hc : InServer w.pg channelId serverId) :
    Emits w (sendMessage auth channelId body newId now) [channelMessages channelId, serverEvents serverId] := by
  refine Emits.after silent_check fun sid w₁ hcheck => ?_
  rw [run_onPg_readOnly readOnly_checkChannelPermission, Prod.mk.injEq] at hcheck
  obtain ⟨rfl, -⟩ := of_checkChannelPermission hc (Prod.ext hcheck.1 rfl)
  refine Emits.after (issues_failIf _ _) fun _ _ _ => Emits.after (issues_failIf _ _) fun _ _ _ =>
    Emits.after (issues_select _) fun _ _ _ => Emits.after (issues_select _) fun _ _ _ =>
    Emits.after (issues_failIf _ _) fun _ _ _ => Emits.after (issues_select _) fun _ _ _ =>
    Emits.after (issues_failIf _ _) fun _ _ _ => ?_
  generalize (body.content.map parseMentions).getD ([], [], false) = parsed
  obtain ⟨mentions, mentionRoles, detected⟩ := parsed
  dsimp only
  refine Emits.after (issues_select _) fun _ _ _ => Emits.after (issues_execute trivial) fun _ _ _ =>
    Emits.after (issues_execute trivial) fun _ _ _ => Emits.after (issues_when fun _ => issues_execute trivial)
    fun _ _ _ => ?_
  exact emits_bind (emits_publish _) fun _ _ _ => emits_publish_then fun _ =>
    issues_bind (issues_execute trivial) fun _ => issues_pure _

/-! ## Coverage -/

/-- the requests that publish what happens in a channel -/
inductive ChannelRequest where
  | sendMessage (auth channelId : ℤ) (body : SendMessageRequest) (messageId : Snowflake) (now : DateTime)
  | editMessage (auth channelId messageId : ℤ) (body : EditMessageRequest) (now : DateTime)
  | deleteMessage (auth channelId messageId : ℤ)
  | bulkDelete (auth channelId : ℤ) (messages : List ℤ) (failed : ℕ → Bool)
  | pinMessage (auth channelId messageId : ℤ) (now : DateTime)
  | unpinMessage (auth channelId messageId : ℤ)
  | addReaction (auth channelId messageId : ℤ) (emoji : String) (now : DateTime)
  | removeOwnReaction (auth channelId messageId : ℤ) (emoji : String)
  | executeWebhook (hash : String → String) (webhookId : ℤ) (token : String) (content : Option String)
      (messageId : Snowflake)

namespace ChannelRequest

def handle : ChannelRequest → Route Unit
  | .sendMessage auth channelId body messageId now => answer (Routes.sendMessage auth channelId body messageId now)
  | .editMessage auth channelId messageId body now => answer (Routes.editMessage auth channelId messageId body now)
  | .deleteMessage auth channelId messageId => Routes.deleteMessage auth channelId messageId
  | .bulkDelete auth channelId messages failed => Routes.bulkDelete auth channelId messages failed
  | .pinMessage auth channelId messageId now => Routes.pinMessage auth channelId messageId now
  | .unpinMessage auth channelId messageId => Routes.unpinMessage auth channelId messageId
  | .addReaction auth channelId messageId emoji now => Routes.addReaction auth channelId messageId emoji now
  | .removeOwnReaction auth channelId messageId emoji => Routes.removeOwnReaction auth channelId messageId emoji
  | .executeWebhook hash webhookId token content messageId => Routes.executeWebhook hash webhookId token content messageId

/-- the channel of the request, which for a webhook is the webhook's -/
def channel? (w : World) : ChannelRequest → Option ℤ
  | .sendMessage _ channelId .. | .editMessage _ channelId .. | .deleteMessage _ channelId _ | .bulkDelete _ channelId ..
  | .pinMessage _ channelId .. | .unpinMessage _ channelId _ | .addReaction _ channelId ..
  | .removeOwnReaction _ channelId .. => some channelId
  | .executeWebhook hash webhookId token .. => (findWebhook w webhookId (hash token)).map Webhook.channelId

def isSendMessage : ChannelRequest → Bool
  | .sendMessage .. => true
  | _ => false

/-- what the request publishes on NATS core -/
def publications (w : World) (r : ChannelRequest) : List Publication :=
  (r.handle.run Effect.exec w).2.published.drop w.published.length

end ChannelRequest

theorem emits_answer (hp : Emits w p subjects) : Emits w (answer p) subjects := by
  have h := emits_bind (f := fun _ => (pure () : Route Unit)) hp fun _ _ _ => emits_silent (issues_pure _)
  rwa [List.append_nil] at h

/-- the subjects of a request on a server channel -/
theorem emits_request {r : ChannelRequest} (hc : InServer w.pg channelId serverId)
    (hr : r.channel? w = some channelId) :
    Emits w r.handle (channelMessages channelId :: if r.isSendMessage then [serverEvents serverId] else []) := by
  cases r with
  | executeWebhook hash webhookId token content newId =>
    obtain ⟨webhook, hw, rfl⟩ := Option.map_eq_some_iff.1 hr
    exact emits_executeWebhook hw
  | sendMessage =>
    obtain rfl := Option.some.inj hr
    exact emits_answer (emits_sendMessage hc)
  | editMessage =>
    obtain rfl := Option.some.inj hr
    exact emits_answer emits_editMessage
  | deleteMessage =>
    obtain rfl := Option.some.inj hr
    exact emits_deleteMessage
  | bulkDelete =>
    obtain rfl := Option.some.inj hr
    exact emits_bulkDelete
  | pinMessage =>
    obtain rfl := Option.some.inj hr
    exact emits_pinMessage
  | unpinMessage =>
    obtain rfl := Option.some.inj hr
    exact emits_unpinMessage
  | addReaction =>
    obtain rfl := Option.some.inj hr
    exact emits_addReaction
  | removeOwnReaction =>
    obtain rfl := Option.some.inj hr
    exact emits_removeOwnReaction

theorem subjects_publications {r : ChannelRequest} (hc : InServer w.pg channelId serverId)
    (hr : r.channel? w = some channelId) (hok : r.handle.succeeds Effect.exec w = true) :
    (r.publications w).map Publication.subject =
      channelMessages channelId :: if r.isSendMessage then [serverEvents serverId] else [] := by
  obtain ⟨_, w', hrun⟩ := succeeds_iff.1 hok
  obtain ⟨xs, hxs, hsubjects⟩ := emits_request hc hr _ _ hrun
  rw [← hsubjects, ChannelRequest.publications, hrun, hxs, List.drop_left]

/-- exactly one publication is covered by the subscriptions, and it arrives once -/
structure CoveredOnce (patterns : List Pattern) (publications : List Publication) : Prop where
  covered : (publications.countP fun p => 0 < hits patterns p.subject) = 1
  arrives : (received patterns publications).length = 1

theorem length_received (patterns : List Pattern) (publications : List Publication) :
    (received patterns publications).length = ((publications.map Publication.subject).map (hits patterns)).sum := by
  simp [received, List.length_flatMap, Function.comp_def]

/-- **Fan-out coverage of a server channel.** The session of a member receives exactly one of the events that a request
publishes, once, exactly if the request is a `send_message` and the channel is not also a direct message of the member,
or is another one and the channel is. -/
theorem covered_once_iff {pg : Postgres} {userId : ℤ} {r : ChannelRequest} (hs : pg.hasServer serverId = true)
    (hm : pg.hasMember serverId userId = true) (hc : InServer w.pg channelId serverId)
    (hr : r.channel? w = some channelId) (hok : r.handle.succeeds Effect.exec w = true) :
    CoveredOnce (subscriptions pg userId) (r.publications w) ↔
      (r.isSendMessage = true ↔ channelId ∉ listDms pg userId) := by
  have hserver : hits (subscriptions pg userId) (serverEvents serverId) = 1 := by
    rw [hits_serverEvents]
    exact List.count_eq_one_of_mem nodup_listServers (mem_listServers.2 ⟨hs, hm⟩)
  have hchannel : hits (subscriptions pg userId) (channelMessages channelId) =
      if channelId ∈ listDms pg userId then 1 else 0 := by
    rw [hits_channelMessages]
    split_ifs with hdm
    · exact List.count_eq_one_of_mem nodup_listDms hdm
    · exact List.count_eq_zero_of_not_mem hdm
  have hsubjects := subjects_publications hc hr hok
  have hcovered : ((r.publications w).countP fun p => 0 < hits (subscriptions pg userId) p.subject) =
      (if channelId ∈ listDms pg userId then 1 else 0) + if r.isSendMessage then 1 else 0 := by
    have hmap : ((r.publications w).countP fun p => 0 < hits (subscriptions pg userId) p.subject) =
        ((r.publications w).map Publication.subject).countP fun s => 0 < hits (subscriptions pg userId) s := by
      rw [List.countP_map]
      rfl
    rw [hmap, hsubjects]
    split_ifs <;> simp_all
  have harrives : (received (subscriptions pg userId) (r.publications w)).length =
      (if channelId ∈ listDms pg userId then 1 else 0) + if r.isSendMessage then 1 else 0 := by
    rw [length_received, hsubjects]
    split_ifs <;> simp_all
  have hboth : CoveredOnce (subscriptions pg userId) (r.publications w) ↔
      (if channelId ∈ listDms pg userId then 1 else 0) + (if r.isSendMessage then 1 else 0) = 1 :=
    ⟨fun h => hcovered ▸ h.covered, fun h => ⟨hcovered.trans h, harrives.trans h⟩⟩
  rw [hboth]
  by_cases hdm : channelId ∈ listDms pg userId <;> cases r.isSendMessage <;> simp [hdm]

/-! ## An edit that nobody sees -/

/-- user 2 of server 100 identifies, then user 1 writes a message in channel 101 -/
def written : World := (ChannelRequest.sendMessage 1 101 hello ⟨7⟩ ⟨10⟩).handle.run Effect.exec joined |>.2

/-- user 1 changes the text of the message -/
def edit : ChannelRequest := .editMessage 1 101 7 ⟨some "bye", none, none⟩ ⟨20⟩

theorem inServer_written : InServer written.pg 101 100 :=
  ⟨{ newChannel 101 100 0 "general" 0 ⟨0⟩ with lastMessageId := some 7 }, by decide, rfl, rfl⟩

theorem covered_once_iff_edit :
    CoveredOnce (subscriptions joined.pg 2) (edit.publications written) ↔ (edit.isSendMessage = true ↔ 101 ∉ listDms joined.pg 2) :=
  covered_once_iff (show joined.pg.hasServer 100 = true by decide) (by decide) inServer_written rfl (by decide)

/-- **The edit of a message in a server channel reaches no member's session.** -/
theorem edit_unseen :
    joined.pg.hasMember 100 2 = true ∧ InServer written.pg 101 100 ∧ edit.handle.succeeds Effect.exec written = true ∧
      received (subscriptions joined.pg 2) (edit.publications written) = [] :=
  ⟨by decide, inServer_written, by decide, by decide⟩

end Lumiere.Gateway
