/-
`channels.last_message_id` beside the messages that are stored (`routes/messages.rs`, `routes/webhooks.rs`), with any
number of `send_message` and `execute_webhook` side by side. Either draws an id and inserts into ScyllaDB; `send_message`
then updates the row of the channel in PostgreSQL.

- `Posting.start`: the two handlers with the draw as a command of its own. `run_start`: one that runs alone is the
  handler with the id that it draws.
- `Newest`: the row of the channel has the largest id that is stored for it, null if there is none.
- `Ordered`: an UPDATE does not replace a larger id, and what a webhook inserts is not the newest. `newest_of_ordered`:
  in a run of such statements the row is right whenever no request is in progress.
- `overtaken`: an UPDATE that comes late, and a webhook.
-/
import Lumiere.Core.Paired
import Lumiere.Routes.MessageRequests

namespace Lumiere.Routes

open Lumiere.Core Lumiere.Core.Prog Lumiere.Models Lumiere.Db

/-! ## The handlers, cut where they draw an id -/

/-- `send_message` up to the draw: the server of the channel and its slowmode -/
def sendChecks (auth channelId : ℤ) (body : SendMessageRequest) (now : DateTime) : Route (Option ℤ × ℤ) := do
  let serverId ← onPg (checkChannelPermission channelId auth .sendMessages)
  failIf (!body.hasContent && !body.hasEmbeds && !body.hasAttachments)
    (.badRequest "Message must have content, embeds, or attachments")
  failIf (body.content.any fun c => 4000 < c.length) (.badRequest "Content must be 4000 characters or less")
  let rateLimit ← select fun w => channelRateLimit w.pg channelId
  let slowed ← select fun w => w.slowed channelId auth now
  failIf (0 < rateLimit ∧ slowed) (.rateLimited rateLimit.toNat)
  let timedOut ← select fun w => serverId.bind fun sid => timedOutUntil w.pg sid auth
  failIf (timedOut.any fun u => now.millis < u.millis) (.forbidden "You are timed out in this server")
  pure (serverId, rateLimit)

/-- `send_message` after the two writes -/
def sendEvents (auth channelId : ℤ) (body : SendMessageRequest) (now : DateTime) (serverId : Option ℤ) (rateLimit : ℤ)
    (messageId : Snowflake) (mentionEveryone : Bool) : Route MessageResponse := do
  let (mentions, mentionRoles, _) := mentionsOf body.content
  when (0 < rateLimit) (execute (.setSlowmode channelId auth rateLimit now))
  let response : MessageResponse :=
    { id := messageId.toI64, channelId, authorId := auth, content := body.content, timestamp := messageId.createdAt,
      editedTimestamp := none, messageType := if body.messageReference.isSome then 19 else 0, flags := 0, pinned := false,
      mentionEveryone, mentions, mentionRoles, embeds := body.embeds, attachments := body.attachments,
      referenceId := body.messageReference }
  let event : Event := .messageCreate channelId serverId response
  execute (.publish ⟨channelMessages channelId, event⟩)
  serverId.forM fun sid => execute (.publish ⟨serverEvents sid, event⟩)
  execute (.publishDurable ⟨persistMessages channelId, event⟩)
  pure response

/-- `send_message` from the draw on -/
def sendDrawn (auth channelId : ℤ) (body : SendMessageRequest) (now : DateTime) (serverId : Option ℤ) (rateLimit : ℤ)
    (messageId : Snowflake) : Route MessageResponse := do
  let mentionEveryone ← select fun w => mentionsEveryone auth serverId (mentionsOf body.content).2.2 w.pg
  execute (.cql (.insertMessage (newKey channelId messageId) (sentRow auth body mentionEveryone)))
  execute (.setLastMessage messageId.toI64 channelId)
  sendEvents auth channelId body now serverId rateLimit messageId mentionEveryone

/-- `execute_webhook` up to the draw -/
def webhookChecks (hash : String → String) (webhookId : ℤ) (token : String) (content : Option String) :
    Route Webhook := do
  failIf (content.getD "" = "") (.badRequest "Content must not be empty")
  failIf (4000 < (content.getD "").length) (.badRequest "Content must be 4000 characters or less")
  let row ← select fun w => findWebhook w webhookId (hash token)
  orFail (.unauthorized "Invalid webhook token") row

/-- `execute_webhook` from the draw on -/
def webhookDrawn (webhookId : ℤ) (content : Option String) (webhook : Webhook) (messageId : Snowflake) : Route Unit := do
  execute (.cql (.insertWebhookMessage (newKey webhook.channelId messageId) webhookId (some (content.getD ""))))
  execute (.publish ⟨channelMessages webhook.channelId,
    .webhookMessageCreate webhook.channelId webhookId messageId.toI64 (content.getD "") webhook.name⟩)

theorem sendMessage_eq {auth channelId : ℤ} {body : SendMessageRequest} {messageId : Snowflake} {now : DateTime} :
    sendMessage auth channelId body messageId now = (do
      let (serverId, rateLimit) ← sendChecks auth channelId body now
      sendDrawn auth channelId body now serverId rateLimit messageId) := by
  simp only [sendChecks, bind_bind]
  rfl

theorem executeWebhook_eq {hash : String → String} {webhookId : ℤ} {token : String} {content : Option String}
    {messageId : Snowflake} :
    executeWebhook hash webhookId token content messageId = (do
      let webhook ← webhookChecks hash webhookId token content
      webhookDrawn webhookId content webhook messageId) := by
  simp only [webhookChecks, bind_bind]
  rfl

/-! ## Drawing ids -/

structure Drawing where
  world : World
  /-- how many ids have been drawn -/
  drawn : ℕ

inductive Command where
  | draw
  | effect (e : Effect)
deriving DecidableEq, Repr

/-- `next_id` is one step; it answers with the number of the id -/
def Command.exec : Command → Drawing → Except AppError (ℕ × Drawing)
  | .draw, s => .ok (s.drawn, { s with drawn := s.drawn + 1 })
  | .effect e, s => (e.exec s.world).map fun r => (r.1, { s with world := r.2 })

abbrev Posts := Prog Drawing Command AppError

def onWorld {α : Type} (p : Route α) : Posts α := p.lift Drawing.world Command.effect

inductive Posting where
  | sendMessage (auth channelId : ℤ) (body : SendMessageRequest) (now : DateTime)
  | executeWebhook (webhookId : ℤ) (token : String) (content : Option String)
deriving DecidableEq, Repr

/-- a program that draws an id; `ids n` is the one that is drawn after `n` others -/
def drawing (ids : ℕ → Snowflake) {α : Type} (p : Route α) (f : α → Snowflake → Route Unit) : Posts Unit := do
  let a ← onWorld p
  let n ← affected .draw
  onWorld (f a (ids n))

def Posting.start (hash : String → String) (ids : ℕ → Snowflake) : Posting → Posts Unit
  | .sendMessage auth channelId body now =>
    drawing ids (sendChecks auth channelId body now) fun (serverId, rateLimit) messageId =>
      answer (sendDrawn auth channelId body now serverId rateLimit messageId)
  | .executeWebhook webhookId token content =>
    drawing ids (webhookChecks hash webhookId token content) (webhookDrawn webhookId content)

def Posting.request (messageId : Snowflake) : Posting → MessageRequest
  | .sendMessage auth channelId body now => .sendMessage auth channelId body messageId now
  | .executeWebhook webhookId token content => .executeWebhook webhookId token content messageId

variable {hash : String → String} {ids : ℕ → Snowflake}

theorem run_onWorld {α : Type} (p : Route α) (s : Drawing) :
    (onWorld p).run Command.exec s =
      ((p.run Effect.exec s.world).1, { s with world := (p.run Effect.exec s.world).2 }) :=
  run_lift (u := fun s w => { s with world := w }) (fun _ _ => rfl) (fun _ => rfl) (fun _ _ _ => rfl) (fun _ _ => rfl) p s

theorem run_drawing {α : Type} (p : Route α) (f : α → Snowflake → Route Unit) (w : World) (k : ℕ) :
    ((drawing ids p f).run Command.exec ⟨w, k⟩).1 = ((p >>= fun a => f a (ids k)).run Effect.exec w).1 ∧
      ((drawing ids p f).run Command.exec ⟨w, k⟩).2.world = ((p >>= fun a => f a (ids k)).run Effect.exec w).2 := by
  have hdraw : ∀ w, (affected .draw : Posts ℕ).run Command.exec ⟨w, k⟩ = (.ok k, ⟨w, k + 1⟩) := fun _ => rfl
  simp only [drawing, run_bind, run_onWorld]
  rcases p.run Effect.exec w with ⟨e | a, w₁⟩
  · exact ⟨rfl, rfl⟩
  · simp only [hdraw, and_self]

/-- **Alone, a posting is the handler with the id that it draws.** -/
theorem run_start (r : Posting) (w : World) (k : ℕ) :
    ((r.start hash ids).run Command.exec ⟨w, k⟩).1 = (((r.request (ids k)).handle hash).run Effect.exec w).1 ∧
      ((r.start hash ids).run Command.exec ⟨w, k⟩).2.world = messageStep hash w (r.request (ids k)) := by
  cases r with
  | sendMessage auth channelId body now =>
    rw [messageStep, Posting.request, MessageRequest.handle, sendMessage_eq, answer, bind_bind]
    exact run_drawing (sendChecks auth channelId body now)
      (fun c messageId => answer (sendDrawn auth channelId body now c.1 c.2 messageId)) w k
  | executeWebhook webhookId token content =>
    rw [messageStep, Posting.request, MessageRequest.handle, executeWebhook_eq]
    exact run_drawing (webhookChecks hash webhookId token content) (webhookDrawn webhookId content) w k

/-! ## What is claimed, and of which statements -/

def HasMessage (channelId id : ℤ) (c : Chat) : Prop := ∃ b, (c.message? ⟨channelId, b, id⟩).isSome

def channelRow? (channelId : ℤ) (w : World) : Option Channel := w.pg.channels.find? fun c => c.id = channelId

def lastMessage? (channelId : ℤ) (w : World) : Option ℤ := (channelRow? channelId w).bind Channel.lastMessageId

/-- the channel is there, and its `last_message_id` is the largest id of its messages -/
structure Newest (channelId : ℤ) (w : World) : Prop where
  channel : (channelRow? channelId w).isSome
  largest : match lastMessage? channelId w with
    | none => ∀ id, ¬ HasMessage channelId id w.chat
    | some last => IsGreatest {id | HasMessage channelId id w.chat} last

/-- the message of the channel that `send_message` inserts -/
def sent (channelId : ℤ) : Command → Option ℤ
  | .effect (.cql (.insertMessage key _)) => if key.channelId = channelId then some key.messageId else none
  | _ => none

/-- the message of the channel that `execute_webhook` inserts -/
def hooked (channelId : ℤ) : Command → Option ℤ
  | .effect (.cql (.insertWebhookMessage key _ _)) => if key.channelId = channelId then some key.messageId else none
  | _ => none

/-- the id that the row of the channel gets -/
def updated (channelId : ℤ) : Command → Option ℤ
  | .effect (.setLastMessage id channel) => if channel = channelId then some id else none
  | _ => none

/-- an UPDATE does not replace a larger id, and what a webhook inserts has a smaller id than the last message -/
def Ordered (channelId : ℤ) (c : Command) (s : Drawing) : Prop :=
  (∀ id ∈ updated channelId c, ∀ last ∈ lastMessage? channelId s.world, last ≤ id) ∧
    ∀ id ∈ hooked channelId c, ∃ last ∈ lastMessage? channelId s.world, id ≤ last

instance (channelId : ℤ) (c : Command) (s : Drawing) : Decidable (Ordered channelId c s) :=
  inferInstanceAs (Decidable (_ ∧ _))

/-! ## The statements of the handlers -/

/-- the commands of the two handlers -/
def Command.Posts : Command → Prop
  | .effect (.cql (.insertMessage ..)) | .effect (.cql (.insertWebhookMessage ..)) => True
  | .effect (.sql _) | .effect (.cql _) => False
  | _ => True

variable {channelId id : ℤ}

abbrev PairedIn (channelId : ℤ) {α : Type} (p : Posts α) (m : Option ℤ) : Prop :=
  p.Paired Command.Posts (sent channelId) (updated channelId) m

/-- such a program of a handler -/
abbrev PairedOn (channelId : ℤ) {α : Type} (p : Route α) (m : Option ℤ) : Prop :=
  p.Paired (fun e => Command.Posts (.effect e)) (fun e => sent channelId (.effect e))
    (fun e => updated channelId (.effect e)) m

theorem paired_events {auth channel : ℤ} {body : SendMessageRequest} {now : DateTime} {serverId : Option ℤ}
    {rateLimit : ℤ} {messageId : Snowflake} {mentionEveryone : Bool} :
    PairedOn channelId (sendEvents auth channel body now serverId rateLimit messageId mentionEveryone) none := by
  refine paired_bind (paired_when (paired_execute trivial rfl rfl)) fun _ => ?_
  refine paired_bind (paired_execute trivial rfl rfl) fun _ => ?_
  refine paired_bind (paired_forM_option fun _ => paired_execute trivial rfl rfl) fun _ => ?_
  exact paired_bind (paired_execute trivial rfl rfl) fun _ => paired_pure _

theorem paired_sendDrawn {auth channel : ℤ} {body : SendMessageRequest} {now : DateTime} {serverId : Option ℤ}
    {rateLimit : ℤ} {messageId : Snowflake} :
    PairedOn channelId (sendDrawn auth channel body now serverId rateLimit messageId) none := by
  refine paired_bind (ReadOnly.paired (issues_select _)) fun mentionEveryone => ?_
  refine paired_execute_bind trivial rfl ?_
  exact paired_execute_bind trivial rfl paired_events

theorem paired_webhookDrawn {webhookId : ℤ} {content : Option String} {webhook : Webhook} {messageId : Snowflake} :
    PairedOn channelId (webhookDrawn webhookId content webhook messageId) none := by
  refine paired_execute_bind trivial rfl ?_
  exact paired_execute trivial rfl rfl

theorem readOnly_sendChecks {auth channel : ℤ} {body : SendMessageRequest} {now : DateTime} :
    (sendChecks auth channel body now).ReadOnly :=
  issues_bind readOnly_check fun _ => issues_bind (issues_failIf _ _) fun _ => issues_bind (issues_failIf _ _) fun _ =>
    issues_bind (issues_select _) fun _ => issues_bind (issues_select _) fun _ => issues_bind (issues_failIf _ _) fun _ =>
      issues_bind (issues_select _) fun _ => issues_bind (issues_failIf _ _) fun _ => issues_pure _

theorem readOnly_webhookChecks {webhookId : ℤ} {token : String} {content : Option String} :
    (webhookChecks hash webhookId token content).ReadOnly :=
  issues_bind (issues_failIf _ _) fun _ => issues_bind (issues_failIf _ _) fun _ =>
    issues_bind (issues_select _) fun _ => issues_orFail _ _

theorem paired_drawing {α : Type} {p : Route α} {f : α → Snowflake → Route Unit} (hp : p.ReadOnly)
    (hf : ∀ a messageId, PairedOn channelId (f a messageId) none) : PairedIn channelId (drawing ids p f) none := by
  refine paired_bind (paired_lift hp.paired) fun a => ?_
  exact paired_bind (paired_affected trivial rfl rfl) fun n => paired_lift (hf a (ids n))

theorem paired_start (r : Posting) : PairedIn channelId (r.start hash ids) none := by
  cases r with
  | sendMessage auth channel body now =>
    rw [Posting.start]
    refine paired_drawing readOnly_sendChecks fun c messageId => ?_
    exact paired_bind paired_sendDrawn fun _ => paired_pure _
  | executeWebhook webhookId token content =>
    rw [Posting.start]
    exact paired_drawing readOnly_webhookChecks fun _ _ => paired_webhookDrawn

/-! ## What they do to the stores -/

theorem hasMessage_apply (q : Cql) (c : Chat) :
    HasMessage channelId id (q.apply c) ↔
      HasMessage channelId id c ∨ ∃ key, q.target? = some key ∧ key.channelId = channelId ∧ key.messageId = id := by
  simp only [HasMessage, Cql.message?_apply]
  constructor
  · rintro ⟨b, h⟩
    split_ifs at h with hkey
    · exact .inr ⟨_, hkey, rfl, rfl⟩
    · exact .inl ⟨b, h⟩
  · rintro (⟨b, h⟩ | ⟨key, hkey, rfl, rfl⟩)
    · refine ⟨b, ?_⟩
      split_ifs
      · rfl
      · exact h
    · exact ⟨key.bucket, by rw [hkey, if_pos rfl]; rfl⟩

variable {w : Command} {s t : Drawing} {n : ℕ}

theorem exec_effect {e : Effect} (h : (Command.effect e).exec s = .ok (n, t)) : e.exec s.world = .ok (n, t.world) := by
  rw [Command.exec] at h
  rcases he : e.exec s.world with err | ⟨m, w'⟩
  · rw [he] at h
    cases h
  · rw [he] at h
    obtain ⟨rfl, rfl⟩ := Prod.mk.inj (Except.ok.inj h)
    rfl

/-- the messages of the channel after a command of the handlers -/
theorem exec_hasMessage (hw : w.Posts) (h : w.exec s = .ok (n, t)) :
    HasMessage channelId id t.world.chat ↔
      HasMessage channelId id s.world.chat ∨ sent channelId w = some id ∨ hooked channelId w = some id := by
  cases w with
  | draw =>
    obtain ⟨-, rfl⟩ := Prod.mk.inj (Except.ok.inj h)
    exact (or_iff_left fun h => by rcases h with h | h <;> cases h).symm
  | effect e =>
    have he := exec_effect h
    cases e with
    | sql q => exact hw.elim
    | cql q =>
      rw [exec_cql he, hasMessage_apply]
      refine or_congr_right ?_
      cases q with
      | insertMessage key row =>
        simp only [Cql.target?, Option.some.injEq, exists_eq_left', sent, hooked, reduceCtorEq, or_false]
        split_ifs with hkey <;> simp [hkey]
      | insertWebhookMessage key author content =>
        simp only [Cql.target?, Option.some.injEq, exists_eq_left', sent, hooked, reduceCtorEq, false_or]
        split_ifs with hkey <;> simp [hkey]
      | _ => exact hw.elim
    | _ =>
      rw [exec_chat (by rintro q ⟨⟩) he]
      exact (or_iff_left fun h => by rcases h with h | h <;> cases h).symm

/-- the row of the channel after a command of the handlers -/
theorem exec_channelRow (hw : w.Posts) (h : w.exec s = .ok (n, t)) :
    channelRow? channelId t.world = (channelRow? channelId s.world).map fun row =>
      match updated channelId w with
      | some id => { row with lastMessageId := some id }
      | none => row := by
  have hid : ∀ o : Option Channel, o = o.map fun row => row := fun o => Option.map_id_fun'.symm ▸ rfl
  cases w with
  | draw =>
    obtain ⟨-, rfl⟩ := Prod.mk.inj (Except.ok.inj h)
    exact hid _
  | effect e =>
    have he := exec_effect h
    cases e with
    | sql q => exact hw.elim
    | setLastMessage id channel =>
      obtain ⟨-, hworld⟩ := Prod.mk.inj (Except.ok.inj he)
      rw [← hworld]
      refine (Table.find?_updateWhere (t := s.world.pg.channels) (p := fun c => c.id = channel)
        (f := fun c => { c with lastMessageId := some id }) (fun _ => rfl) channelId).trans ?_
      refine Option.map_congr fun row hrow => ?_
      have hkey : row.id = channelId := (Table.find?_key.1 hrow).2
      rw [updated]
      by_cases hchannel : channel = channelId
      · simp [hkey, hchannel]
      · simp [hkey, hchannel, Ne.symm hchannel]
    | _ =>
      obtain ⟨-, hworld⟩ := Prod.mk.inj (Except.ok.inj he)
      rw [← hworld]
      exact hid _

theorem exec_lastMessage (hw : w.Posts) (h : w.exec s = .ok (n, t)) :
    lastMessage? channelId t.world = match updated channelId w with
      | some id => (channelRow? channelId s.world).map fun _ => id
      | none => lastMessage? channelId s.world := by
  rw [lastMessage?, exec_channelRow hw h]
  cases updated channelId w <;> cases hrow : channelRow? channelId s.world <;> simp [lastMessage?, hrow]

/-! ## Runs -/

/-- the row of the channel covers the message -/
def Covered (channelId id : ℤ) (s : Drawing) : Prop := ∃ last ∈ lastMessage? channelId s.world, id ≤ last

/-- the channel is there, and its last message is a message -/
structure LastStored (channelId : ℤ) (s : Drawing) : Prop where
  channel : (channelRow? channelId s.world).isSome
  stored : ∀ last ∈ lastMessage? channelId s.world, HasMessage channelId last s.world.chat

theorem newest_iff {w : World} {k : ℕ} :
    Newest channelId w ↔ LastStored channelId ⟨w, k⟩ ∧ ∀ id, HasMessage channelId id w.chat → Covered channelId id ⟨w, k⟩ := by
  constructor
  · rintro ⟨hchannel, hlargest⟩
    rcases hlast : lastMessage? channelId w with _ | last
    · rw [hlast] at hlargest
      exact ⟨⟨hchannel, fun last h => by rw [hlast] at h; cases h⟩, fun id hid => absurd hid (hlargest id)⟩
    · rw [hlast] at hlargest
      refine ⟨⟨hchannel, fun l h => ?_⟩, fun id hid => ⟨last, hlast, hlargest.2 hid⟩⟩
      obtain rfl : last = l := Option.some.inj (hlast.symm.trans h)
      exact hlargest.1
  · rintro ⟨⟨hchannel, hstored⟩, hcovered⟩
    refine ⟨hchannel, ?_⟩
    rcases hlast : lastMessage? channelId w with _ | last
    · intro id hid
      obtain ⟨l, hl, -⟩ := hcovered id hid
      cases hlast.symm.trans hl
    · refine ⟨hstored last hlast, fun id hid => ?_⟩
      obtain ⟨l, hl, hle⟩ := hcovered id hid
      obtain rfl : last = l := Option.some.inj (hlast.symm.trans hl)
      exact hle

/-- **A command that is allowed covers the message it updates, and uncovers none.** -/
theorem settles_ordered : Calls.Settles Command.Posts (sent channelId) (updated channelId)
    (fun id s => HasMessage channelId id s.world.chat) (Covered channelId) (LastStored channelId) (Ordered channelId)
    Command.exec where
  succeeds w k s hw := by
    cases w with
    | draw => cases hw
    | effect e =>
      cases e with
      | setLastMessage id channel => exact ⟨_, rfl⟩
      | _ => cases hw
  opened hw h hk := (exec_hasMessage hw h).2 (hk.imp_right .inl)
  new {w s n t id} hw hok hs h hk := by
    rcases (exec_hasMessage hw h).1 hk with hk | hk | hk
    · exact .inl hk
    · exact .inr (.inl hk)
    · obtain ⟨last, hlast, hle⟩ := hok.2 id hk
      refine .inr (.inr ⟨last, ?_, hle⟩)
      have hnone : updated channelId w = none := by
        cases w with
        | draw => rfl
        | effect e => cases e <;> first | rfl | cases hk
      rw [exec_lastMessage hw h, hnone]
      exact hlast
  kept {w s n t id} hw hok hs h hk := by
    have hlast : lastMessage? channelId t.world = _ := exec_lastMessage hw h
    rcases hupdated : updated channelId w with _ | id'
    · rw [hupdated] at hlast hk
      obtain ⟨last, hl, hle⟩ := hk.resolve_right nofun
      exact ⟨last, hlast.trans hl, hle⟩
    · rw [hupdated] at hlast hk
      obtain ⟨row, hrow⟩ := Option.isSome_iff_exists.1 hs.channel
      rw [hrow] at hlast
      refine ⟨id', hlast, ?_⟩
      rcases hk with ⟨last, hl, hle⟩ | hk
      · exact hle.trans (hok.1 id' hupdated last hl)
      · exact (Option.some.inj hk).ge
  inv {w s n t} hw hs hmade h := by
    refine ⟨?_, fun last hl => (exec_hasMessage hw h).2 (.inl ?_)⟩
    · rw [exec_channelRow hw h, Option.isSome_map]
      exact hs.channel
    · rw [exec_lastMessage hw h] at hl
      rcases hupdated : updated channelId w with _ | id
      · rw [hupdated] at hl
        exact hs.stored last hl
      · rw [hupdated] at hl
        obtain ⟨row, -, rfl⟩ := Option.map_eq_some_iff.1 hl
        exact hmade id hupdated

/-- postings side by side; `e` is the error of a command that is made to fail -/
def postingStep (hash : String → String) (ids : ℕ → Snowflake) (e : AppError) :
    Calls Posting Drawing Command AppError → Move Posting → Calls Posting Drawing Command AppError :=
  Calls.step (Posting.start hash ids) Command.exec e

def noPostings (w : World) : Calls Posting Drawing Command AppError := ⟨[], w, 0⟩

/-- **If no UPDATE comes late or fails and no webhook has the newest message, the row of the channel is right whenever no
request is in progress.** -/
theorem newest_of_ordered (hash : String → String) (ids : ℕ → Snowflake) (e : AppError) (channelId : ℤ) (w : World)
    (moves : List (Move Posting)) (hw : Newest channelId w)
    (h : Every (postingStep hash ids e) (Calls.Allows (Ordered channelId) (updated channelId)) (noPostings w) moves)
    (hquiet : (Core.run (postingStep hash ids e) (noPostings w) moves).Quiet) :
    Newest channelId (Core.run (postingStep hash ids e) (noPostings w) moves).shared.world := by
  obtain ⟨hstored, hcovered⟩ := (newest_iff (k := 0)).1 hw
  have htidy := run_inv_of_every (I := Calls.Tidy Command.Posts (sent channelId) (updated channelId)
    (fun id s => HasMessage channelId id s.world.chat) (Covered channelId) (LastStored channelId))
    (fun s o ho hs => Calls.tidy_step settles_ordered paired_start hs ho)
    ⟨fun c hc => (List.not_mem_nil hc).elim, fun id hid => .inl (hcovered id hid), hstored⟩ h
  exact (newest_iff (k := _)).2 ⟨htidy.inv, fun id hid => htidy.done_of_quiet hquiet hid⟩

/-- a server with a webhook in channel 101, before any message -/
def hookedUp : World := noMessages { joined with webhooks := ⟨[⟨50, 100, 101, "hook", "token"⟩], by decide⟩ }

/-- the ids 1, 2, 3 and so on -/
def counted (n : ℕ) : Snowflake := ⟨UInt64.ofNat (n + 1)⟩

def post : List (Move Posting) → Calls Posting Drawing Command AppError :=
  Core.run (postingStep (fun token => token) counted (.notFound "")) (noPostings hookedUp)

def greeting : Posting := .sendMessage 1 101 hello ⟨10⟩

/-- one message after the other -/
def inTurn : List (Move Posting) :=
  .issue greeting :: List.replicate 13 (.advance 0) ++ .issue greeting :: List.replicate 13 (.advance 1)

/-- the first stores its message and waits for the second -/
def late : List (Move Posting) :=
  .issue greeting :: List.replicate 9 (.advance 0) ++ .issue greeting :: List.replicate 13 (.advance 1) ++
    List.replicate 4 (.advance 0)

def webhookOnly : List (Move Posting) := .issue (.executeWebhook 50 "token" (some "hi")) :: List.replicate 4 (.advance 0)

theorem newest_hookedUp : Newest 101 hookedUp := ⟨by decide, fun id ⟨b, h⟩ => by cases h⟩

theorem newest_inTurn : Newest 101 (post inTurn).shared.world :=
  newest_of_ordered (fun token => token) counted (.notFound "") 101 hookedUp inTurn newest_hookedUp (by decide) (by decide)

/-- an UPDATE that comes late, and a message that no UPDATE follows -/
theorem overtaken :
    ((post late).Quiet ∧ ¬ Newest 101 (post late).shared.world) ∧
      (post webhookOnly).Quiet ∧ ¬ Newest 101 (post webhookOnly).shared.world := by
  refine ⟨⟨by decide, fun h => ?_⟩, by decide, fun h => ?_⟩
  · have hlast : lastMessage? 101 (post late).shared.world = some 1 := by decide
    have hlargest := h.largest
    rw [hlast] at hlargest
    exact absurd (hlargest.2 (show HasMessage 101 2 _ from ⟨0, by decide⟩)) (by decide)
  · have hlast : lastMessage? 101 (post webhookOnly).shared.world = none := by decide
    have hlargest := h.largest
    rw [hlast] at hlargest
    exact hlargest 1 ⟨0, by decide⟩

end Lumiere.Routes
