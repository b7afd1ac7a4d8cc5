/-
The handlers that write to a channel: `send_message`, `edit_message`, `delete_message`, `bulk_delete`, `pin_message` and
`unpin_message` (`routes/messages.rs`), `add_reaction` and `remove_own_reaction` (`routes/reactions.rs`) and
`execute_webhook` (`routes/webhooks.rs`).

What they draw from outside (the id of a new message, the clock, the hash of a webhook token, which soft deletes of a
bulk fail) is an argument. A ScyllaDB statement that fails ends every handler but `bulk_delete` before it publishes.
-/
import Lumiere.Routes.ChannelAccess
import Lumiere.Routes.Messages
import Lumiere.Routes.World

namespace Lumiere.Routes

open Lumiere.Core Lumiere.Core.Prog Lumiere.Models Lumiere.Db

/-! ## Mentions -/

def isDigit (c : Char) : Bool := '0' ≤ c && c ≤ '9'

/-- the digits of `{opener}(\d+)>` at the front of the text -/
def capture (opener cs : List Char) : Option String :=
  if opener.isPrefixOf cs then
    let rest := cs.drop opener.length
    let ds := rest.takeWhile isDigit
    if ds ≠ [] ∧ (rest.drop ds.length).head? = some '>' then some (String.ofList ds) else none
  else none

/-- a match holds no `<` after its first character, so every position can be tried -/
def captures (opener : String) (content : String) : List String := content.toList.tails.filterMap (capture opener.toList)

/-- the users and the roles that a text mentions, and whether it mentions everyone -/
def parseMentions (content : String) : List ℤ × List ℤ × Bool :=
  ((captures "<@" content).filterMap Str.parseI64, (captures "<@&" content).filterMap Str.parseI64,
    decide ("@everyone".toList <:+: content.toList ∨ "@here".toList <:+: content.toList))

example : parseMentions "hi <@12> <@&3><@x> @here" = ([12], [3], true) := by decide

/-- `serde_json::to_string` of a list of ids -/
def jsonIds (ids : List ℤ) : String := "[" ++ String.intercalate "," (ids.map fun id => toString id) ++ "]"

/-! ## Sending -/

structure SendMessageRequest where
  content : Option String
  tts : Option Bool
  embeds : Option Json
  /-- the id of the message that is replied to -/
  messageReference : Option ℤ
  attachments : Option Json
deriving DecidableEq, Repr

namespace SendMessageRequest

variable (body : SendMessageRequest)

def hasContent : Bool := body.content.any fun c => c ≠ ""

def hasEmbeds : Bool := body.embeds.any fun e => !e.isNull

def hasAttachments : Bool := body.attachments.any fun a => !a.isNull

end SendMessageRequest

/-- `EXISTS slowmode:{channel}:{user}` -/
def World.slowed (w : World) (channelId userId : ℤ) (now : DateTime) : Bool :=
  (w.slowmode (channelId, userId)).any fun expires => now.millis < expires.millis

def channelRateLimit (pg : Postgres) (channelId : ℤ) : ℤ :=
  ((pg.channels.find? fun c => c.id = channelId).map Channel.rateLimit).getD 0

/-- `communication_disabled_until` of the member, if set -/
def timedOutUntil (pg : Postgres) (serverId userId : ℤ) : Option DateTime :=
  (pg.serverMembers.find? fun m => m.serverId = serverId && m.userId = userId).bind
    ServerMember.communicationDisabledUntil

def mentionsEveryone (auth : ℤ) (serverId : Option ℤ) (detected : Bool) (pg : Postgres) : Bool :=
  detected && match serverId with
    | some sid => (requirePermissions sid auth .mentionEveryone).succeeds statement pg
    | none => true

def sendMessage (auth channelId : ℤ) (body : SendMessageRequest) (messageId : Snowflake) (now : DateTime) :
    Route MessageResponse := do
  let serverId ← onPg (checkChannelPermission channelId auth .sendMessages)
  failIf (!body.hasContent && !body.hasEmbeds && !body.hasAttachments)
    (.badRequest "Message must have content, embeds, or attachments")
  failIf (body.content.any fun c => 4000 < c.length) (.badRequest "Content must be 4000 characters or less")
  let rateLimit ← select fun w => channelRateLimit w.pg channelId
  let slowed ← select fun w => w.slowed channelId auth now
  failIf (0 < rateLimit ∧ slowed) (.rateLimited rateLimit.toNat)
  let timedOut ← select fun w => serverId.bind fun sid => timedOutUntil w.pg sid auth
  failIf (timedOut.any fun u => now.millis < u.millis) (.forbidden "You are timed out in this server")
  let (mentions, mentionRoles, detected) := (body.content.map parseMentions).getD ([], [], false)
  let mentionEveryone ← select fun w => mentionsEveryone auth serverId detected w.pg
  let messageType : ℤ := if body.messageReference.isSome then 19 else 0
  execute (.cql (.insertMessage ⟨channelId, bucketFromSnowflake messageId, messageId.toI64⟩
    { authorId := auth, content := body.content, type := messageType, mentionEveryone,
      mentions := some (jsonIds mentions), mentionRoles := some (jsonIds mentionRoles),
      embeds := body.embeds.map Json.text, attachments := body.attachments.map Json.text,
      referenceId := body.messageReference }))
  execute (.setLastMessage messageId.toI64 channelId)
  when (0 < rateLimit) (execute (.setSlowmode channelId auth rateLimit now))
  let response : MessageResponse :=
    { id := messageId.toI64, channelId, authorId := auth, content := body.content, timestamp := messageId.createdAt,
      editedTimestamp := none, messageType, flags := 0, pinned := false, mentionEveryone, mentions, mentionRoles,
      embeds := body.embeds, attachments := body.attachments, referenceId := body.messageReference }
  let event : Event := .messageCreate channelId serverId response
  execute (.publish ⟨channelMessages channelId, event⟩)
  serverId.forM fun sid => execute (.publish ⟨serverEvents sid, event⟩)
  execute (.publishDurable ⟨persistMessages channelId, event⟩)
  pure response

/-! ## One message -/

def messageKey (channelId messageId : ℤ) : MessageKey :=
  ⟨channelId, bucketFromSnowflake (.ofI64 messageId), messageId⟩

/-- the driver's error for a null where the code reads a value -/
def unexpectedNull : ScyllaError := ⟨"unexpected null"⟩

def messageAuthor (channelId messageId : ℤ) : Route ℤ := do
  let row ← select fun w => w.chat.message? (messageKey channelId messageId)
  let row ← orFail (.notFound "Message not found") row
  orFail (scyllaErr unexpectedNull) row.authorId

def getMessage (auth channelId messageId : ℤ) : Route MsgRow := do
  let _ ← onPg (checkChannelPermission channelId auth .readMessageHistory)
  let row ← select fun w => (w.chat.message? (messageKey channelId messageId)).bind (shown channelId)
  orFail (.notFound "Message not found") row

structure EditMessageRequest where
  content : Option String
  embeds : Option Json
  flags : Option ℤ
deriving DecidableEq, Repr

/-- what `edit_message` asks of somebody who is not the author -/
def refuseEdit (auth : ℤ) (serverId : Option ℤ) (body : EditMessageRequest) : Route Unit := do
  failIf (body.content.isSome || body.embeds.isSome) (.forbidden "Can only edit your own messages")
  match serverId with
  | some sid => onPg (requirePermissions sid auth .manageMessages)
  | none => fail (.forbidden "Cannot edit others' messages in DMs")

def editMessage (auth channelId messageId : ℤ) (body : EditMessageRequest) (now : DateTime) : Route MsgRow := do
  let serverId ← onPg (checkChannelPermission channelId auth .sendMessages)
  let authorId ← messageAuthor channelId messageId
  when (authorId ≠ auth) (refuseEdit auth serverId body)
  body.content.forM fun content => execute (.cql (.updateContent content now.millis (messageKey channelId messageId)))
  body.embeds.forM fun embeds =>
    execute (.cql (.updateEmbeds embeds.text now.millis (messageKey channelId messageId)))
  execute (.publish ⟨channelMessages channelId, .messageUpdate channelId messageId⟩)
  execute (.publishDurable ⟨persistMessages channelId, .messageUpdate channelId messageId⟩)
  getMessage auth channelId messageId

def deleteMessage (auth channelId messageId : ℤ) : Route Unit := do
  let _ ← onPg (checkChannelPermission channelId auth .viewChannel)
  let authorId ← messageAuthor channelId messageId
  when (authorId ≠ auth) do
    let _ ← onPg (checkChannelPermission channelId auth .manageMessages)
  execute (.cql (.softDelete (messageKey channelId messageId)))
  execute (.publish ⟨channelMessages channelId, .messageDelete channelId messageId⟩)
  execute (.publishDurable ⟨persistMessages channelId, .messageDelete channelId messageId⟩)

/-- `failed i`: the soft delete of the i-th id fails, which is only logged -/
def bulkDelete (auth channelId : ℤ) (messages : List ℤ) (failed : ℕ → Bool) : Route Unit := do
  let _ ← onPg (checkChannelPermission channelId auth .manageMessages)
  failIf (messages.length < 2 || 100 < messages.length) (.badRequest "Must provide 2-100 message IDs")
  messages.zipIdx.forM fun (id, i) => when (!failed i) (execute (.cql (.softDelete (messageKey channelId id))))
  let errors := (messages.zipIdx.filter fun p => failed p.2).map Prod.fst
  let deletedIds := messages.filter fun id => id ∉ errors
  execute (.publish ⟨channelMessages channelId, .messageDeleteBulk channelId deletedIds⟩)
  execute (.publishDurable ⟨persistMessages channelId, .messageDeleteBulk channelId deletedIds⟩)

/-! ## Pins -/

def pinMessage (auth channelId messageId : ℤ) (now : DateTime) : Route Unit := do
  let _ ← onPg (checkChannelPermission channelId auth .manageMessages)
  let count ← select fun w => w.chat.pins.count fun p => p.channelId = channelId
  failIf (50 ≤ count) (.badRequest "Channel has reached max pins (50)")
  let live ← select fun w =>
    ((w.chat.message? (messageKey channelId messageId)).bind MessageRow.deleted).any fun deleted => !deleted
  failIf (!live) (.notFound "Message not found")
  execute (.cql (.setPinned (messageKey channelId messageId)))
  execute (.cql (.insertPin ⟨channelId, messageId, auth, now.millis⟩))
  execute (.publish ⟨channelMessages channelId, .channelPinsUpdate channelId⟩)

def unpinMessage (auth channelId messageId : ℤ) : Route Unit := do
  let _ ← onPg (checkChannelPermission channelId auth .manageMessages)
  execute (.cql (.unsetPinned (messageKey channelId messageId)))
  execute (.cql (.deletePin channelId messageId))
  execute (.publish ⟨channelMessages channelId, .channelPinsUpdate channelId⟩)

/-! ## Reactions -/

/-- a length in bytes -/
def refuseEmoji (emoji : String) : Route Unit :=
  failIf (emoji.utf8ByteSize = 0 || 100 < emoji.utf8ByteSize) (.badRequest "Invalid emoji")

def addReaction (auth channelId messageId : ℤ) (emoji : String) (now : DateTime) : Route Unit := do
  refuseEmoji emoji
  let _ ← onPg (checkChannelPermission channelId auth .addReactions)
  execute (.cql (.insertReaction ⟨channelId, messageId, emoji, auth, now.millis⟩))
  execute (.publish ⟨channelMessages channelId, .messageReactionAdd channelId messageId auth emoji⟩)

def removeOwnReaction (auth channelId messageId : ℤ) (emoji : String) : Route Unit := do
  refuseEmoji emoji
  let _ ← onPg (checkChannelPermission channelId auth .viewChannel)
  execute (.cql (.deleteReaction channelId messageId emoji auth))
  execute (.publish ⟨channelMessages channelId, .messageReactionRemove channelId messageId auth emoji⟩)

/-! ## Webhooks -/

/-- the webhook with the id and the token -/
def findWebhook (w : World) (webhookId : ℤ) (tokenHash : String) : Option Webhook :=
  w.webhooks.find? fun h => h.id = webhookId && h.token = tokenHash

/-- `content` is the text under that key of the body, if it is one; `hash` is SHA-256 in hexadecimal -/
def executeWebhook (hash : String → String) (webhookId : ℤ) (token : String) (content : Option String)
    (messageId : Snowflake) : Route Unit := do
  failIf (content.getD "" = "") (.badRequest "Content must not be empty")
  failIf (4000 < (content.getD "").length) (.badRequest "Content must be 4000 characters or less")
  let row ← select fun w => findWebhook w webhookId (hash token)
  let webhook ← orFail (.unauthorized "Invalid webhook token") row
  execute (.cql (.insertWebhookMessage ⟨webhook.channelId, bucketFromSnowflake messageId, messageId.toI64⟩ webhookId
    (some (content.getD ""))))
  execute (.publish ⟨channelMessages webhook.channelId,
    .webhookMessageCreate webhook.channelId webhookId messageId.toI64 (content.getD "") webhook.name⟩)

/-! ## A server with a member -/

/-- user 2 is a member of server 100 of user 1 -/
def joinedTrace : List Op :=
  [.request (.createServer 1 ⟨"first", none, none⟩ 100 101 102 ⟨0⟩),
   .request (.createInvite 1 101 ⟨none, none, none⟩ "join" ⟨0⟩),
   .request (.useInvite 2 "join" ⟨0⟩)]

def joined : World where
  pg := Core.run (step fun _ _ => .ok true) (noServers adaAndBob) joinedTrace
  webhooks := .empty
  chat := .empty
  slowmode := fun _ => none
  published := []
  persisted := []

def hello : SendMessageRequest := ⟨some "hello", none, none, none, none⟩

end Lumiere.Routes
