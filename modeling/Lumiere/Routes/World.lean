/-
What the handlers of `routes/messages.rs`, `routes/reactions.rs` and `execute_webhook` read and write: PostgreSQL,
ScyllaDB, the slowmode keys of Redis and the two logs of NATS. A failed publication is only logged by the handlers, so
publishing does not fail here; a JSON value is its text.

- `run_onPg`: a handler over PostgreSQL alone runs as it did, and leaves the rest as it was.
-/
import Lumiere.Db.Chat
import Lumiere.Routes.Access

namespace Lumiere.Routes

open Lumiere.Core Lumiere.Core.Prog Lumiere.Models Lumiere.Db

/-- a `serde_json::Value`, as its text -/
structure Json where
  text : String
deriving DecidableEq, Repr

def Json.isNull (v : Json) : Bool := v.text = "null"

structure MessageResponse where
  id : ℤ
  channelId : ℤ
  authorId : ℤ
  content : Option String
  timestamp : DateTime
  editedTimestamp : Option DateTime
  messageType : ℤ
  flags : ℤ
  pinned : Bool
  mentionEveryone : Bool
  mentions : List ℤ
  mentionRoles : List ℤ
  embeds : Option Json
  attachments : Option Json
  referenceId : Option ℤ
deriving DecidableEq, Repr

/-! ## Events -/

inductive Event where
  | messageCreate (channelId : ℤ) (serverId : Option ℤ) (message : MessageResponse)
  | webhookMessageCreate (channelId webhookId messageId : ℤ) (content webhookName : String)
  | messageUpdate (channelId messageId : ℤ)
  | messageDelete (channelId messageId : ℤ)
  | messageDeleteBulk (channelId : ℤ) (ids : List ℤ)
  | channelPinsUpdate (channelId : ℤ)
  | messageReactionAdd (channelId messageId userId : ℤ) (emoji : String)
  | messageReactionRemove (channelId messageId userId : ℤ) (emoji : String)
  | guildMemberRemove (serverId userId : ℤ)
  | guildBanAdd (serverId userId : ℤ)
  | guildDelete (serverId : ℤ)
deriving DecidableEq, Repr

/-- the `type` field -/
def Event.type : Event → String
  | .messageCreate .. | .webhookMessageCreate .. => "MESSAGE_CREATE"
  | .messageUpdate .. => "MESSAGE_UPDATE"
  | .messageDelete .. => "MESSAGE_DELETE"
  | .messageDeleteBulk .. => "MESSAGE_DELETE_BULK"
  | .channelPinsUpdate _ => "CHANNEL_PINS_UPDATE"
  | .messageReactionAdd .. => "MESSAGE_REACTION_ADD"
  | .messageReactionRemove .. => "MESSAGE_REACTION_REMOVE"
  | .guildMemberRemove .. => "GUILD_MEMBER_REMOVE"
  | .guildBanAdd .. => "GUILD_BAN_ADD"
  | .guildDelete _ => "GUILD_DELETE"

/-- a NATS subject, as its tokens -/
abbrev Subject := List String

structure Publication where
  subject : Subject
  event : Event
deriving DecidableEq, Repr

/-- `channel.{}.messages` -/
def channelMessages (channelId : ℤ) : Subject := ["channel", toString channelId, "messages"]

/-- `server.{}.events` -/
def serverEvents (serverId : ℤ) : Subject := ["server", toString serverId, "events"]

/-- `user.{}.guilds` -/
def userGuilds (userId : ℤ) : Subject := ["user", toString userId, "guilds"]

/-- `persist.messages.{}` -/
def persistMessages (channelId : ℤ) : Subject := ["persist", "messages", toString channelId]

/-! ## The stores -/

structure Webhook where
  id : ℤ
  serverId : ℤ
  channelId : ℤ
  name : String
  token : String
deriving DecidableEq, Repr

structure World where
  pg : Postgres
  webhooks : Table Webhook.id
  chat : Chat
  /-- `slowmode:{channel}:{user}`: the time at which the key expires -/
  slowmode : ℤ × ℤ → Option DateTime
  /-- NATS core, oldest first -/
  published : List Publication
  /-- JetStream, oldest first -/
  persisted : List Publication

inductive Effect where
  | sql (w : Sql)
  /-- `UPDATE channels SET last_message_id = $1 WHERE id = $2` -/
  | setLastMessage (messageId channelId : ℤ)
  | cql (w : Cql)
  /-- `SET slowmode:{channel}:{user} 1 EX seconds` -/
  | setSlowmode (channelId userId seconds : ℤ) (now : DateTime)
  | publish (p : Publication)
  | publishDurable (p : Publication)
deriving DecidableEq, Repr

def Effect.exec : Effect → World → Except AppError (ℕ × World)
  | .sql w, s => (statement w s.pg).map fun r => (r.1, { s with pg := r.2 })
  | .setLastMessage messageId channelId, s =>
    .ok (s.pg.channels.count fun c => c.id = channelId, { s with
      pg := { s.pg with
        channels := s.pg.channels.updateWhere (fun c => c.id = channelId)
          (fun c => { c with lastMessageId := some messageId }) fun _ => rfl } })
  | .cql w, s => .ok (0, { s with chat := w.apply s.chat })
  | .setSlowmode channelId userId seconds now, s =>
    .ok (0, { s with
      slowmode := Function.update s.slowmode (channelId, userId) (some ⟨now.millis + 1000 * seconds⟩) })
  | .publish p, s => .ok (0, { s with published := s.published ++ [p] })
  | .publishDurable p, s => .ok (0, { s with persisted := s.persisted ++ [p] })

abbrev Route := Prog World Effect AppError

def onPg {α : Type} (h : Handler α) : Route α := h.lift World.pg Effect.sql

theorem run_onPg {α : Type} (h : Handler α) (w : World) :
    (onPg h).run Effect.exec w = ((h.run statement w.pg).1, { w with pg := (h.run statement w.pg).2 }) :=
  run_lift (u := fun w pg => { w with pg }) (fun _ _ => rfl) (fun _ => rfl) (fun _ _ _ => rfl) (fun _ _ => rfl) h w

theorem run_onPg_readOnly {α : Type} {h : Handler α} (hr : h.ReadOnly) (w : World) :
    (onPg h).run Effect.exec w = ((h.run statement w.pg).1, w) := by
  rw [run_onPg, run_readOnly hr]

/-- a route with its response dropped -/
def answer {α : Type} (p : Route α) : Route Unit := do
  let _ ← p
  pure ()

theorem run_answer {α : Type} (p : Route α) (w : World) : ((answer p).run Effect.exec w).2 = (p.run Effect.exec w).2 := by
  rw [answer, run_bind]
  rcases p.run Effect.exec w with ⟨e | a, w'⟩ <;> rfl

theorem succeeds_answer {α : Type} (p : Route α) (w : World) :
    (answer p).succeeds Effect.exec w = p.succeeds Effect.exec w := by
  rw [Prog.succeeds, Prog.succeeds, answer, run_bind]
  rcases p.run Effect.exec w with ⟨e | a, w'⟩ <;> rfl

theorem succeeds_onPg {α : Type} (h : Handler α) (w : World) :
    (onPg h).succeeds Effect.exec w = h.succeeds statement w.pg := by
  rw [Prog.succeeds, run_onPg, Prog.succeeds]

end Lumiere.Routes
