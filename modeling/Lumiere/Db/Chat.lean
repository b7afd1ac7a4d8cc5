/-
Messages, pins and reactions in ScyllaDB: the prepared writes of `lumiere-db/src/lib.rs` and the reads of single rows. In
CQL an INSERT and an UPDATE both set columns of the row with the given key, and neither fails for what is stored.
-/
import Lumiere.Core.Table
import Lumiere.Db.Messages

namespace Lumiere.Db

open Lumiere.Core

structure Pin where
  channelId : ℤ
  messageId : ℤ
  pinnedBy : ℤ
  pinnedAt : ℤ
deriving DecidableEq, Repr

structure Reaction where
  channelId : ℤ
  messageId : ℤ
  emoji : String
  userId : ℤ
  createdAt : ℤ
deriving DecidableEq, Repr

structure Chat where
  messages : Messages
  pins : Table fun p : Pin => (p.channelId, p.messageId)
  reactions : Table fun r : Reaction => (r.channelId, r.messageId, r.emoji, r.userId)

/-- nothing has been sent yet -/
def Chat.empty : Chat := ⟨⟨fun _ _ => [], fun _ _ => List.Pairwise.nil⟩, .empty, .empty⟩

/-- where a message is stored -/
structure MessageKey where
  channelId : ℤ
  bucket : ℤ
  messageId : ℤ
deriving DecidableEq, Repr

/-- the values that `insert_message` binds -/
structure NewMessage where
  authorId : ℤ
  content : Option String
  type : ℤ
  mentionEveryone : Bool
  mentions : Option String
  mentionRoles : Option String
  embeds : Option String
  attachments : Option String
  referenceId : Option ℤ
deriving DecidableEq, Repr

inductive Cql where
  | insertMessage (key : MessageKey) (row : NewMessage)
  | insertWebhookMessage (key : MessageKey) (authorId : ℤ) (content : Option String)
  | updateContent (content : String) (editedAt : ℤ) (key : MessageKey)
  | updateEmbeds (embeds : String) (editedAt : ℤ) (key : MessageKey)
  | softDelete (key : MessageKey)
  | setPinned (key : MessageKey)
  | insertPin (row : Pin)
  | unsetPinned (key : MessageKey)
  | deletePin (channelId messageId : ℤ)
  | insertReaction (row : Reaction)
  | deleteReaction (channelId messageId : ℤ) (emoji : String) (userId : ℤ)
deriving DecidableEq, Repr

namespace Chat

variable (c : Chat)

def message? (key : MessageKey) : Option MessageRow := c.messages.find? key.channelId key.bucket key.messageId

/-- the row of a message, blank if there is none -/
def row (key : MessageKey) : MessageRow := (c.message? key).getD (.blank key.messageId)

/-- columns of one message are set -/
def setMessage (key : MessageKey) (f : MessageRow → MessageRow) (hf : ∀ r, (f r).messageId = r.messageId) : Chat :=
  { c with messages := c.messages.upsert key.channelId key.bucket key.messageId f hf }

end Chat

def Cql.apply (c : Chat) : Cql → Chat
  | .insertMessage key row => c.setMessage key (fun r => { r with
      authorId := some row.authorId, content := row.content, type := some row.type, flags := some 0,
      pinned := some false, mentionEveryone := some row.mentionEveryone, mentions := row.mentions,
      mentionRoles := row.mentionRoles, embeds := row.embeds, attachments := row.attachments,
      referenceId := row.referenceId, deleted := some false }) fun _ => rfl
  | .insertWebhookMessage key authorId content => c.setMessage key (fun r => { r with
      authorId := some authorId, content := content, type := some 0, flags := some 0, pinned := some false,
      mentionEveryone := some false, deleted := some false }) fun _ => rfl
  | .updateContent content editedAt key => c.setMessage key (fun r => { r with
      content := some content, editedAt := some editedAt }) fun _ => rfl
  | .updateEmbeds embeds editedAt key => c.setMessage key (fun r => { r with
      embeds := some embeds, editedAt := some editedAt }) fun _ => rfl
  | .softDelete key => c.setMessage key (fun r => { r with deleted := some true }) fun _ => rfl
  | .setPinned key => c.setMessage key (fun r => { r with pinned := some true }) fun _ => rfl
  | .insertPin row => { c with
      pins := (c.pins.deleteWhere fun p => p.channelId = row.channelId && p.messageId = row.messageId).insertIgnore row }
  | .unsetPinned key => c.setMessage key (fun r => { r with pinned := some false }) fun _ => rfl
  | .deletePin channelId messageId => { c with
      pins := c.pins.deleteWhere fun p => p.channelId = channelId && p.messageId = messageId }
  | .insertReaction row => { c with
      reactions := (c.reactions.deleteWhere fun r => r.channelId = row.channelId && r.messageId = row.messageId &&
        r.emoji = row.emoji && r.userId = row.userId).insertIgnore row }
  | .deleteReaction channelId messageId emoji userId => { c with
      reactions := c.reactions.deleteWhere fun r => r.channelId = channelId && r.messageId = messageId &&
        r.emoji = emoji && r.userId = userId }

/-! ## What a statement does to messages -/

/-- the message whose columns the statement sets -/
def Cql.target? : Cql → Option MessageKey
  | .insertMessage key _ | .insertWebhookMessage key _ _ | .updateContent _ _ key | .updateEmbeds _ _ key | .softDelete key
  | .setPinned key | .unsetPinned key => some key
  | .insertPin _ | .deletePin .. | .insertReaction _ | .deleteReaction .. => none

/-- the columns that it sets -/
def Cql.columns (r : MessageRow) : Cql → MessageRow
  | .insertMessage _ row => { r with
      authorId := some row.authorId, content := row.content, type := some row.type, flags := some 0,
      pinned := some false, mentionEveryone := some row.mentionEveryone, mentions := row.mentions,
      mentionRoles := row.mentionRoles, embeds := row.embeds, attachments := row.attachments,
      referenceId := row.referenceId, deleted := some false }
  | .insertWebhookMessage _ authorId content => { r with
      authorId := some authorId, content := content, type := some 0, flags := some 0, pinned := some false,
      mentionEveryone := some false, deleted := some false }
  | .updateContent content editedAt _ => { r with content := some content, editedAt := some editedAt }
  | .updateEmbeds embeds editedAt _ => { r with embeds := some embeds, editedAt := some editedAt }
  | .softDelete _ => { r with deleted := some true }
  | .setPinned _ => { r with pinned := some true }
  | .unsetPinned _ => { r with pinned := some false }
  | .insertPin _ | .deletePin .. | .insertReaction _ | .deleteReaction .. => r

theorem Chat.message?_setMessage {c : Chat} {key : MessageKey} {f : MessageRow → MessageRow}
    (hf : ∀ r, (f r).messageId = r.messageId) (k : MessageKey) :
    (c.setMessage key f hf).message? k =
      if k = key then some (f ((c.message? key).getD (.blank key.messageId))) else c.message? k := by
  obtain ⟨channelId, bucket, messageId⟩ := key
  obtain ⟨c', b', id'⟩ := k
  refine (Messages.find?_upsert hf c' b' id').trans ?_
  simp only [MessageKey.mk.injEq]
  rfl

/-- **A statement sets columns of its own message and leaves the others alone.** -/
theorem Cql.message?_apply (w : Cql) (c : Chat) (k : MessageKey) :
    (w.apply c).message? k =
      if w.target? = some k then some (w.columns (c.row k)) else c.message? k := by
  have hset : ∀ (key : MessageKey) (f : MessageRow → MessageRow) (hf : ∀ r, (f r).messageId = r.messageId),
      (c.setMessage key f hf).message? k =
        if some key = some k then some (f (c.row k)) else c.message? k := by
    intro key f hf
    rw [Chat.message?_setMessage]
    by_cases hk : k = key
    · subst hk
      rw [if_pos rfl, if_pos rfl, Chat.row]
    · rw [if_neg hk, if_neg fun h => hk (Option.some.inj h).symm]
  cases w with
  | insertPin row => rfl
  | deletePin channelId messageId => rfl
  | insertReaction row => rfl
  | deleteReaction channelId messageId emoji userId => rfl
  | _ => exact hset _ _ _

theorem Chat.row_of_some {c : Chat} {key : MessageKey} {r : MessageRow} (h : c.message? key = some r) : c.row key = r := by
  rw [row, h]
  rfl

theorem Chat.row_of_none {c : Chat} {key : MessageKey} (h : c.message? key = none) :
    c.row key = .blank key.messageId := by
  rw [row, h]
  rfl

theorem Cql.row_apply (w : Cql) (c : Chat) (k : MessageKey) :
    (w.apply c).row k = if w.target? = some k then w.columns (c.row k) else c.row k := by
  rw [Chat.row, message?_apply]
  split_ifs <;> rfl

end Lumiere.Db
