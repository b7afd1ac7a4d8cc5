/-
Rows by their columns' names (`migrations/postgres/20260329000001_initial.sql`), for the updates whose SET list is put
together at run time. A row is what each of its columns holds; the rows of the typed tables are read as such rows.
-/
import Lumiere.Core.Placeholders
import Lumiere.Db.Accounts

namespace Lumiere.Db

open Lumiere.Core Lumiere.Models

inductive Cell where
  | null
  | bool (b : Bool)
  | int (n : ℤ)
  | text (s : String)
  | texts (ss : List String)
  | time (t : DateTime)
  | json (v : Value)

/-- a column that may be null -/
def Cell.nullable {α : Type} (cell : α → Cell) (value : Option α) : Cell := value.elim .null cell

@[simp] theorem Cell.nullable_none {α : Type} (cell : α → Cell) : Cell.nullable cell none = .null := rfl

@[simp] theorem Cell.nullable_some {α : Type} (cell : α → Cell) (a : α) : Cell.nullable cell (some a) = cell a := rfl

/-- `=`, between ids -/
def Cell.eq : Cell → Cell → Bool
  | .int a, .int b => a = b
  | _, _ => false

def Cell.isNull : Cell → Bool
  | .null => true
  | _ => false

abbrev Row := String → Cell

/-- a value assigned to a column: texts are cut or refused where the column has a length -/
def assign (length : String → Option ℕ) (column : String) (value : Cell) : Except DbError Cell :=
  match value, length column with
  | .text s, some n => (varchar n s).map .text
  | value, _ => .ok value

/-- the trigger `update_updated_at` -/
def updateUpdatedAt (now : DateTime) (row : Row) (column : String) : Cell :=
  if column = "updated_at" then .time now else row column

/-- a table whose text columns have these lengths -/
def tableSchema (length : String → Option ℕ) (beforeUpdate : Row → Row) (check : List Row → Except DbError Unit) :
    Schema String Cell DbError where
  assign := assign length
  eq := Cell.eq
  isNull := Cell.isNull
  beforeUpdate
  check

theorem assign_text {length : String → Option ℕ} {column : String} {n : ℕ} (h : length column = some n) (s : String) :
    assign length column (.text s) = (varchar n s).map .text := by
  simp only [assign, h]

theorem assign_nullableText {length : String → Option ℕ} {column : String} {n : ℕ} (h : length column = some n)
    (s : Option String) :
    assign length column (.nullable .text s) = (varchar? n s).map (.nullable .text) := by
  cases s with
  | none => rfl
  | some s =>
    rw [Cell.nullable_some, assign_text h, varchar?]
    rcases varchar n s with e | s' <;> rfl

/-! ## Lengths -/

def usersLength : String → Option ℕ
  | "username" => some 32
  | "email" | "password_hash" | "avatar" | "banner" => some 255
  | "bio" => some 190
  | "locale" => some 10
  | _ => none

def userSettingsLength : String → Option ℕ
  | "theme" | "message_display" | "locale" | "status" => some 10
  | _ => none

def serversLength : String → Option ℕ
  | "name" => some 100
  | "icon" | "banner" => some 255
  | "description" => some 1000
  | "region" => some 32
  | _ => none

def rolesLength : String → Option ℕ
  | "name" => some 100
  | "icon" => some 255
  | _ => none

def channelsLength : String → Option ℕ
  | "name" => some 100
  | "topic" => some 1024
  | "icon" => some 255
  | _ => none

def autoModRulesLength : String → Option ℕ
  | "name" => some 100
  | _ => none

/-! ## Rows of the typed tables -/

def Account.cells (u : Account) : Row
  | "id" => .int u.id
  | "username" => .text u.username
  | "discriminator" => .int u.discriminator
  | "email" => .text u.email
  | "password_hash" => .text u.passwordHash
  | "avatar" => .nullable .text u.avatar
  | "banner" => .nullable .text u.banner
  | "bio" => .nullable .text u.bio
  | "locale" => .text u.locale
  | "flags" => .int u.flags
  | "premium_type" => .int u.premiumType
  | "is_bot" => .bool u.isBot
  | "is_system" => .bool u.isSystem
  | "deleted_at" => .nullable .time u.deletedAt
  | "created_at" => .time u.createdAt
  | _ => .null

def UserSettings.cells (s : UserSettings) : Row
  | "user_id" => .int s.userId
  | "theme" => .text s.theme
  | "message_display" => .text s.messageDisplay
  | "locale" => .text s.locale
  | "show_current_game" => .bool s.showCurrentGame
  | "inline_attachment_media" => .bool s.inlineAttachmentMedia
  | "inline_embed_media" => .bool s.inlineEmbedMedia
  | "render_embeds" => .bool s.renderEmbeds
  | "render_reactions" => .bool s.renderReactions
  | "animate_emoji" => .bool s.animateEmoji
  | "enable_tts" => .bool s.enableTts
  | "status" => .text s.status
  | "custom_status" => .nullable .json s.customStatus
  | "dm_notifications" => .bool s.dmNotifications
  | "friend_request_notifications" => .bool s.friendRequestNotifications
  | _ => .null

def Server.cells (s : Server) : Row
  | "id" => .int s.id
  | "name" => .text s.name
  | "icon" => .nullable .text s.icon
  | "banner" => .nullable .text s.banner
  | "description" => .nullable .text s.description
  | "owner_id" => .int s.ownerId
  | "region" => .nullable .text s.region
  | "features" => .texts s.features
  | "verification_level" => .int s.verificationLevel
  | "default_message_notifications" => .int s.defaultMessageNotifications
  | "explicit_content_filter" => .int s.explicitContentFilter
  | "system_channel_id" => .nullable .int s.systemChannelId
  | "rules_channel_id" => .nullable .int s.rulesChannelId
  | "max_members" => .int s.maxMembers
  | "member_count" => .int s.memberCount
  | "created_at" => .time s.createdAt
  | _ => .null

def Role.cells (r : Role) : Row
  | "id" => .int r.id
  | "server_id" => .int r.serverId
  | "name" => .text r.name
  | "color" => .int r.color
  | "hoist" => .bool r.hoist
  | "icon" => .nullable .text r.icon
  | "position" => .int r.position
  | "permissions" => .int r.permissions.toInt
  | "mentionable" => .bool r.mentionable
  | "is_default" => .bool r.isDefault
  | "created_at" => .time r.createdAt
  | _ => .null

def Channel.cells (c : Channel) : Row
  | "id" => .int c.id
  | "server_id" => .nullable .int c.serverId
  | "parent_id" => .nullable .int c.parentId
  | "type" => .int c.type
  | "name" => .nullable .text c.name
  | "topic" => .nullable .text c.topic
  | "position" => .int c.position
  | "bitrate" => .nullable .int c.bitrate
  | "user_limit" => .nullable .int c.userLimit
  | "rate_limit" => .int c.rateLimit
  | "nsfw" => .bool c.nsfw
  | "last_message_id" => .nullable .int c.lastMessageId
  | "icon" => .nullable .text c.icon
  | "e2ee_enabled" => .bool c.e2eeEnabled
  | "created_at" => .time c.createdAt
  | _ => .null

end Lumiere.Db
