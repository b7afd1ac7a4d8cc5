/-
The JSON bodies of the requests with fields of type `Option<Option<T>>`, as serde decodes them
(`lumiere-server/src/routes/users.rs`, `servers.rs`, `roles.rs`, `channels.rs`, `webhooks.rs`). The parser of RFC 3339
instants is a parameter.

Only `avatar` and `banner` of `UpdateProfileRequest` have a deserializer of their own, `deserialize_optional_nullable`.
-/
import Lumiere.Core.Deserialize
import Lumiere.Routes.Profile
import Lumiere.Routes.Webhooks

namespace Lumiere.Routes

open Lumiere.Core Lumiere.Core.Deserialize Lumiere.Models Lumiere.Db

/-- a struct whose fields are read one by one -/
def struct {α : Type} (keys : List String) (fields : Value → Option α) (json : Value) : Option α :=
  if isStruct keys json then fields json else none

theorem struct_eq_some {α : Type} {keys : List String} {fields : Value → Option α} {json : Value} {a : α}
    (h : struct keys fields json = some a) : fields json = some a := by
  unfold struct at h
  split at h
  · exact h
  · nomatch h

/-! ## Accounts -/

def UpdateProfileRequest.keys : List String := ["username", "avatar", "banner", "bio", "locale"]

def UpdateProfileRequest.ofJson : Value → Option UpdateProfileRequest :=
  struct keys fun json => do
    return {
      username := ← optional keys "username" Value.asStr json
      avatar := ← nullableField keys "avatar" Value.asStr json
      banner := ← nullableField keys "banner" Value.asStr json
      bio := ← optional keys "bio" Value.asStr json
      locale := ← optional keys "locale" Value.asStr json }

def UpdateSettingsRequest.keys : List String :=
  ["theme", "message_display", "locale", "show_current_game", "inline_attachment_media", "inline_embed_media",
    "render_embeds", "render_reactions", "animate_emoji", "enable_tts", "status", "custom_status", "dm_notifications",
    "friend_request_notifications"]

def UpdateSettingsRequest.ofJson : Value → Option UpdateSettingsRequest :=
  struct keys fun json => do
    return {
      theme := ← optional keys "theme" Value.asStr json
      messageDisplay := ← optional keys "message_display" Value.asStr json
      locale := ← optional keys "locale" Value.asStr json
      showCurrentGame := ← optional keys "show_current_game" Value.asBool json
      inlineAttachmentMedia := ← optional keys "inline_attachment_media" Value.asBool json
      inlineEmbedMedia := ← optional keys "inline_embed_media" Value.asBool json
      renderEmbeds := ← optional keys "render_embeds" Value.asBool json
      renderReactions := ← optional keys "render_reactions" Value.asBool json
      animateEmoji := ← optional keys "animate_emoji" Value.asBool json
      enableTts := ← optional keys "enable_tts" Value.asBool json
      status := ← optional keys "status" Value.asStr json
      customStatus := ← nested keys "custom_status" some json
      dmNotifications := ← optional keys "dm_notifications" Value.asBool json
      friendRequestNotifications := ← optional keys "friend_request_notifications" Value.asBool json }

/-! ## Servers and members -/

def UpdateServerRequest.keys : List String :=
  ["name", "icon", "banner", "description", "region", "verification_level", "default_message_notifications",
    "explicit_content_filter", "system_channel_id", "rules_channel_id", "owner_id"]

def UpdateServerRequest.ofJson : Value → Option UpdateServerRequest :=
  struct keys fun json => do
    return {
      name := ← optional keys "name" Value.asStr json
      icon := ← nested keys "icon" Value.asStr json
      banner := ← nested keys "banner" Value.asStr json
      description := ← nested keys "description" Value.asStr json
      region := ← nested keys "region" Value.asStr json
      verificationLevel := ← optional keys "verification_level" i16 json
      defaultMessageNotifications := ← optional keys "default_message_notifications" i16 json
      explicitContentFilter := ← optional keys "explicit_content_filter" i16 json
      systemChannelId := ← nested keys "system_channel_id" i64 json
      rulesChannelId := ← nested keys "rules_channel_id" i64 json
      ownerId := ← optional keys "owner_id" i64 json }

def UpdateMemberRequest.keys : List String := ["nickname", "roles", "communication_disabled_until"]

def dateTime (parseDateTime : String → Option DateTime) (v : Value) : Option DateTime := v.asStr.bind parseDateTime

def UpdateMemberRequest.ofJson (parseDateTime : String → Option DateTime) : Value → Option UpdateMemberRequest :=
  struct keys fun json => do
    return {
      nickname := ← nested keys "nickname" Value.asStr json
      roles := ← optional keys "roles" (vec i64) json
      communicationDisabledUntil := ← nested keys "communication_disabled_until" (dateTime parseDateTime) json }

def UpdateSelfMemberRequest.keys : List String := ["nickname"]

/-- the one field of an `UpdateSelfMemberRequest` -/
def UpdateSelfMemberRequest.ofJson : Value → Option (Option (Option String)) :=
  struct keys fun json => nested keys "nickname" Value.asStr json

/-! ## Roles, channels and webhooks -/

def UpdateRoleRequest.keys : List String :=
  ["name", "color", "hoist", "icon", "mentionable", "permissions", "position"]

def UpdateRoleRequest.ofJson : Value → Option UpdateRoleRequest :=
  struct keys fun json => do
    return {
      name := ← optional keys "name" Value.asStr json
      color := ← optional keys "color" i32 json
      hoist := ← optional keys "hoist" Value.asBool json
      icon := ← nested keys "icon" Value.asStr json
      mentionable := ← optional keys "mentionable" Value.asBool json
      permissions := ← optional keys "permissions" Value.asStr json
      position := ← optional keys "position" i32 json }

def PermissionOverrideInput.keys : List String := ["id", "type", "allow", "deny"]

def PermissionOverrideInput.ofJson : Value → Option PermissionOverrideInput :=
  struct keys fun json => do
    return {
      id := ← required i64 (lookup keys "id" json)
      targetType := ← required i16 (lookup keys "type" json)
      allow := BitVec.ofInt 64 (← required i64 (lookup keys "allow" json))
      deny := BitVec.ofInt 64 (← required i64 (lookup keys "deny" json)) }

def UpdateChannelRequest.keys : List String :=
  ["name", "topic", "position", "parent_id", "bitrate", "user_limit", "rate_limit", "nsfw", "permission_overrides"]

def UpdateChannelRequest.ofJson : Value → Option UpdateChannelRequest :=
  struct keys fun json => do
    return {
      name := ← optional keys "name" Value.asStr json
      topic := ← nested keys "topic" Value.asStr json
      position := ← optional keys "position" i32 json
      parentId := ← nested keys "parent_id" i64 json
      bitrate := ← optional keys "bitrate" i32 json
      userLimit := ← optional keys "user_limit" i32 json
      rateLimit := ← optional keys "rate_limit" i32 json
      nsfw := ← optional keys "nsfw" Value.asBool json
      permissionOverrides := ← optional keys "permission_overrides" (vec PermissionOverrideInput.ofJson) json }

def UpdateWebhookRequest.keys : List String := ["name", "avatar", "channel_id"]

def UpdateWebhookRequest.ofJson : Value → Option UpdateWebhookRequest :=
  struct keys fun json => do
    return {
      name := ← optional keys "name" Value.asStr json
      avatar := ← nested keys "avatar" Value.asStr json
      channelId := ← optional keys "channel_id" i64 json }

end Lumiere.Routes
