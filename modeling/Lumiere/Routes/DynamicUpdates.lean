/-
The UPDATE statements whose SET list is put together at run time: `update_me` and `update_settings`
(`lumiere-server/src/routes/users.rs`), the fields of `update_server` (`servers.rs`), `update_role` (`roles.rs`),
`update_channel` (`channels.rs`) and `update_auto_mod_rule` (`moderation.rs`). Each writes its columns down twice, once
with the placeholders and once with the values.

- `update…Statement`: the statement of a handler. `given`: its columns with the fields that they are for.
- `updates_write_given`: every placeholder is matched by the field of its column, and an update that is executed writes
  the fields that are there and no other column but `updated_at`.
- `blanks_are_cut`: a text is stored without the blanks by which it exceeds its column.
-/
import Lumiere.Db.Columns
import Lumiere.Routes.Profile

namespace Lumiere.Routes

open Lumiere.Core Lumiere.Models Lumiere.Db

/-! ## Statements -/

def updateMeStatement (auth : ℤ) (body : UpdateProfileRequest) : Update String Cell where
  sets := setList 2 [("username", body.username.isSome), ("avatar", body.avatar.isSome), ("banner", body.banner.isSome),
    ("bio", body.bio.isSome), ("locale", body.locale.isSome)]
  keys := [("id", 1)]
  nulls := ["deleted_at"]
  binds := bindAll [.int auth] [body.username.map fun username => .text (Str.trim username),
    body.avatar.map (.nullable .text), body.banner.map (.nullable .text), body.bio.map .text, body.locale.map .text]

def updateSettingsStatement (auth : ℤ) (body : UpdateSettingsRequest) : Update String Cell where
  sets := setList 2 [("theme", body.theme.isSome), ("message_display", body.messageDisplay.isSome),
    ("locale", body.locale.isSome), ("show_current_game", body.showCurrentGame.isSome),
    ("inline_attachment_media", body.inlineAttachmentMedia.isSome), ("inline_embed_media", body.inlineEmbedMedia.isSome),
    ("render_embeds", body.renderEmbeds.isSome), ("render_reactions", body.renderReactions.isSome),
    ("animate_emoji", body.animateEmoji.isSome), ("enable_tts", body.enableTts.isSome), ("status", body.status.isSome),
    ("custom_status", body.customStatus.isSome), ("dm_notifications", body.dmNotifications.isSome),
    ("friend_request_notifications", body.friendRequestNotifications.isSome)]
  keys := [("user_id", 1)]
  nulls := []
  binds := bindAll [.int auth] [body.theme.map .text, body.messageDisplay.map .text, body.locale.map .text,
    body.showCurrentGame.map .bool, body.inlineAttachmentMedia.map .bool, body.inlineEmbedMedia.map .bool,
    body.renderEmbeds.map .bool, body.renderReactions.map .bool, body.animateEmoji.map .bool, body.enableTts.map .bool,
    body.status.map .text, body.customStatus.map (.nullable .json), body.dmNotifications.map .bool,
    body.friendRequestNotifications.map .bool]

def updateServerStatement (serverId : ℤ) (body : UpdateServerRequest) : Update String Cell where
  sets := setList 2 [("name", body.name.isSome), ("icon", body.icon.isSome), ("banner", body.banner.isSome),
    ("description", body.description.isSome), ("region", body.region.isSome),
    ("verification_level", body.verificationLevel.isSome),
    ("default_message_notifications", body.defaultMessageNotifications.isSome),
    ("explicit_content_filter", body.explicitContentFilter.isSome),
    ("system_channel_id", body.systemChannelId.isSome), ("rules_channel_id", body.rulesChannelId.isSome)]
  keys := [("id", 1)]
  nulls := []
  binds := bindAll [.int serverId] [body.name.map fun v => .text (Str.trim v), body.icon.map (.nullable .text),
    body.banner.map (.nullable .text), body.description.map (.nullable .text), body.region.map (.nullable .text),
    body.verificationLevel.map .int, body.defaultMessageNotifications.map .int, body.explicitContentFilter.map .int,
    body.systemChannelId.map (.nullable .int), body.rulesChannelId.map (.nullable .int)]

/-- the permissions are parsed, or the request refused, before the values are bound -/
def updateRoleStatement (roleId serverId : ℤ) (body : UpdateRoleRequest) (parsedPermissions : Option (BitVec 64)) :
    Update String Cell where
  sets := setList 3 [("name", body.name.isSome), ("color", body.color.isSome), ("hoist", body.hoist.isSome),
    ("icon", body.icon.isSome), ("mentionable", body.mentionable.isSome), ("permissions", body.permissions.isSome),
    ("position", body.position.isSome)]
  keys := [("id", 1), ("server_id", 2)]
  nulls := []
  binds := bindAll [.int roleId, .int serverId] [body.name.map fun v => .text (Str.trim v), body.color.map .int,
    body.hoist.map .bool, body.icon.map (.nullable .text), body.mentionable.map .bool,
    parsedPermissions.map fun bits => .int bits.toInt, body.position.map .int]

def updateChannelStatement (unicode : Unicode) (channelId channelType : ℤ) (body : UpdateChannelRequest) :
    Update String Cell :=
  let normalizedName := body.name.map fun n => normalizeChannelName unicode n channelType
  { sets := setList 2 [("name", normalizedName.isSome), ("topic", body.topic.isSome), ("position", body.position.isSome),
      ("parent_id", body.parentId.isSome), ("bitrate", body.bitrate.isSome), ("user_limit", body.userLimit.isSome),
      ("rate_limit", body.rateLimit.isSome), ("nsfw", body.nsfw.isSome)]
    keys := [("id", 1)]
    nulls := []
    binds := bindAll [.int channelId] [normalizedName.map .text, body.topic.map (.nullable .text),
      body.position.map .int, body.parentId.map (.nullable .int), body.bitrate.map .int, body.userLimit.map .int,
      body.rateLimit.map .int, body.nsfw.map .bool] }

structure UpdateAutoModRequest where
  name : Option String
  triggerMetadata : Option Value
  actions : Option Value
  enabled : Option Bool

def updateAutoModRuleStatement (ruleId serverId : ℤ) (body : UpdateAutoModRequest) : Update String Cell where
  sets := setList 3 [("name", body.name.isSome), ("trigger_metadata", body.triggerMetadata.isSome),
    ("actions", body.actions.isSome), ("enabled", body.enabled.isSome)]
  keys := [("id", 1), ("server_id", 2)]
  nulls := []
  binds := bindAll [.int ruleId, .int serverId] [body.name.map .text, body.triggerMetadata.map .json,
    body.actions.map .json, body.enabled.map .bool]

/-! ## What they are for

The fields of a request by their columns, each if it is there. -/

def UpdateProfileRequest.given (body : UpdateProfileRequest) : List (String × Option Cell) :=
  [("username", body.username.map fun username => .text (Str.trim username)),
   ("avatar", body.avatar.map (.nullable .text)),
   ("banner", body.banner.map (.nullable .text)),
   ("bio", body.bio.map .text),
   ("locale", body.locale.map .text)]

def UpdateSettingsRequest.given (body : UpdateSettingsRequest) : List (String × Option Cell) :=
  [("theme", body.theme.map .text),
   ("message_display", body.messageDisplay.map .text),
   ("locale", body.locale.map .text),
   ("show_current_game", body.showCurrentGame.map .bool),
   ("inline_attachment_media", body.inlineAttachmentMedia.map .bool),
   ("inline_embed_media", body.inlineEmbedMedia.map .bool),
   ("render_embeds", body.renderEmbeds.map .bool),
   ("render_reactions", body.renderReactions.map .bool),
   ("animate_emoji", body.animateEmoji.map .bool),
   ("enable_tts", body.enableTts.map .bool),
   ("status", body.status.map .text),
   ("custom_status", body.customStatus.map (.nullable .json)),
   ("dm_notifications", body.dmNotifications.map .bool),
   ("friend_request_notifications", body.friendRequestNotifications.map .bool)]

def UpdateServerRequest.given (body : UpdateServerRequest) : List (String × Option Cell) :=
  [("name", body.name.map fun v => .text (Str.trim v)),
   ("icon", body.icon.map (.nullable .text)),
   ("banner", body.banner.map (.nullable .text)),
   ("description", body.description.map (.nullable .text)),
   ("region", body.region.map (.nullable .text)),
   ("verification_level", body.verificationLevel.map .int),
   ("default_message_notifications", body.defaultMessageNotifications.map .int),
   ("explicit_content_filter", body.explicitContentFilter.map .int),
   ("system_channel_id", body.systemChannelId.map (.nullable .int)),
   ("rules_channel_id", body.rulesChannelId.map (.nullable .int))]

/-- the permissions as the number that their text is -/
def UpdateRoleRequest.given (body : UpdateRoleRequest) : List (String × Option Cell) :=
  [("name", body.name.map fun v => .text (Str.trim v)),
   ("color", body.color.map .int),
   ("hoist", body.hoist.map .bool),
   ("icon", body.icon.map (.nullable .text)),
   ("mentionable", body.mentionable.map .bool),
   ("permissions", body.permissions.map fun v => .nullable .int (Str.parseI64 v)),
   ("position", body.position.map .int)]

def UpdateChannelRequest.given (unicode : Unicode) (channelType : ℤ) (body : UpdateChannelRequest) :
    List (String × Option Cell) :=
  [("name", body.name.map fun n => .text (normalizeChannelName unicode n channelType)),
   ("topic", body.topic.map (.nullable .text)),
   ("position", body.position.map .int),
   ("parent_id", body.parentId.map (.nullable .int)),
   ("bitrate", body.bitrate.map .int),
   ("user_limit", body.userLimit.map .int),
   ("rate_limit", body.rateLimit.map .int),
   ("nsfw", body.nsfw.map .bool)]

def UpdateAutoModRequest.given (body : UpdateAutoModRequest) : List (String × Option Cell) :=
  [("name", body.name.map .text),
   ("trigger_metadata", body.triggerMetadata.map .json),
   ("actions", body.actions.map .json),
   ("enabled", body.enabled.map .bool)]

/-! ## What they write -/

/-- `WHERE k = v AND … AND n IS NULL AND …` -/
def addressed (where' : List (String × Cell)) (nulls : List String) (row : Row) : Bool :=
  (where'.all fun k => (row k.1).eq k.2) && nulls.all fun column => (row column).isNull

/-- placeholders and values match, and an update that is executed writes, in the rows that it addresses, the fields that
are there as their columns store them, and no other column but `updated_at` -/
structure WritesGiven (length : String → Option ℕ) (u : Update String Cell) (where' : List (String × Cell))
    (nulls : List String) (given : List (String × Option Cell)) : Prop where
  matched : ∀ n column index, u.sets[n]? = some (column, index) →
    index = where'.length + n + 1 ∧ ∃ v, u.binds[index - 1]? = some v ∧ (column, some v) ∈ given
  highest : u.highest = u.binds.length
  written : ∀ now check rows rows', u.exec (tableSchema length (updateUpdatedAt now) check) rows = .ok rows' →
    List.Forall₂ (fun row row' =>
      if addressed where' nulls row then
        (∀ column v, (column, some v) ∈ given → assign length column v = .ok (row' column)) ∧
          ∀ column, (∀ v, (column, some v) ∉ given) → column ≠ "updated_at" → row' column = row column
      else row' = row) rows rows'

variable {length : String → Option ℕ} {u : Update String Cell} {where' : List (String × Cell)} {nulls : List String}
  {given : List (String × Option Cell)}

theorem writesGiven_of_generated (h : u.Generated where' nulls given) (hstamp : "updated_at" ∉ given.map Prod.fst) :
    WritesGiven length u where' nulls given := by
  refine ⟨fun n column index hset => ?_, h.highest, fun now check rows rows' hexec => ?_⟩
  · obtain ⟨rfl, v, harg, hfield⟩ := h.matched hset
    exact ⟨rfl, v, harg, hfield⟩
  · refine (h.exec hexec).imp fun row row' hrow => ?_
    have haddressed : (tableSchema length (updateUpdatedAt now) check).addressed where' nulls row =
        addressed where' nulls row := rfl
    rw [haddressed] at hrow
    by_cases hmatch : addressed where' nulls row = true
    · rw [if_pos hmatch] at hrow ⊢
      obtain ⟨written, hwrites, rfl⟩ := hrow
      refine ⟨fun column v hfield => ?_, fun column hnone hcolumn => ?_⟩
      · have hne : column ≠ "updated_at" := by
          rintro rfl
          exact hstamp (List.mem_map.2 ⟨_, hfield, rfl⟩)
        have hkept : updateUpdatedAt now written column = written column := if_neg hne
        exact (hwrites.given column v hfield).trans (congrArg Except.ok hkept.symm)
      · exact (if_neg hcolumn).trans (hwrites.kept column hnone)
    · rw [if_neg hmatch] at hrow ⊢
      exact hrow

/-! the two lists of each handler are over the same fields -/

theorem generated_updateMe (auth : ℤ) (body : UpdateProfileRequest) :
    (updateMeStatement auth body).Generated [("id", .int auth)] ["deleted_at"] body.given where
  columns := by simp [UpdateProfileRequest.given]
  sets := by simp [updateMeStatement, UpdateProfileRequest.given]
  keys := rfl
  nulls := rfl
  binds := rfl

theorem generated_updateSettings (auth : ℤ) (body : UpdateSettingsRequest) :
    (updateSettingsStatement auth body).Generated [("user_id", .int auth)] [] body.given where
  columns := by simp [UpdateSettingsRequest.given]
  sets := by simp [updateSettingsStatement, UpdateSettingsRequest.given]
  keys := rfl
  nulls := rfl
  binds := rfl

theorem generated_updateServer (serverId : ℤ) (body : UpdateServerRequest) :
    (updateServerStatement serverId body).Generated [("id", .int serverId)] [] body.given where
  columns := by simp [UpdateServerRequest.given]
  sets := by simp [updateServerStatement, UpdateServerRequest.given]
  keys := rfl
  nulls := rfl
  binds := rfl

theorem parsePermissions_toInt {value : String} {n : ℤ} (h : Str.parseI64 value = some n) :
    (BitVec.ofInt 64 n).toInt = n := by
  obtain ⟨hlow, hhigh⟩ := Str.parseI64_range h
  rw [BitVec.toInt_ofInt]
  exact Int.bmod_eq_of_le (by omega) (by omega)

theorem bound_permissions {body : UpdateRoleRequest} {parsedPermissions : Option (BitVec 64)}
    (h : body.permissions.mapM (fun v => (Str.parseI64 v).map (BitVec.ofInt 64)) = some parsedPermissions) :
    (parsedPermissions.map fun bits => Cell.int bits.toInt) =
      body.permissions.map fun v => Cell.nullable Cell.int (Str.parseI64 v) := by
  rcases hgiven : body.permissions with _ | value
  · rw [hgiven] at h
    obtain rfl := Option.some.inj h
    rfl
  · rw [hgiven] at h
    rcases hparse : Str.parseI64 value with _ | n
    · simp [hparse] at h
    · simp only [Option.mapM_some, hparse, Option.map_some] at h
      obtain rfl := Option.some.inj h
      simp [hparse, parsePermissions_toInt hparse]

/-- a request whose permissions are no number is refused before -/
theorem generated_updateRole (roleId serverId : ℤ) (body : UpdateRoleRequest) {parsedPermissions : Option (BitVec 64)}
    (h : body.permissions.mapM (fun v => (Str.parseI64 v).map (BitVec.ofInt 64)) = some parsedPermissions) :
    (updateRoleStatement roleId serverId body parsedPermissions).Generated
      [("id", .int roleId), ("server_id", .int serverId)] [] body.given := by
  exact
    { columns := by simp [UpdateRoleRequest.given]
      sets := by simp [updateRoleStatement, UpdateRoleRequest.given]
      keys := rfl
      nulls := rfl
      binds := by
        rw [updateRoleStatement, bound_permissions h]
        rfl }

theorem generated_updateChannel (unicode : Unicode) (channelId channelType : ℤ) (body : UpdateChannelRequest) :
    (updateChannelStatement unicode channelId channelType body).Generated [("id", .int channelId)] []
      (body.given unicode channelType) where
  columns := by simp [UpdateChannelRequest.given]
  sets := by simp [updateChannelStatement, UpdateChannelRequest.given]
  keys := rfl
  nulls := rfl
  binds := by simp [updateChannelStatement, UpdateChannelRequest.given, Function.comp_def]

theorem generated_updateAutoModRule (ruleId serverId : ℤ) (body : UpdateAutoModRequest) :
    (updateAutoModRuleStatement ruleId serverId body).Generated [("id", .int ruleId), ("server_id", .int serverId)] []
      body.given where
  columns := by simp [UpdateAutoModRequest.given]
  sets := by simp [updateAutoModRuleStatement, UpdateAutoModRequest.given]
  keys := rfl
  nulls := rfl
  binds := rfl

/-- **The generated updates write exactly the given fields**, whichever of them are there: of the user and of the settings
of `auth`, of a server, a role, a channel and a rule. -/
theorem updates_write_given :
    (∀ auth body, WritesGiven usersLength (updateMeStatement auth body) [("id", .int auth)] ["deleted_at"] body.given) ∧
    (∀ auth body, WritesGiven userSettingsLength (updateSettingsStatement auth body) [("user_id", .int auth)] []
      body.given) ∧
    (∀ serverId body, WritesGiven serversLength (updateServerStatement serverId body) [("id", .int serverId)] []
      body.given) ∧
    (∀ roleId serverId body parsedPermissions,
      body.permissions.mapM (fun v => (Str.parseI64 v).map (BitVec.ofInt 64)) = some parsedPermissions →
      WritesGiven rolesLength (updateRoleStatement roleId serverId body parsedPermissions)
        [("id", .int roleId), ("server_id", .int serverId)] [] body.given) ∧
    (∀ unicode channelId channelType body, WritesGiven channelsLength
      (updateChannelStatement unicode channelId channelType body) [("id", .int channelId)] []
      (body.given unicode channelType)) ∧
    (∀ ruleId serverId body, WritesGiven autoModRulesLength (updateAutoModRuleStatement ruleId serverId body)
      [("id", .int ruleId), ("server_id", .int serverId)] [] body.given) := by
  refine ⟨fun auth body => ?_, fun auth body => ?_, fun serverId body => ?_, fun roleId serverId body _ hparsed => ?_,
    fun unicode channelId channelType body => ?_, fun ruleId serverId body => ?_⟩
  · exact writesGiven_of_generated (generated_updateMe auth body) (by simp [UpdateProfileRequest.given])
  · exact writesGiven_of_generated (generated_updateSettings auth body) (by simp [UpdateSettingsRequest.given])
  · exact writesGiven_of_generated (generated_updateServer serverId body) (by simp [UpdateServerRequest.given])
  · exact writesGiven_of_generated (generated_updateRole roleId serverId body hparsed)
      (by simp [UpdateRoleRequest.given])
  · exact writesGiven_of_generated (generated_updateChannel unicode channelId channelType body)
      (by simp [UpdateChannelRequest.given])
  · exact writesGiven_of_generated (generated_updateAutoModRule ruleId serverId body)
      (by simp [UpdateAutoModRequest.given])

theorem updates_write_given_role :
    WritesGiven rolesLength (updateRoleStatement 110 100 ⟨none, some 255, none, none, none, some "8", none⟩ (some 8))
      [("id", .int 110), ("server_id", .int 100)] []
      (UpdateRoleRequest.given ⟨none, some 255, none, none, none, some "8", none⟩) :=
  updates_write_given.2.2.2.1 110 100 ⟨none, some 255, none, none, none, some "8", none⟩ (some 8) (by decide)

/-! ## A blank too many -/

theorem varchar_blank {cs : List Char} {n : ℕ} (hlength : cs.length = n) (hnul : ∀ c ∈ cs, c.toNat ≠ 0) :
    varchar n (String.ofList (cs ++ [' '])) = .ok (String.ofList cs) := by
  have hany : ¬ ((String.ofList (cs ++ [' '])).toList.any fun c => c.toNat = 0) = true := by
    simpa using hnul
  have hlong : ¬ (String.ofList (cs ++ [' '])).length ≤ n := by
    simp [hlength]
  rw [varchar, if_neg hany, if_neg hlong, String.toList_ofList, ← hlength, List.drop_left, List.take_left]
  rfl

def thousand : String := String.ofList (List.replicate 1000 'x')

/-- one character too long, and that is a blank -/
def thousandAndBlank : String := String.ofList (List.replicate 1000 'x' ++ [' '])

theorem varchar_thousandAndBlank : varchar 1000 thousandAndBlank = .ok thousand := by
  refine varchar_blank List.length_replicate fun c hc => ?_
  rw [List.eq_of_mem_replicate hc]
  decide

theorem thousand_ne : thousand ≠ thousandAndBlank := by
  have hshort : thousand.length = 1000 := String.length_ofList.trans List.length_replicate
  have hlong : thousandAndBlank.length = 1001 :=
    String.length_ofList.trans (List.length_append.trans (congrArg (· + 1) List.length_replicate))
  intro heq
  rw [heq, hlong] at hshort
  nomatch hshort

def described (description : String) : UpdateServerRequest :=
  ⟨none, none, none, some (some description), none, none, none, none, none, none, none⟩

/-- the server 100, as far as it matters -/
def undescribed : Row
  | "id" => .int 100
  | _ => .null

theorem exec_described {description stored : String} (h : varchar 1000 description = .ok stored) :
    ("description", some (Cell.text description)) ∈ (described description).given ∧
    ∃ row', (updateServerStatement 100 (described description)).exec
        (tableSchema serversLength (updateUpdatedAt ⟨0⟩) fun _ => .ok ()) [undescribed] = .ok [row'] ∧
      row' "description" = .text stored := by
  have hassign : assign serversLength "description" (.text description) = .ok (.text stored) := by
    have hlength : serversLength "description" = some 1000 := rfl
    rw [assign_text hlength, h]
    rfl
  have hstored : (updateServerStatement 100 (described description)).stored
      (tableSchema serversLength (updateUpdatedAt ⟨0⟩) fun _ => .ok ()) [("description", 2)] =
        .ok [("description", .text stored)] := by
    have harg : (updateServerStatement 100 (described description)).arg 2 = some (.text description) := rfl
    rw [Update.stored, harg]
    dsimp only [tableSchema]
    rw [hassign]
    rfl
  have hsets : (updateServerStatement 100 (described description)).sets = [("description", 2)] := rfl
  have hhighest : (updateServerStatement 100 (described description)).highest = 2 := rfl
  have hbinds : (updateServerStatement 100 (described description)).binds.length = 2 := rfl
  refine ⟨List.mem_cons_of_mem _ (List.mem_cons_of_mem _ (List.mem_cons_of_mem _ List.mem_cons_self)),
    updateUpdatedAt ⟨0⟩ (overwrite [("description", .text stored)] undescribed), ?_, rfl⟩
  unfold Update.exec
  rw [hhighest, hbinds, if_neg (by decide), hsets, if_neg (by decide), hstored]
  rfl

/-- **The blank is cut**: the update is executed, and the column does not hold the description. -/
theorem blanks_are_cut :
    ("description", some (Cell.text thousandAndBlank)) ∈ (described thousandAndBlank).given ∧
    ∃ row', (updateServerStatement 100 (described thousandAndBlank)).exec
        (tableSchema serversLength (updateUpdatedAt ⟨0⟩) fun _ => .ok ()) [undescribed] = .ok [row'] ∧
      row' "description" ≠ .text thousandAndBlank := by
  obtain ⟨hgiven, row', hexec, hrow⟩ := exec_described varchar_thousandAndBlank
  refine ⟨hgiven, row', hexec, ?_⟩
  intro heq
  exact thousand_ne (Cell.text.inj (hrow.symm.trans heq))

end Lumiere.Routes
