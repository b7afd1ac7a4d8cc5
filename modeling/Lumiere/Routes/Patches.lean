/-
PATCH bodies, from the JSON to the row: an absent field should leave a column, null clear it and a value set it. Only
`UpdateProfileRequest` has the deserializer that the law needs; the other requests with a field of type
`Option<Option<T>>` take null for an absent field.

- `Patched` of a request: the law, of its nullable columns. `Patchable`: the condition under which it holds.
- `patches_iff`: for each of the eight requests, and whatever its handler accepts.
- `null_keeps_the_timeout`: a null does not lift a timeout.
-/
import Lumiere.Routes.AcceptedEdits
import Lumiere.Routes.PatchBodies

namespace Lumiere.Routes

open Lumiere.Core Lumiere.Core.Prog Lumiere.Core.Deserialize Lumiere.Models Lumiere.Db

/-! ## One column -/

theorem mapM_varchar_eq_ok {n : ℕ} {field field' : Option (Option String)} (h : field.mapM (varchar? n) = .ok field') :
    field' = field.map (Option.map (fitted n)) := by
  rcases field with _ | _ | s
  · exact (Except.ok.inj h).symm
  · exact (Except.ok.inj h).symm
  · rw [Option.mapM_some] at h
    obtain ⟨stored, hstored, rfl⟩ := map_eq_ok.1 h
    obtain ⟨s', hs', rfl⟩ := map_eq_ok.1 hstored
    obtain rfl := varchar_eq_ok hs'
    rfl

/-- null is not given for a column that holds a value -/
def NullIsNull {α : Type} (value : Option Value) (before : Option α) : Prop := value = some .null → before = none

/-- no text is given that is longer than its column -/
def FitsColumn (n : ℕ) (value : Option Value) : Prop := ∀ s, value = some (.string s) → s.length ≤ n

theorem unchanged_fitted_iff {n : ℕ} {value : Option Value} : Unchanged (fitted n) Value.asStr value ↔ FitsColumn n value := by
  constructor
  · intro h s hs
    exact fitted_eq_iff.1 (h (.string s) s hs (fun heq => nomatch heq) rfl)
  · rintro h v s rfl - hread
    cases v with
    | string t =>
      obtain rfl := Option.some.inj hread
      exact fitted_eq_iff.2 (h t rfl)
    | _ => nomatch hread

section Columns

variable {keys : List String} {key : String} {json : Value} {n : ℕ}

theorem patches_text {field field' : Option (Option String)} {before : Option String}
    (hfield : nested keys key Value.asStr json = some field) (hstored : field.mapM (varchar? n) = .ok field') :
    Patches Value.asStr (lookup keys key json) before (field'.getD before) ↔
      NullIsNull (lookup keys key json) before ∧ FitsColumn n (lookup keys key json) := by
  obtain rfl := mapM_varchar_eq_ok hstored
  rw [← unchanged_fitted_iff]
  exact patches_nested hfield

theorem patches_nullableText {field field' : Option (Option String)} {before : Option String}
    (hfield : nullableField keys key Value.asStr json = some field) (hstored : field.mapM (varchar? n) = .ok field') :
    Patches Value.asStr (lookup keys key json) before (field'.getD before) ↔ FitsColumn n (lookup keys key json) := by
  obtain rfl := mapM_varchar_eq_ok hstored
  rw [← unchanged_fitted_iff]
  exact patches_nullable hfield

/-- a column that stores what it is given -/
theorem patches_plain {α : Type} {read : Value → Option α} {field : Option (Option α)} {before : Option α}
    (hfield : nested keys key read json = some field) :
    Patches read (lookup keys key json) before (field.getD before) ↔ NullIsNull (lookup keys key json) before := by
  have hpatches : Patches read (lookup keys key json) before (written id field before) ↔
      NullIsNull (lookup keys key json) before ∧ Unchanged id read (lookup keys key json) := patches_nested hfield
  rw [and_iff_left unchanged_id, written, Option.map_id, Option.map_id] at hpatches
  exact hpatches

end Columns

/-! ## The requests

For each request the law, between the row before and the row after it, and the condition. -/

namespace UpdateProfileRequest

def Patched (json : Value) (u u' : Account) : Prop :=
  Patches Value.asStr (lookup keys "avatar" json) u.avatar u'.avatar ∧
    Patches Value.asStr (lookup keys "banner" json) u.banner u'.banner

def Patchable (json : Value) : Prop :=
  FitsColumn 255 (lookup keys "avatar" json) ∧ FitsColumn 255 (lookup keys "banner" json)

theorem patched_iff {json : Value} {body : UpdateProfileRequest} {checked : ProfileChanges} {u : Account}
    (hjson : ofJson json = some body) (hchecked : body.changes.checked = .ok checked) :
    Patched json u (checked.apply u) ↔ Patchable json := by
  simp only [ProfileChanges.checked, bind_eq_ok, pure_eq_ok] at hchecked
  obtain ⟨_, -, avatar, havatar, banner, hbanner, _, -, _, -, rfl⟩ := hchecked
  have hfields := struct_eq_some hjson
  simp only [Option.bind_eq_bind, Option.bind_eq_some_iff, Option.pure_def, Option.some_inj] at hfields
  obtain ⟨_, -, _, havatar', _, hbanner', _, -, _, -, rfl⟩ := hfields
  exact and_congr (patches_nullableText havatar' havatar) (patches_nullableText hbanner' hbanner)

end UpdateProfileRequest

namespace UpdateSettingsRequest

def Patched (json : Value) (s s' : UserSettings) : Prop :=
  Patches some (lookup keys "custom_status" json) s.customStatus s'.customStatus

def Patchable (json : Value) (s : UserSettings) : Prop := NullIsNull (lookup keys "custom_status" json) s.customStatus

theorem customStatus_of_json {json : Value} {body : UpdateSettingsRequest} (hjson : ofJson json = some body) :
    nested keys "custom_status" some json = some body.customStatus := by
  have hfields := struct_eq_some hjson
  -- the fields before it, and the two after it
  iterate 11 replace hfields := (Option.bind_eq_some_iff.1 hfields).choose_spec.2
  obtain ⟨status, hstatus, hfields⟩ := Option.bind_eq_some_iff.1 hfields
  iterate 2 replace hfields := (Option.bind_eq_some_iff.1 hfields).choose_spec.2
  rw [hstatus, ← Option.some.inj hfields]

theorem patched_iff {json : Value} {body : UpdateSettingsRequest} {checked : SettingsChanges} {s : UserSettings}
    (hjson : ofJson json = some body) (hchecked : body.changes.checked = .ok checked) :
    Patched json s (checked.apply s) ↔ Patchable json s := by
  simp only [SettingsChanges.checked, bind_eq_ok, pure_eq_ok] at hchecked
  obtain ⟨_, -, _, -, _, -, _, -, rfl⟩ := hchecked
  exact patches_plain (customStatus_of_json hjson)

end UpdateSettingsRequest

namespace UpdateServerRequest

def Patched (json : Value) (s s' : Server) : Prop :=
  Patches Value.asStr (lookup keys "icon" json) s.icon s'.icon ∧
    Patches Value.asStr (lookup keys "banner" json) s.banner s'.banner ∧
    Patches Value.asStr (lookup keys "description" json) s.description s'.description ∧
    Patches Value.asStr (lookup keys "region" json) s.region s'.region ∧
    Patches i64 (lookup keys "system_channel_id" json) s.systemChannelId s'.systemChannelId ∧
    Patches i64 (lookup keys "rules_channel_id" json) s.rulesChannelId s'.rulesChannelId

def Patchable (json : Value) (s : Server) : Prop :=
  (NullIsNull (lookup keys "icon" json) s.icon ∧ FitsColumn 255 (lookup keys "icon" json)) ∧
    (NullIsNull (lookup keys "banner" json) s.banner ∧ FitsColumn 255 (lookup keys "banner" json)) ∧
    (NullIsNull (lookup keys "description" json) s.description ∧ FitsColumn 1000 (lookup keys "description" json)) ∧
    (NullIsNull (lookup keys "region" json) s.region ∧ FitsColumn 32 (lookup keys "region" json)) ∧
    NullIsNull (lookup keys "system_channel_id" json) s.systemChannelId ∧
    NullIsNull (lookup keys "rules_channel_id" json) s.rulesChannelId

/-- the owner is not one of these columns -/
theorem patched_iff {json : Value} {body : UpdateServerRequest} {checked : ServerChanges} {s : Server} {owner : ℤ}
    (hjson : ofJson json = some body) (hchecked : body.changes.checked = .ok checked) :
    Patched json s (checked.apply { s with ownerId := owner }) ↔ Patchable json s := by
  simp only [ServerChanges.checked, bind_eq_ok, pure_eq_ok] at hchecked
  obtain ⟨_, -, icon, hicon, banner, hbanner, description, hdescription, region, hregion, rfl⟩ := hchecked
  have hfields := struct_eq_some hjson
  simp only [Option.bind_eq_bind, Option.bind_eq_some_iff, Option.pure_def, Option.some_inj] at hfields
  obtain ⟨_, -, _, hicon', _, hbanner', _, hdescription', _, hregion', _, -, _, -, _, -, _, hsystem, _, hrules, _, -, rfl⟩ :=
    hfields
  exact and_congr (patches_text hicon' hicon) (and_congr (patches_text hbanner' hbanner)
    (and_congr (patches_text hdescription' hdescription) (and_congr (patches_text hregion' hregion)
      (and_congr (patches_plain hsystem) (patches_plain hrules)))))

end UpdateServerRequest

namespace UpdateMemberRequest

def Patched (parseDateTime : String → Option DateTime) (json : Value) (m m' : ServerMember) : Prop :=
  Patches Value.asStr (lookup keys "nickname" json) m.nickname m'.nickname ∧
    Patches (dateTime parseDateTime) (lookup keys "communication_disabled_until" json) m.communicationDisabledUntil
      m'.communicationDisabledUntil

def Patchable (json : Value) (m : ServerMember) : Prop :=
  (NullIsNull (lookup keys "nickname" json) m.nickname ∧ FitsColumn 32 (lookup keys "nickname" json)) ∧
    NullIsNull (lookup keys "communication_disabled_until" json) m.communicationDisabledUntil

theorem patched_iff {parseDateTime : String → Option DateTime} {json : Value} {body : UpdateMemberRequest}
    {nickname : Option (Option String)} {m : ServerMember} (hjson : ofJson parseDateTime json = some body)
    (hnickname : body.storedNickname = .ok nickname) :
    Patched parseDateTime json m (body.edit nickname m) ↔ Patchable json m := by
  have hstored : body.nickname.mapM (varchar? 32) = .ok nickname := by
    rw [← hnickname, storedNickname]
    rcases body.nickname with _ | name
    · rfl
    · show some <$> varchar? 32 name = (varchar? 32 name).map some
      rcases varchar? 32 name with e | stored <;> rfl
  have hfields := struct_eq_some hjson
  simp only [Option.bind_eq_bind, Option.bind_eq_some_iff, Option.pure_def, Option.some_inj] at hfields
  obtain ⟨_, hnickname', _, -, _, htimeout, rfl⟩ := hfields
  exact and_congr (patches_text hnickname' hstored) (patches_plain htimeout)

end UpdateMemberRequest

namespace UpdateSelfMemberRequest

def Patched (json : Value) (m m' : ServerMember) : Prop :=
  Patches Value.asStr (lookup keys "nickname" json) m.nickname m'.nickname

def Patchable (json : Value) (m : ServerMember) : Prop :=
  NullIsNull (lookup keys "nickname" json) m.nickname ∧ FitsColumn 32 (lookup keys "nickname" json)

end UpdateSelfMemberRequest

namespace UpdateRoleRequest

def Patched (json : Value) (r r' : Role) : Prop := Patches Value.asStr (lookup keys "icon" json) r.icon r'.icon

def Patchable (json : Value) (r : Role) : Prop :=
  NullIsNull (lookup keys "icon" json) r.icon ∧ FitsColumn 255 (lookup keys "icon" json)

theorem patched_iff {json : Value} {body : UpdateRoleRequest} {permissions : Option (BitVec 64)}
    {checked : RoleChanges} {r : Role} (hjson : ofJson json = some body)
    (hchecked : (body.changes permissions).checked = .ok checked) :
    Patched json r (checked.apply r) ↔ Patchable json r := by
  simp only [RoleChanges.checked, bind_eq_ok, pure_eq_ok] at hchecked
  obtain ⟨_, -, icon, hicon, rfl⟩ := hchecked
  have hfields := struct_eq_some hjson
  simp only [Option.bind_eq_bind, Option.bind_eq_some_iff, Option.pure_def, Option.some_inj] at hfields
  obtain ⟨_, -, _, -, _, -, _, hicon', _, -, _, -, _, -, rfl⟩ := hfields
  exact patches_text hicon' hicon

end UpdateRoleRequest

namespace UpdateChannelRequest

def Patched (json : Value) (c c' : Channel) : Prop :=
  Patches Value.asStr (lookup keys "topic" json) c.topic c'.topic ∧
    Patches i64 (lookup keys "parent_id" json) c.parentId c'.parentId

def Patchable (json : Value) (c : Channel) : Prop :=
  (NullIsNull (lookup keys "topic" json) c.topic ∧ FitsColumn 1024 (lookup keys "topic" json)) ∧
    NullIsNull (lookup keys "parent_id" json) c.parentId

theorem patched_iff {unicode : Unicode} {channelType : ℤ} {json : Value} {body : UpdateChannelRequest}
    {checked : ChannelChanges} {c : Channel} (hjson : ofJson json = some body)
    (hchecked : (body.changes unicode channelType).checked = .ok checked) :
    Patched json c (checked.apply c) ↔ Patchable json c := by
  simp only [ChannelChanges.checked, bind_eq_ok, pure_eq_ok] at hchecked
  obtain ⟨_, -, topic, htopic, rfl⟩ := hchecked
  have hfields := struct_eq_some hjson
  simp only [Option.bind_eq_bind, Option.bind_eq_some_iff, Option.pure_def, Option.some_inj] at hfields
  obtain ⟨_, -, _, htopic', _, -, _, hparent, _, -, _, -, _, -, _, -, _, -, rfl⟩ := hfields
  exact and_congr (patches_text htopic' htopic) (patches_plain hparent)

end UpdateChannelRequest

namespace UpdateWebhookRequest

def Patched (json : Value) (h h' : WebhookRow) : Prop :=
  Patches Value.asStr (lookup keys "avatar" json) h.avatar h'.avatar

def Patchable (json : Value) (h : WebhookRow) : Prop :=
  NullIsNull (lookup keys "avatar" json) h.avatar ∧ FitsColumn 255 (lookup keys "avatar" json)

end UpdateWebhookRequest

/-! ## The handlers -/

section Handlers

variable {json : Value} {auth : ℤ}

theorem updateMe_patches {body : UpdateProfileRequest} {count : ℤ} {user : FullUser} {s s' : Accounts}
    (hjson : UpdateProfileRequest.ofJson json = some body)
    (h : (updateMe auth body count).run accountStatement s = (.ok user, s')) :
    ∃ u ∈ s.users, ∃ u' ∈ s'.users, u.id = auth ∧ u'.id = auth ∧
      (UpdateProfileRequest.Patched json u u' ↔ UpdateProfileRequest.Patchable json) := by
  obtain ⟨-, u, hu, checked, hid, hchecked, hu', -⟩ := updateMe_ok h
  exact ⟨u, hu, _, hu', hid, hid, UpdateProfileRequest.patched_iff hjson hchecked⟩

theorem updateSettings_patches {body : UpdateSettingsRequest} {settings : UserSettings} {s s' : Accounts}
    (hjson : UpdateSettingsRequest.ofJson json = some body)
    (h : (updateSettings auth body).run accountStatement s = (.ok settings, s')) :
    ∃ r ∈ s.settings, ∃ r' ∈ s'.settings, r.userId = auth ∧ r'.userId = auth ∧
      (UpdateSettingsRequest.Patched json r r' ↔ UpdateSettingsRequest.Patchable json r) := by
  obtain ⟨r, hr, checked, hid, hchecked, hr', -⟩ := updateSettings_ok h
  exact ⟨r, hr, _, hr', hid, (checked.apply_userId r).trans hid, UpdateSettingsRequest.patched_iff hjson hchecked⟩

theorem updateServer_patches {body : UpdateServerRequest} {serverId : ℤ} {server : Server} {pg pg' : Postgres}
    (hjson : UpdateServerRequest.ofJson json = some body)
    (h : (updateServer auth serverId body).run statement pg = (.ok server, pg')) :
    ∃ r r', serverRow pg serverId = some r ∧ serverRow pg' serverId = some r' ∧
      (UpdateServerRequest.Patched json r r' ↔ UpdateServerRequest.Patchable json r) := by
  obtain ⟨r, owner, checked, hr, hchecked, hr'⟩ := updateServer_ok h
  exact ⟨r, _, hr, hr', UpdateServerRequest.patched_iff hjson hchecked⟩

theorem updateMember_patches {parseDateTime : String → Option DateTime} {body : UpdateMemberRequest}
    {serverId userId : ℤ} {member : MemberResponse} {pg pg' : Postgres}
    (hjson : UpdateMemberRequest.ofJson parseDateTime json = some body)
    (h : (updateMember auth serverId userId body).run statement pg = (.ok member, pg')) :
    ∃ m m', memberAt pg serverId userId = some m ∧ memberAt pg' serverId userId = some m' ∧
      (UpdateMemberRequest.Patched parseDateTime json m m' ↔ UpdateMemberRequest.Patchable json m) := by
  obtain ⟨m, nickname, hnickname, hm, hm'⟩ := updateMember_ok h
  exact ⟨m, _, hm, hm', UpdateMemberRequest.patched_iff hjson hnickname⟩

theorem updateSelfMember_patches {nickname : Option (Option String)} {serverId : ℤ} {member : MemberResponse}
    {pg pg' : Postgres} (hjson : UpdateSelfMemberRequest.ofJson json = some nickname)
    (h : (updateSelfMember auth serverId nickname).run statement pg = (.ok member, pg')) :
    ∃ m m', memberAt pg serverId auth = some m ∧ memberAt pg' serverId auth = some m' ∧
      (UpdateSelfMemberRequest.Patched json m m' ↔ UpdateSelfMemberRequest.Patchable json m) := by
  obtain ⟨m, stored, hstored, hm, hm'⟩ := updateSelfMember_ok h
  exact ⟨m, _, hm, hm', patches_text (struct_eq_some hjson) hstored⟩

theorem updateRole_patches {body : UpdateRoleRequest} {serverId roleId : ℤ} {role : RoleResponse} {pg pg' : Postgres}
    (hjson : UpdateRoleRequest.ofJson json = some body)
    (h : (updateRole auth serverId roleId body).run statement pg = (.ok role, pg')) :
    ∃ r ∈ pg.roles, ∃ r' ∈ pg'.roles, r.id = roleId ∧ r'.id = roleId ∧
      (UpdateRoleRequest.Patched json r r' ↔ UpdateRoleRequest.Patchable json r) := by
  obtain ⟨r, hr, permissions, checked, hid, -, hchecked, hr'⟩ := updateRole_ok h
  exact ⟨r, hr, _, hr', hid, (checked.apply_id r).trans hid, UpdateRoleRequest.patched_iff hjson hchecked⟩

theorem updateChannel_patches {unicode : Unicode} {body : UpdateChannelRequest} {channelId : ℤ}
    {channel : ChannelResponse} {pg pg' : Postgres} (hjson : UpdateChannelRequest.ofJson json = some body)
    (h : (updateChannel unicode auth channelId body).run perform pg = (.ok channel, pg')) :
    ∃ c ∈ pg.channels, ∃ c' ∈ pg'.channels, c.id = channelId ∧ c'.id = channelId ∧
      (UpdateChannelRequest.Patched json c c' ↔ UpdateChannelRequest.Patchable json c) := by
  obtain ⟨c, hc, checked, hid, hchecked, hc'⟩ := updateChannel_ok h
  exact ⟨c, hc, _, hc', hid, (checked.apply_id c).trans hid, UpdateChannelRequest.patched_iff hjson hchecked⟩

theorem updateWebhook_patches {body : UpdateWebhookRequest} {webhookId : ℤ} {webhook : WebhookResponse} {s s' : Hooks}
    (hjson : UpdateWebhookRequest.ofJson json = some body)
    (h : (updateWebhook auth webhookId body).run hookPerform s = (.ok webhook, s')) :
    ∃ r ∈ s.webhooks, ∃ r' ∈ s'.webhooks, r.id = webhookId ∧ r'.id = webhookId ∧
      (UpdateWebhookRequest.Patched json r r' ↔ UpdateWebhookRequest.Patchable json r) := by
  obtain ⟨r, hr, hid, stored, hstored, r', hr', hid', havatar⟩ := updateWebhook_ok h
  have hfields := struct_eq_some hjson
  simp only [Option.bind_eq_bind, Option.bind_eq_some_iff, Option.pure_def, Option.some_inj] at hfields
  obtain ⟨_, -, _, havatar', _, -, rfl⟩ := hfields
  refine ⟨r, hr, r', hr', hid, hid', ?_⟩
  rw [UpdateWebhookRequest.Patched, havatar]
  exact patches_text havatar' hstored

end Handlers

/-- **PATCH tells absent, null and a value apart exactly under `Patchable`.** For every body that one of the eight handlers
accepts: for a profile the values must fit their columns, for the others no null must be given for a column that holds a
value either. -/
theorem patches_iff (json : Value) (auth : ℤ) :
    (∀ body count user (s s' : Accounts), UpdateProfileRequest.ofJson json = some body →
      (updateMe auth body count).run accountStatement s = (.ok user, s') →
      ∃ u ∈ s.users, ∃ u' ∈ s'.users, u.id = auth ∧ u'.id = auth ∧
        (UpdateProfileRequest.Patched json u u' ↔ UpdateProfileRequest.Patchable json)) ∧
    (∀ body settings (s s' : Accounts), UpdateSettingsRequest.ofJson json = some body →
      (updateSettings auth body).run accountStatement s = (.ok settings, s') →
      ∃ r ∈ s.settings, ∃ r' ∈ s'.settings, r.userId = auth ∧ r'.userId = auth ∧
        (UpdateSettingsRequest.Patched json r r' ↔ UpdateSettingsRequest.Patchable json r)) ∧
    (∀ body serverId server (pg pg' : Postgres), UpdateServerRequest.ofJson json = some body →
      (updateServer auth serverId body).run statement pg = (.ok server, pg') →
      ∃ r r', serverRow pg serverId = some r ∧ serverRow pg' serverId = some r' ∧
        (UpdateServerRequest.Patched json r r' ↔ UpdateServerRequest.Patchable json r)) ∧
    (∀ parseDateTime body serverId userId member (pg pg' : Postgres),
      UpdateMemberRequest.ofJson parseDateTime json = some body →
      (updateMember auth serverId userId body).run statement pg = (.ok member, pg') →
      ∃ m m', memberAt pg serverId userId = some m ∧ memberAt pg' serverId userId = some m' ∧
        (UpdateMemberRequest.Patched parseDateTime json m m' ↔ UpdateMemberRequest.Patchable json m)) ∧
    (∀ nickname serverId member (pg pg' : Postgres), UpdateSelfMemberRequest.ofJson json = some nickname →
      (updateSelfMember auth serverId nickname).run statement pg = (.ok member, pg') →
      ∃ m m', memberAt pg serverId auth = some m ∧ memberAt pg' serverId auth = some m' ∧
        (UpdateSelfMemberRequest.Patched json m m' ↔ UpdateSelfMemberRequest.Patchable json m)) ∧
    (∀ body serverId roleId role (pg pg' : Postgres), UpdateRoleRequest.ofJson json = some body →
      (updateRole auth serverId roleId body).run statement pg = (.ok role, pg') →
      ∃ r ∈ pg.roles, ∃ r' ∈ pg'.roles, r.id = roleId ∧ r'.id = roleId ∧
        (UpdateRoleRequest.Patched json r r' ↔ UpdateRoleRequest.Patchable json r)) ∧
    (∀ unicode body channelId channel (pg pg' : Postgres), UpdateChannelRequest.ofJson json = some body →
      (updateChannel unicode auth channelId body).run perform pg = (.ok channel, pg') →
      ∃ c ∈ pg.channels, ∃ c' ∈ pg'.channels, c.id = channelId ∧ c'.id = channelId ∧
        (UpdateChannelRequest.Patched json c c' ↔ UpdateChannelRequest.Patchable json c)) ∧
    (∀ body webhookId webhook (s s' : Hooks), UpdateWebhookRequest.ofJson json = some body →
      (updateWebhook auth webhookId body).run hookPerform s = (.ok webhook, s') →
      ∃ r ∈ s.webhooks, ∃ r' ∈ s'.webhooks, r.id = webhookId ∧ r'.id = webhookId ∧
        (UpdateWebhookRequest.Patched json r r' ↔ UpdateWebhookRequest.Patchable json r)) := by
  refine ⟨?_, ?_, ?_, ?_, ?_, ?_, ?_, ?_⟩
  · intro body count user s s' hjson h
    exact updateMe_patches hjson h
  · intro body settings s s' hjson h
    exact updateSettings_patches hjson h
  · intro body serverId server pg pg' hjson h
    exact updateServer_patches hjson h
  · intro parseDateTime body serverId userId member pg pg' hjson h
    exact updateMember_patches hjson h
  · intro nickname serverId member pg pg' hjson h
    exact updateSelfMember_patches hjson h
  · intro body serverId roleId role pg pg' hjson h
    exact updateRole_patches hjson h
  · intro unicode body channelId channel pg pg' hjson h
    exact updateChannel_patches hjson h
  · intro body webhookId webhook s s' hjson h
    exact updateWebhook_patches hjson h

/-! ## A timeout that stays -/

/-- user 2 is timed out by user 1 -/
def timedOut : Postgres :=
  ((updateMember 1 100 2 ⟨none, none, some (some ⟨1000⟩)⟩).run statement twoMembers).2

def timedOutMember : ServerMember := ⟨100, 2, none, none, ⟨0⟩, some ⟨1000⟩, 0⟩

def liftTimeout : Value := .object [("communication_disabled_until", .null)]

def timedOutResponse : MemberResponse :=
  ⟨⟨2, "bob", 1, none, none, none, 0, false⟩, none, none, [100], ⟨0⟩, some ⟨1000⟩, 0⟩

theorem patches_iff_liftTimeout :
    ∃ m m', memberAt timedOut 100 2 = some m ∧
      memberAt ((updateMember 1 100 2 ⟨none, none, none⟩).run statement timedOut).2 100 2 = some m' ∧
      (UpdateMemberRequest.Patched (fun _ => none) liftTimeout m m' ↔ UpdateMemberRequest.Patchable liftTimeout m) := by
  have haccepted : ((updateMember 1 100 2 ⟨none, none, none⟩).run statement timedOut).1 = .ok timedOutResponse := by decide
  exact (patches_iff liftTimeout 1).2.2.2.1 (fun _ => none) ⟨none, none, none⟩ 100 2 _ timedOut _ rfl
    (Prod.ext haccepted rfl)

/-- **A null does not lift a timeout.** The request is accepted, and the member is as before. -/
theorem null_keeps_the_timeout :
    ∃ body, (∀ parseDateTime, UpdateMemberRequest.ofJson parseDateTime liftTimeout = some body) ∧
      ((updateMember 1 100 2 body).run statement timedOut).1 = .ok timedOutResponse ∧
      memberAt timedOut 100 2 = some timedOutMember ∧
      memberAt ((updateMember 1 100 2 body).run statement timedOut).2 100 2 = some timedOutMember ∧
      ∀ parseDateTime, ¬ UpdateMemberRequest.Patched parseDateTime liftTimeout timedOutMember timedOutMember := by
  refine ⟨⟨none, none, none⟩, fun _ => rfl, by decide, by decide, by decide, ?_⟩
  intro _ h
  nomatch h.2

end Lumiere.Routes
