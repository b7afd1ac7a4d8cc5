/-
The typed statements of the models are the generated updates of `Routes/DynamicUpdates.lean`: on the rows of the typed
tables a generated update does what `update_me`, `update_settings`, `update_server`, `update_role` and `update_channel`
are modelled to do. The typed rows leave `updated_at` out.

- `profile_writes` … `channel_writes`: the changes of a request, applied to a typed row, write its fields.
- `exec_updateServer_generated` and the like: the statement that is put together has the effect of the typed one.
-/
import Lumiere.Routes.DynamicUpdates

namespace Lumiere.Routes

open Lumiere.Core Lumiere.Models Lumiere.Db

variable {length : String → Option ℕ} {beforeUpdate : Row → Row} {check : List Row → Except DbError Unit}

/-! ## One column -/

section Stores

variable {column : String} {n : ℕ}

theorem mapM_eq_ok {α β : Type} {f : α → Except DbError β} {o : Option α} {o' : Option β} :
    o.mapM f = .ok o' ↔ (o = none ∧ o' = none) ∨ ∃ a b, o = some a ∧ o' = some b ∧ f a = .ok b := by
  cases o with
  | none => simp [eq_comm, pure, Except.pure]
  | some a =>
    rcases hf : f a with e | b <;> simp [Option.mapM_some, hf, eq_comm]

theorem stores_text {field field' : Option String} {before : String} (hlength : length column = some n)
    (h : field.mapM (varchar n) = .ok field') :
    (tableSchema length beforeUpdate check).Stores column (field.map .text) (.text before)
      (.text (field'.getD before)) := by
  rcases mapM_eq_ok.1 h with ⟨rfl, rfl⟩ | ⟨a, b, rfl, rfl, hstored⟩
  · rfl
  · exact (assign_text hlength a).trans (by rw [hstored]; rfl)

/-- a text that the handler trims or normalises -/
theorem stores_mappedText {field field' : Option String} {f : String → String} {before : String}
    (hlength : length column = some n) (h : (field.map f).mapM (varchar n) = .ok field') :
    (tableSchema length beforeUpdate check).Stores column (field.map fun v => .text (f v)) (.text before)
      (.text (field'.getD before)) := by
  have hstores : (tableSchema length beforeUpdate check).Stores column ((field.map f).map .text) (.text before)
      (.text (field'.getD before)) := stores_text hlength h
  rwa [Option.map_map] at hstores

/-- a nullable column that a request cannot set to null -/
theorem stores_someText {field field' : Option String} {before : Option String} (hlength : length column = some n)
    (h : field.mapM (varchar n) = .ok field') :
    (tableSchema length beforeUpdate check).Stores column (field.map .text) (.nullable .text before)
      (.nullable .text (field'.elim before some)) := by
  rcases mapM_eq_ok.1 h with ⟨rfl, rfl⟩ | ⟨a, b, rfl, rfl, hstored⟩
  · rfl
  · exact (assign_text hlength a).trans (by rw [hstored]; rfl)

theorem stores_someMappedText {field field' : Option String} {f : String → String} {before : Option String}
    (hlength : length column = some n) (h : (field.map f).mapM (varchar n) = .ok field') :
    (tableSchema length beforeUpdate check).Stores column (field.map fun v => .text (f v)) (.nullable .text before)
      (.nullable .text (field'.elim before some)) := by
  have hstores : (tableSchema length beforeUpdate check).Stores column ((field.map f).map .text)
      (.nullable .text before) (.nullable .text (field'.elim before some)) := stores_someText hlength h
  rwa [Option.map_map] at hstores

theorem stores_nullableText {field field' : Option (Option String)} {before : Option String}
    (hlength : length column = some n) (h : field.mapM (varchar? n) = .ok field') :
    (tableSchema length beforeUpdate check).Stores column (field.map (.nullable .text)) (.nullable .text before)
      (.nullable .text (field'.getD before)) := by
  rcases mapM_eq_ok.1 h with ⟨rfl, rfl⟩ | ⟨a, b, rfl, rfl, hstored⟩
  · rfl
  · exact (assign_nullableText hlength a).trans (by rw [hstored]; rfl)

/-- a column without a length -/
theorem stores_plain {α : Type} {cell : α → Cell} {field : Option α} {before : α} (hlength : length column = none) :
    (tableSchema length beforeUpdate check).Stores column (field.map cell) (cell before)
      (cell (field.getD before)) := by
  cases field with
  | none => rfl
  | some a =>
    show assign length column (cell a) = .ok (cell a)
    unfold assign
    rw [hlength]
    split
    · rename_i heq
      nomatch heq
    · rfl

theorem stores_somePlain {α : Type} {cell : α → Cell} {field : Option α} {before : Option α}
    (hlength : length column = none) :
    (tableSchema length beforeUpdate check).Stores column (field.map cell) (.nullable cell before)
      (.nullable cell (field.elim before some)) := by
  cases field with
  | none => rfl
  | some a =>
    have hstores : (tableSchema length beforeUpdate check).Stores column ((some (some a)).map (Cell.nullable cell))
        (.nullable cell before) (.nullable cell (some a)) := stores_plain hlength
    exact hstores

end Stores

/-! ## The changes of a request -/

/-- the fields of `given` one by one, and the columns of the row that none is for -/
theorem writes_of_stores {given : List (String × Option Cell)} {row written : Row}
    (hcolumns : (given.map Prod.fst).Nodup)
    (hfields : ∀ f ∈ given, (tableSchema length beforeUpdate check).Stores f.1 f.2 (row f.1) (written f.1))
    (hothers : ∀ column, column ∉ given.map Prod.fst → written column = row column) :
    (tableSchema length beforeUpdate check).Writes given row written :=
  (Schema.writes_iff hcolumns).2 ⟨hfields, hothers⟩

theorem profile_writes {body : UpdateProfileRequest} {checked : ProfileChanges} (h : body.changes.checked = .ok checked)
    (u : Account) : (tableSchema usersLength beforeUpdate check).Writes body.given u.cells (checked.apply u).cells := by
  simp only [ProfileChanges.checked, bind_eq_ok, pure_eq_ok] at h
  obtain ⟨username, husername, avatar, havatar, banner, hbanner, bio, hbio, locale, hlocale, rfl⟩ := h
  refine writes_of_stores (generated_updateMe u.id body).columns ?_ ?_
  · simp only [UpdateProfileRequest.given, List.forall_mem_cons]
    exact ⟨stores_mappedText rfl husername, stores_nullableText rfl havatar, stores_nullableText rfl hbanner,
      stores_someText rfl hbio, stores_text rfl hlocale, fun _ h => (List.not_mem_nil h).elim⟩
  · intro column hcolumn
    simp only [UpdateProfileRequest.given, List.map_cons, List.map_nil, List.mem_cons, not_or] at hcolumn
    unfold Account.cells
    split <;> first | rfl | simp at hcolumn

theorem settings_writes {body : UpdateSettingsRequest} {checked : SettingsChanges}
    (h : body.changes.checked = .ok checked) (s : UserSettings) :
    (tableSchema userSettingsLength beforeUpdate check).Writes body.given s.cells (checked.apply s).cells := by
  simp only [SettingsChanges.checked, bind_eq_ok, pure_eq_ok] at h
  obtain ⟨theme, htheme, display, hdisplay, locale, hlocale, status, hstatus, rfl⟩ := h
  refine writes_of_stores (generated_updateSettings s.userId body).columns ?_ ?_
  · simp only [UpdateSettingsRequest.given, List.forall_mem_cons]
    exact ⟨stores_text rfl htheme, stores_text rfl hdisplay, stores_text rfl hlocale, stores_plain rfl, stores_plain rfl,
      stores_plain rfl, stores_plain rfl, stores_plain rfl, stores_plain rfl, stores_plain rfl, stores_text rfl hstatus,
      stores_plain rfl, stores_plain rfl, stores_plain rfl, fun _ h => (List.not_mem_nil h).elim⟩
  · intro column hcolumn
    simp only [UpdateSettingsRequest.given, List.map_cons, List.map_nil, List.mem_cons, not_or] at hcolumn
    unfold UserSettings.cells
    split <;> first | rfl | simp at hcolumn

theorem server_writes {body : UpdateServerRequest} {checked : ServerChanges} (h : body.changes.checked = .ok checked)
    (s : Server) :
    (tableSchema serversLength beforeUpdate check).Writes body.given s.cells (checked.apply s).cells := by
  simp only [ServerChanges.checked, bind_eq_ok, pure_eq_ok] at h
  obtain ⟨name, hname, icon, hicon, banner, hbanner, description, hdescription, region, hregion, rfl⟩ := h
  refine writes_of_stores (generated_updateServer s.id body).columns ?_ ?_
  · simp only [UpdateServerRequest.given, List.forall_mem_cons]
    exact ⟨stores_mappedText rfl hname, stores_nullableText rfl hicon, stores_nullableText rfl hbanner,
      stores_nullableText rfl hdescription, stores_nullableText rfl hregion, stores_plain rfl, stores_plain rfl,
      stores_plain rfl, stores_plain rfl, stores_plain rfl, fun _ h => (List.not_mem_nil h).elim⟩
  · intro column hcolumn
    simp only [UpdateServerRequest.given, List.map_cons, List.map_nil, List.mem_cons, not_or] at hcolumn
    unfold Server.cells
    split <;> first | rfl | simp at hcolumn

theorem role_writes {body : UpdateRoleRequest} {parsedPermissions : Option (BitVec 64)} {checked : RoleChanges}
    (hparsed : body.permissions.mapM (fun v => (Str.parseI64 v).map (BitVec.ofInt 64)) = some parsedPermissions)
    (h : (body.changes parsedPermissions).checked = .ok checked) (r : Role) :
    (tableSchema rolesLength beforeUpdate check).Writes body.given r.cells (checked.apply r).cells := by
  simp only [RoleChanges.checked, bind_eq_ok, pure_eq_ok] at h
  obtain ⟨name, hname, icon, hicon, rfl⟩ := h
  refine writes_of_stores (generated_updateRole r.id r.serverId body hparsed).columns ?_ ?_
  · simp only [UpdateRoleRequest.given, List.forall_mem_cons]
    refine ⟨stores_mappedText rfl hname, stores_plain rfl, stores_plain rfl, stores_nullableText rfl hicon,
      stores_plain rfl, ?_, stores_plain rfl, fun _ h => (List.not_mem_nil h).elim⟩
    rw [← bound_permissions hparsed]
    exact stores_plain rfl
  · intro column hcolumn
    simp only [UpdateRoleRequest.given, List.map_cons, List.map_nil, List.mem_cons, not_or] at hcolumn
    unfold Role.cells
    split <;> first | rfl | simp at hcolumn

theorem channel_writes {unicode : Unicode} {channelType : ℤ} {body : UpdateChannelRequest} {checked : ChannelChanges}
    (h : (body.changes unicode channelType).checked = .ok checked) (c : Channel) :
    (tableSchema channelsLength beforeUpdate check).Writes (body.given unicode channelType) c.cells
      (checked.apply c).cells := by
  simp only [ChannelChanges.checked, bind_eq_ok, pure_eq_ok] at h
  obtain ⟨name, hname, topic, htopic, rfl⟩ := h
  refine writes_of_stores (generated_updateChannel unicode c.id channelType body).columns ?_ ?_
  · simp only [UpdateChannelRequest.given, List.forall_mem_cons]
    exact ⟨stores_someMappedText rfl hname, stores_nullableText rfl htopic, stores_plain rfl, stores_plain rfl,
      stores_somePlain rfl, stores_somePlain rfl, stores_plain rfl, stores_plain rfl,
      fun _ h => (List.not_mem_nil h).elim⟩
  · intro column hcolumn
    simp only [UpdateChannelRequest.given, List.map_cons, List.map_nil, List.mem_cons, not_or] at hcolumn
    unfold Channel.cells
    split <;> first | rfl | simp at hcolumn

/-! ## The rows that are addressed -/

section Addressed

variable {row : Row} {where' : List (String × Cell)} {nulls : List String} {column : String}

theorem addressed_nil : addressed [] [] row = true := rfl

theorem addressed_key {a : ℤ} (h : row column = .int a) (b : ℤ) :
    addressed ((column, .int b) :: where') nulls row = (decide (a = b) && addressed where' nulls row) := by
  rw [addressed, addressed, List.all_cons, h, Bool.and_assoc]
  rfl

theorem addressed_null {α : Type} {cell : α → Cell} {a : Option α} (hcell : ∀ a, (cell a).isNull = false)
    (h : row column = .nullable cell a) : addressed [] (column :: nulls) row = (a.isNone && addressed [] nulls row) := by
  rw [addressed, addressed, List.all_cons, h, List.all_nil, Bool.true_and, Bool.true_and]
  cases a with
  | none => rfl
  | some a => rw [Cell.nullable, Option.elim_some, hcell]; rfl

end Addressed

/-! ## The statements -/

deriving instance Inhabited for Account, UserSettings, Server, Role, Channel

/-- a generated update on the rows of a typed table -/
theorem exec_typed {α κ : Type} [Inhabited α] {key : α → κ} {t : Table key} {cells : α → Row} {f : α → α} {p : α → Bool}
    (hf : ∀ a, key (f a) = key a) {u : Update String Cell} {where' : List (String × Cell)} {nulls : List String}
    {given : List (String × Option Cell)} (h : u.Generated where' nulls given)
    (hp : ∀ a, addressed where' nulls (cells a) = p a)
    (hwrites : ∀ a, (tableSchema length id fun _ => .ok ()).Writes given (cells a) (cells (f a))) :
    u.exec (tableSchema length id fun _ => .ok ()) (t.rows.map cells) = .ok ((t.updateWhere p f hf).rows.map cells) := by
  refine h.exec_of_writes (f := fun a => cells (f a)) ?_ hwrites ?_ rfl
  · intro column v hfield
    exact ⟨_, (hwrites default).given column v hfield⟩
  · rw [Table.updateWhere, List.map_map]
    refine List.map_congr_left fun a _ => ?_
    have haddressed : (tableSchema length id fun _ => .ok ()).addressed where' nulls (cells a) = p a := hp a
    rw [Function.comp_apply, haddressed]
    split <;> rfl

variable {s s' : Accounts} {pg pg' : Postgres} {n : ℕ}

theorem exec_updateMe_generated {auth : ℤ} {body : UpdateProfileRequest}
    (h : s.exec (.updateProfile auth body.changes) = .ok (n, s')) :
    (updateMeStatement auth body).exec (tableSchema usersLength id fun _ => .ok ()) (s.users.rows.map Account.cells) =
      .ok (s'.users.rows.map Account.cells) := by
  obtain ⟨checked, hchecked, -, rfl⟩ := exec_updateProfile h
  refine exec_typed checked.apply_id (generated_updateMe auth body) (fun u => ?_) (profile_writes hchecked)
  rw [addressed_key (a := u.id) rfl, addressed_null (a := u.deletedAt) (fun _ => rfl) rfl, addressed_nil, Bool.and_true]

theorem exec_updateSettings_generated {auth : ℤ} {body : UpdateSettingsRequest}
    (h : s.exec (.updateSettings auth body.changes) = .ok (n, s')) :
    (updateSettingsStatement auth body).exec (tableSchema userSettingsLength id fun _ => .ok ())
      (s.settings.rows.map UserSettings.cells) = .ok (s'.settings.rows.map UserSettings.cells) := by
  obtain ⟨checked, hchecked, -, rfl⟩ := exec_updateSettings h
  exact exec_typed checked.apply_userId (generated_updateSettings auth body)
    (fun r => by rw [addressed_key (a := r.userId) rfl, addressed_nil, Bool.and_true]) (settings_writes hchecked)

theorem exec_updateServer_generated {serverId : ℤ} {body : UpdateServerRequest}
    (h : Sql.exec pg (.updateServer serverId body.changes) = .ok (n, pg')) :
    (updateServerStatement serverId body).exec (tableSchema serversLength id fun _ => .ok ())
      (pg.servers.rows.map Server.cells) = .ok (pg'.servers.rows.map Server.cells) := by
  obtain ⟨checked, hchecked, rfl⟩ := exec_updateServer_checked h
  exact exec_typed checked.apply_id (generated_updateServer serverId body)
    (fun r => by rw [addressed_key (a := r.id) rfl, addressed_nil, Bool.and_true]) (server_writes hchecked)

theorem exec_updateRole_generated {roleId serverId : ℤ} {body : UpdateRoleRequest}
    {parsedPermissions : Option (BitVec 64)}
    (hparsed : body.permissions.mapM (fun v => (Str.parseI64 v).map (BitVec.ofInt 64)) = some parsedPermissions)
    (h : Sql.exec pg (.updateRole roleId serverId (body.changes parsedPermissions)) = .ok (n, pg')) :
    (updateRoleStatement roleId serverId body parsedPermissions).exec (tableSchema rolesLength id fun _ => .ok ())
      (pg.roles.rows.map Role.cells) = .ok (pg'.roles.rows.map Role.cells) := by
  simp only [Sql.exec, bind_eq_ok, pure_eq_ok, Prod.mk.injEq] at h
  obtain ⟨checked, hchecked, -, rfl⟩ := h
  exact exec_typed checked.apply_id (generated_updateRole roleId serverId body hparsed)
    (fun r => by
      rw [addressed_key (a := r.id) rfl, addressed_key (a := r.serverId) rfl, addressed_nil, Bool.and_true])
    (role_writes hparsed hchecked)

theorem exec_updateChannel_generated {unicode : Unicode} {channelId channelType : ℤ} {body : UpdateChannelRequest}
    (h : Stmt.exec pg (.updateChannel channelId (body.changes unicode channelType)) = .ok (n, pg')) :
    (updateChannelStatement unicode channelId channelType body).exec (tableSchema channelsLength id fun _ => .ok ())
      (pg.channels.rows.map Channel.cells) = .ok (pg'.channels.rows.map Channel.cells) := by
  obtain ⟨checked, hchecked, rfl⟩ := exec_updateChannel_checked h
  exact exec_typed checked.apply_id (generated_updateChannel unicode channelId channelType body)
    (fun c => by rw [addressed_key (a := c.id) rfl, addressed_nil, Bool.and_true]) (channel_writes hchecked)

end Lumiere.Routes
