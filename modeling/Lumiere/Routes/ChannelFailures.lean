/-
What refused channel writes leave behind (`lumiere-server/src/routes/channels.rs`). `create_channel` inserts the channel
and then its overrides one by one; `update_channel` writes the row before it looks at the overrides, which it replaces in
a transaction; `reorder_channels` writes one row for each element of its list.

- `run_writeOverrides`: the overrides go in exactly if their types are known, no target comes twice and none is there.
- `createChannel_kept_iff`, `updateChannel_kept_iff`, `reorderChannels_kept_iff`: when a refused request has changed
  nothing. `channelWrites_kept_iff`: the three together. The rows are without `updated_at`, which a trigger sets on every
  `UPDATE`.
- `half_written`: refused requests that leave a new channel, a new name and a new position behind.
-/
import Lumiere.Core.Outcome
import Lumiere.Routes.ChannelTree
import Lumiere.Routes.ServerEdits

namespace Lumiere.Routes

open Lumiere.Core Lumiere.Core.Prog Lumiere.Models Lumiere.Db

variable {pg pg₁ pg' : Postgres} {auth serverId channelId : ℤ}

theorem succeeds_sql {α : Type} {h : Handler α} : (sql h).succeeds perform pg = h.succeeds statement pg := by
  rw [Prog.succeeds, Prog.succeeds, run_sql]

/-! ## Overrides -/

/-- no target comes twice, and none has an override on the channel -/
structure Insertable (pg : Postgres) (channelId : ℤ) (ovs : List PermissionOverrideInput) : Prop where
  nodup : (ovs.map PermissionOverrideInput.id).Nodup
  fresh : ∀ ov ∈ ovs, ∀ o ∈ pg.permissionOverrides, o.channelId = channelId → o.targetId ≠ ov.id

/-- overrides of `bad` ones refused, one by one -/
def writeOverrides (bad : PermissionOverrideInput → Bool) (channelId : ℤ) (ovs : List PermissionOverrideInput) :
    PgHandler Unit :=
  ovs.forM fun ov => do
    failIf (bad ov) badTargetType
    execute (.insertOverride (ov.row channelId))

theorem writeOverrides_cons (bad : PermissionOverrideInput → Bool) (channelId : ℤ) (ov : PermissionOverrideInput)
    (ovs : List PermissionOverrideInput) : writeOverrides bad channelId (ov :: ovs) = (do
      failIf (bad ov) badTargetType
      execute (.insertOverride (ov.row channelId))
      writeOverrides bad channelId ovs) :=
  bind_bind _ _ _

theorem insertable_cons {ov : PermissionOverrideInput} {ovs : List PermissionOverrideInput}
    (hfresh : ∀ o ∈ pg.permissionOverrides, o.channelId = channelId → o.targetId ≠ ov.id)
    (hmem : ∀ o, o ∈ pg₁.permissionOverrides ↔ o ∈ pg.permissionOverrides ∨ o = ov.row channelId) :
    Insertable pg₁ channelId ovs ↔ Insertable pg channelId (ov :: ovs) := by
  constructor
  · intro h
    refine ⟨?_, fun ov' hov' o ho hid => ?_⟩
    · rw [List.map_cons, List.nodup_cons]
      refine ⟨fun hid => ?_, h.nodup⟩
      obtain ⟨ov', hov', heq⟩ := List.mem_map.1 hid
      exact h.fresh ov' hov' _ ((hmem _).2 (.inr rfl)) rfl heq.symm
    · rcases List.mem_cons.1 hov' with rfl | hov'
      · exact hfresh o ho hid
      · exact h.fresh ov' hov' o ((hmem o).2 (.inl ho)) hid
  · intro h
    obtain ⟨hnot, hnodup⟩ := List.nodup_cons.1 h.nodup
    refine ⟨hnodup, fun ov' hov' o ho hid => ?_⟩
    rcases (hmem o).1 ho with ho | rfl
    · exact h.fresh ov' (List.mem_cons_of_mem _ hov') o ho hid
    · intro heq
      exact hnot (List.mem_map.2 ⟨ov', hov', heq.symm⟩)

theorem run_insertOverride (hchannel : pg.hasChannel channelId = true) (ov : PermissionOverrideInput) :
    (∃ pg₁, (execute (.insertOverride (ov.row channelId)) : PgHandler Unit).run perform pg = (.ok (), pg₁) ∧
        pg₁.channels = pg.channels ∧
        (∀ o ∈ pg.permissionOverrides, o.channelId = channelId → o.targetId ≠ ov.id) ∧
        ∀ o, o ∈ pg₁.permissionOverrides ↔ o ∈ pg.permissionOverrides ∨ o = ov.row channelId) ∨
      ∃ e, (execute (.insertOverride (ov.row channelId)) : PgHandler Unit).run perform pg = (.error e, pg) ∧
        ∃ o ∈ pg.permissionOverrides, o.channelId = channelId ∧ o.targetId = ov.id := by
  rcases hinsert : pg.permissionOverrides.insert? (ov.row channelId) with _ | permissionOverrides
  · obtain ⟨o, ho, hkey⟩ := Table.insert?_eq_none hinsert
    refine .inr ⟨dbErr (.duplicateKey "permission_overrides_pkey"), ?_, o, ho, Prod.mk.inj hkey⟩
    rw [execute, run_exec, perform, Stmt.exec, unique, hinsert]
    rfl
  · obtain ⟨hnew, hmem⟩ := Table.insert?_eq_some hinsert
    have hexec : Stmt.exec pg (.insertOverride (ov.row channelId)) = .ok (1, { pg with permissionOverrides }) := by
      simp only [Stmt.exec, bind_eq_ok, unique_eq_ok, requires_eq_ok]
      exact ⟨permissionOverrides, hinsert, (), hchannel, rfl⟩
    exact .inl ⟨_, execute_eq_ok.2 ⟨1, perform_eq_ok.2 hexec⟩, rfl,
      fun o ho hid htarget => hnew o ho (Prod.ext hid htarget), hmem⟩

/-- the loop gets to its end exactly if no override is refused -/
theorem run_writeOverrides (bad : PermissionOverrideInput → Bool) (hchannel : pg.hasChannel channelId = true)
    (ovs : List PermissionOverrideInput) :
    ∃ r pg₁, (writeOverrides bad channelId ovs).run perform pg = (r, pg₁) ∧ pg₁.channels = pg.channels ∧
      (r.isOk = true ↔ (∀ ov ∈ ovs, bad ov = false) ∧ Insertable pg channelId ovs) := by
  induction ovs generalizing pg with
  | nil => exact ⟨.ok (), pg, rfl, rfl, iff_of_true rfl ⟨nofun, ⟨List.nodup_nil, nofun⟩⟩⟩
  | cons ov ovs ih =>
    rw [writeOverrides_cons]
    rcases hbad : bad ov with _ | _
    · have hcheck : (failIf (false = true) badTargetType : PgHandler Unit).run perform pg = (.ok (), pg) := rfl
      rw [run_bind_of_ok hcheck]
      rcases run_insertOverride hchannel ov with ⟨pg₁, hrun, hsame, hfresh, hmem⟩ | ⟨e, hrun, o, ho, hid, htarget⟩
      · have hchannel₁ : pg₁.hasChannel channelId = true := by rwa [Postgres.hasChannel, hsame]
        obtain ⟨r, pg₂, hrest, hchannels, hok⟩ := ih hchannel₁
        rw [run_bind_of_ok hrun]
        refine ⟨r, pg₂, hrest, hchannels.trans hsame, hok.trans ?_⟩
        rw [insertable_cons hfresh hmem, List.forall_mem_cons]
        exact and_congr_left fun _ => (and_iff_right hbad).symm
      · rw [run_bind_of_error hrun]
        refine ⟨.error e, pg, rfl, rfl, iff_of_false Bool.false_ne_true fun h => ?_⟩
        exact h.2.fresh ov List.mem_cons_self o ho hid htarget
    · have hcheck : (failIf (true = true) badTargetType : PgHandler Unit).run perform pg =
          (.error badTargetType, pg) := rfl
      rw [run_bind_of_error hcheck]
      refine ⟨.error badTargetType, pg, rfl, rfl, iff_of_false Bool.false_ne_true fun h => ?_⟩
      have hgood := h.1 ov List.mem_cons_self
      rw [hbad] at hgood
      cases hgood

/-! ## `create_channel` -/

/-- the actor may create the channel -/
structure MayCreate (pg : Postgres) (auth serverId : ℤ) (body : CreateChannelRequest) : Prop where
  valid : body.validate = []
  allowed : pg.hasMember serverId auth = true ∧ .manageChannels ⊆ pg.userPermissions serverId auth
  type : body.channelType.getD 0 ∈ [0, 2, 4, 5]
  room : (pg.channels.count fun c => c.serverId = some serverId) < 500
  parent : ∀ p, body.parentId = some p →
    (∃ c ∈ pg.channels, c.id = p ∧ c.serverId = some serverId ∧ c.type = 4) ∧ children pg p < 50
  bitrate : body.channelType.getD 0 = 2 → body.bitrate.any badBitrate = false
  rateLimit : body.rateLimit.any badRateLimit = false

theorem checkParent_iff {p : ℤ} : (checkParent serverId p).succeeds statement pg = true ↔
    (∃ c ∈ pg.channels, c.id = p ∧ c.serverId = some serverId ∧ c.type = 4) ∧ children pg p < 50 := by
  rw [succeeds_iff_ends, checkParent, ends_bind, ends_select, ends_bind, ends_orFail]
  simp only [ends_bind, ends_passes, ends_select, not_not, not_le, imp_false]
  constructor
  · rintro ⟨hsome, hrest⟩
    obtain ⟨c, hfind⟩ := Option.ne_none_iff_exists'.1 hsome
    obtain ⟨htype, hroom⟩ := hrest c hfind
    obtain ⟨hc, hkey⟩ := Table.mem_of_find? hfind
    obtain ⟨hid, hserver⟩ := Bool.and_eq_true_iff.1 hkey
    exact ⟨⟨c, hc, of_decide_eq_true hid, of_decide_eq_true hserver, htype⟩, hroom.1⟩
  · rintro ⟨⟨c, hc, rfl, hserver, htype⟩, hroom⟩
    have hfind : pg.channels.find? (fun d => d.id = c.id && d.serverId = some serverId) = some c :=
      Table.find?_of_mem hc (by simp [hserver]) fun d hd hkey =>
        Table.eq_of_key_eq hd hc (of_decide_eq_true (Bool.and_eq_true_iff.1 hkey).1)
    rw [hfind]
    refine ⟨by simp, fun d hd => ?_⟩
    obtain rfl := Option.some.inj hd
    exact ⟨htype, hroom, trivial⟩

theorem createChannelChecks_iff {body : CreateChannelRequest} :
    (createChannelChecks auth serverId body).succeeds statement pg = true ↔ MayCreate pg auth serverId body := by
  rw [succeeds_iff_ends, createChannelChecks, ends_bind, ends_passes, ends_bind,
    ends_succeeds readOnly_requirePermissions, succeeds_requirePermissions, ends_bind, ends_passes, ends_bind,
    ends_select, ends_bind, ends_passes, ends_bind]
  have hparent : ∀ Q : Unit → Postgres → Prop, (body.parentId.forM (checkParent serverId)).Ends statement pg Q
      (fun _ _ => False) ↔ (∀ p, body.parentId = some p →
        (∃ c ∈ pg.channels, c.id = p ∧ c.serverId = some serverId ∧ c.type = 4) ∧ children pg p < 50) ∧ Q () pg := by
    intro Q
    rcases body.parentId with _ | p
    · exact (and_iff_right (by simp)).symm
    · rw [Option.forM, ends_succeeds readOnly_checkParent, checkParent_iff]
      simp only [Option.some.injEq, forall_eq']
  rw [hparent, ends_bind, ends_passes, ends_passes]
  simp only [ne_eq, not_not, not_le, not_and, Bool.not_eq_true]
  constructor
  · rintro ⟨hvalid, hallowed, htype, hroom, hparent, hbitrate, hrate, -⟩
    exact ⟨hvalid, hallowed, htype, hroom, hparent, hbitrate, hrate⟩
  · rintro ⟨hvalid, hallowed, htype, hroom, hparent, hbitrate, hrate⟩
    exact ⟨hvalid, hallowed, htype, hroom, hparent, hbitrate, hrate, trivial⟩

/-- the row can be inserted -/
structure ChannelStorable (pg : Postgres) (row : Channel) : Prop where
  name : (varchar? 100 row.name).isOk = true
  topic : (varchar? 1024 row.topic).isOk = true
  fresh : pg.hasChannel row.id = false
  server : row.serverId.all pg.hasServer = true
  parent : row.parentId.all pg.hasChannel = true

theorem exec_insertChannel_ok {row : Channel} :
    (∃ r, Sql.exec pg (.insertChannel row) = .ok r) ↔ ChannelStorable pg row := by
  simp only [Sql.exec, bind_eq_ok, unique_eq_ok, requires_eq_ok]
  constructor
  · rintro ⟨r, name, hname, topic, htopic, channels, hinsert, _, hserver, _, hparent, -⟩
    refine ⟨by rw [hname]; rfl, by rw [htopic]; rfl, ?_, hserver, hparent⟩
    rw [Postgres.hasChannel, Table.any_eq_false]
    exact fun c hc => decide_eq_false ((Table.insert?_eq_some hinsert).1 c hc)
  · intro h
    have hname := h.name
    have htopic := h.topic
    have hfresh := h.fresh
    rcases hname' : varchar? 100 row.name with e | name
    · rw [hname'] at hname
      cases hname
    rcases htopic' : varchar? 1024 row.topic with e | topic
    · rw [htopic'] at htopic
      cases htopic
    rw [Postgres.hasChannel, Table.any_eq_false] at hfresh
    have hinsert := Table.insert?_of_forall_ne (t := pg.channels) (a := { row with name, topic }) fun c hc =>
      of_decide_eq_false (hfresh c hc)
    exact ⟨_, name, rfl, topic, rfl, _, hinsert, (), h.server, (), h.parent, rfl⟩

theorem exec_insertChannel {row : Channel} {n : ℕ} (h : Sql.exec pg (.insertChannel row) = .ok (n, pg')) :
    pg'.permissionOverrides = pg.permissionOverrides ∧ pg'.hasChannel row.id = true := by
  simp only [Sql.exec, bind_eq_ok, pure_eq_ok, unique_eq_ok, Prod.mk.injEq] at h
  obtain ⟨name, -, topic, -, channels, hinsert, _, -, _, -, -, rfl⟩ := h
  exact ⟨rfl, Table.any_eq_true.2 ⟨_, ((Table.insert?_eq_some hinsert).2 _).2 (.inr rfl), decide_eq_true rfl⟩⟩

/-- no channel and no override is there that was not -/
structure NothingAdded (pg pg' : Postgres) : Prop where
  channels : pg'.channels = pg.channels
  overrides : pg'.permissionOverrides = pg.permissionOverrides

theorem NothingAdded.refl : NothingAdded pg pg := ⟨rfl, rfl⟩

/-- nothing is refused once the channel is there -/
def CreateStands (unicode : Unicode) (pg : Postgres) (auth serverId : ℤ) (body : CreateChannelRequest)
    (channelId : ℤ) (now : DateTime) : Prop :=
  MayCreate pg auth serverId body → ChannelStorable pg (createdChannel unicode serverId body channelId now) →
    ∀ ovs, body.permissionOverrides = some ovs →
      (∀ ov ∈ ovs, ov.badType = false) ∧ Insertable pg channelId ovs

theorem run_fetchChannel (pg : Postgres) (channelId : ℤ) (h : pg.hasChannel channelId = true) :
    ∃ c, (sql (fetchChannel channelId)).run perform pg = (.ok c, pg) := by
  rw [run_sql]
  obtain ⟨c, hc, hid⟩ := Table.any_eq_true.1 h
  have hfind : pg.channels.find? (fun c => c.id = channelId) = some c := Table.find?_key.2 ⟨hc, of_decide_eq_true hid⟩
  rw [fetchChannel, run_bind_of_ok (run_select _), hfind]
  exact ⟨_, rfl⟩

theorem createChannel_kept_iff (unicode : Unicode) (pg : Postgres) (auth serverId : ℤ) (body : CreateChannelRequest)
    (channelId : ℤ) (now : DateTime) :
    (createChannel unicode auth serverId body channelId now).AllOrNothing perform NothingAdded pg ↔
      CreateStands unicode pg auth serverId body channelId now := by
  rw [allOrNothing_iff, createChannel, ends_guarded (readOnly_sql readOnly_createChannelChecks) fun _ => NothingAdded.refl,
    succeeds_sql, createChannelChecks_iff, CreateStands]
  refine imp_congr_right fun _ => ?_
  rw [← exec_insertChannel_ok, ends_bind]
  rcases hexec : Sql.exec pg (.insertChannel (createdChannel unicode serverId body channelId now)) with e | ⟨n, pg₁⟩
  · have hrun : (execute (.sql (.insertChannel (createdChannel unicode serverId body channelId now))) :
        PgHandler Unit).run perform pg = (.error (dbErr e), pg) := by
      rw [execute, run_exec, perform, Stmt.exec, hexec]
    rw [ends_of_error hrun]
    exact iff_of_true NothingAdded.refl (by rintro ⟨_, ⟨⟩⟩)
  · have hrun : (execute (.sql (.insertChannel (createdChannel unicode serverId body channelId now))) :
        PgHandler Unit).run perform pg = (.ok (), pg₁) := execute_eq_ok.2 ⟨n, perform_eq_ok.2 hexec⟩
    obtain ⟨hoverrides, hnew⟩ := exec_insertChannel hexec
    have hchannel : pg₁.hasChannel channelId = true := hnew
    have hkept : ∀ pg₂ : Postgres, pg₂.channels = pg₁.channels → ¬ NothingAdded pg pg₂ := by
      intro pg₂ hsame hnothing
      have hold := (exec_insertChannel_ok.1 ⟨_, hexec⟩).fresh
      rw [Postgres.hasChannel, ← hnothing.channels, hsame] at hold
      rw [Postgres.hasChannel] at hnew
      rw [hnew] at hold
      cases hold
    rw [ends_of_ok hrun, forall_prop_of_true ⟨_, rfl⟩]
    rcases hbody : body.permissionOverrides with _ | ovs
    · obtain ⟨c, hfetch⟩ := run_fetchChannel pg₁ channelId hchannel
      refine iff_of_true ?_ (by rintro _ ⟨⟩)
      exact (ends_of_ok hfetch).2 trivial
    · obtain ⟨r, pg₂, hwrite, hchannels, hok⟩ := run_writeOverrides PermissionOverrideInput.badType hchannel ovs
      have hinsertable : Insertable pg₁ channelId ovs ↔ Insertable pg channelId ovs :=
        ⟨fun h => ⟨h.nodup, hoverrides ▸ h.fresh⟩, fun h => ⟨h.nodup, hoverrides ▸ h.fresh⟩⟩
      simp only [Option.some.injEq, forall_eq']
      rw [← hinsertable, ← hok, ends_bind]
      change (writeOverrides _ channelId ovs).Ends perform pg₁ _ _ ↔ _
      rcases r with e | _
      · rw [ends_of_error hwrite]
        exact iff_of_false (hkept pg₂ hchannels) Bool.false_ne_true
      · rw [ends_of_ok hwrite]
        obtain ⟨c, hfetch⟩ := run_fetchChannel pg₂ channelId (by rwa [Postgres.hasChannel, hchannels])
        exact iff_of_true ((ends_of_ok hfetch).2 trivial) rfl

/-! ## `update_channel` -/

def channelAt (pg : Postgres) (channelId : ℤ) : Option Channel := pg.channels.find? fun c => c.id = channelId

theorem hasChannel_of_channelAt {c : Channel} (h : channelAt pg channelId = some c) :
    pg.hasChannel channelId = true := by
  obtain ⟨hc, hid⟩ := Table.find?_key.1 h
  exact Table.any_eq_true.2 ⟨c, hc, decide_eq_true hid⟩

/-- the actor may update a channel of the server -/
structure MayUpdate (pg : Postgres) (auth serverId : ℤ) (body : UpdateChannelRequest) : Prop where
  allowed : pg.hasMember serverId auth = true ∧ .manageChannels ⊆ pg.userPermissions serverId auth
  name : (body.name.any fun name => (Str.trim name).isEmpty || 100 < name.utf8ByteSize) = false
  topic : (body.topic.any fun topic => topic.any fun t => 1024 < t.utf8ByteSize) = false
  bitrate : body.bitrate.any badBitrate = false
  rateLimit : body.rateLimit.any badRateLimit = false

theorem updateChannelChecks_iff {body : UpdateChannelRequest} {type : ℤ} :
    (updateChannelChecks auth channelId body).run statement pg = (.ok (serverId, type), pg) ↔
      (∃ c, channelAt pg channelId = some c ∧ c.serverId = some serverId ∧ c.type = type) ∧
        MayUpdate pg auth serverId body := by
  simp only [updateChannelChecks, serverChannel, run_bind_eq_ok, run_select, orFail_eq_ok, failIf_eq_ok, run_pure,
    Prod.mk.injEq, Except.ok.injEq, Bool.not_eq_true]
  constructor
  · rintro ⟨⟨_, _⟩, _, ⟨_, _, ⟨rfl, rfl⟩, c, _, ⟨hfind, rfl⟩, _, _, ⟨hserver, rfl⟩, ⟨rfl, rfl⟩, rfl⟩, _, _, hperms, _, _,
      ⟨hname, rfl⟩, _, _, ⟨htopic, rfl⟩, _, _, ⟨hbitrate, rfl⟩, _, _, ⟨hrate, rfl⟩, ⟨rfl, rfl⟩, -⟩
    obtain ⟨hmember, hperms, -⟩ := requirePermissions_eq_ok.1 hperms
    exact ⟨⟨c, hfind, hserver, rfl⟩, ⟨hmember, hperms⟩, hname, htopic, hbitrate, hrate⟩
  · rintro ⟨⟨c, hfind, hserver, rfl⟩, ⟨hmember, hperms⟩, hname, htopic, hbitrate, hrate⟩
    have hallowed := requirePermissions_eq_ok.2 ⟨hmember, hperms, rfl⟩
    exact ⟨(serverId, c.type), pg, ⟨_, pg, ⟨rfl, rfl⟩, c, pg, ⟨hfind, rfl⟩, serverId, pg, ⟨hserver, rfl⟩, rfl, rfl⟩,
      (), pg, hallowed, (), pg, ⟨hname, rfl⟩, (), pg, ⟨htopic, rfl⟩, (), pg, ⟨hbitrate, rfl⟩, (), pg, ⟨hrate, rfl⟩,
      ⟨rfl, rfl⟩, rfl⟩

/-- the columns as they are stored, if the row can be updated -/
def StoredAs (pg : Postgres) (changes stored : ChannelChanges) : Prop :=
  changes.checked = .ok stored ∧ ∀ p, changes.parentId = some (some p) → pg.hasChannel p = true

theorem parentReference_eq_ok {parentId : Option (Option ℤ)} {u : Unit} :
    pg.parentReference parentId = .ok u ↔ ∀ p, parentId = some (some p) → pg.hasChannel p = true := by
  unfold Postgres.parentReference
  split
  · simp [requires_eq_ok]
  · rename_i hnone
    exact iff_of_true rfl fun p hp => (hnone p hp).elim

theorem stored_parentId {changes stored : ChannelChanges} (h : changes.checked = .ok stored) :
    stored.parentId = changes.parentId := by
  simp only [ChannelChanges.checked, bind_eq_ok, pure_eq_ok] at h
  obtain ⟨_, -, _, -, rfl⟩ := h
  rfl

theorem eq_of_isEmpty {changes : ChannelChanges} (h : changes.isEmpty = true) :
    changes = ⟨none, none, none, none, none, none, none, none⟩ := by
  rcases changes with ⟨name, topic, position, parentId, bitrate, userLimit, rateLimit, nsfw⟩
  simp only [ChannelChanges.isEmpty, Bool.and_eq_true, Option.isNone_iff_eq_none, and_assoc] at h
  obtain ⟨rfl, rfl, rfl, rfl, rfl, rfl, rfl, rfl⟩ := h
  rfl

/-- the update of the row, if there is one -/
def updateRow (channelId : ℤ) (changes : ChannelChanges) : PgHandler Unit :=
  when (!changes.isEmpty) (execute (.updateChannel channelId changes))

theorem run_updateRow {c : Channel} (hc : channelAt pg channelId = some c) (changes : ChannelChanges) :
    (∃ pg₁ stored, StoredAs pg changes stored ∧ (updateRow channelId changes).run perform pg = (.ok (), pg₁) ∧
        channelAt pg₁ channelId = some (stored.apply c) ∧ pg₁.permissionOverrides = pg.permissionOverrides) ∨
      (∀ stored, ¬ StoredAs pg changes stored) ∧
        ∃ e, (updateRow channelId changes).run perform pg = (.error e, pg) := by
  have hchannel := hasChannel_of_channelAt hc
  rw [updateRow]
  rcases hempty : changes.isEmpty with _ | _
  · rcases run_execute_cases perform (.updateChannel channelId changes) pg with ⟨n, pg₁, hexec, hrun⟩ | ⟨e, hrun⟩
    · have hstmt := perform_eq_ok.1 hexec
      simp only [Stmt.exec, bind_eq_ok, hchannel, if_true, parentReference_eq_ok] at hstmt
      obtain ⟨stored, hstored, _, hparent, hrest⟩ := hstmt
      obtain ⟨-, rfl⟩ := Prod.mk.inj (Except.ok.inj hrest)
      refine .inl ⟨_, stored, ⟨hstored, stored_parentId hstored ▸ hparent⟩, hrun, ?_, rfl⟩
      refine (Table.find?_updateWhere stored.apply_id channelId).trans ?_
      rw [channelAt] at hc
      rw [hc, Option.map_some, if_pos (decide_eq_true (Table.find?_key.1 hc).2)]
    · refine .inr ⟨fun stored h => ?_, e, hrun⟩
      have hexec : ∃ r, Stmt.exec pg (.updateChannel channelId changes) = .ok r := by
        simp only [Stmt.exec, bind_eq_ok, hchannel, if_true, parentReference_eq_ok]
        have hsame := stored_parentId h.1
        exact ⟨_, stored, h.1, (), hsame ▸ h.2, rfl⟩
      obtain ⟨⟨n, pg₁⟩, hexec⟩ := hexec
      rw [(execute_eq_ok (u := ())).2 ⟨n, perform_eq_ok.2 hexec⟩] at hrun
      cases hrun
  · obtain rfl := eq_of_isEmpty hempty
    exact .inl ⟨pg, _, ⟨rfl, by rintro _ ⟨⟩⟩, rfl, hc, rfl⟩

/-- replaces the overrides, or fails and leaves them -/
theorem run_replaceOverrides (hchannel : pg.hasChannel channelId = true) (ovs : List PermissionOverrideInput) :
    ∃ r pg₁, (replaceOverrides channelId ovs).run perform pg = (r, pg₁) ∧ pg₁.channels = pg.channels ∧
      (r.isOk = true ↔ (∀ ov ∈ ovs, ov.badType = false) ∧ (ovs.map PermissionOverrideInput.id).Nodup) ∧
      (r.isOk = false → pg₁ = pg) := by
  have hbad : (ovs.any PermissionOverrideInput.badType) = false ↔ ∀ ov ∈ ovs, ov.badType = false := by
    simp [List.any_eq_false]
  rw [replaceOverrides, ← hbad]
  rcases ovs.any PermissionOverrideInput.badType with _ | _
  · have hdelete : ∃ n pg₀, Stmt.exec pg (.deleteOverrides channelId) = .ok (n, pg₀) ∧ pg₀.channels = pg.channels ∧
        ∀ o ∈ pg₀.permissionOverrides, o.channelId ≠ channelId := by
      refine ⟨_, _, rfl, rfl, fun o ho => ?_⟩
      exact of_decide_eq_false (Table.mem_deleteWhere.1 ho).2
    obtain ⟨n, pg₀, hdelete, hchannels, hnone⟩ := hdelete
    have hchannel₀ : pg₀.hasChannel channelId = true := by rwa [Postgres.hasChannel, hchannels]
    obtain ⟨r, pg₁, hwrite, hsame, hok⟩ := run_writeOverrides (fun _ => false) hchannel₀ ovs
    have hinsertable : Insertable pg₀ channelId ovs ↔ (ovs.map PermissionOverrideInput.id).Nodup :=
      ⟨Insertable.nodup, fun h => ⟨h, fun _ _ o ho hid => absurd hid (hnone o ho)⟩⟩
    rw [hinsertable, and_iff_right fun _ _ => rfl] at hok
    have hbody : (do
        execute (.deleteOverrides channelId)
        ovs.forM fun ov => execute (.insertOverride (ov.row channelId)) : PgHandler PUnit).run perform pg = (r, pg₁) :=
      (run_bind_of_ok ((execute_eq_ok (u := ())).2 ⟨n, perform_eq_ok.2 hdelete⟩)).trans hwrite
    have htx : (atomically (do
        execute (.deleteOverrides channelId)
        ovs.forM fun ov => execute (.insertOverride (ov.row channelId))) : PgHandler PUnit).run perform pg =
          (r, if r.isOk then pg₁ else pg) := by
      rw [atomically, run_tx, hbody]
      rcases r with e | _ <;> rfl
    refine ⟨r, _, htx, ?_, hok.trans (and_iff_right rfl).symm, fun h => by rw [h]; rfl⟩
    split_ifs
    · exact hsame.trans hchannels
    · rfl
  · exact ⟨.error badTargetType, pg, rfl, rfl, iff_of_false Bool.false_ne_true fun h => Bool.false_ne_true h.1.symm, fun _ => rfl⟩

/-- the row and the overrides of the channel are as before -/
structure ChannelKept (channelId : ℤ) (pg pg' : Postgres) : Prop where
  row : channelAt pg' channelId = channelAt pg channelId
  overrides : (pg'.permissionOverrides.select fun o => o.channelId = channelId) =
    pg.permissionOverrides.select fun o => o.channelId = channelId

theorem ChannelKept.refl : ChannelKept channelId pg pg := ⟨rfl, rfl⟩

/-- the overrides are in order, or the columns that are written before them have their old values -/
def UpdateStands (unicode : Unicode) (pg : Postgres) (auth channelId : ℤ) (body : UpdateChannelRequest) : Prop :=
  ∀ c serverId, channelAt pg channelId = some c → c.serverId = some serverId → MayUpdate pg auth serverId body →
    ∀ ovs, body.permissionOverrides = some ovs →
      ((∀ ov ∈ ovs, ov.badType = false) ∧ (ovs.map PermissionOverrideInput.id).Nodup) ∨
        ∀ stored, StoredAs pg (body.changes unicode c.type) stored → stored.apply c = c

/-- the request after its checks -/
def updateChecked (channelId : ℤ) (changes : ChannelChanges) (overrides : Option (List PermissionOverrideInput)) :
    PgHandler ChannelResponse := do
  updateRow channelId changes
  overrides.forM (replaceOverrides channelId)
  sql (fetchChannel channelId)

theorem updateChecked_kept_iff {c : Channel} (hc : channelAt pg channelId = some c) (changes : ChannelChanges)
    (overrides : Option (List PermissionOverrideInput)) :
    (updateChecked channelId changes overrides).AllOrNothing perform (ChannelKept channelId) pg ↔
      ∀ ovs, overrides = some ovs →
        ((∀ ov ∈ ovs, ov.badType = false) ∧ (ovs.map PermissionOverrideInput.id).Nodup) ∨
          ∀ stored, StoredAs pg changes stored → stored.apply c = c := by
  rw [allOrNothing_iff, updateChecked, ends_bind]
  rcases run_updateRow hc changes with ⟨pg₁, stored, hstores, hrun, hrow, hoverrides⟩ | ⟨hnone, e, hrun⟩
  · have hstored : (∀ stored, StoredAs pg changes stored → stored.apply c = c) ↔ stored.apply c = c := by
      constructor
      · exact fun h => h stored hstores
      · intro h stored' hstores'
        obtain rfl := Except.ok.inj (hstores.1.symm.trans hstores'.1)
        exact h
    rw [ends_of_ok hrun, hstored]
    rcases overrides with _ | ovs
    · obtain ⟨r, hfetch⟩ := run_fetchChannel pg₁ channelId (hasChannel_of_channelAt hrow)
      exact iff_of_true ((ends_of_ok hfetch).2 trivial) nofun
    · obtain ⟨r, pg₂, hreplace, hchannels, hok, hback⟩ := run_replaceOverrides (hasChannel_of_channelAt hrow) ovs
      simp only [Option.some.injEq, forall_eq']
      rw [← hok, ends_bind]
      change (replaceOverrides channelId ovs).Ends perform pg₁ _ _ ↔ _
      rcases r with e | _
      · obtain rfl := hback rfl
        have hfails : ¬ (.error e : Except AppError PUnit).isOk = true := Bool.false_ne_true
        rw [ends_of_error hreplace, or_iff_right hfails]
        constructor
        · intro hkept
          have heq := hkept.row
          rw [hrow, hc] at heq
          exact Option.some.inj heq
        · intro heq
          exact ⟨by rw [hrow, heq, hc], by rw [hoverrides]⟩
      · rw [ends_of_ok hreplace]
        obtain ⟨r, hfetch⟩ := run_fetchChannel pg₂ channelId
          (by rw [Postgres.hasChannel, hchannels]; exact hasChannel_of_channelAt hrow)
        exact iff_of_true ((ends_of_ok hfetch).2 trivial) (.inl rfl)
  · rw [ends_of_error hrun]
    exact iff_of_true ChannelKept.refl fun _ _ => .inr fun stored h => absurd h (hnone stored)

theorem updateChannel_eq (unicode : Unicode) (body : UpdateChannelRequest) : updateChannel unicode auth channelId body =
    (sql (updateChannelChecks auth channelId body) >>= fun place =>
      updateChecked channelId (body.changes unicode place.2) body.permissionOverrides) := by
  rw [updateChannel]
  exact congrArg _ (funext fun ⟨_, _⟩ => rfl)

theorem updateChannel_kept_iff (unicode : Unicode) (pg : Postgres) (auth channelId : ℤ) (body : UpdateChannelRequest) :
    (updateChannel unicode auth channelId body).AllOrNothing perform (ChannelKept channelId) pg ↔
      UpdateStands unicode pg auth channelId body := by
  rw [allOrNothing_iff, updateChannel_eq, ends_checked (readOnly_sql readOnly_updateChannelChecks) fun _ => ChannelKept.refl]
  constructor
  · intro h c serverId hc hserver hallowed
    have hrun : (sql (updateChannelChecks auth channelId body)).run perform pg = (.ok (serverId, c.type), pg) := by
      rw [run_sql, updateChannelChecks_iff]
      exact ⟨⟨c, hc, hserver, rfl⟩, hallowed⟩
    have hkept := h (serverId, c.type) hrun
    rw [← allOrNothing_iff] at hkept
    exact (updateChecked_kept_iff hc (body.changes unicode c.type) body.permissionOverrides).1 hkept
  · rintro h ⟨serverId, type⟩ hrun
    rw [run_sql, updateChannelChecks_iff] at hrun
    obtain ⟨⟨c, hc, hserver, rfl⟩, hallowed⟩ := hrun
    rw [← allOrNothing_iff]
    exact (updateChecked_kept_iff hc (body.changes unicode c.type) body.permissionOverrides).2
      (h c serverId hc hserver hallowed)

/-! ## `reorder_channels` -/

/-- a channel after an entry of the list -/
def moveTo (serverId : ℤ) (c : Channel) (update : ChannelPositionUpdate) : Channel :=
  if c.id = update.id && c.serverId = some serverId then moved update.position update.parentId c else c

/-- an entry for a channel of the server names a parent that is there, or none -/
def parentExists (pg : Postgres) (serverId : ℤ) (update : ChannelPositionUpdate) : Bool :=
  !(pg.channels.any fun c => c.id = update.id && c.serverId = some serverId) ||
    update.parentId.all fun parentId => parentId.all pg.hasChannel

theorem moveTo_id (serverId : ℤ) (c : Channel) (update : ChannelPositionUpdate) :
    (moveTo serverId c update).id = c.id := by
  rw [moveTo]
  split_ifs <;> rfl

theorem moveTo_serverId (serverId : ℤ) (c : Channel) (update : ChannelPositionUpdate) :
    (moveTo serverId c update).serverId = c.serverId := by
  rw [moveTo]
  split_ifs <;> rfl

theorem parentExists_moved {update : ChannelPositionUpdate}
    (h : pg₁.channels.rows = pg.channels.rows.map fun c => moveTo serverId c update) :
    parentExists pg₁ serverId = parentExists pg serverId := by
  have hchannel : pg₁.hasChannel = pg.hasChannel := by
    funext id
    rw [Postgres.hasChannel, Postgres.hasChannel, Table.any, Table.any, h, List.any_map]
    simp only [Function.comp_def, moveTo_id]
  funext u
  rw [parentExists, parentExists, hchannel, Table.any, Table.any, h, List.any_map]
  simp only [Function.comp_def, moveTo_id, moveTo_serverId]

theorem run_moveChannel (pg : Postgres) (serverId : ℤ) (update : ChannelPositionUpdate) :
    let move : PgHandler Unit := execute (.moveChannel update.id serverId update.position update.parentId)
    (parentExists pg serverId update = true ∧ ∃ pg₁, move.run perform pg = (.ok (), pg₁) ∧
        pg₁.channels.rows = pg.channels.rows.map fun c => moveTo serverId c update) ∨
      parentExists pg serverId update = false ∧ ∃ e, move.run perform pg = (.error e, pg) := by
  intro move
  have hparent : (∃ u, pg.parentReference update.parentId = .ok u) ↔
      (update.parentId.all fun parentId => parentId.all pg.hasChannel) = true := by
    simp only [parentReference_eq_ok]
    rcases update.parentId with _ | _ | p <;> simp
  have hexec : (∃ r, Stmt.exec pg (.moveChannel update.id serverId update.position update.parentId) = .ok r) ↔
      parentExists pg serverId update = true := by
    rw [parentExists, Bool.or_eq_true, ← hparent, Bool.not_eq_true', Stmt.exec]
    rcases pg.channels.any fun c => c.id = update.id && c.serverId = some serverId with _ | _
    · exact iff_of_true ⟨_, rfl⟩ (.inl rfl)
    · rw [or_iff_right (by simp), if_pos rfl]
      rcases pg.parentReference update.parentId with e | _
      · exact iff_of_false (by rintro ⟨_, ⟨⟩⟩) (by rintro ⟨_, ⟨⟩⟩)
      · exact iff_of_true ⟨_, rfl⟩ ⟨(), rfl⟩
  rcases run_execute_cases perform (.moveChannel update.id serverId update.position update.parentId) pg with
    ⟨n, pg₁, hok, hrun⟩ | ⟨e, hrun⟩
  · have hstmt := perform_eq_ok.1 hok
    refine .inl ⟨hexec.1 ⟨_, hstmt⟩, pg₁, hrun, ?_⟩
    rw [exec_moveChannel hstmt]
    rfl
  · refine .inr ⟨?_, e, hrun⟩
    rw [← Bool.not_eq_true, ← hexec]
    rintro ⟨⟨n, pg₁⟩, hok⟩
    rw [(execute_eq_ok (u := ())).2 ⟨n, perform_eq_ok.2 hok⟩] at hrun
    cases hrun

/-- the loop stops at the first entry whose parent is missing -/
theorem run_moveChannels (pg : Postgres) (serverId : ℤ) (body : List ChannelPositionUpdate) :
    ∃ r pg₁, (body.forM fun update =>
        (execute (.moveChannel update.id serverId update.position update.parentId) : PgHandler Unit)).run perform pg =
          (r, pg₁) ∧
      (pg₁.channels.rows = pg.channels.rows.map fun c =>
        (body.takeWhile (parentExists pg serverId)).foldl (moveTo serverId) c) ∧
      (r.isOk = true ↔ ∀ update ∈ body, parentExists pg serverId update = true) := by
  induction body generalizing pg with
  | nil => exact ⟨.ok (), pg, rfl, (List.map_id' _).symm, iff_of_true rfl nofun⟩
  | cons update body ih =>
    rcases run_moveChannel pg serverId update with ⟨hexists, pg₁, hrun, hrows⟩ | ⟨hmissing, e, hrun⟩
    · obtain ⟨r, pg₂, hrest, hrows', hok⟩ := ih pg₁
      rw [parentExists_moved hrows] at hrows' hok
      refine ⟨r, pg₂, (run_bind_of_ok hrun).trans hrest, ?_, ?_⟩
      · rw [hrows', hrows, List.map_map, List.takeWhile_cons_of_pos hexists]
        rfl
      · rw [hok, List.forall_mem_cons]
        exact (and_iff_right hexists).symm
    · refine ⟨.error e, pg, run_bind_of_error hrun, ?_, ?_⟩
      · rw [List.takeWhile_cons_of_neg (by rw [hmissing]; exact Bool.false_ne_true)]
        exact (List.map_id' _).symm
      · rw [List.forall_mem_cons, hmissing]
        exact iff_of_false Bool.false_ne_true fun h => Bool.false_ne_true h.1

/-- the rows of the server's channels are as before -/
def ChannelsKept (serverId : ℤ) (pg pg' : Postgres) : Prop :=
  (pg'.channels.select fun c => c.serverId = some serverId) = pg.channels.select fun c => c.serverId = some serverId

theorem ChannelsKept.refl : ChannelsKept serverId pg pg := rfl

/-- every parent is there, or the entries before the first one that is not leave every channel as it is -/
def ReorderStands (pg : Postgres) (auth serverId : ℤ) (body : List ChannelPositionUpdate) : Prop :=
  pg.hasMember serverId auth = true → .manageChannels ⊆ pg.userPermissions serverId auth →
    (∀ update ∈ body, parentExists pg serverId update = true) ∨
      ∀ c ∈ pg.channels, c.serverId = some serverId →
        (body.takeWhile (parentExists pg serverId)).foldl (moveTo serverId) c = c

theorem foldl_moveTo_serverId (updates : List ChannelPositionUpdate) (c : Channel) :
    (updates.foldl (moveTo serverId) c).serverId = c.serverId := by
  induction updates generalizing c with
  | nil => rfl
  | cons update updates ih => exact (ih (moveTo serverId c update)).trans (moveTo_serverId serverId c update)

theorem channelsKept_iff {updates : List ChannelPositionUpdate}
    (h : pg₁.channels.rows = pg.channels.rows.map fun c => updates.foldl (moveTo serverId) c) :
    ChannelsKept serverId pg pg₁ ↔
      ∀ c ∈ pg.channels, c.serverId = some serverId → updates.foldl (moveTo serverId) c = c := by
  have hmap : (pg₁.channels.select fun c => c.serverId = some serverId) =
      (pg.channels.select fun c => c.serverId = some serverId).map fun c => updates.foldl (moveTo serverId) c := by
    rw [Table.select, Table.select, h, List.filter_map]
    simp only [Function.comp_def, foldl_moveTo_serverId]
  have hself : ∀ l : List Channel,
      (l.map fun c => updates.foldl (moveTo serverId) c) = l ↔ ∀ c ∈ l, updates.foldl (moveTo serverId) c = c := by
    intro l
    conv_lhs => rhs; rw [← List.map_id l]
    exact List.map_inj_left
  rw [ChannelsKept, hmap, hself]
  constructor
  · intro heq c hc hserver
    exact heq c (Table.mem_select.2 ⟨hc, decide_eq_true hserver⟩)
  · intro hall c hc
    obtain ⟨hc, hserver⟩ := Table.mem_select.1 hc
    exact hall c hc (of_decide_eq_true hserver)

theorem reorderChannels_kept_iff (pg : Postgres) (auth serverId : ℤ) (body : List ChannelPositionUpdate) :
    (reorderChannels auth serverId body).AllOrNothing perform (ChannelsKept serverId) pg ↔
      ReorderStands pg auth serverId body := by
  rw [allOrNothing_iff, reorderChannels, ends_guarded (readOnly_sql readOnly_requirePermissions) fun _ => ChannelsKept.refl,
    succeeds_sql, succeeds_requirePermissions, and_imp, ReorderStands]
  refine imp_congr_right fun _ => imp_congr_right fun _ => ?_
  obtain ⟨r, pg₁, hrun, hrows, hok⟩ := run_moveChannels pg serverId body
  rw [← hok, ← channelsKept_iff hrows]
  rcases r with e | _
  · rw [ends_of_error hrun]
    exact (or_iff_right Bool.false_ne_true).symm
  · rw [ends_of_ok hrun]
    exact iff_of_true trivial (.inl rfl)

/-! ## The three requests -/

/-- **A refused channel write changes nothing exactly if nothing is refused after the first change of a row.** -/
theorem channelWrites_kept_iff (unicode : Unicode) (pg : Postgres) (auth : ℤ) :
    (∀ serverId body channelId now,
      (createChannel unicode auth serverId body channelId now).AllOrNothing perform NothingAdded pg ↔
        CreateStands unicode pg auth serverId body channelId now) ∧
    (∀ channelId body,
      (updateChannel unicode auth channelId body).AllOrNothing perform (ChannelKept channelId) pg ↔
        UpdateStands unicode pg auth channelId body) ∧
    ∀ serverId body,
      (reorderChannels auth serverId body).AllOrNothing perform (ChannelsKept serverId) pg ↔
        ReorderStands pg auth serverId body :=
  ⟨createChannel_kept_iff unicode pg auth, updateChannel_kept_iff unicode pg auth, reorderChannels_kept_iff pg auth⟩

/-! ## Half a request -/

/-- two overrides for one target -/
def createTwice : CreateChannelRequest :=
  ⟨"second", none, none, none, none, none, none, none, none, some [⟨2, 1, 16, 0⟩, ⟨2, 1, 32, 0⟩]⟩

/-- a name, and an override of neither a role nor a member -/
def renameBadly : UpdateChannelRequest :=
  ⟨some "second", none, none, none, none, none, none, none, some [⟨2, 7, 16, 0⟩]⟩

/-- a position, and a category that does not exist -/
def moveBadly : List ChannelPositionUpdate := [⟨101, 5, none⟩, ⟨102, 6, some (some 999)⟩]

/-- **The three requests are refused, and each leaves a row behind.** -/
theorem half_written :
    let create := (createChannel plainEnv.unicode 1 100 createTwice 110 ⟨0⟩).run perform twoMembers
    let update := (updateChannel plainEnv.unicode 1 101 renameBadly).run perform twoMembers
    let reorder := (reorderChannels 1 100 moveBadly).run perform twoMembers
    create.1.isOk = false ∧ twoMembers.hasChannel 110 = false ∧ create.2.hasChannel 110 = true ∧
      update.1.isOk = false ∧ (channelAt twoMembers 101).map Channel.name = some (some "general") ∧
      (channelAt update.2 101).map Channel.name = some (some "second") ∧
      reorder.1.isOk = false ∧ (channelAt twoMembers 101).map Channel.position = some 0 ∧
      (channelAt reorder.2 101).map Channel.position = some 5 := by
  decide

end Lumiere.Routes
