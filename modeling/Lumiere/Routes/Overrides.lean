/-
What the stored permission overrides are bounded by. `set_channel_override`, `create_channel` and `update_channel` write
the same table: all three strip the ADMINISTRATOR bit, only the first compares the rest with the actor's permissions,
and only the other two look at the target type.

- `Clean`, `Permitted`: the bounds of a row, and of the write of a row.
- `staysWithin`: the requests that respect what their handler leaves unchecked.
- `overrides_bounded`: in a run of such requests every row is clean and every write granted.
- `overrides_unbounded`: two runs in which a handler writes what another one refuses.
-/
import Lumiere.Routes.Structure

namespace Lumiere.Routes

open Lumiere.Core Lumiere.Core.Prog Lumiere.Models Lumiere.Db

/-- who makes the request -/
def Request.auth : Request → ℤ
  | .createServer auth .. | .updateServer auth .. | .deleteServer auth .. | .updateMember auth ..
  | .updateSelfMember auth .. | .kickMember auth .. | .leaveServer auth .. | .createBan auth .. | .removeBan auth ..
  | .createInvite auth .. | .useInvite auth .. | .deleteInvite auth .. | .createRole auth .. | .updateRole auth ..
  | .deleteRole auth .. | .reorderRoles auth .. | .setChannelOverride auth .. | .deleteChannelOverride auth .. => auth

def PgRequest.auth : PgRequest → ℤ
  | .server r => r.auth
  | .createChannel auth .. | .updateChannel auth .. | .deleteChannel auth .. | .reorderChannels auth ..
  | .deleteMe auth .. => auth

/-! ## The bounds -/

/-- the override of a role or of a member, without the ADMINISTRATOR bit -/
structure Clean (row : PermissionOverrideRow) : Prop where
  target : row.targetType = 0 ∨ row.targetType = 1
  allow : row.allowBits.getLsbD 0 = false
  deny : row.denyBits.getLsbD 0 = false

instance (row : PermissionOverrideRow) : Decidable (Clean row) :=
  decidable_of_iff ((row.targetType = 0 ∨ row.targetType = 1) ∧ row.allowBits.getLsbD 0 = false ∧
    row.denyBits.getLsbD 0 = false) ⟨fun ⟨h1, h2, h3⟩ => ⟨h1, h2, h3⟩, fun ⟨h1, h2, h3⟩ => ⟨h1, h2, h3⟩⟩

/-- the user has all the bits in the server -/
def holds (pg : Postgres) (serverId userId : ℤ) (bits : BitVec 64) : Bool :=
  bits &&& ~~~(pg.userPermissions serverId userId).bits = 0

/-- an override that the statement writes is one of a server channel, and the actor has all its bits in the server -/
def Permitted (actor : ℤ) (w : Stmt) (pg : Postgres) : Prop :=
  ∀ row ∈ w.override?.toList, ∃ c ∈ pg.channels.rows, c.id = row.channelId ∧ ∃ serverId ∈ c.serverId.toList,
    holds pg serverId actor (row.allowBits ||| row.denyBits) = true

instance (actor : ℤ) (w : Stmt) (pg : Postgres) : Decidable (Permitted actor w pg) :=
  inferInstanceAs (Decidable (∀ row ∈ w.override?.toList, ∃ c ∈ pg.channels.rows, c.id = row.channelId ∧
    ∃ serverId ∈ c.serverId.toList, holds pg serverId actor (row.allowBits ||| row.denyBits) = true))

/-- every row is clean, and every write of every request was granted when it was made -/
structure OverridesBounded (env : Env) (pg : Postgres) (rs : List PgRequest) : Prop where
  rows : ∀ row ∈ (Core.run (pgStep env) pg rs).permissionOverrides.rows, Clean row
  writes : Every (pgStep env) (fun pg r => StepsOf env (Permitted r.auth) pg r) pg rs

/-! ## The requests -/

def PermissionOverrideInput.strippedBits (ov : PermissionOverrideInput) : BitVec 64 :=
  (ov.allow &&& ~~~1#64) ||| (ov.deny &&& ~~~1#64)

/-- the overrides of a new channel before the first one that stops the request: one of neither a role nor a member, or
the second one of a target -/
def insertable (targets : List ℤ) : List PermissionOverrideInput → List PermissionOverrideInput
  | [] => []
  | ov :: ovs => if ov.badType || ov.id ∈ targets then [] else ov :: insertable (ov.id :: targets) ovs

/-- the overrides that replace those of a channel, none if one of them is refused -/
def replaceable (ovs : List PermissionOverrideInput) : List PermissionOverrideInput :=
  if ovs.any PermissionOverrideInput.badType || !decide (ovs.map PermissionOverrideInput.id).Nodup then [] else ovs

/-- `create_channel` as far as its overrides -/
def insertedChannel (unicode : Unicode) (auth serverId : ℤ) (body : CreateChannelRequest) (channelId : ℤ)
    (now : DateTime) : PgHandler Unit := do
  sql (createChannelChecks auth serverId body)
  execute (.sql (.insertChannel (createdChannel unicode serverId body channelId now)))

/-- `update_channel` as far as its overrides, with the server -/
def updatedChannel (unicode : Unicode) (auth channelId : ℤ) (body : UpdateChannelRequest) : PgHandler ℤ := do
  let (serverId, channelType) ← sql (updateChannelChecks auth channelId body)
  let changes := body.changes unicode channelType
  when (!changes.isEmpty) (execute (.updateChannel channelId changes))
  pure serverId

/-- `set_channel_override` as far as its write -/
def setChannelOverrideChecks (auth channelId : ℤ) (body : SetOverrideRequest) : Handler Unit := do
  let serverId ← overrideServer channelId "Cannot set overrides on DM channels"
  requirePermissions serverId auth .manageRoles
  let allowBits ← parsePermissions (.badRequest "Invalid allow permissions value") body.allow
  let denyBits ← parsePermissions (.badRequest "Invalid deny permissions value") body.deny
  refuseForbiddenBits auth serverId ((allowBits &&& ~~~1#64) ||| (denyBits &&& ~~~1#64))
    "Cannot set permissions you don't have"

/-- the request, if it comes to its overrides, writes none that a check of another handler would refuse -/
def staysWithin (unicode : Unicode) (pg : Postgres) : PgRequest → Bool
  | .createChannel auth serverId body channelId now =>
    !(insertedChannel unicode auth serverId body channelId now).succeeds perform pg ||
      (insertable [] (body.permissionOverrides.getD [])).all fun ov => holds pg serverId auth ov.strippedBits
  | .updateChannel auth channelId body =>
    match ((updatedChannel unicode auth channelId body).run perform pg).1 with
    | .ok serverId =>
      (replaceable (body.permissionOverrides.getD [])).all fun ov => holds pg serverId auth ov.strippedBits
    | .error _ => true
  | .server (.setChannelOverride auth channelId _ body) =>
    !(setChannelOverrideChecks auth channelId body).succeeds statement pg || (body.targetType = 0 || body.targetType = 1)
  | _ => true

variable {pg pg' : Postgres} {n : ℕ} {auth serverId channelId : ℤ}

/-! ## One statement -/

/-- the statements that keep the bounds -/
def Bounding (actor : ℤ) (w : Stmt) (pg : Postgres) : Prop := Permitted actor w pg ∧ ∀ row ∈ w.override?, Clean row

theorem exec_clean {actor : ℤ} {w : Stmt} (h : Stmt.exec pg w = .ok (n, pg')) (hw : Bounding actor w pg)
    (hpg : ∀ row ∈ pg.permissionOverrides, Clean row) : ∀ row ∈ pg'.permissionOverrides, Clean row := by
  intro o ho
  rcases Stmt.exec_overrides h ho with hold | ⟨row, hrow, h1, h2, h3⟩
  · exact hpg o hold
  · obtain ⟨htarget, hallow, hdeny⟩ := hw.2 row hrow
    exact ⟨h1 ▸ htarget, h2 ▸ hallow, h3 ▸ hdeny⟩

theorem bounding_of_none {actor : ℤ} {w : Stmt} (hw : w.override? = none) (pg : Postgres) : Bounding actor w pg := by
  refine ⟨fun row hrow => ?_, fun row hrow => ?_⟩ <;> rw [hw] at hrow <;> cases hrow

/-- permissions depend on owners, roles and assignments only -/
theorem userPermissions_of_skeleton (ho : pg'.owners = pg.owners) (hr : pg'.roles = pg.roles)
    (hm : pg'.memberRoles = pg.memberRoles) {userId : ℤ} :
    pg'.userPermissions serverId userId = pg.userPermissions serverId userId := by
  refine userPermissions_congr ?_ fun r => ?_
  · rw [Bool.eq_iff_iff, isOwner_iff, isOwner_iff, ho]
  · rw [Effective, Effective, hr, hm]

/-- the channel is one of the server, and the actor's permissions there are those of `pg` -/
structure Ready (pg : Postgres) (auth serverId channelId : ℤ) (pg₁ : Postgres) : Prop where
  place : ∃ type, (channelId, some serverId, type) ∈ pg₁.places
  perms : pg₁.userPermissions serverId auth = pg.userPermissions serverId auth

/-- statements on the channel and on its overrides -/
def OnChannel : Stmt → Prop
  | .updateChannel .. | .insertOverride .. | .deleteOverrides .. => True
  | _ => False

theorem Ready.exec {w : Stmt} {pg₁ pg₂ : Postgres} (hr : Ready pg auth serverId channelId pg₁) (hw : OnChannel w)
    (h : Stmt.exec pg₁ w = .ok (n, pg₂)) : Ready pg auth serverId channelId pg₂ := by
  have hplaces : pg₂.places = pg₁.places := by
    have hplaces := Stmt.exec_places h
    cases w <;> first | exact hw.elim | exact hplaces
  have hsql : ∀ v, w ≠ .sql v := by
    rintro v rfl
    exact hw
  obtain ⟨howners, -, hroles, hassigned⟩ := Stmt.exec_skeleton h hsql
  refine ⟨?_, ?_⟩
  · rw [hplaces]
    exact hr.place
  · rw [userPermissions_of_skeleton howners hroles hassigned]
    exact hr.perms

theorem stripped_clean (x : BitVec 64) : (x &&& ~~~1#64).getLsbD 0 = false := by
  rw [BitVec.getLsbD_and]
  simp

theorem bounding_insert {ov : PermissionOverrideInput} {pg₁ : Postgres} (hr : Ready pg auth serverId channelId pg₁)
    (hbad : ov.badType = false) (hov : holds pg serverId auth ov.strippedBits = true) :
    Bounding auth (.insertOverride (ov.row channelId)) pg₁ := by
  constructor
  · intro row hrow
    obtain rfl : row = ov.row channelId := List.mem_singleton.1 hrow
    obtain ⟨type, hplace⟩ := hr.place
    obtain ⟨c, hc, hid, hserver, -⟩ := mem_places.1 hplace
    refine ⟨c, hc, hid, serverId, ?_, ?_⟩
    · rw [hserver]
      exact List.mem_singleton.2 rfl
    · rw [holds, hr.perms]
      exact hov
  · intro row hrow
    obtain rfl : ov.row channelId = row := Option.some.inj hrow
    refine ⟨?_, stripped_clean _, stripped_clean _⟩
    simp only [PermissionOverrideInput.badType, Bool.and_eq_false_iff, decide_eq_false_iff_not, not_not] at hbad
    exact hbad

/-! ## The overrides of a request -/

/-- `create_channel` inserts them one by one, each on its own -/
theorem createOverrides_bounding {ovs : List PermissionOverrideInput} {targets : List ℤ} {pg₁ : Postgres}
    (hr : Ready pg auth serverId channelId pg₁)
    (htargets : ∀ id ∈ targets, ∃ o ∈ pg₁.permissionOverrides, o.channelId = channelId ∧ o.targetId = id)
    (hovs : ∀ ov ∈ insertable targets ovs, holds pg serverId auth ov.strippedBits = true) :
    (createOverrides channelId ovs).AllSteps perform (Bounding auth) pg₁ := by
  induction ovs generalizing targets pg₁ with
  | nil => exact allSteps_pure _
  | cons ov ovs ih =>
    by_cases hbad : ov.badType = true
    · show ((do failIf ov.badType badTargetType; execute (.insertOverride (ov.row channelId))) >>= fun _ =>
        createOverrides channelId ovs : PgHandler Unit).AllSteps perform (Bounding auth) pg₁
      rw [failIf, if_pos hbad]
      exact allSteps_fail _
    rw [Bool.not_eq_true] at hbad
    -- a second override of a target is refused by the primary key
    have hnew : ∀ n pg₂, Stmt.exec pg₁ (.insertOverride (ov.row channelId)) = .ok (n, pg₂) → ov.id ∉ targets := by
      intro n pg₂ h hmem
      obtain ⟨o, ho, h1, h2⟩ := htargets ov.id hmem
      obtain ⟨_, hinsert, -⟩ := exec_insertOverride h
      exact (Table.insert?_eq_some hinsert).1 o ho (Prod.ext h1 h2)
    have hcons : ov.id ∉ targets → insertable targets (ov :: ovs) = ov :: insertable (ov.id :: targets) ovs := by
      intro hmem
      simp [insertable, hbad, hmem]
    refine allSteps_bind.2 ⟨allSteps_bind_of_readOnly (issues_failIf _ _) fun _ _ => ?_, fun _ pg₂ h => ?_⟩
    · rw [execute, AllSteps]
      rcases hexec : perform (.insertOverride (ov.row channelId)) pg₁ with e | ⟨n, pg₂⟩
      · trivial
      · have hmem := hnew n pg₂ (perform_eq_ok.1 hexec)
        rw [hcons hmem] at hovs
        exact ⟨bounding_insert hr hbad (hovs ov List.mem_cons_self), allSteps_pure _⟩
    · obtain ⟨_, _, hcheck, hinsert⟩ := run_bind_eq_ok.1 h
      obtain ⟨-, rfl⟩ := failIf_eq_ok.1 hcheck
      obtain ⟨n, hexec⟩ := execute_eq_ok.1 hinsert
      have hexec := perform_eq_ok.1 hexec
      have hmem := hnew n pg₂ hexec
      obtain ⟨_, hrow, rfl⟩ := exec_insertOverride hexec
      have hrows := (Table.insert?_eq_some hrow).2
      rw [hcons hmem] at hovs
      refine ih (hr.exec (w := .insertOverride _) trivial hexec) ?_ fun ov' h' => hovs ov' (List.mem_cons_of_mem _ h')
      intro id hid
      rcases List.mem_cons.1 hid with rfl | hid
      · exact ⟨_, (hrows _).2 (.inr rfl), rfl, rfl⟩
      · obtain ⟨o, ho, hkey⟩ := htargets id hid
        exact ⟨o, (hrows o).2 (.inl ho), hkey⟩

theorem nodup_of_inserted {ovs : List PermissionOverrideInput} {pg₁ pg₂ : Postgres} {u : PUnit}
    (h : (ovs.forM fun ov => execute (.insertOverride (ov.row channelId)) : PgHandler PUnit).run perform pg₁ =
      (.ok u, pg₂)) :
    (ovs.map PermissionOverrideInput.id).Nodup ∧
      ∀ o ∈ pg₁.permissionOverrides, o.channelId = channelId → o.targetId ∉ ovs.map PermissionOverrideInput.id := by
  induction ovs generalizing pg₁ with
  | nil => exact ⟨List.nodup_nil, fun _ _ _ => List.not_mem_nil⟩
  | cons ov ovs ih =>
    obtain ⟨_, pg₃, hfirst, hrest⟩ := run_bind_eq_ok.1 h
    obtain ⟨n, hexec⟩ := execute_eq_ok.1 hfirst
    obtain ⟨_, hrow, rfl⟩ := exec_insertOverride (perform_eq_ok.1 hexec)
    obtain ⟨hnew, hmem⟩ := Table.insert?_eq_some hrow
    obtain ⟨hnodup, hfresh⟩ := ih hrest
    rw [List.map_cons]
    refine ⟨List.nodup_cons.2 ⟨hfresh _ ((hmem _).2 (.inr rfl)) rfl, hnodup⟩, fun o ho hid => ?_⟩
    rw [List.mem_cons, not_or]
    exact ⟨fun heq => hnew o ho (Prod.ext hid heq), hfresh o ((hmem o).2 (.inl ho)) hid⟩

/-- `update_channel` inserts them in one transaction -/
theorem replaceOverrides_bounding {ovs : List PermissionOverrideInput} {pg₁ : Postgres}
    (hr : Ready pg auth serverId channelId pg₁)
    (hovs : ∀ ov ∈ replaceable ovs, holds pg serverId auth ov.strippedBits = true) :
    (replaceOverrides channelId ovs).AllSteps perform (Bounding auth) pg₁ := by
  refine allSteps_bind_of_readOnly (issues_failIf _ _) fun _ hcheck => allSteps_atomically fun _ _ hrun => ?_
  have hbad := (failIf_eq_ok.1 hcheck).1
  obtain ⟨_, pg₂, hdelete, hinsert⟩ := run_bind_eq_ok.1 hrun
  have hall : replaceable ovs = ovs := by
    rw [replaceable, if_neg]
    simp [hbad, (nodup_of_inserted hinsert).1]
  rw [hall] at hovs
  have hgood : ∀ ov ∈ ovs, ov.badType = false := fun ov hov => by
    by_contra h
    exact hbad (List.any_eq_true.2 ⟨ov, hov, Bool.not_eq_false _ ▸ h⟩)
  refine allSteps_bind.2 ⟨allSteps_execute (bounding_of_none rfl _), fun _ pg₃ h => ?_⟩
  obtain ⟨n, hexec⟩ := execute_eq_ok.1 h
  refine allSteps_forM (I := Ready pg auth serverId channelId) ?_ ?_
    (hr.exec (w := .deleteOverrides _) trivial (perform_eq_ok.1 hexec))
  · intro ov hov pg₄ hr₄
    exact allSteps_execute (bounding_insert hr₄ (hgood ov hov) (hovs ov hov))
  · intro ov hov pg₄ _ pg₅ hr₄ h₄
    obtain ⟨n, h₄⟩ := execute_eq_ok.1 h₄
    exact hr₄.exec (w := .insertOverride _) trivial (perform_eq_ok.1 h₄)

/-! ## One request -/

theorem createChannel_bounding {unicode : Unicode} {body : CreateChannelRequest} {now : DateTime}
    (hovs : (insertedChannel unicode auth serverId body channelId now).succeeds perform pg = true →
      ∀ ov ∈ insertable [] (body.permissionOverrides.getD []), holds pg serverId auth ov.strippedBits = true) :
    (createChannel unicode auth serverId body channelId now).AllSteps perform (Bounding auth) pg := by
  refine allSteps_bind_of_readOnly (readOnly_sql readOnly_createChannelChecks) fun _ hchecks => ?_
  refine allSteps_bind.2 ⟨allSteps_execute (bounding_of_none rfl _), fun _ pg₁ h₁ => allSteps_bind.2
    ⟨?_, fun _ _ _ => (readOnly_sql readOnly_fetchChannel).allSteps⟩⟩
  have hovs := hovs (succeeds_of_run (run_bind_eq_ok.2 ⟨_, _, hchecks, h₁⟩))
  obtain ⟨n, h₁⟩ := execute_eq_ok.1 h₁
  have h₁ : Sql.exec pg (.insertChannel (createdChannel unicode serverId body channelId now)) = .ok (n, pg₁) :=
    perform_eq_ok.1 h₁
  have hplaces : pg₁.places = pg.places ++ [(channelId, some serverId, _)] := exec_places h₁
  have hready : Ready pg auth serverId channelId pg₁ :=
    ⟨⟨_, by rw [hplaces]; exact List.mem_append_right _ (List.mem_singleton.2 rfl)⟩,
      userPermissions_of_skeleton (exec_owners h₁) (exec_roles h₁) (exec_memberRoles h₁)⟩
  rcases hbody : body.permissionOverrides with _ | ovs
  · exact allSteps_pure _
  · rw [hbody] at hovs
    exact createOverrides_bounding hready (by simp) hovs

theorem updateChannelChecks_eq_ok {body : UpdateChannelRequest} {type : ℤ}
    (h : (updateChannelChecks auth channelId body).run statement pg = (.ok (serverId, type), pg')) :
    (channelId, some serverId, type) ∈ pg.places := by
  obtain ⟨⟨_, _⟩, _, hplace, hrest⟩ := run_bind_eq_ok.1 h
  obtain ⟨hplace, rfl⟩ := serverChannel_eq_ok hplace
  simp only [run_bind_eq_ok, failIf_eq_ok, run_pure, Prod.mk.injEq, Except.ok.injEq] at hrest
  obtain ⟨_, _, -, _, _, -, _, _, -, _, _, -, _, _, -, ⟨rfl, rfl⟩, -⟩ := hrest
  exact hplace

theorem updateChannel_bounding {unicode : Unicode} {body : UpdateChannelRequest}
    (hovs : ∀ serverId, ((updatedChannel unicode auth channelId body).run perform pg).1 = .ok serverId →
      ∀ ov ∈ replaceable (body.permissionOverrides.getD []), holds pg serverId auth ov.strippedBits = true) :
    (updateChannel unicode auth channelId body).AllSteps perform (Bounding auth) pg := by
  refine allSteps_bind_of_readOnly (readOnly_sql readOnly_updateChannelChecks) fun ⟨serverId, type⟩ hchecks => ?_
  have hplace := updateChannelChecks_eq_ok ((run_sql _ _).symm.trans hchecks)
  refine allSteps_bind.2 ⟨?_, fun _ pg₁ h₁ => allSteps_bind.2
    ⟨?_, fun _ _ _ => (readOnly_sql readOnly_fetchChannel).allSteps⟩⟩
  · exact Issues.allSteps (issues_when fun _ => issues_execute fun _ => bounding_of_none rfl _)
  · have hrow : (updatedChannel unicode auth channelId body).run perform pg = (.ok serverId, pg₁) :=
      run_bind_eq_ok.2 ⟨_, _, hchecks, run_bind_eq_ok.2 ⟨_, _, h₁, rfl⟩⟩
    have hovs := hovs serverId (congrArg Prod.fst hrow)
    have hready : Ready pg auth serverId channelId pg₁ := by
      have hpg : Ready pg auth serverId channelId pg := ⟨⟨type, hplace⟩, rfl⟩
      rw [when] at h₁
      split_ifs at h₁
      · obtain ⟨n, h₁⟩ := execute_eq_ok.1 h₁
        exact hpg.exec (w := .updateChannel ..) trivial (perform_eq_ok.1 h₁)
      · obtain rfl : pg = pg₁ := congrArg Prod.snd h₁
        exact hpg
    rcases hbody : body.permissionOverrides with _ | ovs
    · exact allSteps_pure _
    · rw [hbody] at hovs
      exact replaceOverrides_bounding hready hovs

theorem overrideServer_eq_ok {message : String}
    (h : (overrideServer channelId message).run statement pg = (.ok serverId, pg')) :
    ∃ c ∈ pg.channels, c.id = channelId ∧ c.serverId = some serverId ∧ pg' = pg := by
  simp only [overrideServer, run_bind_eq_ok, run_select, orFail_eq_ok, Prod.mk.injEq, Except.ok.injEq] at h
  obtain ⟨_, _, ⟨rfl, rfl⟩, c, _, ⟨hfind, rfl⟩, hserver, rfl⟩ := h
  obtain ⟨hmem, hid⟩ := Table.mem_of_find? hfind
  exact ⟨c, hmem, of_decide_eq_true hid, hserver, rfl⟩

theorem holds_of_refuse {bits : BitVec 64} {message : String} {u : Unit}
    (h : (refuseForbiddenBits auth serverId bits message).run statement pg = (.ok u, pg')) :
    holds pg serverId auth bits = true := by
  rw [refuseForbiddenBits, run_bind_of_ok run_getUserPermissions, failIf_eq_ok] at h
  exact decide_eq_true (not_not.1 h.1)

theorem setChannelOverride_bounding {overrideId : ℤ} {body : SetOverrideRequest}
    (htarget : (setChannelOverrideChecks auth channelId body).succeeds statement pg = true →
      body.targetType = 0 ∨ body.targetType = 1) :
    (setChannelOverride auth channelId overrideId body).AllSteps statement (fun w => Bounding auth (.sql w)) pg := by
  refine allSteps_bind_of_readOnly readOnly_overrideServer fun serverId hserver =>
    allSteps_bind_of_readOnly readOnly_requirePermissions fun _ hperms =>
    allSteps_bind_of_readOnly (issues_orFail _ _) fun allow hallow =>
    allSteps_bind_of_readOnly (issues_orFail _ _) fun deny hdeny =>
    allSteps_bind_of_readOnly readOnly_refuseForbiddenBits fun _ hbits => allSteps_execute ⟨?_, ?_⟩
  · obtain ⟨c, hc, hid, hserver, -⟩ := overrideServer_eq_ok hserver
    intro row hrow
    obtain rfl := List.mem_singleton.1 hrow
    refine ⟨c, hc, hid, serverId, ?_, ?_⟩
    · rw [hserver]
      exact List.mem_singleton.2 rfl
    · exact holds_of_refuse hbits
  · intro row hrow
    obtain rfl := Option.some.inj hrow
    have hchecks : (setChannelOverrideChecks auth channelId body).run statement pg = (.ok (), pg) := by
      unfold setChannelOverrideChecks
      rw [run_bind_of_ok hserver, run_bind_of_ok hperms, run_bind_of_ok hallow, run_bind_of_ok hdeny]
      exact hbits
    exact ⟨htarget (succeeds_of_run hchecks), stripped_clean _, stripped_clean _⟩

/-- one handler of servers and roles writes overrides -/
theorem override?_of_footprint {r : Request} {w : Sql} (hw : r.Footprint w)
    (hr : ∀ auth channelId overrideId body, r ≠ .setChannelOverride auth channelId overrideId body) :
    (Stmt.sql w).override? = none := by
  cases w with
  | upsertOverride row =>
    cases r <;> simp [Request.Footprint] at hw
    exact absurd rfl (hr _ _ _ _)
  | _ => rfl

theorem request_bounding {env : Env} {r : Request} (hr : staysWithin env.unicode pg (.server r) = true) :
    (r.handle env.verifyPassword).AllSteps statement (fun w => Bounding r.auth (.sql w)) pg := by
  by_cases hset : ∃ auth channelId overrideId body, r = .setChannelOverride auth channelId overrideId body
  · obtain ⟨auth, channelId, overrideId, body, rfl⟩ := hset
    have htarget : (setChannelOverrideChecks auth channelId body).succeeds statement pg = true →
        body.targetType = 0 ∨ body.targetType = 1 := by
      intro hchecks
      simpa [staysWithin, hchecks] using hr
    exact setChannelOverride_bounding htarget
  · simp only [not_exists] at hset
    exact Issues.allSteps ((issues_request r).mono fun w hw => bounding_of_none (override?_of_footprint hw hset))

theorem stepsOf_bounding {env : Env} {r : PgRequest} (hr : staysWithin env.unicode pg r = true) :
    StepsOf env (Bounding r.auth) pg r := by
  cases r with
  | server r => exact allSteps_sql.2 (request_bounding hr)
  | createChannel auth serverId body channelId now =>
    have hsteps : (createChannel env.unicode auth serverId body channelId now).AllSteps perform (Bounding auth) pg := by
      refine createChannel_bounding fun hinsert ov hov => ?_
      rw [staysWithin, hinsert, Bool.not_true, Bool.false_or, List.all_eq_true] at hr
      exact hr ov hov
    exact allSteps_bind.2 ⟨hsteps, fun _ _ _ => allSteps_pure _⟩
  | updateChannel auth channelId body =>
    have hsteps : (updateChannel env.unicode auth channelId body).AllSteps perform (Bounding auth) pg := by
      refine updateChannel_bounding fun serverId hupdate ov hov => ?_
      rw [staysWithin, hupdate, List.all_eq_true] at hr
      exact hr ov hov
    exact allSteps_bind.2 ⟨hsteps, fun _ _ _ => allSteps_pure _⟩
  | deleteChannel auth channelId =>
    refine Issues.allSteps (issues_deleteChannel.mono ?_)
    rintro w (rfl | rfl) pg <;> exact bounding_of_none rfl pg
  | reorderChannels auth serverId body =>
    refine Issues.allSteps (issues_reorderChannels.mono ?_)
    rintro w ⟨_, _, rfl⟩ pg
    exact bounding_of_none rfl pg
  | deleteMe auth password now =>
    refine Issues.allSteps (issues_deleteMe.mono ?_)
    rintro w rfl pg
    exact bounding_of_none rfl pg

theorem pgStep_clean {env : Env} {r : PgRequest} (hr : staysWithin env.unicode pg r = true)
    (hpg : ∀ row ∈ pg.permissionOverrides, Clean row) : ∀ row ∈ (pgStep env pg r).permissionOverrides, Clean row :=
  allSteps_inv (fun _ _ _ _ hw hpg h => exec_clean (perform_eq_ok.1 h) hw hpg) (stepsOf_bounding hr) hpg

/-- **Stored overrides are bounded as long as the requests are.** If no request writes what a check of another handler
would refuse, every row in every state names a role or a member and lacks the ADMINISTRATOR bit, and whoever wrote it had
all its bits. -/
theorem overrides_bounded (env : Env) (users : Table User.id) (rs : List PgRequest)
    (h : Every (pgStep env) (fun pg r => staysWithin env.unicode pg r = true) (noServers users) rs) :
    OverridesBounded env (noServers users) rs where
  rows := run_inv_of_every (I := fun pg => ∀ row ∈ pg.permissionOverrides, Clean row)
    (fun _ _ => pgStep_clean) (fun _ h => absurd h Table.not_mem_empty) h
  writes := h.mono fun _ _ hr => (stepsOf_bounding hr).mono fun _ _ hw => hw.1

/-- user 1 lets user 2 manage channels, who opens one with an override for itself -/
def builderTrace (allow : BitVec 64) : List PgRequest :=
  [.server (.createServer 1 ⟨"first", none, none⟩ 100 101 102 ⟨0⟩),
   .server (.createInvite 1 101 ⟨none, none, none⟩ "join" ⟨0⟩),
   .server (.useInvite 2 "join" ⟨0⟩),
   .server (.createRole 1 100 ⟨"builder", none, none, none, some "16"⟩ 103 ⟨0⟩),
   .server (.updateMember 1 100 2 ⟨none, some [103], none⟩),
   .createChannel 2 100 ⟨"den", none, none, none, none, none, none, none, none, some [⟨2, 1, allow, 0⟩]⟩ 104 ⟨0⟩]

theorem overrides_bounded_builder : OverridesBounded plainEnv (noServers adaAndBob) (builderTrace 16) :=
  overrides_bounded plainEnv adaAndBob (builderTrace 16) (by decide)

/-- the owner sets an override of type 7 -/
def targetTrace : List PgRequest :=
  [.server (.createServer 1 ⟨"first", none, none⟩ 100 101 102 ⟨0⟩),
   .server (.setChannelOverride 1 101 5 ⟨7, "0", "0"⟩)]

/-- **Stored overrides are not bounded.** User 2 gives itself MANAGE_ROLES in its channel, which it does not have in the
server; and a row may name neither a role nor a member. -/
theorem overrides_unbounded :
    ¬ OverridesBounded plainEnv (noServers adaAndBob) (builderTrace 8) ∧
      ¬ OverridesBounded plainEnv (noServers adaAndBob) targetTrace :=
  ⟨fun h => absurd h.writes (by decide), fun h => absurd h.rows (by decide)⟩

end Lumiere.Routes
