/-
Timeouts over runs of requests. `update_member` writes `communication_disabled_until` into the membership row and
`send_message` reads it there. Two requests take a timeout away without naming it to the end:
- `use_invite` of a member who left or was kicked inserts a new row, with no timeout;
- an `update_member` that names the field commits it before the roles, so it is in force although a role id that does
  not exist then fails the request.

- `timeout_holds`: from the update that sets the timeout, in every run without such a request, the member sends nothing
  to the server until then.
- `timeout_evaded`: a member who is timed out leaves, comes back by invite and writes. `timeout_cut_short`: one who is
  freed by an update that fails.
-/
import Lumiere.Routes.Assignments
import Lumiere.Routes.MessageWrites

namespace Lumiere.Routes

open Lumiere.Core Lumiere.Core.Prog Lumiere.Models Lumiere.Db

/-! ## Requests -/

inductive MemberRequest where
  | updateMember (auth serverId userId : ℤ) (body : UpdateMemberRequest)
  | updateSelfMember (auth serverId : ℤ) (nickname : Option (Option String))
  | leaveServer (auth serverId : ℤ)
  | kickMember (auth serverId userId : ℤ)
  | useInvite (auth : ℤ) (code : String) (now : DateTime)
  | sendMessage (auth channelId : ℤ) (body : SendMessageRequest) (messageId : Snowflake) (now : DateTime)

def MemberRequest.handle : MemberRequest → Route Unit
  | .updateMember auth serverId userId body => answer (onPg (Routes.updateMember auth serverId userId body))
  | .updateSelfMember auth serverId nickname => answer (onPg (Routes.updateSelfMember auth serverId nickname))
  | .leaveServer auth serverId => onPg (Routes.leaveServer auth serverId)
  | .kickMember auth serverId userId => onPg (Routes.kickMember auth serverId userId)
  | .useInvite auth code now => answer (onPg (Routes.useInvite auth code now))
  | .sendMessage auth channelId body messageId now => answer (Routes.sendMessage auth channelId body messageId now)

def requestStep (w : World) (r : MemberRequest) : World := (r.handle.run Effect.exec w).2

variable {pg pg' : Postgres} {serverId userId auth channelId : ℤ} {until' now : DateTime}

/-! ## The timeout of a member -/

/-- the column keeps the member silent until then at least -/
def Covers (until' : DateTime) (disabledUntil : Option DateTime) : Prop :=
  ∃ t ∈ disabledUntil, until'.millis ≤ t.millis

instance (until' : DateTime) (disabledUntil : Option DateTime) : Decidable (Covers until' disabledUntil) :=
  decidable_of_iff (disabledUntil.any fun t => until'.millis ≤ t.millis) (by simp [Covers, Option.any_eq_true])

/-- the user, while a member of the server, is timed out until then at least -/
def TimedOut (serverId userId : ℤ) (until' : DateTime) (pg : Postgres) : Prop :=
  ∀ m ∈ pg.serverMembers, m.serverId = serverId → m.userId = userId → Covers until' m.communicationDisabledUntil

/-- a statement that neither inserts the member nor takes the timeout away -/
def Spares (serverId userId : ℤ) (until' : DateTime) : Sql → Prop
  | .insertServerMember row => ¬ (row.serverId = serverId ∧ row.userId = userId)
  | .updateTimeout id member disabledUntil => id = serverId → member = userId → Covers until' disabledUntil
  | _ => True

theorem exec_timedOut {w : Sql} {n : ℕ} (hw : Spares serverId userId until' w) (hpg : TimedOut serverId userId until' pg)
    (h : statement w pg = .ok (n, pg')) : TimedOut serverId userId until' pg' := by
  intro m hm hs hu
  rcases exec_communicationDisabledUntil (statement_eq_ok.1 h) hm with ⟨old, hold, h1, h2, h3⟩ | rfl | rfl
  · exact h3 ▸ hpg old hold (h1.trans hs) (h2.trans hu)
  · exact absurd ⟨hs, hu⟩ hw
  · exact hw hs hu

theorem run_timedOut {α : Type} {p : Handler α} (hp : p.Issues (Spares serverId userId until'))
    (hpg : TimedOut serverId userId until' pg) : TimedOut serverId userId until' (p.run statement pg).2 :=
  issues_run (fun _ _ _ _ hw hpg h => exec_timedOut hw hpg h) hp hpg

theorem timedOut_of_not_hasMember (h : pg.hasMember serverId userId = false) : TimedOut serverId userId until' pg := by
  intro m hm hs hu
  rw [hasMember_iff.2 ⟨m, hm, hs, hu⟩] at h
  cases h

/-- **A member who is timed out sends nothing to the server.** -/
theorem sendMessage_refused {w : World} {body : SendMessageRequest} {messageId : Snowflake}
    (hw : TimedOut serverId userId until' w.pg) (hc : InServer w.pg channelId serverId) (hnow : now.millis < until'.millis) :
    (sendMessage userId channelId body messageId now).succeeds Effect.exec w = false := by
  rw [← Bool.not_eq_true]
  intro h
  rcases hrun : (sendMessage userId channelId body messageId now).run Effect.exec w with ⟨e | r, w'⟩
  · rw [Prog.succeeds, hrun] at h
    cases h
  rw [sendMessage, run_bind_eq_ok] at hrun
  obtain ⟨sid, w₁, hcheck, hrun⟩ := hrun
  rw [run_onPg_readOnly readOnly_checkChannelPermission, Prod.mk.injEq] at hcheck
  obtain ⟨hcheck, rfl⟩ := hcheck
  obtain ⟨rfl, hmember⟩ := of_checkChannelPermission hc (Prod.ext hcheck rfl)
  simp only [run_bind_eq_ok, failIf_eq_ok, run_select, Prod.mk.injEq, Except.ok.injEq] at hrun
  obtain ⟨_, _, ⟨-, rfl⟩, _, _, ⟨-, rfl⟩, _, _, ⟨rfl, rfl⟩, _, _, ⟨rfl, rfl⟩, _, w, ⟨-, rfl⟩, timedOut, _,
    ⟨rfl, rfl⟩, _, _, ⟨hfree, -⟩, -⟩ := hrun
  -- the row that the check finds is the one that the timeout is read from
  rcases hfind : w.pg.serverMembers.find? fun m => m.serverId = serverId && m.userId = userId with _ | m
  · obtain ⟨m, hm, hs, hu⟩ := hasMember_iff.1 hmember
    have := Table.find?_eq_none.1 hfind m hm
    simp [hs, hu] at this
  · obtain ⟨hm, hkey⟩ := Table.mem_of_find? hfind
    rw [Bool.and_eq_true, decide_eq_true_eq, decide_eq_true_eq] at hkey
    obtain ⟨t, ht, hle⟩ := hw m hm hkey.1 hkey.2
    rw [Option.mem_def] at ht
    simp only [Option.bind_some, timedOutUntil, hfind, ht, Option.any_some, decide_eq_true_eq, not_lt] at hfree
    omega

def Effect.NotSql : Effect → Prop
  | .sql _ => False
  | _ => True

theorem sendMessage_timedOut {w : World} {body : SendMessageRequest} {messageId : Snowflake}
    (hw : TimedOut serverId userId until' w.pg) :
    TimedOut serverId userId until' ((sendMessage auth channelId body messageId now).run Effect.exec w).2.pg := by
  refine issues_run (I := fun w : World => TimedOut serverId userId until' w.pg)
    (P := Effect.NotSql) ?_ ?_ hw
  · intro e w n w' he hw h
    cases e with
    | sql w => exact he.elim
    | _ =>
      obtain ⟨-, rfl⟩ := Prod.mk.inj (Except.ok.inj h)
      exact hw
  · refine issues_bind (issues_lift readOnly_checkChannelPermission.issues) fun sid =>
      issues_bind (issues_failIf _ _) fun _ => issues_bind (issues_failIf _ _) fun _ =>
      issues_bind (issues_select _) fun _ => issues_bind (issues_select _) fun _ =>
      issues_bind (issues_failIf _ _) fun _ => issues_bind (issues_select _) fun _ =>
      issues_bind (issues_failIf _ _) fun _ => ?_
    generalize (body.content.map parseMentions).getD ([], [], false) = parsed
    obtain ⟨mentions, mentionRoles, detected⟩ := parsed
    dsimp only
    refine issues_bind (issues_select _) fun _ => issues_bind (issues_execute trivial) fun _ =>
      issues_bind (issues_execute trivial) fun _ => issues_bind (issues_when fun _ => issues_execute trivial) fun _ =>
      issues_bind (issues_execute trivial) fun _ => issues_bind ?_ fun _ => issues_bind (issues_execute trivial) fun _ =>
      issues_pure _
    cases sid with
    | none => trivial
    | some sid => exact issues_execute trivial

/-! ## `update_member` -/

variable {body : UpdateMemberRequest}

def hasAccount (pg : Postgres) (userId : ℤ) : Bool :=
  pg.users.any fun u => u.id = userId && u.deletedAt.isNone

theorem memberRow_isSome (hm : pg.hasMember serverId userId = true) (hu : hasAccount pg userId = true) :
    (memberRow pg serverId userId).isSome = true := by
  rw [memberRow]
  rcases hfind : pg.serverMembers.find? fun m => m.serverId = serverId && m.userId = userId with _ | m
  · obtain ⟨m, hm, h1, h2⟩ := hasMember_iff.1 hm
    have := Table.find?_eq_none.1 hfind m hm
    simp [h1, h2] at this
  · obtain ⟨-, hkey⟩ := Table.mem_of_find? hfind
    rw [Bool.and_eq_true, decide_eq_true_eq, decide_eq_true_eq] at hkey
    rcases hfind' : pg.users.find? fun u => u.id = m.userId && u.deletedAt.isNone with _ | u
    · rw [hasAccount, Table.any_eq_true] at hu
      obtain ⟨u, hu, h⟩ := hu
      have := Table.find?_eq_none.1 hfind' u hu
      rw [hkey.2, h] at this
      cases this
    · simp [hfind']

/-- the nickname can be refused, the timeout cannot -/
theorem run_updateMemberFields_cases (serverId userId : ℤ) (body : UpdateMemberRequest) (pg : Postgres) :
    (∃ pg', (updateMemberFields serverId userId body).run statement pg = (.ok (), pg')) ∨
      ∃ e, (updateMemberFields serverId userId body).run statement pg = (.error e, pg) := by
  have htimeout : ∀ pg₁, ∃ pg', (body.communicationDisabledUntil.forM fun timeout =>
      (execute (.updateTimeout serverId userId timeout) : Handler Unit)).run statement pg₁ = (.ok (), pg') := by
    intro pg₁
    rcases body.communicationDisabledUntil with _ | timeout
    · exact ⟨pg₁, rfl⟩
    · exact ⟨_, rfl⟩
  rw [updateMemberFields, run_bind]
  rcases body.nickname with _ | nickname
  · exact .inl (htimeout pg)
  · rcases run_execute_cases statement (.updateNickname serverId userId nickname) pg with ⟨_, pg₁, -, h⟩ | ⟨e, h⟩
    · rw [Option.forM, h]
      exact .inl (htimeout pg₁)
    · rw [Option.forM, h]
      exact .inr ⟨e, rfl⟩

/-- a request that does not get past its checks and its nickname leaves the database alone -/
theorem updateMember_unchanged (h : reachesRoles pg auth serverId userId body = false) :
    ((updateMember auth serverId userId body).run statement pg).2 = pg := by
  rw [updateMember, run_bind]
  rw [reachesRoles, Prog.succeeds, run_bind] at h
  rcases hchecks : (updateMemberChecks auth serverId userId body).run statement pg with ⟨e | _, pg₁⟩
  · exact readOnly_updateMemberChecks.eq_of_run hchecks
  · obtain rfl := readOnly_updateMemberChecks.eq_of_run hchecks
    rw [hchecks] at h
    dsimp only at h ⊢
    rcases run_updateMemberFields_cases serverId userId body pg₁ with ⟨pg₂, hfields⟩ | ⟨e, hfields⟩
    · rw [hfields] at h
      cases h
    · rw [run_bind_of_error hfields]

/-- what the statements of `update_member` keep -/
def SameAccounts (pg pg' : Postgres) : Prop := SameRoles pg pg' ∧ pg'.users = pg.users

theorem OnMember.sameAccounts {w : Sql} {n : ℕ} {pg₁ pg₂ : Postgres} (hw : OnMember serverId userId w)
    (hpg : SameAccounts pg pg₁) (h : statement w pg₁ = .ok (n, pg₂)) : SameAccounts pg pg₂ :=
  ⟨hpg.1.trans (hw.sameRoles (statement_eq_ok.1 h)), (exec_users (statement_eq_ok.1 h)).trans hpg.2⟩

/-- the insertions go through if every role exists -/
theorem run_insertRoles {pg₁ : Postgres} {roleIds : List ℤ} (hroles : ∀ id ∈ roleIds, pg.hasRole id = true)
    (hmember : pg.hasMember serverId userId = true) (hpg : SameAccounts pg pg₁) :
    ∃ pg₂, (roleIds.forM fun id => (execute (.insertMemberRoleIgnore ⟨serverId, userId, id⟩) : Handler Unit)).run
      statement pg₁ = (.ok (), pg₂) ∧ SameAccounts pg pg₂ := by
  induction roleIds generalizing pg₁ with
  | nil => exact ⟨pg₁, rfl, hpg⟩
  | cons id roleIds ih =>
    have hexec : ∃ n pg₂, Sql.exec pg₁ (.insertMemberRoleIgnore ⟨serverId, userId, id⟩) = .ok (n, pg₂) := by
      have hrole : pg₁.hasRole id = true := by
        rw [hpg.1.hasRole]
        exact hroles id List.mem_cons_self
      have hmember₁ : pg₁.hasMember serverId userId = true := (hpg.1.2 serverId userId).trans hmember
      simp only [Sql.exec, Postgres.memberRoleReferences, hrole, hmember₁]
      rcases pg₁.memberRoles.insert? ⟨serverId, userId, id⟩ with _ | memberRoles
      · exact ⟨_, _, rfl⟩
      · exact ⟨_, _, rfl⟩
    obtain ⟨n, pg₂, hexec⟩ := hexec
    have hpg₂ : SameAccounts pg pg₂ := ⟨hpg.1.trans (insert_sameRoles hexec), (exec_users hexec).trans hpg.2⟩
    obtain ⟨pg₃, hrun, hpg₃⟩ := ih (fun id' hid' => hroles id' (List.mem_cons_of_mem id hid')) hpg₂
    refine ⟨pg₃, ?_, hpg₃⟩
    rw [← hrun]
    exact run_bind_of_ok (execute_eq_ok (u := ()).2 ⟨n, statement_eq_ok.2 hexec⟩)

theorem getMember_succeeds (hauth : pg.hasMember serverId auth = true) (hmember : pg.hasMember serverId userId = true)
    (haccount : hasAccount pg userId = true) : (getMember auth serverId userId).succeeds statement pg = true := by
  obtain ⟨row, hrow⟩ := Option.isSome_iff_exists.1 (memberRow_isSome hmember haccount)
  have hrequire : (requireMember serverId auth).run statement pg = (.ok (), pg) := by
    rw [run_requireMember, if_pos hauth]
  rw [Prog.succeeds, getMember, run_bind_of_ok hrequire, run_bind_of_ok (run_select _), hrow]
  rfl

/-- **A request that reaches its roles succeeds if every role exists and the account is not deleted.** -/
theorem updateMember_succeeds (hreach : reachesRoles pg auth serverId userId body = true)
    (hmember : pg.hasMember serverId userId = true) (haccount : hasAccount pg userId = true)
    (hroles : ∀ id ∈ body.roles.getD [], pg.hasRole id = true) :
    (updateMember auth serverId userId body).succeeds statement pg = true := by
  obtain ⟨_, pg₁, hrun⟩ := succeeds_iff.1 hreach
  rw [run_bind_eq_ok] at hrun
  obtain ⟨_, pg₀, hchecks, hfields⟩ := hrun
  obtain rfl := readOnly_updateMemberChecks.eq_of_run hchecks
  have hauth : pg₀.hasMember serverId auth = true := by
    rw [updateMemberChecks, run_bind_eq_ok] at hchecks
    obtain ⟨_, _, hrequire, -⟩ := hchecks
    rw [run_requireMember, Prod.mk.injEq] at hrequire
    by_contra hno
    rw [if_neg hno] at hrequire
    exact nomatch hrequire.1
  have hpg₁ : SameAccounts pg₀ pg₁ := by
    have honMember : (updateMemberFields serverId userId body).Issues (OnMember serverId userId) :=
      onMember_updateMemberFields
    have h := issues_run (I := SameAccounts pg₀) (fun w pg n pg' hw hpg h => hw.sameAccounts hpg h) honMember
      ⟨.refl pg₀, rfl⟩
    rwa [hfields] at h
  have hrun : ∃ pg₂, (body.roles.forM (updateMemberRoles serverId userId)).run statement pg₁ = (.ok (), pg₂) ∧
      SameAccounts pg₀ pg₂ := by
    rcases hbody : body.roles with _ | roleIds
    · exact ⟨pg₁, rfl, hpg₁⟩
    · rw [hbody] at hroles
      have honMember : OnMember serverId userId (.deleteMemberRoles serverId userId) := .inr (.inr rfl)
      exact run_insertRoles hroles hmember (honMember.sameAccounts hpg₁ (statement_eq_ok.2 rfl))
  obtain ⟨pg₂, hrun, hsame, husers⟩ := hrun
  have hget : (getMember auth serverId userId).succeeds statement pg₂ = true :=
    getMember_succeeds ((hsame.2 serverId auth).trans hauth) ((hsame.2 serverId userId).trans hmember)
      (by rwa [hasAccount, husers])
  rw [Prog.succeeds] at hget ⊢
  rwa [updateMember, run_bind_of_ok hchecks, run_bind_of_ok hfields, run_bind_of_ok hrun]

/-- the request puts an earlier end to the timeout and then fails: at a role that does not exist, or because the account
is deleted and there is no member to return -/
def shortens (pg : Postgres) (auth serverId userId : ℤ) (until' : DateTime) (body : UpdateMemberRequest) : Bool :=
  pg.hasMember serverId userId && reachesRoles pg auth serverId userId body &&
    (body.communicationDisabledUntil.any fun disabledUntil => !decide (Covers until' disabledUntil)) &&
      !((body.roles.getD []).all pg.hasRole && hasAccount pg userId)

/-- a request that keeps the timeout or, by naming it, succeeds -/
theorem updateMember_timedOut (hpg : TimedOut serverId userId until' pg)
    (hnames : body.communicationDisabledUntil.isSome = true →
      (updateMember auth serverId userId body).succeeds statement pg = false)
    (hshortens : shortens pg auth serverId userId until' body = false) :
    TimedOut serverId userId until' ((updateMember auth serverId userId body).run statement pg).2 := by
  rcases hmember : pg.hasMember serverId userId with _ | _
  · -- there is no row, and the request inserts none
    apply timedOut_of_not_hasMember
    refine issues_run (I := fun pg => pg.hasMember serverId userId = false) ?_ issues_updateMember hmember
    intro w pg n pg' hw hpg h
    have hsame := exec_hasMember serverId userId (statement_eq_ok.1 h)
    rcases hw with ⟨_, rfl⟩ | ⟨_, -, rfl⟩ | rfl | ⟨_, rfl⟩ <;> exact hsame.trans hpg
  rcases hreach : reachesRoles pg auth serverId userId body with _ | _
  · rwa [updateMember_unchanged hreach]
  have hcovers : ∀ timeout ∈ body.communicationDisabledUntil, Covers until' timeout := by
    intro timeout hbody
    rw [Option.mem_def] at hbody
    by_contra hcovers
    rw [shortens, hmember, hreach, hbody] at hshortens
    simp only [Bool.true_and, Option.any_some, hcovers, decide_false, Bool.not_false, Bool.not_eq_false',
      Bool.and_eq_true, List.all_eq_true] at hshortens
    rw [updateMember_succeeds hreach hmember hshortens.2 hshortens.1] at hnames
    exact nomatch hnames (by rw [hbody]; rfl)
  refine run_timedOut (issues_updateMember.mono ?_) hpg
  rintro w (⟨_, rfl⟩ | ⟨timeout, htimeout, rfl⟩ | rfl | ⟨_, rfl⟩)
  · trivial
  · exact fun _ _ => hcovers timeout htimeout
  · trivial
  · trivial

/-! ## `use_invite` -/

/-- the code lets a user in who is not a member -/
def joins (pg : Postgres) (serverId userId : ℤ) (code : String) (now : DateTime) : Bool :=
  !pg.hasMember serverId userId && !(pg.bans.any fun b => b.serverId = serverId && b.userId = userId) &&
    (pg.invites.find? fun i => i.code = code).any fun i => i.serverId = serverId &&
      !decide (0 < i.maxAge ∧ i.createdAt.millis + i.maxAge * 1000 < now.millis) &&
      !decide (0 < i.maxUses ∧ i.maxUses ≤ i.uses)

theorem useInvite_timedOut {code : String} (hpg : TimedOut serverId userId until' pg)
    (hjoins : auth = userId → joins pg serverId userId code now = false) :
    TimedOut serverId userId until' ((useInvite auth code now).run statement pg).2 := by
  refine run_bind_inv (run_atomically_inv hpg fun joined pg' hrun => ?_) fun _ pg' _ hpg' => by
    rwa [run_readOnly readOnly_fetchServer]
  simp only [run_bind_eq_ok, run_select, orFail_eq_ok, Prod.mk.injEq, Except.ok.injEq] at hrun
  obtain ⟨_, _, ⟨rfl, rfl⟩, invite, _, ⟨hfind, rfl⟩, hrun⟩ := hrun
  by_cases hspared : auth = userId ∧ invite.serverId = serverId
  · obtain ⟨rfl, rfl⟩ := hspared
    rw [joinServer] at hrun
    simp only [run_bind_eq_ok, failIf_eq_ok, run_select, Prod.mk.injEq, Except.ok.injEq] at hrun
    obtain ⟨_, _, ⟨hage, rfl⟩, _, pg, ⟨huses, rfl⟩, isMember, _, ⟨rfl, rfl⟩, hrun⟩ := hrun
    rcases hmember : pg.hasMember invite.serverId auth with _ | _
    · simp only [hmember, Bool.false_eq_true, if_false, run_bind_eq_ok, failIf_eq_ok, run_select, Prod.mk.injEq,
        Except.ok.injEq] at hrun
      obtain ⟨_, _, ⟨rfl, rfl⟩, _, _, ⟨hbanned, -⟩, -⟩ := hrun
      rw [Bool.not_eq_true] at hbanned
      have := hjoins rfl
      simp only [joins, hmember, hbanned, hfind, Option.any_some, hage, huses, decide_true, decide_false, Bool.not_false,
        Bool.and_true, Bool.true_eq_false] at this
    · simp only [hmember, if_true, run_pure, Prod.mk.injEq] at hrun
      exact hrun.2 ▸ hpg
  · have hspares : (joinServer auth invite now).Issues (Spares serverId userId until') := by
      refine issues_joinServer.mono ?_
      rintro w (rfl | rfl | rfl | rfl)
      · rintro ⟨hs, hu⟩
        exact hspared ⟨hu, hs⟩
      all_goals trivial
    have h := run_timedOut hspares hpg
    rwa [hrun] at h

/-! ## Runs -/

/-- an `update_member` that names the timeout of the member -/
def namesTimeout (serverId userId : ℤ) : MemberRequest → Bool
  | .updateMember _ id member body => id = serverId && member = userId && body.communicationDisabledUntil.isSome
  | _ => false

/-- the request neither lets the member in anew nor fails with the timeout shortened -/
def KeepsTimeout (serverId userId : ℤ) (until' : DateTime) (w : World) : MemberRequest → Prop
  | .updateMember auth id member body =>
    id = serverId → member = userId → shortens w.pg auth serverId userId until' body = false
  | .useInvite auth code now => auth = userId → joins w.pg serverId userId code now = false
  | _ => True

theorem step_timedOut {w : World} {r : MemberRequest}
    (hnames : namesTimeout serverId userId r = true → r.handle.succeeds Effect.exec w = false)
    (hkeeps : KeepsTimeout serverId userId until' w r) (hw : TimedOut serverId userId until' w.pg) :
    TimedOut serverId userId until' (requestStep w r).pg := by
  cases r with
  | updateMember auth id member body =>
    rw [requestStep, MemberRequest.handle, run_answer, run_onPg]
    by_cases hkey : id = serverId ∧ member = userId
    · obtain ⟨rfl, rfl⟩ := hkey
      refine updateMember_timedOut hw (fun hbody => ?_) (hkeeps rfl rfl)
      have := hnames (by simp [namesTimeout, hbody])
      rwa [MemberRequest.handle, succeeds_answer, succeeds_onPg] at this
    · refine run_timedOut (issues_updateMember.mono ?_) hw
      rintro w (⟨_, rfl⟩ | ⟨_, -, rfl⟩ | rfl | ⟨_, rfl⟩)
      · trivial
      · exact fun hs hu => absurd ⟨hs, hu⟩ hkey
      · trivial
      · trivial
  | updateSelfMember auth id nickname =>
    rw [requestStep, MemberRequest.handle, run_answer, run_onPg]
    refine run_timedOut (issues_updateSelfMember.mono ?_) hw
    rintro w ⟨_, rfl⟩
    trivial
  | leaveServer auth id =>
    rw [requestStep, MemberRequest.handle, run_onPg]
    refine run_timedOut (issues_leaveServer.mono ?_) hw
    rintro w (rfl | rfl) <;> trivial
  | kickMember auth id member =>
    rw [requestStep, MemberRequest.handle, run_onPg]
    refine run_timedOut (issues_kickMember.mono ?_) hw
    rintro w (rfl | rfl) <;> trivial
  | useInvite auth code now =>
    rw [requestStep, MemberRequest.handle, run_answer, run_onPg]
    exact useInvite_timedOut hw hkeeps
  | sendMessage auth channelId body messageId now =>
    rw [requestStep, MemberRequest.handle, run_answer]
    exact sendMessage_timedOut hw

theorem updateTimeout_sets {n : ℕ} (h : statement (.updateTimeout serverId userId (some until')) pg = .ok (n, pg')) :
    TimedOut serverId userId until' pg' := by
  obtain ⟨-, rfl⟩ := Prod.mk.inj (Except.ok.inj h)
  intro m hm hs hu
  simp only [Table.mem_updateWhere] at hm
  obtain ⟨old, -, rfl⟩ := hm
  split_ifs with hkey
  · exact ⟨until', rfl, le_rfl⟩
  · rw [if_neg hkey] at hs hu
    simp [hs, hu] at hkey

/-- a successful update that sets the timeout leaves the member timed out -/
theorem updateMember_sets {r : MemberResponse} (hbody : body.communicationDisabledUntil = some (some until'))
    (h : (updateMember auth serverId userId body).run statement pg = (.ok r, pg')) :
    TimedOut serverId userId until' pg' := by
  rw [updateMember, run_bind_eq_ok] at h
  obtain ⟨_, _, -, h⟩ := h
  rw [run_bind_eq_ok] at h
  obtain ⟨_, pg₁, hfields, h⟩ := h
  rw [updateMemberFields, hbody, run_bind_eq_ok] at hfields
  obtain ⟨_, _, -, hfields⟩ := hfields
  obtain ⟨n, hset⟩ := execute_eq_ok.1 hfields
  have hpg₁ : TimedOut serverId userId until' pg₁ := updateTimeout_sets hset
  have hrest := run_timedOut (p := do body.roles.forM (updateMemberRoles serverId userId); getMember auth serverId userId)
    (issues_bind (issues_forM_option fun roleIds _ => issues_updateMemberRoles.mono ?_) fun _ => readOnly_getMember.issues)
    hpg₁
  · rwa [h] at hrest
  · rintro w (rfl | ⟨_, -, rfl⟩) <;> trivial

/-- **A timeout holds.** From a successful `update_member` that sets the timeout of a member, as long as no other one
names it and succeeds, in every run without a request that lets the member in anew and without one that fails with the
timeout shortened, the member sends nothing to a channel of the server until then. -/
theorem timeout_holds {w w' : World} {r : MemberResponse} {requests : List MemberRequest} {message : SendMessageRequest}
    {messageId : Snowflake} (hbody : body.communicationDisabledUntil = some (some until'))
    (hset : (onPg (updateMember auth serverId userId body)).run Effect.exec w = (.ok r, w'))
    (hnames : Every requestStep (fun w r => namesTimeout serverId userId r = true →
      r.handle.succeeds Effect.exec w = false) w' requests)
    (hkeeps : Every requestStep (KeepsTimeout serverId userId until') w' requests)
    (hc : InServer (Core.run requestStep w' requests).pg channelId serverId) (hnow : now.millis < until'.millis) :
    (sendMessage userId channelId message messageId now).succeeds Effect.exec (Core.run requestStep w' requests) =
      false := by
  rw [run_onPg, Prod.mk.injEq] at hset
  have hw' : TimedOut serverId userId until' w'.pg := by
    rw [← hset.2]
    exact updateMember_sets hbody (Prod.ext hset.1 rfl)
  have hrun : TimedOut serverId userId until' (Core.run requestStep w' requests).pg :=
    run_inv_of_every (I := fun w => TimedOut serverId userId until' w.pg) (fun w r h hw => step_timedOut h.1 h.2 hw) hw'
      (hnames.and hkeeps)
  exact sendMessage_refused hrun hc hnow

/-! ## A timeout that does not hold -/

def untilThousand : UpdateMemberRequest := ⟨none, none, some (some ⟨1000⟩)⟩

/-- user 1 times user 2 out -/
def silence : MemberRequest := .updateMember 1 100 2 untilThousand

theorem timeout_holds_renamed :
    (sendMessage 2 101 hello ⟨7⟩ ⟨10⟩).succeeds Effect.exec
      (Core.run requestStep (requestStep joined silence) [.updateSelfMember 2 100 (some (some "bobby"))]) = false := by
  obtain ⟨r, w', hset⟩ := succeeds_iff.1
    (show (onPg (updateMember 1 100 2 untilThousand)).succeeds Effect.exec joined = true by decide)
  have hw' : w' = requestStep joined silence := by
    rw [requestStep, silence, MemberRequest.handle, run_answer, hset]
  rw [← hw']
  refine timeout_holds rfl hset ⟨nofun, trivial⟩ ⟨trivial, trivial⟩ ?_ (by decide)
  rw [hw']
  exact ⟨newChannel 101 100 0 "general" 0 ⟨0⟩, by decide, rfl, rfl⟩

/-- **Leaving the server and coming back ends a timeout.** -/
theorem timeout_evaded :
    let w := Core.run requestStep (requestStep joined silence) [.leaveServer 2 100, .useInvite 2 "join" ⟨5⟩]
    silence.handle.succeeds Effect.exec joined = true ∧ InServer w.pg 101 100 ∧
      (sendMessage 2 101 hello ⟨7⟩ ⟨10⟩).succeeds Effect.exec w = true :=
  ⟨by decide, ⟨newChannel 101 100 0 "general" 0 ⟨0⟩, by decide, rfl, rfl⟩, by decide⟩

/-- an update that fails at role 999 has ended the timeout all the same -/
theorem timeout_cut_short :
    let r : MemberRequest := .updateMember 1 100 2 ⟨none, some [999], some (some ⟨5⟩)⟩
    r.handle.succeeds Effect.exec (requestStep joined silence) = false ∧
      (sendMessage 2 101 hello ⟨7⟩ ⟨10⟩).succeeds Effect.exec (requestStep (requestStep joined silence) r) = true := by
  decide

end Lumiere.Routes
