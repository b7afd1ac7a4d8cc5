/-
When an invite is valid (routes/servers.rs). `get_invite` and `use_invite` check the age and the uses of an invite in Rust,
`get_server_invites` filters by age in SQL.

- `succeeds_getInvite`, `succeeds_useInvite`, `listed_iff`: what each of the three takes to be valid.
- `one_validity_iff`: on which invites and at which times they agree.
- `never_listed`: an invite with a negative age is valid for ever and never listed.
-/
import Lumiere.Core.Outcome
import Lumiere.Routes.InviteRaces

namespace Lumiere.Routes.InviteValidity

open Lumiere.Core Lumiere.Core.Prog Lumiere.Models Lumiere.Db Lumiere.Routes.InviteRaces

/-! ## The handlers -/

structure InviteServerPreview where
  id : ℤ
  name : String
  icon : Option String
  memberCount : ℤ
deriving DecidableEq, Repr

structure InvitePreview where
  code : String
  server : InviteServerPreview
  channelName : Option String
deriving DecidableEq, Repr

/-- `invites` JOIN `servers` JOIN `channels` -/
def inviteRow (pg : Postgres) (code : String) : Option (Invite × Server × Channel) := do
  let i ← pg.invites.find? fun i => i.code = code
  let s ← pg.servers.find? fun s => s.id = i.serverId
  let c ← pg.channels.find? fun c => c.id = i.channelId
  some (i, s, c)

def getInvite (code : String) (now : DateTime) : Handler InvitePreview := do
  let row ← select fun pg => inviteRow pg code
  let (i, s, c) ← orFail (.notFound "Invite not found") row
  failIf (0 < i.maxAge ∧ i.createdAt.millis + i.maxAge * 1000 < now.millis) (.notFound "Invite expired")
  failIf (0 < i.maxUses ∧ i.maxUses ≤ i.uses) (.notFound "Invite has reached max uses")
  pure ⟨i.code, ⟨s.id, s.name, s.icon, s.memberCount⟩, c.name⟩

/-- the rows, that are the response -/
def getServerInvites (auth serverId : ℤ) (now : DateTime) : Handler (List Invite) := do
  requirePermissions serverId auth .manageServer
  select fun pg => pg.invites.select fun i =>
    i.serverId = serverId && (i.maxAge = 0 || now.millis < i.createdAt.millis + i.maxAge * 1000)

/-! ## Three checks -/

variable {pg : Postgres} {i : Invite} {auth manager : ℤ} {now : DateTime}

def runOut (now : DateTime) (i : Invite) : Prop := 0 < i.maxAge ∧ i.createdAt.millis + i.maxAge * 1000 < now.millis

instance : Decidable (runOut now i) := inferInstanceAs (Decidable (_ ∧ _))

instance : Decidable (usedUp i) := inferInstanceAs (Decidable (_ ∧ _))

/-- a user who is neither a member nor banned, with the rows that an invite and a user refer to -/
structure Guest (pg : Postgres) (i : Invite) (auth : ℤ) : Prop where
  stored : i ∈ pg.invites
  server : pg.hasServer i.serverId = true
  channel : pg.hasChannel i.channelId = true
  everyone : pg.hasRole i.serverId = true
  user : pg.hasUser auth = true
  notMember : pg.hasMember i.serverId auth = false
  notBanned : pg.isBanned i.serverId auth = false
  unassigned : ⟨i.serverId, auth, i.serverId⟩ ∉ pg.memberRoles

/-- the server of the invite has room in its count -/
def CountHasRoom (pg : Postgres) (serverId : ℤ) : Prop := ∀ s ∈ pg.servers, s.id = serverId → s.memberCount ≠ 2147483647

theorem Guest.findInvite (h : Guest pg i auth) : pg.invites.find? (fun v => v.code = i.code) = some i :=
  Table.find?_key.2 ⟨h.stored, rfl⟩

theorem Guest.findServer (h : Guest pg i auth) :
    ∃ s, pg.servers.find? (fun s => s.id = i.serverId) = some s ∧
      (CountHasRoom pg i.serverId ↔ s.memberCount ≠ 2147483647) := by
  obtain ⟨s, hs, hid⟩ := Table.any_eq_true.1 h.server
  have hid' := of_decide_eq_true hid
  refine ⟨s, Table.find?_key.2 ⟨hs, hid'⟩, fun hroom => hroom s hs hid', fun hroom s' hs' hid => ?_⟩
  rwa [Table.eq_of_key_eq hs' hs (hid.trans hid'.symm)]

variable (now) in
theorem succeeds_getInvite (h : Guest pg i auth) :
    (getInvite i.code now).succeeds statement pg = true ↔ ¬ runOut now i ∧ ¬ usedUp i := by
  obtain ⟨s, hs, -⟩ := h.findServer
  obtain ⟨c, hc, hid⟩ := Table.any_eq_true.1 h.channel
  have hrow : inviteRow pg i.code = some (i, s, c) := by
    have hfind : pg.channels.find? (fun c => c.id = i.channelId) = some c :=
      Table.find?_key.2 ⟨hc, of_decide_eq_true hid⟩
    rw [inviteRow, h.findInvite]
    simp only [Option.bind_eq_bind, Option.bind_some, hs, hfind]
  rw [succeeds_iff_ends, getInvite, ends_bind, ends_select, hrow, ends_bind, ends_of_ok (run_orFail_some _ _), ends_bind,
    ends_passes, ends_bind, ends_passes]
  exact and_congr_right fun _ => and_iff_left trivial

/-! the database after each of the four statements -/

def joined₁ (pg : Postgres) (i : Invite) (auth : ℤ) (now : DateTime) : Postgres :=
  { pg with serverMembers := pg.serverMembers.insertIgnore (newServerMember i.serverId auth now) }

def joined₂ (pg : Postgres) (i : Invite) (auth : ℤ) (now : DateTime) : Postgres :=
  { joined₁ pg i auth now with memberRoles := pg.memberRoles.insertIgnore ⟨i.serverId, auth, i.serverId⟩ }

def joined₃ (pg : Postgres) (i : Invite) (auth : ℤ) (now : DateTime) (s : Server) : Postgres :=
  { joined₂ pg i auth now with servers := pg.servers.replace (oneMore s) }

def joined₄ (pg : Postgres) (i : Invite) (auth : ℤ) (now : DateTime) (s : Server) : Postgres :=
  { joined₃ pg i auth now s with invites := pg.invites.replace (usedOnce i) }

section Statements

variable (h : Guest pg i auth) {n : ℕ} {pg' : Postgres} {s : Server}

include h

theorem exec_join₁ : statement (.insertServerMember (newServerMember i.serverId auth now)) pg = .ok (n, pg') ↔
    True ∧ n = 1 ∧ pg' = joined₁ pg i auth now := by
  rw [statement_eq_ok, exec_insertServerMember_iff]
  exact ⟨fun hexec => ⟨trivial, hexec.2.2.2⟩, fun hexec => ⟨h.notMember, h.server, h.user, hexec.2⟩⟩

theorem exec_join₂ : statement (.insertMemberRole ⟨i.serverId, auth, i.serverId⟩) (joined₁ pg i auth now) = .ok (n, pg') ↔
    True ∧ n = 1 ∧ pg' = joined₂ pg i auth now := by
  have hjoined : statement (.insertServerMember (newServerMember i.serverId auth now)) pg = .ok (1, joined₁ pg i auth now) :=
    (exec_join₁ h).2 ⟨trivial, rfl, rfl⟩
  have hinsert := statement_eq_ok.1 hjoined
  have hmember : (joined₁ pg i auth now).hasMember i.serverId auth = true :=
    (exec_hasMember i.serverId auth hinsert).2.2 (.inr ⟨rfl, rfl⟩)
  rw [statement_eq_ok, exec_insertMemberRole_iff]
  exact ⟨fun hexec => ⟨trivial, hexec.2.2.2⟩, fun hexec => ⟨h.unassigned, h.everyone, hmember, hexec.2⟩⟩

omit h in
theorem exec_join₃ (hs : pg.servers.find? (fun s => s.id = i.serverId) = some s) :
    statement (.incrementMemberCount i.serverId) (joined₂ pg i auth now) = .ok (n, pg') ↔
      s.memberCount ≠ 2147483647 ∧ n = (pg.servers.count fun s => s.id = i.serverId) ∧
        pg' = joined₃ pg i auth now s := by
  have hs' : (joined₂ pg i auth now).servers.find? (fun s => s.id = i.serverId) = some s := hs
  rw [statement_eq_ok]
  exact exec_incrementMemberCount_iff hs'

theorem exec_join₄ : statement (.incrementInviteUses i.code) (joined₃ pg i auth now s) = .ok (n, pg') ↔
    i.uses ≠ 2147483647 ∧ n = (pg.invites.count fun v => v.code = i.code) ∧ pg' = joined₄ pg i auth now s := by
  have hi : (joined₃ pg i auth now s).invites.find? (fun v => v.code = i.code) = some i := h.findInvite
  rw [statement_eq_ok]
  exact exec_incrementInviteUses_iff hi

end Statements

variable (now) in
theorem succeeds_useInvite (h : Guest pg i auth) : (useInvite auth i.code now).succeeds statement pg = true ↔
    ¬ runOut now i ∧ ¬ usedUp i ∧ CountHasRoom pg i.serverId ∧ i.uses ≠ 2147483647 := by
  obtain ⟨s, hs, hroom⟩ := h.findServer
  have hafter : (joined₄ pg i auth now s).servers.find? (fun s => s.id = i.serverId) = some (oneMore s) := by
    obtain ⟨hmem, hid⟩ := Table.find?_key.1 hs
    exact Table.find?_key.2 ⟨Table.mem_replace.2 (.inr ⟨rfl, s, hmem, rfl⟩), hid⟩
  have hfetch : (fetchServer i.serverId).Ends statement (joined₄ pg i auth now s) (fun _ _ => True) (fun _ _ => False) := by
    rw [fetchServer, ends_bind, ends_select, hafter, ends_of_ok (run_orFail_some _ _)]
    trivial
  have hbanned : (pg.bans.any fun b => b.serverId = i.serverId && b.userId = auth) = false := h.notBanned
  rw [succeeds_iff_ends, useInvite_eq, ends_bind, ends_commits, inviteTx, ends_bind, ends_select, h.findInvite, ends_bind,
    ends_of_ok (run_orFail_some _ _), joinServer, ends_bind, ends_passes, ends_bind, ends_passes, ends_bind, ends_select,
    h.notMember, if_neg Bool.false_ne_true, ends_bind, ends_select, hbanned, ends_bind, ends_passes, ends_bind,
    ends_executes fun _ _ => exec_join₁ h, ends_bind, ends_executes fun _ _ => exec_join₂ h, ends_bind,
    ends_executes fun _ _ => exec_join₃ hs, ends_bind, ends_executes fun _ _ => exec_join₄ h, hroom]
  constructor
  · rintro ⟨hage, huses, -, -, -, hcount, hmax, -⟩
    exact ⟨hage, huses, hcount, hmax⟩
  · rintro ⟨hage, huses, hcount, hmax⟩
    exact ⟨hage, huses, Bool.false_ne_true, trivial, trivial, hcount, hmax, hfetch⟩

variable (now) in
/-- the listing, for a user who may see it -/
theorem listed_iff (hmanager : (requirePermissions i.serverId manager .manageServer).succeeds statement pg = true)
    (hi : i ∈ pg.invites) :
    (∃ list, (getServerInvites manager i.serverId now).run statement pg = (.ok list, pg) ∧ i ∈ list) ↔
      i.maxAge = 0 ∨ now.millis < i.createdAt.millis + i.maxAge * 1000 := by
  obtain ⟨u, pg', hrun⟩ := succeeds_iff.1 hmanager
  obtain rfl := readOnly_requirePermissions.eq_of_run hrun
  have hlist : (getServerInvites manager i.serverId now).run statement pg' = (.ok (pg'.invites.select fun v =>
      v.serverId = i.serverId && (v.maxAge = 0 || now.millis < v.createdAt.millis + v.maxAge * 1000)), pg') := by
    rw [getServerInvites, run_bind_of_ok hrun, run_select]
  rw [hlist]
  constructor
  · rintro ⟨list, heq, hmem⟩
    obtain rfl := Except.ok.inj (Prod.mk.inj heq).1
    simpa using (Table.mem_select.1 hmem).2
  · intro h
    exact ⟨_, rfl, Table.mem_select.2 ⟨hi, by simpa using h⟩⟩

/-! ## One notion of validity -/

/-- at an instant: the preview and the use agree, what can be used is listed, and what has run out is not -/
structure OneValidity (pg : Postgres) (i : Invite) (auth manager : ℤ) (now : DateTime) : Prop where
  previewed : (getInvite i.code now).succeeds statement pg = true ↔ (useInvite auth i.code now).succeeds statement pg = true
  listed : (useInvite auth i.code now).succeeds statement pg = true →
    ∃ list, (getServerInvites manager i.serverId now).run statement pg = (.ok list, pg) ∧ i ∈ list
  unlisted : runOut now i →
    ¬ ∃ list, (getServerInvites manager i.serverId now).run statement pg = (.ok list, pg) ∧ i ∈ list

/-- **When the three agree on an invite**: it has run out or is used up; or its age is not negative and over, it is not the
instant at which its age ends, and neither its uses nor the members of its server are as many as can be counted. -/
theorem one_validity_iff (pg : Postgres) (i : Invite) (auth manager : ℤ) (now : DateTime) (hguest : Guest pg i auth)
    (hmanager : (requirePermissions i.serverId manager .manageServer).succeeds statement pg = true) :
    OneValidity pg i auth manager now ↔ runOut now i ∨ usedUp i ∨
      (¬ (i.maxAge < 0 ∧ i.createdAt.millis + i.maxAge * 1000 ≤ now.millis) ∧
        ¬ (0 < i.maxAge ∧ now.millis = i.createdAt.millis + i.maxAge * 1000) ∧
        i.uses ≠ 2147483647 ∧ CountHasRoom pg i.serverId) := by
  have hpreview := succeeds_getInvite now hguest
  have huse := succeeds_useInvite now hguest
  have hlisted := listed_iff now hmanager hguest.stored
  constructor
  · intro h
    by_cases hout : runOut now i
    · exact .inl hout
    by_cases hused : usedUp i
    · exact .inr (.inl hused)
    -- the invite is previewed, so it can be used, so it is listed
    have haccepted := h.previewed.1 (hpreview.2 ⟨hout, hused⟩)
    obtain ⟨-, -, hroom, huses⟩ := huse.1 haccepted
    have hage := hlisted.1 (h.listed haccepted)
    exact .inr (.inr ⟨by omega, by omega, huses, hroom⟩)
  · intro h
    refine ⟨?_, ?_, ?_⟩
    · rw [hpreview, huse]
      refine ⟨fun hvalid => ⟨hvalid.1, hvalid.2, ?_⟩, fun hvalid => ⟨hvalid.1, hvalid.2.1⟩⟩
      rcases h with hout | hused | ⟨-, -, huses, hroom⟩
      · exact absurd hout hvalid.1
      · exact absurd hused hvalid.2
      · exact ⟨hroom, huses⟩
    · rw [huse, hlisted]
      rintro ⟨hout, hused, -, -⟩
      rcases h with hout' | hused' | ⟨hnegative, hinstant, -, -⟩
      · exact absurd hout' hout
      · exact absurd hused' hused
      · unfold runOut at hout
        omega
    · intro hout
      rw [hlisted]
      obtain ⟨hpos, hlt⟩ := hout
      omega

/-! ## A negative age -/

/-- user 1 owns server 100 with an invite of this age; user 2 has an account -/
def invitedFor (maxAge : ℤ) : Postgres :=
  Core.run (step fun _ _ => .ok true) (noServers adaAndBob)
    [.request (.createServer 1 ⟨"first", none, none⟩ 100 101 102 ⟨0⟩),
     .request (.createInvite 1 101 ⟨some maxAge, none, none⟩ "join" ⟨0⟩)]

def inviteFor (maxAge : ℤ) : Invite := ⟨"join", 100, 101, some 1, 0, 0, maxAge, false, ⟨0⟩⟩

theorem guest_invitedFor_hour : Guest (invitedFor 3600) (inviteFor 3600) 2 := by
  constructor <;> decide

theorem guest_invitedFor_negative : Guest (invitedFor (-1)) (inviteFor (-1)) 2 := by
  constructor <;> decide

theorem manager_invitedFor (maxAge : ℤ) (h : maxAge = 3600 ∨ maxAge = -1) :
    (requirePermissions 100 1 .manageServer).succeeds statement (invitedFor maxAge) = true := by
  rcases h with rfl | rfl <;> decide

theorem countHasRoom_invitedFor (maxAge : ℤ) (h : maxAge = 3600 ∨ maxAge = -1) : CountHasRoom (invitedFor maxAge) 100 := by
  have hrows : ∀ s ∈ (invitedFor maxAge).servers.rows, s.memberCount ≠ 2147483647 := by
    rcases h with rfl | rfl <;> decide
  intro s hs _
  exact hrows s hs

/-- **An invite with a negative age is never listed**: `get_invite` previews it and `use_invite` accepts it. -/
theorem never_listed :
    (getInvite "join" ⟨0⟩).succeeds statement (invitedFor (-1)) = true ∧
    (useInvite 2 "join" ⟨0⟩).succeeds statement (invitedFor (-1)) = true ∧
    (∀ list, (getServerInvites 1 100 ⟨0⟩).run statement (invitedFor (-1)) = (.ok list, invitedFor (-1)) →
      inviteFor (-1) ∉ list) ∧
    ¬ OneValidity (invitedFor (-1)) (inviteFor (-1)) 2 1 ⟨0⟩ := by
  have hused : (useInvite 2 "join" ⟨0⟩).succeeds statement (invitedFor (-1)) = true :=
    (succeeds_useInvite _ guest_invitedFor_negative).2
      ⟨by decide, by decide, countHasRoom_invitedFor (-1) (.inr rfl), by decide⟩
  have hlisted : ¬ ∃ list, (getServerInvites 1 100 ⟨0⟩).run statement (invitedFor (-1)) =
      (.ok list, invitedFor (-1)) ∧ inviteFor (-1) ∈ list :=
    (listed_iff _ (manager_invitedFor (-1) (.inr rfl)) guest_invitedFor_negative.stored).not.2 (by decide)
  refine ⟨(succeeds_getInvite _ guest_invitedFor_negative).2 (by decide), hused, ?_, ?_⟩
  · intro list hrun hmem
    exact hlisted ⟨list, hrun, hmem⟩
  · intro h
    exact hlisted (h.listed hused)

/-- an invite for an hour: when it is created, and when the hour ends -/
theorem one_validity_iff_hour :
    OneValidity (invitedFor 3600) (inviteFor 3600) 2 1 ⟨0⟩ ∧
    ¬ OneValidity (invitedFor 3600) (inviteFor 3600) 2 1 ⟨3600000⟩ := by
  have hmanager := manager_invitedFor 3600 (.inl rfl)
  refine ⟨(one_validity_iff _ _ _ _ _ guest_invitedFor_hour hmanager).2 (.inr (.inr ?_)), fun h => ?_⟩
  · exact ⟨by decide, by decide, by decide, countHasRoom_invitedFor 3600 (.inl rfl)⟩
  · rcases (one_validity_iff _ _ _ _ _ guest_invitedFor_hour hmanager).1 h with hout | hused | ⟨-, hinstant, -⟩
    · exact absurd hout (by decide)
    · exact absurd hused (by decide)
    · exact hinstant (by decide)

end Lumiere.Routes.InviteValidity
