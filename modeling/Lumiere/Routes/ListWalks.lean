/-
Reading the members of a server and the users who reacted with an emoji page by page: `get_members`
(`lumiere-server/src/routes/servers.rs`) and `get_reactors` (`routes/reactions.rs`), without a cursor and then after the
last entry of each page, until a page is empty. The first leaves deleted accounts out within its query, the second after
its `LIMIT`.

- `walks_lossless_iff`: the members are always read in full. The reactors are exactly if no page of consecutive ones with
  deleted accounts comes before one whose account is live.
- `one_deleted_page`: a deleted account ends the walk.
-/
import Lumiere.Core.Ordered
import Lumiere.Core.Walk
import Lumiere.Db.Effects
import Lumiere.Routes.MessageWrites

namespace Lumiere.Routes

open Lumiere.Core Lumiere.Core.Prog Lumiere.Models Lumiere.Db

/-! ## `get_members` -/

/-- `server_members` joined with `users`, `ORDER BY sm.user_id ASC` -/
def memberRows (pg : Postgres) (serverId after : ℤ) : List (ServerMember × User) :=
  ordered (fun r => r.1.userId)
    ((pg.serverMembers.select fun m => m.serverId = serverId && after < m.userId).filterMap fun m =>
      (pg.users.find? fun u => u.id = m.userId && u.deletedAt.isNone).map fun u => (m, u))

/-- each user is in the rows once, so its roles are all that the map has for it -/
def listedMember (allRoles : List MemberRole) (row : ServerMember × User) : MemberResponse :=
  let (m, u) := row
  { user := ⟨u.id, u.username, u.discriminator, u.avatar, u.banner, u.bio, u.flags, u.isBot⟩
    nickname := m.nickname, avatar := m.avatar
    roles := (allRoles.filter fun r => r.userId = u.id).map MemberRole.roleId
    joinedAt := m.joinedAt, communicationDisabledUntil := m.communicationDisabledUntil, flags := m.flags }

def negativeLimit : AppError := .internal "Database error: error returned from database: LIMIT must not be negative"

def getMembers (auth serverId : ℤ) (limit after : Option ℤ) : Handler (List MemberResponse) := do
  requireMember serverId auth
  let limit := min (limit.getD 100) 1000
  let after := after.getD 0
  failIf (limit < 0) negativeLimit
  let rows ← select fun pg => (memberRows pg serverId after).take limit.toNat
  let userIds := rows.map fun r => r.2.id
  let allRoles ← select fun pg => pg.memberRoles.select fun r => r.serverId = serverId && userIds.contains r.userId
  pure (rows.map (listedMember allRoles))

/-! ## `get_reactors` -/

/-- the users of a message and an emoji, in the clustering order -/
def reactorIds (chat : Chat) (channelId messageId : ℤ) (emoji : String) : List ℤ :=
  ordered id ((chat.reactions.select fun r => r.channelId = channelId && r.messageId = messageId && r.emoji = emoji).map
    Reaction.userId)

/-- the statements `get_reactors_after` and `get_reactors` -/
def selectReactors (chat : Chat) (channelId messageId : ℤ) (emoji : String) (after : Option ℤ) (limit : ℕ) : List ℤ :=
  match after with
  | some afterId => ((reactorIds chat channelId messageId emoji).filter fun id => afterId < id).take limit
  | none => (reactorIds chat channelId messageId emoji).take limit

structure ReactionUser where
  id : ℤ
  username : String
  avatar : Option String
deriving DecidableEq, Repr

def getReactors (auth channelId messageId : ℤ) (emoji : String) (limit after : Option ℤ) : Route (List ReactionUser) := do
  refuseEmoji emoji
  let _ ← onPg (checkChannelPermission channelId auth .viewChannel)
  let limit := max 1 (min (limit.getD 25) 100)
  let userIds ← select fun w => selectReactors w.chat channelId messageId emoji after limit.toNat
  if userIds.isEmpty then pure []
  else do
    let rows ← select fun w => w.pg.users.select fun u => userIds.contains u.id && u.deletedAt.isNone
    pure (userIds.filterMap fun uid => (rows.find? fun u => u.id = uid).map fun u => ⟨u.id, u.username, u.avatar⟩)

/-! ## What a walk should read -/

/-- exactly these ids, each once and in ascending order -/
def Lists (ids : List ℤ) (P : ℤ → Prop) : Prop := Increasing id ids ∧ ∀ x, x ∈ ids ↔ P x

theorem lists_iff {ids ids' : List ℤ} {P : ℤ → Prop} (h : Lists ids P) : Lists ids' P ↔ ids' = ids := by
  constructor
  · intro h'
    exact eq_of_increasing h'.1 h.1 fun x => (h'.2 x).trans (h.2 x).symm
  · rintro rfl
    exact h

/-- an account that is not deleted -/
def HasAccount (pg : Postgres) (userId : ℤ) : Prop := ∃ u ∈ pg.users, u.id = userId ∧ u.deletedAt = none

theorem find?_account {pg : Postgres} {userId : ℤ} {u : User} :
    (pg.users.find? fun u => u.id = userId && u.deletedAt.isNone) = some u ↔
      u ∈ pg.users ∧ u.id = userId ∧ u.deletedAt = none := by
  constructor
  · intro h
    obtain ⟨hu, hp⟩ := Table.mem_of_find? h
    simp only [Bool.and_eq_true, decide_eq_true_eq, Option.isNone_iff_eq_none] at hp
    exact ⟨hu, hp⟩
  · rintro ⟨hu, rfl, hlive⟩
    exact Table.find?_of_mem hu (by simp [hlive]) fun b hb hp => Table.eq_of_key_eq hb hu (by simp_all)

/-! ## Members -/

section Members

variable {pg : Postgres} {auth serverId after : ℤ}

def membersPage (pg : Postgres) (auth serverId : ℤ) (limit : ℕ) (after : Option ℤ) : Except AppError (List MemberResponse) :=
  ((getMembers auth serverId (some limit) after).run statement pg).1

/-- `fuel` bounds the number of requests -/
def membersWalk (pg : Postgres) (auth serverId : ℤ) (limit fuel : ℕ) :
    Except AppError (Option (List (List MemberResponse))) :=
  walk (membersPage pg auth serverId limit) (fun m => m.user.id) fuel none

theorem mem_memberRows {m : ServerMember} {u : User} : (m, u) ∈ memberRows pg serverId after ↔
    (m ∈ pg.serverMembers ∧ m.serverId = serverId ∧ after < m.userId) ∧
      u ∈ pg.users ∧ u.id = m.userId ∧ u.deletedAt = none := by
  rw [memberRows, mem_ordered, List.mem_filterMap, ← find?_account]
  constructor
  · rintro ⟨m', hm', hu⟩
    obtain ⟨u', hfind, heq⟩ := Option.map_eq_some_iff.1 hu
    obtain ⟨rfl, rfl⟩ := Prod.mk.inj heq
    simp only [Table.mem_select, Bool.and_eq_true, decide_eq_true_eq] at hm'
    exact ⟨hm', hfind⟩
  · rintro ⟨hm, hfind⟩
    refine ⟨m, ?_, by rw [hfind]; rfl⟩
    simpa only [Table.mem_select, Bool.and_eq_true, decide_eq_true_eq] using hm

theorem increasing_memberRows : Increasing (fun r => r.1.userId) (memberRows pg serverId after) := by
  refine increasing_ordered (List.Nodup.map_on ?_ ?_)
  · rintro ⟨m, u⟩ hr ⟨m', u'⟩ hr' heq
    have hrow := mem_memberRows.1 (mem_ordered.2 hr)
    have hrow' := mem_memberRows.1 (mem_ordered.2 hr')
    obtain rfl : m = m' := Table.eq_of_key_eq hrow.1.1 hrow'.1.1 (by rw [hrow.1.2.1, hrow'.1.2.1, heq])
    obtain rfl : u = u' := Table.eq_of_key_eq hrow.2.1 hrow'.2.1 (hrow.2.2.1.trans hrow'.2.2.1.symm)
    rfl
  · refine List.Nodup.filterMap ?_ ?_
    · intro m m' r hr hr'
      obtain ⟨u, -, rfl⟩ := Option.map_eq_some_iff.1 hr
      obtain ⟨u', -, heq⟩ := Option.map_eq_some_iff.1 hr'
      exact (Prod.mk.inj heq).1.symm
    · exact (List.Nodup.of_map _ pg.serverMembers.nodup).filter _

/-- the rows after a cursor are what it leaves of all rows -/
theorem memberRows_after (h : 0 ≤ after) :
    memberRows pg serverId after = (memberRows pg serverId 0).filter fun r => after < r.1.userId := by
  refine eq_of_increasing increasing_memberRows (increasing_memberRows.filter _) fun ⟨m, u⟩ => ?_
  simp only [mem_memberRows, List.mem_filter, decide_eq_true_eq]
  constructor
  · rintro ⟨⟨hm, hserver, hafter⟩, hu⟩
    exact ⟨⟨⟨hm, hserver, h.trans_lt hafter⟩, hu⟩, hafter⟩
  · rintro ⟨⟨⟨hm, hserver, -⟩, hu⟩, hafter⟩
    exact ⟨⟨hm, hserver, hafter⟩, hu⟩

/-- the entry of a row, with all roles of the user on the server -/
def memberEntry (pg : Postgres) (serverId : ℤ) : ServerMember × User → MemberResponse :=
  listedMember (pg.memberRoles.select fun r => r.serverId = serverId)

theorem membersPage_eq (hmember : pg.hasMember serverId auth = true) {limit : ℕ} (hlimit : limit ≤ 100) (after : Option ℤ) :
    membersPage pg auth serverId limit after =
      .ok (((memberRows pg serverId (after.getD 0)).take limit).map (memberEntry pg serverId)) := by
  have hmin : min ((some (limit : ℤ)).getD 100) 1000 = limit := by
    rw [Option.getD_some]
    omega
  have hrequire : (requireMember serverId auth).run statement pg = (.ok (), pg) := by
    rw [run_requireMember, if_pos hmember]
  rw [membersPage, getMembers, run_bind_of_ok hrequire]
  dsimp only
  rw [hmin]
  have hlimit : (failIf ((limit : ℤ) < 0) negativeLimit : Handler Unit).run statement pg = (.ok (), pg) := by
    rw [run_failIf, if_neg (by omega)]
  rw [run_bind_of_ok hlimit, run_bind_of_ok (run_select _), run_bind_of_ok (run_select _), run_pure, Int.toNat_natCast]
  refine congrArg Except.ok (List.map_congr_left fun r hr => ?_)
  have hroles : ∀ userIds : List ℤ, r.2.id ∈ userIds →
      ((pg.memberRoles.select fun m => m.serverId = serverId && userIds.contains m.userId).filter fun m =>
        m.userId = r.2.id) = (pg.memberRoles.select fun m => m.serverId = serverId).filter fun m => m.userId = r.2.id := by
    intro userIds hmem
    simp only [Table.select, List.filter_filter]
    refine List.filter_congr fun m _ => ?_
    by_cases hid : m.userId = r.2.id
    · simp [hid, hmem]
    · simp [hid]
  have hmem : r.2.id ∈ ((memberRows pg serverId (after.getD 0)).take limit).map fun r => r.2.id :=
    List.mem_map.2 ⟨r, hr, rfl⟩
  rw [memberEntry, listedMember, listedMember, hroles _ hmem]

theorem membersWalk_lossless (hmember : pg.hasMember serverId auth = true) {limit : ℕ} (hpos : 1 ≤ limit)
    (hlimit : limit ≤ 100) (hids : ∀ m ∈ pg.serverMembers, m.serverId = serverId → 0 < m.userId) :
    ∃ pages, (∀ fuel, (memberRows pg serverId 0).length < fuel →
        membersWalk pg auth serverId limit fuel = .ok (some pages)) ∧
      Lists (pages.flatten.map fun m => m.user.id) fun id => pg.hasMember serverId id = true ∧ HasAccount pg id := by
  have hcursor : ∀ (r : ServerMember × User) y, some (memberEntry pg serverId r) = some y → y.user.id = r.2.id := by
    rintro r y hy
    obtain rfl := Option.some.inj hy
    rfl
  have hpage : ∀ pre suf, memberRows pg serverId 0 = pre ++ suf →
      membersPage pg auth serverId limit (pre.getLast?.map fun r => r.2.id) =
        .ok ((suf.take limit).filterMap fun r => some (memberEntry pg serverId r)) := by
    intro pre suf hrows
    rw [membersPage_eq hmember hlimit, List.filterMap_eq_map']
    cases hlast : pre.getLast? with
    | none =>
      obtain rfl := List.getLast?_eq_none_iff.1 hlast
      rw [Option.map_none, Option.getD_none, hrows, List.nil_append]
    | some r =>
      obtain ⟨m, u⟩ := r
      have hrow : (m, u) ∈ memberRows pg serverId 0 := hrows ▸ List.mem_append_left _ (List.mem_of_getLast? hlast)
      obtain ⟨⟨hm, hserver, hafter⟩, -, hid, -⟩ := mem_memberRows.1 hrow
      have hincreasing : Increasing (fun r => r.1.userId) (pre ++ suf) := hrows ▸ increasing_memberRows
      rw [Option.map_some, Option.getD_some, hid, memberRows_after hafter.le, hrows, filter_after hincreasing hlast]
  obtain ⟨pages, hwalk, hflat⟩ := walk_shown_iff hcursor hpage
  refine ⟨pages, hwalk, ?_⟩
  rw [hflat.2 (noGap_of_shown hpos fun r _ h => nomatch h), List.filterMap_eq_map', List.map_map]
  have hsame : (memberRows pg serverId 0).map ((fun m => m.user.id) ∘ memberEntry pg serverId) =
      (memberRows pg serverId 0).map fun r => r.1.userId :=
    List.map_congr_left fun ⟨m, u⟩ hr => (mem_memberRows.1 hr).2.2.1
  rw [hsame]
  refine ⟨List.pairwise_map.2 increasing_memberRows, fun id => ?_⟩
  dsimp only
  rw [List.mem_map, hasMember_iff]
  constructor
  · rintro ⟨⟨m, u⟩, hr, rfl⟩
    obtain ⟨⟨hm, hserver, -⟩, hu, hid, hlive⟩ := mem_memberRows.1 hr
    exact ⟨⟨m, hm, hserver, rfl⟩, u, hu, hid, hlive⟩
  · rintro ⟨⟨m, hm, hserver, rfl⟩, u, hu, hid, hlive⟩
    exact ⟨(m, u), mem_memberRows.2 ⟨⟨hm, hserver, hids m hm hserver⟩, hu, hid, hlive⟩, rfl⟩

end Members

/-! ## Reactors -/

section Reactors

variable {w : World} {auth channelId messageId : ℤ} {emoji : String} {limit : ℕ}

def reactorsPage (w : World) (auth channelId messageId : ℤ) (emoji : String) (limit : ℕ) (after : Option ℤ) :
    Except AppError (List ReactionUser) :=
  ((getReactors auth channelId messageId emoji (some limit) after).run Effect.exec w).1

def reactorsWalk (w : World) (auth channelId messageId : ℤ) (emoji : String) (limit fuel : ℕ) :
    Except AppError (Option (List (List ReactionUser))) :=
  walk (reactorsPage w auth channelId messageId emoji limit) ReactionUser.id fuel none

/-- the entry of a user whose account is not deleted -/
def reactionUser (pg : Postgres) (userId : ℤ) : Option ReactionUser :=
  (pg.users.find? fun u => u.id = userId && u.deletedAt.isNone).map fun u => ⟨u.id, u.username, u.avatar⟩

theorem reactionUser_id {pg : Postgres} {userId : ℤ} {y : ReactionUser} (h : reactionUser pg userId = some y) :
    y.id = userId := by
  obtain ⟨u, hu, rfl⟩ := Option.map_eq_some_iff.1 h
  exact (find?_account.1 hu).2.1

theorem reactionUser_isSome {pg : Postgres} {userId : ℤ} : (reactionUser pg userId).isSome = true ↔ HasAccount pg userId := by
  rw [reactionUser, Option.isSome_map, Option.isSome_iff_exists]
  exact exists_congr fun _ => find?_account

/-- the user reacted to the message with the emoji -/
def HasReacted (chat : Chat) (channelId messageId : ℤ) (emoji : String) (userId : ℤ) : Prop :=
  ∃ r ∈ chat.reactions, r.channelId = channelId ∧ r.messageId = messageId ∧ r.emoji = emoji ∧ r.userId = userId

theorem mem_reactorIds {chat : Chat} {userId : ℤ} :
    userId ∈ reactorIds chat channelId messageId emoji ↔ HasReacted chat channelId messageId emoji userId := by
  simp only [reactorIds, HasReacted, mem_ordered, List.mem_map, Table.mem_select, Bool.and_eq_true, decide_eq_true_eq,
    and_assoc]

theorem increasing_reactorIds (chat : Chat) (channelId messageId : ℤ) (emoji : String) :
    Increasing id (reactorIds chat channelId messageId emoji) := by
  refine increasing_ordered ?_
  rw [List.map_id]
  refine Table.nodup_map_select (fun userId => (channelId, messageId, emoji, userId)) fun r _ hr => ?_
  simp only [Bool.and_eq_true, decide_eq_true_eq] at hr
  obtain ⟨⟨rfl, rfl⟩, rfl⟩ := hr
  rfl

/-- what the request checks before it reads -/
structure MayList (w : World) (auth channelId : ℤ) (emoji : String) : Prop where
  emoji : emoji.utf8ByteSize ≠ 0 ∧ emoji.utf8ByteSize ≤ 100
  view : (checkChannelPermission channelId auth .viewChannel).succeeds statement w.pg = true

theorem reactorsPage_eq (h : MayList w auth channelId emoji) (hpos : 1 ≤ limit) (hlimit : limit ≤ 100) (after : Option ℤ) :
    reactorsPage w auth channelId messageId emoji limit after =
      .ok ((selectReactors w.chat channelId messageId emoji after limit).filterMap (reactionUser w.pg)) := by
  have hclamp : max 1 (min ((some (limit : ℤ)).getD 25) 100) = limit := by
    rw [Option.getD_some]
    omega
  have hemoji : (refuseEmoji emoji).run Effect.exec w = (.ok (), w) := by
    rw [refuseEmoji, run_failIf, if_neg]
    simpa using h.emoji
  obtain ⟨server, pg, hcheck⟩ := succeeds_iff.1 h.view
  have hview : (onPg (checkChannelPermission channelId auth .viewChannel)).run Effect.exec w = (.ok server, w) := by
    rw [run_onPg_readOnly readOnly_checkChannelPermission, hcheck]
  rw [reactorsPage, getReactors, run_bind_of_ok hemoji, run_bind_of_ok hview]
  dsimp only
  rw [hclamp, run_bind_of_ok (run_select _), Int.toNat_natCast]
  generalize selectReactors w.chat channelId messageId emoji after limit = userIds
  by_cases hempty : userIds.isEmpty = true
  · rw [if_pos hempty, List.isEmpty_iff.1 hempty]
    rfl
  rw [if_neg hempty, run_bind_of_ok (run_select _), run_pure]
  refine congrArg Except.ok (List.filterMap_congr fun uid huid => ?_)
  have hfound : (w.pg.users.select fun u => userIds.contains u.id && u.deletedAt.isNone).find? (fun u => u.id = uid) =
      w.pg.users.find? fun u => u.id = uid && u.deletedAt.isNone := by
    rw [Table.select, List.find?_filter, Table.find?]
    congr 1
    funext u
    by_cases hid : u.id = uid
    · cases hdeleted : u.deletedAt <;> simp [hid, huid]
    · simp [hid]
  rw [hfound, reactionUser]

/-- **The walk over the reactors is complete exactly if there is no gap.** -/
theorem reactorsWalk_lossless_iff (h : MayList w auth channelId emoji) (hpos : 1 ≤ limit) (hlimit : limit ≤ 100) :
    ∃ pages, (∀ fuel, (reactorIds w.chat channelId messageId emoji).length < fuel →
        reactorsWalk w auth channelId messageId emoji limit fuel = .ok (some pages)) ∧
      ((Lists (pages.flatten.map ReactionUser.id) fun id =>
        HasReacted w.chat channelId messageId emoji id ∧ HasAccount w.pg id) ↔
        NoGap (reactionUser w.pg) limit (reactorIds w.chat channelId messageId emoji)) := by
  have hincreasing := increasing_reactorIds w.chat channelId messageId emoji
  have hpage : ∀ pre suf, reactorIds w.chat channelId messageId emoji = pre ++ suf →
      reactorsPage w auth channelId messageId emoji limit (pre.getLast?.map id) =
        .ok ((suf.take limit).filterMap (reactionUser w.pg)) := by
    intro pre suf hrows
    rw [reactorsPage_eq h hpos hlimit]
    unfold selectReactors
    rw [hrows]
    cases hlast : pre.getLast? with
    | none =>
      obtain rfl := List.getLast?_eq_none_iff.1 hlast
      rfl
    | some a =>
      have hafter : (pre ++ suf).filter (fun id => a < id) = suf := filter_after (hrows ▸ hincreasing) hlast
      rw [Option.map_some, id]
      dsimp only
      rw [hafter]
  have hcursor : ∀ (uid : ℤ) y, reactionUser w.pg uid = some y → y.id = id uid := fun _ _ => reactionUser_id
  obtain ⟨pages, hwalk, hflat⟩ := walk_shown_iff hcursor hpage
  refine ⟨pages, hwalk, ?_⟩
  rw [← hflat]
  refine lists_iff ⟨?_, fun id => ?_⟩
  · refine List.pairwise_map.2 (List.pairwise_filterMap.2 (hincreasing.imp ?_))
    intro a b hab x hx y hy
    rw [reactionUser_id hx, reactionUser_id hy]
    exact hab
  · simp only [List.mem_map, List.mem_filterMap]
    rw [← mem_reactorIds, ← reactionUser_isSome, Option.isSome_iff_exists]
    constructor
    · rintro ⟨y, ⟨uid, huid, hy⟩, rfl⟩
      obtain rfl := reactionUser_id hy
      exact ⟨huid, y, hy⟩
    · rintro ⟨hid, y, hy⟩
      exact ⟨y, ⟨id, hid, hy⟩, reactionUser_id hy⟩

end Reactors

/-! ## Both -/

/-- **The walk over the members is lossless; the walk over the reactors is exactly if there is no gap.** That is, if `limit`
consecutive reactors whose accounts are deleted are never followed by one whose account is not. -/
theorem walks_lossless_iff (w : World) (auth serverId channelId messageId : ℤ) (emoji : String) (limit : ℕ)
    (hlimit : 1 ≤ limit ∧ limit ≤ 100) (hmember : w.pg.hasMember serverId auth = true)
    (hids : ∀ m ∈ w.pg.serverMembers, m.serverId = serverId → 0 < m.userId) (hlist : MayList w auth channelId emoji) :
    (∃ pages, (∀ fuel, (memberRows w.pg serverId 0).length < fuel →
        membersWalk w.pg auth serverId limit fuel = .ok (some pages)) ∧
      Lists (pages.flatten.map fun m => m.user.id) fun id => w.pg.hasMember serverId id = true ∧ HasAccount w.pg id) ∧
    ∃ pages, (∀ fuel, (reactorIds w.chat channelId messageId emoji).length < fuel →
        reactorsWalk w auth channelId messageId emoji limit fuel = .ok (some pages)) ∧
      ((Lists (pages.flatten.map ReactionUser.id) fun id =>
        HasReacted w.chat channelId messageId emoji id ∧ HasAccount w.pg id) ↔
        NoGap (reactionUser w.pg) limit (reactorIds w.chat channelId messageId emoji)) :=
  ⟨membersWalk_lossless hmember hlimit.1 hlimit.2 hids, reactorsWalk_lossless_iff hlist hlimit.1 hlimit.2⟩

/-! ## A deleted account -/

/-- users 2 and 3 reacted, and the account of user 2 is deleted -/
def deletedReactor : World :=
  { joined with
    pg := { joined.pg with
      users := ⟨[account 1 "ada", { account 2 "bob" with deletedAt := some ⟨0⟩ }, account 3 "eve"], by decide⟩ }
    chat := { joined.chat with reactions := ⟨[⟨101, 7, "x", 2, 0⟩, ⟨101, 7, "x", 3, 0⟩], by decide⟩ } }

theorem mayList_deletedReactor : MayList deletedReactor 1 101 "x" := ⟨by decide, by decide⟩

theorem walks_lossless_iff_two :
    ∃ pages, reactorsWalk deletedReactor 1 101 7 "x" 2 3 = .ok (some pages) ∧
      Lists (pages.flatten.map ReactionUser.id) fun id =>
        HasReacted deletedReactor.chat 101 7 "x" id ∧ HasAccount deletedReactor.pg id := by
  obtain ⟨-, pages, hwalk, hiff⟩ := walks_lossless_iff deletedReactor 1 100 101 7 "x" 2 (by decide) (by decide) (by decide)
    mayList_deletedReactor
  refine ⟨pages, hwalk 3 (by decide), hiff.2 ?_⟩
  intro pre mid suf hrows hlen _
  have hlength := congrArg List.length hrows
  rw [List.length_append, List.length_append, hlen] at hlength
  have hids : (reactorIds deletedReactor.chat 101 7 "x").length = 2 := by decide
  obtain rfl : suf = [] := List.length_eq_zero_iff.1 (by omega)
  exact fun r hr => absurd hr List.not_mem_nil

/-- **A page of deleted accounts ends the walk.** With one entry a page nobody is listed, though user 3 has reacted. -/
theorem one_deleted_page :
    ∃ pages, reactorsWalk deletedReactor 1 101 7 "x" 1 3 = .ok (some pages) ∧
      ¬ Lists (pages.flatten.map ReactionUser.id) fun id =>
        HasReacted deletedReactor.chat 101 7 "x" id ∧ HasAccount deletedReactor.pg id := by
  refine ⟨[], by decide, ?_⟩
  intro h
  have hlisted := (h.2 3).2 ⟨⟨⟨101, 7, "x", 3, 0⟩, by decide, rfl, rfl, rfl, rfl⟩, account 3 "eve", by decide, rfl, rfl⟩
  cases hlisted

end Lumiere.Routes
