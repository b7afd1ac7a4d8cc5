/-
The subscriptions of a gateway session (`spawn_nats_listener` in `lumiere-gateway/src/handler.rs`) and what they receive.
A session subscribes to its user, to the servers and to the direct messages that the database lists when the connection
identifies or resumes; every subscription that matches the subject of a publication receives a copy of it.

- `hits_channelMessages`, `hits_serverEvents`: how many subscriptions of a session match the two subjects of a channel.
-/
import Mathlib
import Lumiere.Routes.World

namespace Lumiere.Gateway

open Lumiere.Core Lumiere.Db Lumiere.Routes

/-! ## Patterns -/

/-- a NATS subscription; the gateway uses no `*` -/
abbrev Pattern := List String

/-- a literal token matches itself, a `>` at the end one token or more -/
def Pattern.matches : Pattern → Subject → Bool
  | [], [] => true
  | [">"], _ :: _ => true
  | token :: pattern, token' :: subject => token = token' && Pattern.matches pattern subject
  | _, _ => false

/-- `user.{}.>` -/
def userPattern (userId : ℤ) : Pattern := ["user", toString userId, ">"]

/-- `server.{}.>` -/
def serverPattern (serverId : ℤ) : Pattern := ["server", toString serverId, ">"]

/-- `channel.{}.>` -/
def channelPattern (channelId : ℤ) : Pattern := ["channel", toString channelId, ">"]

/-! ## Subscriptions -/

/-- `servers` JOIN `server_members`, whose key lets a server appear once -/
def listServers (pg : Postgres) (userId : ℤ) : List ℤ :=
  (pg.servers.select fun s => pg.hasMember s.id userId).map Server.id

/-- `channels` JOIN `dm_recipients`, with `type IN (1, 3)` -/
def listDms (pg : Postgres) (userId : ℤ) : List ℤ :=
  (pg.channels.select fun c => (c.type = 1 || c.type = 3) &&
    pg.dmRecipients.any fun r => r.channelId = c.id && r.userId = userId).map Channel.id

/-- what `spawn_nats_listener` subscribes to -/
def subscriptions (pg : Postgres) (userId : ℤ) : List Pattern :=
  userPattern userId :: ((listServers pg userId).map serverPattern ++ (listDms pg userId).map channelPattern)

/-- how many of the subscriptions match -/
def hits (patterns : List Pattern) (subject : Subject) : ℕ := patterns.countP fun p => p.matches subject

/-- what arrives: a copy of each publication for each subscription that matches -/
def received (patterns : List Pattern) (publications : List Publication) : List Publication :=
  publications.flatMap fun p => List.replicate (hits patterns p.subject) p

variable {pg : Postgres} {userId serverId channelId : ℤ}

theorem mem_listServers :
    serverId ∈ listServers pg userId ↔ pg.hasServer serverId = true ∧ pg.hasMember serverId userId = true := by
  simp only [listServers, List.mem_map, Table.mem_select, Postgres.hasServer, Table.any_eq_true, decide_eq_true_eq]
  constructor
  · rintro ⟨s, ⟨hs, hm⟩, rfl⟩
    exact ⟨⟨s, hs, rfl⟩, hm⟩
  · rintro ⟨⟨s, hs, rfl⟩, hm⟩
    exact ⟨s, ⟨hs, hm⟩, rfl⟩

theorem nodup_listServers : (listServers pg userId).Nodup :=
  pg.servers.nodup.sublist (List.filter_sublist.map Server.id)

theorem nodup_listDms : (listDms pg userId).Nodup :=
  pg.channels.nodup.sublist (List.filter_sublist.map Channel.id)

section Matches

variable {id : ℤ}

/-- a pattern of three tokens that ends in `>` compares the first two -/
theorem matches_three (kind token kind' token' topic : String) :
    Pattern.matches [kind, token, ">"] [kind', token', topic] = (decide (kind = kind') && decide (token = token')) := by
  simp [Pattern.matches]

@[simp] theorem matches_userPattern_channel : (userPattern id).matches (channelMessages channelId) = false := by
  simp [userPattern, channelMessages, matches_three]

@[simp] theorem matches_userPattern_server : (userPattern id).matches (serverEvents serverId) = false := by
  simp [userPattern, serverEvents, matches_three]

@[simp] theorem matches_serverPattern_channel : (serverPattern id).matches (channelMessages channelId) = false := by
  simp [serverPattern, channelMessages, matches_three]

@[simp] theorem matches_serverPattern_server :
    (serverPattern id).matches (serverEvents serverId) = decide (id = serverId) := by
  simp [serverPattern, serverEvents, matches_three]

@[simp] theorem matches_channelPattern_channel :
    (channelPattern id).matches (channelMessages channelId) = decide (id = channelId) := by
  simp [channelPattern, channelMessages, matches_three]

@[simp] theorem matches_channelPattern_server : (channelPattern id).matches (serverEvents serverId) = false := by
  simp [channelPattern, serverEvents, matches_three]

end Matches

/-- the messages subject of a channel reaches a session through the channel's own subscription -/
theorem hits_channelMessages :
    hits (subscriptions pg userId) (channelMessages channelId) = (listDms pg userId).count channelId := by
  rw [hits, subscriptions, List.countP_cons_of_neg (by simp), List.countP_append, List.countP_map, List.countP_map,
    List.countP_eq_zero.2 (by simp), zero_add, List.count]
  exact List.countP_congr fun id _ => by simp

/-- the events subject of a server reaches a session through the server's own subscription -/
theorem hits_serverEvents :
    hits (subscriptions pg userId) (serverEvents serverId) = (listServers pg userId).count serverId := by
  rw [hits, subscriptions, List.countP_cons_of_neg (by simp), List.countP_append, List.countP_map, List.countP_map,
    List.countP_eq_zero (l := listDms pg userId).2 (by simp), add_zero, List.count]
  exact List.countP_congr fun id _ => by simp

end Lumiere.Gateway
