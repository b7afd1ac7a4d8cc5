/-
Server events and membership. A session reads the servers of its user once, when its connection identifies or resumes,
and then listens on `server.{}.>` for each of them until the connection ends; nothing takes a subscription back when the
membership ends.

Requests run side by side as programs, a statement or a publication at a time; a session is one call of
`handle_identify` or `handle_resume` with the listeners that it spawns. A replay sends again what a listener has
buffered, and forwards nothing new.

- `forwarded_to_member`: an event of a server is forwarded to a user who is a member when it is published, or whose
  membership ended after the session had read its servers.
- `kicked_member_hears`: a member who is kicked is forwarded a message that is sent to the server afterwards.
-/
import Lumiere.Core.Pool
import Lumiere.Db.Effects
import Lumiere.Gateway.Listener
import Lumiere.Routes.MessageWrites
import Lumiere.Routes.Removals

namespace Lumiere.Gateway

open Lumiere.Core Lumiere.Core.Prog Lumiere.Models Lumiere.Db Lumiere.Routes

namespace Membership

/-! ## Model -/

structure Delivery where
  publication : Publication
  /-- the database when it was published -/
  pg : Postgres
  /-- the memberships that had ended since the session read its servers -/
  ended : List (ℤ × ℤ)

structure Session where
  servers : Option (List ℤ)
  dms : Option (List ℤ)
  listeners : Listeners Delivery
  forwarded : List Delivery
  /-- the memberships that have ended since `servers` was read -/
  ended : List (ℤ × ℤ)

structure St (ι κ : Type) where
  requests : Pool ι (Route Unit) World
  sessions : κ → Session

inductive Op (ι κ : Type) where
  /-- the request sends its next statement or publication -/
  | advance (i : ι)
  /-- the pending statement of the request fails -/
  | interrupt (i : ι)
  /-- any other publication -/
  | publish (p : Publication)
  | listServers (c : κ)
  | listDms (c : κ)
  /-- `spawn_nats_listener` -/
  | spawn (c : κ)
  | subscribe (c : κ) (j : ℕ)
  | forward (c : κ) (j : ℕ)
  | stop (c : κ) (j : ℕ)
deriving DecidableEq, Repr

def newSession : Session := ⟨none, none, [], [], []⟩

/-- the memberships of the first database that the second one does not have -/
def lost (pg pg' : Postgres) : List (ℤ × ℤ) :=
  (pg.serverMembers.rows.filter fun m => !pg'.hasMember m.serverId m.userId).map fun m => (m.serverId, m.userId)

def Delivery.subject (d : Delivery) : Subject := d.publication.subject

namespace Session

variable (x : Session)

/-- the session sees the world change: memberships end, and its listeners hear what is new -/
def see (w w' : World) : Session :=
  let gone := x.ended ++ lost w.pg w'.pg
  let ds := (w'.published.drop w.published.length).map fun p => ⟨p, w'.pg, gone⟩
  { x with ended := gone, listeners := Listeners.hear x.listeners Delivery.subject ds }

def readServers (pg : Postgres) (userId : ℤ) : Session :=
  match x.servers with
  | none => { x with servers := some (listServers pg userId), ended := [] }
  | some _ => x

def readDms (pg : Postgres) (userId : ℤ) : Session :=
  match x.servers, x.dms with
  | some _, none => { x with dms := some (listDms pg userId) }
  | _, _ => x

def spawn (userId : ℤ) : Session :=
  match x.servers, x.dms, x.listeners with
  | some servers, some dms, [] =>
    let patterns := userPattern userId :: (servers.map serverPattern ++ dms.map channelPattern)
    { x with listeners := spawnListeners Delivery patterns }
  | _, _, _ => x

/-- the listener takes its oldest message and sends it to the client -/
def forward (j : ℕ) : Session :=
  match Listeners.take x.listeners j with
  | some (d, listeners) => { x with listeners, forwarded := x.forwarded ++ [d] }
  | none => x

end Session

section Step

variable {ι κ : Type} [DecidableEq ι] [DecidableEq κ] (user : κ → ℤ)

/-- a turn of the requests, which every session sees -/
def turn (s : St ι κ) (t : Turn ι Publication) : St ι κ :=
  let publish (w : World) (p : Publication) : World := { w with published := w.published ++ [p] }
  let requests := s.requests.stepProg Effect.exec (.internal "") publish t
  { requests, sessions := fun c => (s.sessions c).see s.requests.shared requests.shared }

def setSession (s : St ι κ) (c : κ) (x : Session) : St ι κ := { s with sessions := Function.update s.sessions c x }

def step (s : St ι κ) : Op ι κ → St ι κ
  | .advance i => turn s (.advance i)
  | .interrupt i => turn s (.interrupt i)
  | .publish p => turn s (.outside p)
  | .listServers c => setSession s c ((s.sessions c).readServers s.requests.shared.pg (user c))
  | .listDms c => setSession s c ((s.sessions c).readDms s.requests.shared.pg (user c))
  | .spawn c => setSession s c ((s.sessions c).spawn (user c))
  | .subscribe c j => setSession s c { s.sessions c with listeners := (s.sessions c).listeners.subscribe j }
  | .forward c j => setSession s c ((s.sessions c).forward j)
  | .stop c j => setSession s c { s.sessions c with listeners := (s.sessions c).listeners.stop j }

end Step

/-! ## A session that listens to its servers -/

/-- whoever hears an event of a server is a member, or has been since the session read its servers -/
def Delivery.Fair (userId : ℤ) (d : Delivery) : Prop :=
  ∀ serverId topic, d.publication.subject = ["server", toString serverId, topic] →
    d.pg.hasMember serverId userId = true ∨ (serverId, userId) ∈ d.ended

structure Session.Inv (userId : ℤ) (pg : Postgres) (x : Session) : Prop where
  servers : ∀ ids ∈ x.servers, ∀ serverId ∈ ids,
    pg.hasMember serverId userId = true ∨ (serverId, userId) ∈ x.ended
  patterns : ∀ p ∈ x.listeners.patterns, ∀ serverId topic, p.matches ["server", toString serverId, topic] = true →
    ∃ ids ∈ x.servers, serverId ∈ ids
  held : ∀ d ∈ x.listeners.held, d.Fair userId
  forwarded : ∀ d ∈ x.forwarded, d.Fair userId

variable {userId serverId : ℤ} {pg pg' : Postgres} {topic : String}

theorem mem_lost : (serverId, userId) ∈ lost pg pg' ↔
    pg.hasMember serverId userId = true ∧ pg'.hasMember serverId userId = false := by
  simp only [lost, List.mem_map, List.mem_filter, Table.mem_rows, hasMember_iff, Prod.mk.injEq, Bool.not_eq_true']
  constructor
  · rintro ⟨m, ⟨hm, hgone⟩, rfl, rfl⟩
    exact ⟨⟨m, hm, rfl, rfl⟩, hgone⟩
  · rintro ⟨⟨m, hm, rfl, rfl⟩, hgone⟩
    exact ⟨m, ⟨hm, hgone⟩, rfl, rfl⟩

/-- a membership is kept until it is seen to end -/
theorem hasMember_or_lost (h : pg.hasMember serverId userId = true) :
    pg'.hasMember serverId userId = true ∨ (serverId, userId) ∈ lost pg pg' := by
  rcases hm : pg'.hasMember serverId userId with _ | _
  · exact .inr (mem_lost.2 ⟨h, hm⟩)
  · exact .inl rfl

/-- only the subscription of a server hears the server -/
theorem serverId_mem_of_matches {servers dms : List ℤ} {p : Pattern}
    (hp : p ∈ userPattern userId :: (servers.map serverPattern ++ dms.map channelPattern))
    (h : p.matches ["server", toString serverId, topic] = true) : serverId ∈ servers := by
  simp only [List.mem_cons, List.mem_append, List.mem_map] at hp
  rcases hp with rfl | ⟨id, hid, rfl⟩ | ⟨id, hid, rfl⟩
  · simp [userPattern, matches_three] at h
  · obtain rfl : id = serverId := by simpa [serverPattern, matches_three] using h
    exact hid
  · simp [channelPattern, matches_three] at h

theorem newSession_inv : newSession.Inv userId pg where
  servers := by simp [newSession]
  patterns := by simp [newSession, Listeners.patterns]
  held := by simp [newSession, Listeners.held]
  forwarded := by simp [newSession]

namespace Session.Inv

variable {x : Session}

theorem see {w w' : World} (h : x.Inv userId w.pg) : (x.see w w').Inv userId w'.pg := by
  have hservers : ∀ ids ∈ x.servers, ∀ serverId ∈ ids,
      w'.pg.hasMember serverId userId = true ∨ (serverId, userId) ∈ x.ended ++ lost w.pg w'.pg := by
    intro ids hids serverId hid
    rw [List.mem_append]
    rcases h.servers ids hids serverId hid with hm | hm
    · exact (hasMember_or_lost hm).imp_right .inr
    · exact .inr (.inl hm)
  refine { servers := hservers, forwarded := h.forwarded, patterns := ?_, held := fun d hd => ?_ }
  · rw [Session.see, Listeners.patterns_hear]
    exact h.patterns
  · rcases Listeners.mem_held_hear.1 hd with hd | ⟨hd, hears⟩
    · exact h.held d hd
    · intro serverId topic hsubject
      obtain ⟨p, hp, hmatches⟩ := Listeners.matches_of_hears hears
      rw [Delivery.subject, hsubject] at hmatches
      obtain ⟨ids, hids, hmem⟩ := h.patterns p hp serverId topic hmatches
      obtain ⟨q, -, rfl⟩ := List.mem_map.1 hd
      exact hservers ids hids serverId hmem

theorem readServers (h : x.Inv userId pg) : (x.readServers pg userId).Inv userId pg := by
  rw [Session.readServers]
  split
  · next hnone =>
    refine { servers := ?_, forwarded := h.forwarded, patterns := ?_, held := h.held }
    · intro ids hids serverId hid
      obtain rfl := Option.some.inj hids
      exact .inl (mem_listServers.1 hid).2
    · intro p hp serverId topic hmatches
      obtain ⟨ids, hids, -⟩ := h.patterns p hp serverId topic hmatches
      rw [hnone] at hids
      cases hids
  · exact h

theorem readDms (h : x.Inv userId pg) : (x.readDms pg userId).Inv userId pg := by
  rw [Session.readDms]
  split
  · exact ⟨h.servers, h.patterns, h.held, h.forwarded⟩
  · exact h

theorem spawn (h : x.Inv userId pg) : (x.spawn userId).Inv userId pg := by
  rw [Session.spawn]
  split
  · next servers dms hservers hdms hnone =>
    refine { servers := h.servers, forwarded := h.forwarded, patterns := ?_, held := ?_ }
    · intro p hp serverId topic hmatches
      rw [Listeners.patterns_spawnListeners] at hp
      exact ⟨servers, hservers, serverId_mem_of_matches hp hmatches⟩
    · simp
  · exact h

/-- other listeners with the same patterns, that hold nothing new -/
theorem withListeners (h : x.Inv userId pg) {listeners : Listeners Delivery}
    (hpatterns : listeners.patterns = x.listeners.patterns) (hheld : ∀ d ∈ listeners.held, d ∈ x.listeners.held) :
    Session.Inv userId pg { x with listeners } :=
  ⟨h.servers, by simpa only [hpatterns] using h.patterns, fun d hd => h.held d (hheld d hd), h.forwarded⟩

theorem forward (h : x.Inv userId pg) (j : ℕ) : (x.forward j).Inv userId pg := by
  rw [Session.forward]
  split
  · next d listeners htake =>
    have hinv := h.withListeners (Listeners.patterns_take htake) fun _ => Listeners.mem_held_take_inv htake
    refine { hinv with forwarded := fun d' hd' => ?_ }
    rcases List.mem_append.1 hd' with hd' | hd'
    · exact h.forwarded d' hd'
    · obtain rfl := List.mem_singleton.1 hd'
      exact h.held d' (Listeners.mem_held_of_take htake)
  · exact h

end Session.Inv

/-! ## Runs -/

section

variable {ι κ : Type} [DecidableEq ι] [DecidableEq κ] {user : κ → ℤ}

def Inv (user : κ → ℤ) (s : St ι κ) : Prop := ∀ c, (s.sessions c).Inv (user c) s.requests.shared.pg

omit [DecidableEq ι] in
theorem setSession_inv {s : St ι κ} (h : Inv user s) {c : κ} {x : Session}
    (hx : x.Inv (user c) s.requests.shared.pg) : Inv user (setSession s c x) := by
  intro c'
  simp only [setSession]
  by_cases hc : c' = c
  · subst hc
    rw [Function.update_self]
    exact hx
  · rw [Function.update_of_ne hc]
    exact h c'

theorem step_inv (s : St ι κ) (o : Op ι κ) (h : Inv user s) : Inv user (step user s o) := by
  cases o with
  | advance i => exact fun c => (h c).see
  | interrupt i => exact fun c => (h c).see
  | publish p => exact fun c => (h c).see
  | listServers c => exact setSession_inv h (h c).readServers
  | listDms c => exact setSession_inv h (h c).readDms
  | spawn c => exact setSession_inv h (h c).spawn
  | subscribe c j =>
    exact setSession_inv h ((h c).withListeners Listeners.patterns_subscribe fun d hd => Listeners.held_subscribe ▸ hd)
  | forward c j => exact setSession_inv h ((h c).forward j)
  | stop c j =>
    exact setSession_inv h ((h c).withListeners Listeners.patterns_stop fun _ => Listeners.mem_held_stop_inv)

/-- **Server events go to members, and to those who were.** Whatever the requests do and however the sessions listen,
an event of a server that is forwarded to a session was published while its user was a member of the server, or after a
membership had ended that the session had read. -/
theorem forwarded_to_member {s : St ι κ} (hs : ∀ c, s.sessions c = newSession) (ops : List (Op ι κ)) {c : κ}
    {d : Delivery} (hd : d ∈ ((run (step user) s ops).sessions c).forwarded)
    (hsubject : d.publication.subject = ["server", toString serverId, topic]) :
    d.pg.hasMember serverId (user c) = true ∨ (serverId, user c) ∈ d.ended := by
  have hinv : Inv user s := fun c => by
    rw [hs c]
    exact newSession_inv
  exact (run_inv step_inv hinv ops c).forwarded d hd serverId topic hsubject

end

/-! ## A member who is kicked -/

/-- the owner of server 100 kicks user 2, who has a session, and then says hello -/
def start : St Bool Unit where
  requests :=
    ⟨fun speaks => if speaks then answer (sendMessage 1 101 hello ⟨200⟩ ⟨0⟩) else Announced.kickMember 1 100 2, joined⟩
  sessions _ := newSession

def listenTrace : List (Op Bool Unit) := [.listServers (), .listDms (), .spawn (), .subscribe () 1]

def kickTrace : List (Op Bool Unit) := List.replicate 8 (.advance false)

def helloTrace : List (Op Bool Unit) := List.replicate 12 (.advance true)

def hearTrace : List (Op Bool Unit) := listenTrace ++ kickTrace ++ helloTrace ++ [.forward () 1, .forward () 1]

theorem forwarded_to_member_hello :
    ∃ d ∈ ((run (step fun _ => 2) start hearTrace).sessions ()).forwarded, d.publication.subject = serverEvents 100 ∧
      (d.pg.hasMember 100 2 = true ∨ (100, 2) ∈ d.ended) := by
  have hheard : ∃ d ∈ ((run (step fun _ => 2) start hearTrace).sessions ()).forwarded,
      d.publication.subject = serverEvents 100 := by decide
  obtain ⟨d, hd, hsubject⟩ := hheard
  exact ⟨d, hd, hsubject, forwarded_to_member (fun _ => rfl) hearTrace hd hsubject⟩

/-- **A kicked member hears what is said.** The message is published after the kick and forwarded to the user all the
same. -/
theorem kicked_member_hears :
    ∃ d ∈ ((run (step fun _ => 2) start hearTrace).sessions ()).forwarded, d.publication.subject = serverEvents 100 ∧
      d.publication.event.type = "MESSAGE_CREATE" ∧ d.pg.hasMember 100 2 = false := by
  decide

end Membership

end Lumiere.Gateway
