/-
The whole life of one session id (`lumiere-gateway/src/handler.rs`): `handle_identify` gives the first `Conn`, and once
its cleanup has written the record of the session, `handle_resume` takes the record and gives the next one. What
outlives a connection is in Redis: the record and the buffer of numbered events.

The dispatches of a session are handled one at a time, so a dispatch is one step; one that is under way when its
listener is aborted is cut off, with or without its event in the buffer. The keys of Redis expire at any time. The record
is read and deleted in one step: two resumes of one session at the same time are left out.
-/
import Lumiere.Core.Run
import Lumiere.Gateway.Listener

namespace Lumiere.Gateway

open Lumiere.Core Lumiere.Db Lumiere.Routes

namespace Resumption

/-! ## Messages -/

/-- a publication, with its place among all of them -/
structure Event where
  index : ℕ
  publication : Publication
deriving DecidableEq, Repr

def Event.subject (e : Event) : Subject := e.publication.subject

inductive Payload where
  | ready
  | resumed
  | event (e : Event)
deriving DecidableEq, Repr

/-- a `GatewayMessage` with op `Dispatch` -/
structure Dispatch where
  s : ℕ
  payload : Payload
deriving DecidableEq, Repr

def Dispatch.event? (d : Dispatch) : Option Event :=
  match d.payload with
  | .event e => some e
  | _ => none

/-! ## Connections -/

inductive Link where
  /-- what is sent reaches the client -/
  | up
  /-- what is sent is lost -/
  | down
  /-- the sender task has ended -/
  | closed
deriving DecidableEq, Repr

inductive Stage where
  /-- `replay_events` has these still to send -/
  | replaying (rest : List Dispatch)
  /-- READY or RESUMED is sent -/
  | answered
  /-- the connection has its session -/
  | listening (listeners : Listeners Event)
  /-- the loop is over and the listeners are aborted -/
  | closing
deriving DecidableEq, Repr

structure Conn where
  /-- `GatewaySession::sequence` -/
  sequence : ℕ
  /-- the channel to the sender task; a message that is no dispatch is `none` -/
  queue : List (Option Dispatch)
  link : Link
  stage : Stage
deriving DecidableEq, Repr

/-- `OUTBOUND_CHANNEL_CAPACITY` -/
def capacity : ℕ := 1024

/-- `fetch_add(1) + 1`, in 64 bits -/
def nextSequence (n : ℕ) : ℕ := (n + 1) % 2 ^ 64

namespace Conn

variable (x : Conn)

/-- the channel is neither full nor closed -/
def room : Bool := x.link ≠ .closed && x.queue.length < capacity

def trySend (m : Option Dispatch) : Conn := if x.room then { x with queue := x.queue ++ [m] } else x

/-- the listeners that run -/
def listeners : Listeners Event :=
  match x.stage with
  | .listening ls => ls
  | _ => []

def listening : Bool :=
  match x.stage with
  | .listening _ => true
  | _ => false

def replaying : List Dispatch :=
  match x.stage with
  | .replaying rest => rest
  | _ => []

/-- the dispatches that are on their way to the client -/
def pending : List Dispatch := if x.link = .up then x.queue.filterMap id else []

/-- the next number is drawn for a message that is not buffered -/
def answer (payload : Payload) : Conn :=
  { x with sequence := nextSequence x.sequence, stage := .answered }.trySend (some ⟨nextSequence x.sequence, payload⟩)

def hear (e : Event) : Conn :=
  match x.stage with
  | .listening ls => { x with stage := .listening (ls.hear Event.subject [e]) }
  | _ => x

section

variable {x} {m : Option Dispatch} {d : Dispatch}

@[simp] theorem trySend_sequence : (x.trySend m).sequence = x.sequence := by
  rw [trySend]
  split_ifs <;> rfl

@[simp] theorem trySend_link : (x.trySend m).link = x.link := by
  rw [trySend]
  split_ifs <;> rfl

@[simp] theorem trySend_stage : (x.trySend m).stage = x.stage := by
  rw [trySend]
  split_ifs <;> rfl

theorem trySend_pending_of_room (h : x.link = .up → x.room = true) :
    (x.trySend m).pending = if x.link = .up then x.pending ++ m.toList else [] := by
  rw [pending, trySend_link]
  split_ifs with hlink
  · rw [trySend, if_pos (h hlink), pending, if_pos hlink, List.filterMap_append]
    cases m <;> rfl
  · rfl

theorem trySend_pending : (x.trySend m).pending = x.pending ∨ (x.trySend m).pending = x.pending ++ m.toList := by
  by_cases hroom : x.room = true
  · rw [trySend_pending_of_room fun _ => hroom]
    split_ifs with hlink
    · exact .inr rfl
    · exact .inl (by rw [pending, if_neg hlink])
  · rw [trySend, if_neg hroom]
    exact .inl rfl

@[simp] theorem hear_sequence {e : Event} : (x.hear e).sequence = x.sequence := by
  rw [hear]
  split <;> rfl

@[simp] theorem hear_pending {e : Event} : (x.hear e).pending = x.pending := by
  rw [hear]
  split <;> rfl

@[simp] theorem hear_replaying {e : Event} : (x.hear e).replaying = x.replaying := by
  rw [hear]
  split
  · next h => simp [replaying, h]
  · rfl

end

end Conn

/-! ## The session -/

structure St where
  conn : Option Conn
  /-- `gateway_session:{id}` is there -/
  record : Bool
  /-- `gateway_events:{id}` -/
  buffer : List Dispatch
  /-- by the client, over all its connections -/
  received : List Dispatch
  /-- how many publications there have been -/
  published : ℕ
  /-- what listeners of the session have been subscribed to -/
  subjects : List Pattern
  /-- the events that were published on them since -/
  owed : List Event
  /-- the events that a listener has given a number -/
  numbered : List Event
deriving DecidableEq, Repr

inductive Op where
  /-- a message of the connection that is no dispatch -/
  | other
  /-- `replay_events` sends the next event -/
  | replay
  /-- the end of `replay_events`, with the outcome of `DEL`, and RESUMED -/
  | resumed (deleted : Bool)
  /-- the servers and direct messages are read, and the listeners are spawned -/
  | spawn (pg : Postgres)
  /-- the queries fail -/
  | fail
  | subscribe (j : ℕ)
  /-- the listener cannot subscribe, or its subscription ends -/
  | stop (j : ℕ)
  /-- a listener handles its next message, with the outcome of `buffer_event` -/
  | dispatch (j : ℕ) (buffered : Bool)
  /-- the sender task sends the next message -/
  | deliver
  /-- the connection breaks, which the server does not know -/
  | unlink
  /-- the sender task finds out -/
  | endSender
  /-- the loop ends and the listeners are aborted, one of them perhaps within `buffer_event` -/
  | hangUp (cut : Option (ℕ × Bool))
  /-- the cleanup, with the outcome of `SET` -/
  | close (stored : Bool)
  /-- `handle_resume`, on a channel with messages, up to the outcome of `LRANGE` -/
  | resume (waiting : ℕ) (read : Bool)
  | publish (p : Publication)
  | expireBuffer
  | expireRecord

/-- `RPUSH` and `LTRIM -1000 -1` -/
def bufferEvent (buffer : List Dispatch) (d : Dispatch) : List Dispatch :=
  (buffer ++ [d]).drop ((buffer ++ [d]).length - 1000)

namespace St

variable (s : St)

/-- the largest `s` that the client has received, with which it resumes -/
def claim : ℕ := (s.received.map Dispatch.s).foldr max 0

/-- what `replay_events` sends -/
def replays (read : Bool) : List Dispatch := if read then s.buffer.filter fun d => s.claim < d.s else []

def withConn (x : Conn) : St := { s with conn := some x }

/-- a listener gives a number to a message that it has taken -/
def number (n : ℕ) (e : Event) (buffered : Bool) : St :=
  { s with
    buffer := if buffered then bufferEvent s.buffer ⟨n, .event e⟩ else s.buffer
    numbered := s.numbered ++ [e] }

def watches (subject : Subject) : Bool := s.subjects.any fun p => p.matches subject

def publish (p : Publication) : St :=
  { s with
    conn := s.conn.map fun x => x.hear ⟨s.published, p⟩
    published := s.published + 1
    owed := if s.watches p.subject then s.owed ++ [⟨s.published, p⟩] else s.owed }

end St

/-- `handle_identify` up to READY, on a channel with messages -/
def identify (waiting : ℕ) : St where
  conn := some (Conn.answer ⟨0, List.replicate (min waiting capacity) none, .up, .answered⟩ .ready)
  record := false
  buffer := []
  received := []
  published := 0
  subjects := []
  owed := []
  numbered := []

variable (user : ℤ)

/-- an operation of a connection -/
def stepConn (s : St) (x : Conn) : Op → St
  | .other => s.withConn (x.trySend none)
  | .replay =>
    match x.stage with
    | .replaying (d :: rest) => s.withConn { x.trySend (some d) with stage := .replaying rest }
    | _ => s
  | .resumed deleted =>
    match x.stage with
    | .replaying [] => { s.withConn (x.answer .resumed) with buffer := if deleted then [] else s.buffer }
    | _ => s
  | .spawn pg =>
    match x.stage with
    | .answered => s.withConn { x with stage := .listening (spawnListeners Event (subscriptions pg user)) }
    | _ => s
  | .fail =>
    match x.stage with
    | .answered => { s with conn := none }
    | _ => s
  | .subscribe j =>
    match x.stage with
    | .listening ls =>
      { s.withConn { x with stage := .listening (ls.subscribe j) } with
        subjects := s.subjects ++ (ls.subscribe j).subscribed }
    | _ => s
  | .stop j =>
    match x.stage with
    | .listening ls => s.withConn { x with stage := .listening (ls.stop j) }
    | _ => s
  | .dispatch j buffered =>
    match x.stage, x.listeners.take j with
    | .listening _, some (e, ls) =>
      let n := nextSequence x.sequence
      let stage := if x.room then .listening ls else .listening (ls.stop j)
      (s.number n e buffered).withConn { x.trySend (some ⟨n, .event e⟩) with sequence := n, stage }
    | _, _ => s
  | .deliver =>
    match x.link, x.queue with
    | .up, m :: queue => { s.withConn { x with queue } with received := s.received ++ m.toList }
    | .down, _ :: queue => s.withConn { x with queue }
    | _, _ => s
  | .unlink => s.withConn { x with link := if x.link = .up then .down else x.link }
  | .endSender =>
    match x.link with
    | .down => s.withConn { x with link := .closed, queue := [] }
    | _ => s
  | .hangUp cut =>
    match x.stage with
    | .listening ls =>
      let s := s.withConn { x with stage := .closing }
      match cut with
      | none => s
      | some (j, buffered) =>
        match ls.take j with
        | some (e, _) =>
          let n := nextSequence x.sequence
          (s.number n e buffered).withConn { x with sequence := n, stage := .closing }
        | none => s
    | _ => s
  | .close stored =>
    match x.stage with
    | .closing => { s with conn := none, record := stored || s.record }
    | _ => s
  | _ => s

def step (s : St) : Op → St
  | .publish p => s.publish p
  | .expireBuffer => { s with buffer := [] }
  | .expireRecord => { s with record := false }
  | .resume waiting read =>
    match s.conn, s.record with
    | none, true =>
      { s with
        record := false
        conn := some ⟨s.claim, List.replicate (min waiting capacity) none, .up, .replaying (s.replays read)⟩ }
    | _, _ => s
  | o =>
    match s.conn with
    | some x => stepConn user s x o
    | none => s

end Resumption

end Lumiere.Gateway
