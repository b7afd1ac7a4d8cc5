/-
Typing indicators (`send_typing` in `routes/typing.rs`), any number of requests side by side. A request that finds the
key `typing:{}:{}` free takes it for ten seconds and broadcasts when it comes to it; the others are answered alike.

- `grants_iff`: a request that Redis answers is to broadcast exactly if the user may write in the channel, and the key was
  not taken in the last ten seconds, be it for a request that broadcast nothing.
- `broadcasts_le`: in whatever order requests go on, are cut off and lose answers, a subject gets of a user in a channel
  one broadcast at most for each ten seconds, and one more.
-/
import Lumiere.Core.Lease
import Lumiere.Routes.ChannelAccess
import Lumiere.Routes.MessageWrites

namespace Lumiere.Routes.Typing

open Lumiere.Core Lumiere.Core.Prog Lumiere.Models Lumiere.Db

/-! ## Requests side by side -/

/-- a `TYPING_START`; the time is in seconds -/
structure TypingStart where
  channelId : ℤ
  userId : ℤ
  timestamp : ℕ
deriving DecidableEq, Repr

structure Broadcast where
  subject : Subject
  event : TypingStart
deriving DecidableEq, Repr

/-- `channel.{}.typing` -/
def channelTyping (channelId : ℤ) : Subject := ["channel", toString channelId, "typing"]

/-- a request that is to broadcast -/
structure Grant where
  channelId : ℤ
  userId : ℤ
  serverId : Option ℤ
deriving DecidableEq, Repr

/-- to the channel and, if there is one, to the server -/
def Grant.broadcasts (g : Grant) (now : ℕ) (channelFails serverFails : Bool) : List Broadcast :=
  let event : TypingStart := ⟨g.channelId, g.userId, now / 1000⟩
  (if channelFails then [] else [⟨channelTyping g.channelId, event⟩]) ++
    if serverFails then [] else g.serverId.toList.map fun sid => ⟨serverEvents sid, event⟩

/-- what becomes of a command to Redis -/
inductive Reply where
  | answered
  /-- executed, and the answer is lost -/
  | lost
  | failed
deriving DecidableEq, Repr

structure St where
  pg : Postgres
  keys : Lease.St (ℤ × ℤ) Unit
  granted : List Grant
  /-- NATS, oldest first -/
  published : List Broadcast

inductive Op where
  | tick (n : ℕ)
  /-- other requests write to PostgreSQL -/
  | write (pg : Postgres)
  /-- `send_typing` up to its command to Redis -/
  | sendTyping (auth channelId : ℤ) (reply : Reply)
  /-- the rest of it; a publication that fails is only logged -/
  | broadcast (i : ℕ) (channelFails serverFails : Bool)
  /-- a request is cut off -/
  | cancel (i : ℕ)

/-- milliseconds -/
def typingTtl : ℕ := 10 * 1000

def mayType (pg : Postgres) (auth channelId : ℤ) : Except AppError (Option ℤ) :=
  ((checkChannelPermission channelId auth .sendMessages).run statement pg).1

namespace St

variable (s : St)

/-- a command that fails reads as `false`, like a key that is there -/
def sendTyping (auth channelId : ℤ) (reply : Reply) : St :=
  match mayType s.pg auth channelId with
  | .error _ => s
  | .ok serverId =>
    match reply with
    | .failed => s
    | .lost => { s with keys := s.keys.take typingTtl (channelId, auth) () }
    | .answered => { s with
        keys := s.keys.take typingTtl (channelId, auth) ()
        granted := s.granted ++
          if (s.keys.read (channelId, auth)).isSome then [] else [⟨channelId, auth, serverId⟩] }

def broadcast (i : ℕ) (channelFails serverFails : Bool) : St :=
  match s.granted[i]? with
  | none => s
  | some g => { s with
      granted := s.granted.eraseIdx i
      published := s.published ++ g.broadcasts s.keys.now channelFails serverFails }

end St

def step (s : St) : Op → St
  | .tick n => { s with keys := s.keys.tick n }
  | .write pg => { s with pg }
  | .sendTyping auth channelId reply => s.sendTyping auth channelId reply
  | .broadcast i channelFails serverFails => s.broadcast i channelFails serverFails
  | .cancel i => { s with granted := s.granted.eraseIdx i }

/-- nobody is typing -/
def init (pg : Postgres) (now : ℕ) : St := ⟨pg, Lease.init now, [], []⟩

/-! ## Keys -/

/-- what an operation does to the key of a user in a channel -/
def act (channelId userId : ℤ) (s : St) : Op → Lease.Act Unit
  | .tick n => .tick n
  | .sendTyping auth channel reply =>
    if (channel, auth) = (channelId, userId) ∧ (mayType s.pg auth channel).isOk ∧ reply ≠ .failed then .take ()
    else .idle
  | _ => .idle

def left (channelId userId : ℤ) (s : St) : Lease.Left Unit := s.keys.left (channelId, userId)

def now (s : St) : ℕ := s.keys.now

/-- the times at which the key is taken in a run -/
def takenAt (channelId userId : ℤ) (s : St) (ops : List Op) : List ℕ :=
  Lease.taken step (act channelId userId) (left channelId userId) now s ops

variable {channelId userId : ℤ} {s : St} {o : Op} {ops : List Op}

theorem typingTtl_pos : 0 < typingTtl := by decide

theorem left_take (auth channel : ℤ) :
    (s.keys.take typingTtl (channel, auth) ()).left (channelId, userId) =
      Lease.Act.on typingTtl (s.keys.left (channelId, userId))
        (if (channel, auth) = (channelId, userId) then .take () else .idle) :=
  Lease.left_take _ _ _ _ typingTtl_pos

theorem keys_broadcast (i : ℕ) (channelFails serverFails : Bool) :
    (s.broadcast i channelFails serverFails).keys = s.keys := by
  unfold St.broadcast
  split <;> rfl

theorem tracks : Lease.Tracks step (act channelId userId) typingTtl (left channelId userId) := by
  intro s o
  cases o with
  | tick n => exact Lease.left_tick _ _ _
  | sendTyping auth channel reply =>
    cases hmay : mayType s.pg auth channel with
    | error e => simp [step, St.sendTyping, act, left, hmay, Except.isOk, Except.toBool, Lease.Act.on]
    | ok serverId =>
      cases reply with
      | failed => simp [step, St.sendTyping, act, left, hmay, Lease.Act.on]
      | lost => simp [step, St.sendTyping, act, left, hmay, Except.isOk, Except.toBool, left_take]
      | answered => simp [step, St.sendTyping, act, left, hmay, Except.isOk, Except.toBool, left_take]
  | broadcast i channelFails serverFails => simp [step, act, left, keys_broadcast, Lease.Act.on]
  | write pg => rfl
  | cancel i => rfl

theorem now_step (s : St) (o : Op) : now (step s o) = now s + (act channelId userId s o).ticks := by
  cases o with
  | tick n => rfl
  | sendTyping auth channel reply =>
    have htake : (s.keys.take typingTtl (channel, auth) ()).now = s.keys.now := by
      unfold Lease.St.take Lease.St.put
      split_ifs <;> rfl
    have hticks : (act channelId userId s (.sendTyping auth channel reply)).ticks = 0 := by
      simp only [act]
      split_ifs <;> rfl
    rw [hticks]
    cases hmay : mayType s.pg auth channel with
    | error e => simp [step, St.sendTyping, hmay]
    | ok serverId => cases reply <;> simp [step, St.sendTyping, hmay, now, htake]
  | broadcast i channelFails serverFails => simp [step, act, now, keys_broadcast, Lease.Act.ticks]
  | write pg => rfl
  | cancel i => rfl

theorem onlyTakes (s : St) (o : Op) : (act channelId userId s o).onlyTakes := by
  cases o with
  | sendTyping auth channel reply =>
    simp only [act]
    split_ifs <;> trivial
  | _ => trivial

theorem taken_init (channelId userId : ℤ) (pg : Postgres) (start : ℕ) (ops : List Op) :
    Lease.Taken typingTtl (left channelId userId (run step (init pg start) ops)) (now (run step (init pg start) ops))
      (takenAt channelId userId (init pg start) ops) :=
  Lease.taken_apart tracks now_step typingTtl_pos rfl fun s o _ => onlyTakes s o

/-! ## Broadcasts -/

/-- **When a request is to broadcast.** -/
theorem grants_iff (pg : Postgres) (start : ℕ) (ops : List Op) (auth channelId : ℤ) (serverId : Option ℤ) :
    ((run step (init pg start) ops).sendTyping auth channelId .answered).granted =
        (run step (init pg start) ops).granted ++ [⟨channelId, auth, serverId⟩] ↔
      mayType (run step (init pg start) ops).pg auth channelId = .ok serverId ∧
        ∀ t ∈ takenAt channelId auth (init pg start) ops, t + typingTtl ≤ now (run step (init pg start) ops) := by
  have hfree := (taken_init channelId auth pg start ops).free_iff
  rw [← hfree]
  cases hmay : mayType (run step (init pg start) ops).pg auth channelId with
  | error e => simp [St.sendTyping, hmay]
  | ok sid =>
    cases hleft : (run step (init pg start) ops).keys.left (channelId, auth) with
    | none => simp [St.sendTyping, hmay, left, Lease.St.read, hleft]
    | some e => simp [St.sendTyping, hmay, left, Lease.St.read, hleft]

/-- the broadcasts of a user in a channel that a subject got, and those that are to come -/
def sentTo (subject : Subject) (channelId userId : ℤ) (s : St) : ℕ :=
  s.published.countP fun b => b.subject = subject ∧ b.event.channelId = channelId ∧ b.event.userId = userId

def toCome (channelId userId : ℤ) (s : St) : ℕ :=
  s.granted.countP fun g => g.channelId = channelId ∧ g.userId = userId

/-- whether the key is taken -/
def takes (channelId userId : ℤ) (s : St) (o : Op) : Bool :=
  (act channelId userId s o).isTake && (left channelId userId s).isNone

theorem channelTyping_ne_serverEvents (channel sid : ℤ) : channelTyping channel ≠ serverEvents sid := by
  simp [channelTyping, serverEvents]

theorem toCome_erase (channelId userId : ℤ) {i : ℕ} {g : Grant} (hg : s.granted[i]? = some g) :
    toCome channelId userId s = (s.granted.eraseIdx i).countP (fun g => g.channelId = channelId ∧ g.userId = userId) +
      if g.channelId = channelId ∧ g.userId = userId then 1 else 0 := by
  obtain ⟨hi, rfl⟩ := List.getElem?_eq_some_iff.mp hg
  rw [toCome, ← (List.getElem_cons_eraseIdx_perm hi).countP_eq, List.countP_cons]
  simp

theorem broadcasts_event {g : Grant} {now : ℕ} {channelFails serverFails : Bool} {b : Broadcast}
    (hb : b ∈ g.broadcasts now channelFails serverFails) : b.event = ⟨g.channelId, g.userId, now / 1000⟩ := by
  unfold Grant.broadcasts at hb
  rcases List.mem_append.mp hb with hb | hb
  · split_ifs at hb
    · cases hb
    · rw [List.mem_singleton.mp hb]
  · split_ifs at hb
    · cases hb
    · obtain ⟨sid, -, rfl⟩ := List.mem_map.mp hb
      rfl

/-- a subject gets one of them at most -/
theorem countP_broadcasts (channelId userId : ℤ) (g : Grant) (now : ℕ) (channelFails serverFails : Bool) (subject : Subject) :
    (g.broadcasts now channelFails serverFails).countP
        (fun b => b.subject = subject ∧ b.event.channelId = channelId ∧ b.event.userId = userId) ≤
      if g.channelId = channelId ∧ g.userId = userId then 1 else 0 := by
  have hsubject : ∀ sid, ¬ (channelTyping g.channelId = subject ∧ serverEvents sid = subject) := by
    intro sid h
    exact channelTyping_ne_serverEvents g.channelId sid (h.1.trans h.2.symm)
  by_cases hmatch : g.channelId = channelId ∧ g.userId = userId
  · unfold Grant.broadcasts
    cases hserver : g.serverId with
    | none => cases channelFails <;> cases serverFails <;> simp [hmatch, List.countP_cons] <;> split_ifs <;> simp
    | some sid =>
      have hsubject := hsubject sid
      rw [hmatch.1] at hsubject
      cases channelFails <;> cases serverFails <;> simp [hmatch, List.countP_cons] <;> grind
  · rw [if_neg hmatch, Nat.le_zero, List.countP_eq_zero]
    intro b hb
    simp [broadcasts_event hb, hmatch]

/-- a grant is broadcast once to each subject -/
theorem sentTo_broadcast (subject : Subject) (i : ℕ) (channelFails serverFails : Bool) :
    sentTo subject channelId userId (s.broadcast i channelFails serverFails) +
        toCome channelId userId (s.broadcast i channelFails serverFails) ≤
      sentTo subject channelId userId s + toCome channelId userId s := by
  cases hg : s.granted[i]? with
  | none => simp [St.broadcast, hg]
  | some g =>
    have hcome := toCome_erase channelId userId hg
    have hcopies := countP_broadcasts channelId userId g s.keys.now channelFails serverFails
      subject
    simp only [St.broadcast, hg, sentTo, toCome, List.countP_append] at hcome ⊢
    omega

theorem sentTo_step (subject : Subject) (channelId userId : ℤ) (s : St) (o : Op) :
    sentTo subject channelId userId (step s o) + toCome channelId userId (step s o) ≤
      sentTo subject channelId userId s + toCome channelId userId s + if takes channelId userId s o then 1 else 0 := by
  cases o with
  | sendTyping auth channel reply =>
    cases hmay : mayType s.pg auth channel with
    | error e => simp [step, St.sendTyping, hmay]
    | ok serverId =>
      cases reply with
      | failed => simp [step, St.sendTyping, hmay]
      | lost => simp [step, St.sendTyping, hmay, sentTo, toCome]
      | answered =>
        by_cases hkey : channel = channelId ∧ auth = userId
        · obtain ⟨rfl, rfl⟩ := hkey
          cases hleft : s.keys.left (channel, auth) <;>
            simp [step, St.sendTyping, hmay, sentTo, toCome, takes, act, left, Lease.St.read, hleft, Except.isOk,
              Except.toBool, Lease.Act.isTake, Nat.add_assoc]
        · have hnot : (if (s.keys.read (channel, auth)).isSome then [] else
              [(⟨channel, auth, serverId⟩ : Grant)]).countP (fun g => g.channelId = channelId ∧ g.userId = userId) = 0 := by
            split_ifs <;> simp [hkey]
          simp only [step, St.sendTyping, hmay, sentTo, toCome, List.countP_append, hnot]
          omega
  | broadcast i channelFails serverFails =>
    exact (sentTo_broadcast subject i channelFails serverFails).trans (Nat.le_add_right _ _)
  | cancel i =>
    have herase : (s.granted.eraseIdx i).countP (fun g => g.channelId = channelId ∧ g.userId = userId) ≤
        toCome channelId userId s := (List.eraseIdx_sublist _ _).countP_le
    simp only [step, sentTo, toCome] at herase ⊢
    omega
  | tick n => simp [step, sentTo, toCome]
  | write pg => simp [step, sentTo, toCome]

theorem sentTo_run (subject : Subject) (channelId userId : ℤ) (s : St) (ops : List Op) :
    sentTo subject channelId userId (run step s ops) + toCome channelId userId (run step s ops) ≤
      sentTo subject channelId userId s + toCome channelId userId s + (takenAt channelId userId s ops).length := by
  induction ops generalizing s with
  | nil => simp [takenAt, Lease.taken]
  | cons o ops ih =>
    have hstep := sentTo_step subject channelId userId s o
    have htimes : (takenAt channelId userId s (o :: ops)).length =
        (if takes channelId userId s o then 1 else 0) + (takenAt channelId userId (step s o) ops).length := by
      have hacts : ((act channelId userId s o).isTake && (left channelId userId s).isNone) = takes channelId userId s o := rfl
      rw [takenAt, Lease.taken, List.length_append, hacts]
      split_ifs <;> rfl
    rw [run_cons, htimes]
    have := ih (step s o)
    omega

/-- **How often a user is announced as typing.** -/
theorem broadcasts_le (pg : Postgres) (start : ℕ) (ops : List Op) (subject : Subject) (channelId userId : ℤ) :
    typingTtl * (sentTo subject channelId userId (run step (init pg start) ops) - 1) ≤
      now (run step (init pg start) ops) - start := by
  have hcount := sentTo_run subject channelId userId (init pg start) ops
  have hzero : sentTo subject channelId userId (init pg start) + toCome channelId userId (init pg start) = 0 := rfl
  rw [hzero, Nat.zero_add] at hcount
  have hspan : typingTtl * ((takenAt channelId userId (init pg start) ops).length - 1) ≤
      now (run step (init pg start) ops) - start :=
    Lease.taken_length_le tracks now_step typingTtl_pos rfl fun s o _ => onlyTakes s o
  refine (Nat.mul_le_mul_left _ ?_).trans hspan
  omega

end Lumiere.Routes.Typing
