/-
Refresh sessions in Redis (`lumiere-auth/src/session.rs`). The key `refresh:{jti}` holds a session until it expires; the
set `user_sessions:{user_id}` lists the token ids of a user and does not expire.

Every Redis command is one atomic step of a program (`Core/Prog.lean`); a failed command ends the call. Sessions are
stored as they are, without the detour through JSON.
-/
import Lumiere.Core.Pool
import Lumiere.Models.Error
import Mathlib.Data.Int.Notation

namespace Lumiere.Auth

open Lumiere.Core Lumiere.Core.Prog Lumiere.Models

structure Session where
  userId : String
  jti : String
  deviceInfo : Option String
  ip : Option String
  createdAt : ℤ
  lastActive : ℤ
deriving DecidableEq, Repr

/-- the value of a `refresh:{jti}` key and the time, in milliseconds, at which it expires -/
structure Entry where
  session : Session
  expires : ℕ
deriving DecidableEq, Repr

structure Redis where
  now : ℕ
  refresh : String → Option Entry
  userSessions : String → List String

namespace Redis

def empty (now : ℕ) : Redis := ⟨now, fun _ => none, fun _ => []⟩

/-- `GET refresh:{jti}` -/
def get (r : Redis) (jti : String) : Option Session :=
  (r.refresh jti).bind fun e => if r.now < e.expires then some e.session else none

/-- `TTL refresh:{jti}`, in seconds, rounded -/
def ttl (r : Redis) (jti : String) : ℤ :=
  ((r.refresh jti).bind fun e =>
    if r.now < e.expires then some (((e.expires - r.now + 500) / 1000 : ℕ) : ℤ) else none).getD (-2)

/-- a session of the user is stored under the token id -/
def hasSession (r : Redis) (userId jti : String) : Bool := (r.get jti).any fun s => s.userId = userId

/-- time passes -/
def tick (r : Redis) (ms : ℕ) : Redis := { r with now := r.now + ms }

end Redis

inductive Command where
  | setEx (jti : String) (session : Session) (ttlSeconds : ℕ)
  | del (jti : String)
  | sadd (userId jti : String)
  | srem (userId jti : String)
  /-- `DEL user_sessions:{user_id}` -/
  | delSet (userId : String)
deriving DecidableEq, Repr

def redisErr (text : String) : AppError := .internal ("An error was signalled by the server - ResponseError: " ++ text)

def Command.exec : Command → Redis → Except AppError (ℕ × Redis)
  | .setEx jti session ttlSeconds, r =>
    if ttlSeconds = 0 then .error (redisErr "invalid expire time in 'setex' command")
    else .ok (1, { r with
      refresh := Function.update r.refresh jti (some ⟨session, r.now + 1000 * ttlSeconds⟩) })
  | .del jti, r => .ok (if (r.get jti).isSome then 1 else 0, { r with refresh := Function.update r.refresh jti none })
  | .sadd userId jti, r =>
    if jti ∈ r.userSessions userId then .ok (0, r)
    else .ok (1, { r with
      userSessions := Function.update r.userSessions userId (r.userSessions userId ++ [jti]) })
  | .srem userId jti, r =>
    .ok ((r.userSessions userId).count jti, { r with
      userSessions := Function.update r.userSessions userId ((r.userSessions userId).filter (· ≠ jti)) })
  | .delSet userId, r =>
    .ok (if r.userSessions userId = [] then 0 else 1, { r with
      userSessions := Function.update r.userSessions userId [] })

abbrev Call := Prog Redis Command AppError

/-! ## SessionManager -/

/-- stores a refresh token session -/
def createSession (userId jti : String) (ttlSeconds : ℕ) (deviceInfo ip : Option String) (now : ℤ) : Call Unit := do
  execute (.setEx jti ⟨userId, jti, deviceInfo, ip, now, now⟩ ttlSeconds)
  execute (.sadd userId jti)

/-- the session of a refresh token, if it exists -/
def getSession (jti : String) : Call (Option Session) := select fun r => r.get jti

/-- revokes a single refresh token -/
def revokeSession (jti userId : String) : Call Unit := do
  execute (.del jti)
  execute (.srem userId jti)

/-- revokes all sessions of a user -/
def revokeAllSessions (userId : String) : Call Unit := do
  let jtis ← select fun r => r.userSessions userId
  jtis.forM fun jti => execute (.del jti)
  execute (.delSet userId)

/-- updates the `last_active` timestamp -/
def touchSession (jti : String) (now : ℤ) : Call Unit := do
  let session ← select fun r => r.get jti
  match session with
  | none => pure ()
  | some session => do
    let ttl ← select fun r => r.ttl jti
    when (0 < ttl) (execute (.setEx jti { session with lastActive := now } ttl.toNat))

/-! ## What the commands do -/

section Commands

variable (r : Redis) (jti userId : String)

/-- time passing only takes sessions away -/
theorem get_of_tick {ms : ℕ} {session : Session} (h : (r.tick ms).get jti = some session) :
    r.get jti = some session := by
  obtain ⟨e, he, hlive⟩ := Option.bind_eq_some_iff.1 h
  refine Option.bind_eq_some_iff.2 ⟨e, he, ?_⟩
  split_ifs at hlive with hms
  have hnow : r.now < e.expires := Nat.lt_of_le_of_lt (Nat.le_add_right r.now ms) hms
  rw [if_pos hnow, hlive]

theorem exec_sadd_ok : ∃ n r', Command.exec (.sadd userId jti) r = .ok (n, r') := by
  rw [Command.exec]
  split_ifs <;> exact ⟨_, _, rfl⟩

@[simp] theorem userSessions_tick (ms : ℕ) : (r.tick ms).userSessions = r.userSessions := rfl

variable {r} {r' : Redis} {n : ℕ}

theorem exec_del (h : Command.exec (.del jti) r = .ok (n, r')) :
    r'.userSessions = r.userSessions ∧ ∀ jti', r'.get jti' = if jti' = jti then none else r.get jti' := by
  obtain ⟨-, rfl⟩ := Prod.mk.inj (Except.ok.inj h)
  refine ⟨rfl, fun jti' => ?_⟩
  by_cases hj : jti' = jti
  · subst hj
    simp [Redis.get]
  · simp [Redis.get, hj]

theorem exec_setEx {session : Session} {ttlSeconds : ℕ}
    (h : Command.exec (.setEx jti session ttlSeconds) r = .ok (n, r')) :
    r'.userSessions = r.userSessions ∧ ∀ jti', r'.get jti' = if jti' = jti then some session else r.get jti' := by
  rw [Command.exec] at h
  split_ifs at h with h0
  obtain ⟨-, rfl⟩ := Prod.mk.inj (Except.ok.inj h)
  refine ⟨rfl, fun jti' => ?_⟩
  by_cases hj : jti' = jti
  · subst hj
    simp [Redis.get, Nat.pos_of_ne_zero h0]
  · simp [Redis.get, hj]

theorem exec_sadd (h : Command.exec (.sadd userId jti) r = .ok (n, r')) :
    r'.get = r.get ∧ ∀ userId' jti',
      jti' ∈ r'.userSessions userId' ↔ jti' ∈ r.userSessions userId' ∨ userId' = userId ∧ jti' = jti := by
  rw [Command.exec] at h
  split_ifs at h with hmem <;> obtain ⟨-, rfl⟩ := Prod.mk.inj (Except.ok.inj h)
  · refine ⟨rfl, fun userId' jti' => (or_iff_left_of_imp ?_).symm⟩
    rintro ⟨rfl, rfl⟩
    exact hmem
  · refine ⟨rfl, fun userId' jti' => ?_⟩
    by_cases hu : userId' = userId
    · subst hu
      simp
    · simp [hu]

theorem exec_srem (h : Command.exec (.srem userId jti) r = .ok (n, r')) :
    r'.get = r.get ∧ ∀ userId' jti',
      jti' ∈ r'.userSessions userId' ↔ jti' ∈ r.userSessions userId' ∧ ¬ (userId' = userId ∧ jti' = jti) := by
  obtain ⟨-, rfl⟩ := Prod.mk.inj (Except.ok.inj h)
  refine ⟨rfl, fun userId' jti' => ?_⟩
  by_cases hu : userId' = userId
  · subst hu
    simp
  · simp [hu]

theorem exec_delSet (h : Command.exec (.delSet userId) r = .ok (n, r')) :
    r'.get = r.get ∧ ∀ userId' jti', jti' ∈ r'.userSessions userId' ↔ jti' ∈ r.userSessions userId' ∧ userId' ≠ userId := by
  obtain ⟨-, rfl⟩ := Prod.mk.inj (Except.ok.inj h)
  refine ⟨rfl, fun userId' jti' => ?_⟩
  by_cases hu : userId' = userId
  · subst hu
    simp
  · simp [hu]

end Commands

/-! ## Sessions and the lists of a user -/

theorem hasSession_iff {r : Redis} {userId jti : String} :
    r.hasSession userId jti = true ↔ ∃ session, r.get jti = some session ∧ session.userId = userId := by
  rw [Redis.hasSession, Option.any_eq_true]
  simp

section Covered

variable {r r' : Redis} {n : ℕ} {userId jti jti' v : String} {pending : String → Prop}

theorem hasSession_of_get_eq (h : r'.get = r.get) : r'.hasSession = r.hasSession := by
  funext userId jti
  rw [Redis.hasSession, Redis.hasSession, h]

theorem hasSession_of_tick {ms : ℕ} (h : (r.tick ms).hasSession userId jti = true) : r.hasSession userId jti = true := by
  obtain ⟨session, hget, hu⟩ := hasSession_iff.1 h
  exact hasSession_iff.2 ⟨session, get_of_tick r jti hget, hu⟩

theorem hasSession_of_del (hw : Command.exec (.del jti) r = .ok (n, r')) (h : r'.hasSession userId jti' = true) :
    jti' ≠ jti ∧ r.hasSession userId jti' = true := by
  obtain ⟨session, hget, hu⟩ := hasSession_iff.1 h
  rw [(exec_del jti hw).2] at hget
  split_ifs at hget with hj
  exact ⟨hj, hasSession_iff.2 ⟨session, hget, hu⟩⟩

theorem hasSession_of_setEx {session : Session} {ttlSeconds : ℕ}
    (hw : Command.exec (.setEx jti session ttlSeconds) r = .ok (n, r')) (h : r'.hasSession userId jti' = true) :
    jti' = jti ∧ session.userId = userId ∨ r.hasSession userId jti' = true := by
  obtain ⟨session', hget, hu⟩ := hasSession_iff.1 h
  rw [(exec_setEx jti hw).2] at hget
  split_ifs at hget with hj
  · obtain rfl := Option.some.inj hget
    exact .inl ⟨hj, hu⟩
  · exact .inr (hasSession_iff.2 ⟨session', hget, hu⟩)

/-- every stored session of the user is listed, or about to be -/
def Redis.Covered (r : Redis) (userId : String) (pending : String → Prop) : Prop :=
  ∀ jti, r.hasSession userId jti = true → jti ∈ r.userSessions userId ∨ pending jti

theorem Redis.Covered.tick {ms : ℕ} (h : r.Covered userId pending) : (r.tick ms).Covered userId pending :=
  fun jti hs => h jti (hasSession_of_tick hs)

theorem Redis.Covered.del (h : r.Covered userId pending) (hw : Command.exec (.del jti) r = .ok (n, r')) :
    r'.Covered userId pending := by
  intro jti' hs
  rw [(exec_del jti hw).1]
  exact h jti' (hasSession_of_del hw hs).2

theorem Redis.Covered.setEx {session : Session} {ttlSeconds : ℕ} (h : r.Covered userId pending)
    (hw : Command.exec (.setEx jti session ttlSeconds) r = .ok (n, r'))
    (hnew : session.userId = userId → jti ∈ r.userSessions userId ∨ pending jti) : r'.Covered userId pending := by
  intro jti' hs
  rw [(exec_setEx jti hw).1]
  rcases hasSession_of_setEx hw hs with ⟨rfl, hu⟩ | hs
  · exact hnew hu
  · exact h jti' hs

theorem Redis.Covered.sadd (h : r.Covered userId pending) (hw : Command.exec (.sadd v jti) r = .ok (n, r')) :
    r'.Covered userId fun jti' => pending jti' ∧ ¬ (userId = v ∧ jti' = jti) := by
  obtain ⟨hget, hmem⟩ := exec_sadd jti v hw
  intro jti' hs
  rw [hasSession_of_get_eq hget] at hs
  by_cases hj : userId = v ∧ jti' = jti
  · exact .inl ((hmem userId jti').2 (.inr hj))
  · rcases h jti' hs with hlisted | hp
    · exact .inl ((hmem userId jti').2 (.inl hlisted))
    · exact .inr ⟨hp, hj⟩

theorem Redis.Covered.srem (h : r.Covered userId pending) (hw : Command.exec (.srem v jti) r = .ok (n, r'))
    (hold : v = userId → r.hasSession userId jti = true → pending jti) : r'.Covered userId pending := by
  obtain ⟨hget, hmem⟩ := exec_srem jti v hw
  intro jti' hs
  rw [hasSession_of_get_eq hget] at hs
  by_cases hj : userId = v ∧ jti' = jti
  · obtain ⟨rfl, rfl⟩ := hj
    exact .inr (hold rfl hs)
  · exact (h jti' hs).imp_left fun hlisted => (hmem userId jti').2 ⟨hlisted, hj⟩

theorem Redis.Covered.delSet (h : r.Covered userId pending) (hw : Command.exec (.delSet v) r = .ok (n, r'))
    (hold : v = userId → ∀ jti ∈ r.userSessions userId, r.hasSession userId jti = true → pending jti) :
    r'.Covered userId pending := by
  obtain ⟨hget, hmem⟩ := exec_delSet v hw
  intro jti' hs
  rw [hasSession_of_get_eq hget] at hs
  rcases h jti' hs with hlisted | hp
  · by_cases hu : userId = v
    · exact .inr (hold hu.symm jti' hlisted hs)
    · exact .inl ((hmem userId jti').2 ⟨hlisted, hu⟩)
  · exact .inr hp

end Covered

end Lumiere.Auth
