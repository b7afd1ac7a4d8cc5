/-
Are refresh sessions always revocable? Calls of `create_session`, `revoke_session`, `revoke_all_sessions` and
`touch_session` run side by side, one Redis command at a time; commands may fail and time may pass.

- `Stage`: a call in progress, named by the command it sends next. `stage_advance`, `stage_programs`: a pool of stages is
  a pool of the programs.
- `Unraced`: the turns that keep every stored session listed. What they exclude: a set deleted or an id taken off it
  while a session is stored under it, a rewrite of a session that is no longer listed, and a `create_session` that fails
  after its first command.
- `sessions_revocable`: in a run of such turns, whenever no call is in progress every stored session is listed, and a
  `revoke_all_sessions` alone removes all sessions of its user.
- `orphanedTrace`: a login whose SADD falls between the SMEMBERS of a logout and its DEL.
-/
import Lumiere.Auth.SessionStore
import Mathlib.Data.Fintype.Basic
import Mathlib.Data.Fin.VecNotation

namespace Lumiere.Auth

open Lumiere.Core Lumiere.Core.Prog Lumiere.Models

/-! ## Calls in progress -/

inductive Stage where
  | create (userId jti : String) (ttlSeconds : ℕ) (deviceInfo ip : Option String) (now : ℤ)
  | createAdd (userId jti : String)
  | revoke (jti userId : String)
  | revokeRem (jti userId : String)
  | revokeAll (userId : String)
  /-- the ids that are left to delete -/
  | revokeEach (userId : String) (jtis : List String)
  | touch (jti : String) (now : ℤ)
  | touchTtl (jti : String) (session : Session) (now : ℤ)
  | touchSet (jti : String) (session : Session) (ttlSeconds : ℕ)
  | done
  | failed (e : AppError)
deriving DecidableEq, Repr

namespace Stage

/-- what is left of the call -/
def prog : Stage → Call Unit
  | .create userId jti ttlSeconds deviceInfo ip now => createSession userId jti ttlSeconds deviceInfo ip now
  | .createAdd userId jti => execute (.sadd userId jti)
  | .revoke jti userId => revokeSession jti userId
  | .revokeRem jti userId => execute (.srem userId jti)
  | .revokeAll userId => revokeAllSessions userId
  | .revokeEach userId jtis => do
    jtis.forM fun jti => execute (.del jti)
    execute (.delSet userId)
  | .touch jti now => touchSession jti now
  | .touchTtl jti session now => do
    let ttl ← select fun r => r.ttl jti
    when (0 < ttl) (execute (.setEx jti { session with lastActive := now } ttl.toNat))
  | .touchSet jti session ttlSeconds => execute (.setEx jti session ttlSeconds)
  | .done => pure ()
  | .failed e => fail e

def send : Command → Stage → Redis → Stage × Redis := Pool.send Command.exec .failed

def next : Stage → Redis → Stage × Redis
  | .create userId jti ttlSeconds deviceInfo ip now, r =>
    send (.setEx jti ⟨userId, jti, deviceInfo, ip, now, now⟩ ttlSeconds) (.createAdd userId jti) r
  | .createAdd userId jti, r => send (.sadd userId jti) .done r
  | .revoke jti userId, r => send (.del jti) (.revokeRem jti userId) r
  | .revokeRem jti userId, r => send (.srem userId jti) .done r
  | .revokeAll userId, r => (.revokeEach userId (r.userSessions userId), r)
  | .revokeEach userId (jti :: jtis), r => send (.del jti) (.revokeEach userId jtis) r
  | .revokeEach userId [], r => send (.delSet userId) .done r
  | .touch jti now, r =>
    match r.get jti with
    | some session => (.touchTtl jti session now, r)
    | none => (.done, r)
  | .touchTtl jti session now, r =>
    (if 0 < r.ttl jti then .touchSet jti { session with lastActive := now } (r.ttl jti).toNat else .done, r)
  | .touchSet jti session ttlSeconds, r => send (.setEx jti session ttlSeconds) .done r
  | .done, r => (.done, r)
  | .failed e, r => (.failed e, r)

/-- the pending command fails -/
def stop (e : AppError) : Stage → Stage
  | .done => .done
  | .failed e' => .failed e'
  | _ => .failed e

/-- not started yet, or finished -/
def idle : Stage → Bool
  | .create .. | .revoke .. | .revokeAll _ | .touch .. | .done | .failed _ => true
  | _ => false

end Stage

theorem advance_exec (w : Command) (t : Stage) {k : ℕ → Call Unit} (h : ∀ n, k n = t.prog) (r : Redis) :
    (Prog.exec w k).advance Command.exec r = ((Stage.send w t r).1.prog, (Stage.send w t r).2) :=
  Pool.advance_exec Stage.prog (fun _ => rfl) w t h r

/-- **A stage and its program take the same steps.** -/
theorem stage_advance (t : Stage) (r : Redis) :
    t.prog.advance Command.exec r = ((t.next r).1.prog, (t.next r).2) := by
  cases t with
  | create userId jti ttlSeconds deviceInfo ip now =>
    exact advance_exec (.setEx jti ⟨userId, jti, deviceInfo, ip, now, now⟩ ttlSeconds) (.createAdd userId jti)
      (fun _ => rfl) r
  | createAdd userId jti => exact advance_exec (.sadd userId jti) .done (fun _ => rfl) r
  | revoke jti userId => exact advance_exec (.del jti) (.revokeRem jti userId) (fun _ => rfl) r
  | revokeRem jti userId => exact advance_exec (.srem userId jti) .done (fun _ => rfl) r
  | revokeAll userId => rfl
  | revokeEach userId jtis =>
    cases jtis with
    | nil => exact advance_exec (.delSet userId) .done (fun _ => rfl) r
    | cons jti jtis => exact advance_exec (.del jti) (.revokeEach userId jtis) (fun _ => rfl) r
  | touch jti now =>
    rw [Stage.next, Stage.prog, touchSession, advance_select_bind]
    rcases r.get jti with _ | session <;> rfl
  | touchTtl jti session now =>
    rw [Stage.next]
    show ((when (0 < r.ttl jti) (execute (.setEx jti { session with lastActive := now } (r.ttl jti).toNat)) : Call Unit),
      r) = _
    rw [when]
    split_ifs <;> rfl
  | touchSet jti session ttlSeconds => exact advance_exec (.setEx jti session ttlSeconds) .done (fun _ => rfl) r
  | done => rfl
  | failed e => rfl

theorem stage_interrupt (e : AppError) (t : Stage) : t.prog.interrupt e = (t.stop e).prog := by
  cases t with
  | revokeEach userId jtis => cases jtis <;> rfl
  | _ => rfl

/-! ## Side by side -/

variable {ι : Type} [DecidableEq ι]

/-- one turn of the calls; `e` is what a failed command reports -/
def callStep (e : AppError) : Pool ι Stage Redis → Turn ι ℕ → Pool ι Stage Redis :=
  Pool.step Stage.next (Stage.stop e) Redis.tick

/-- **A pool of stages runs as the pool of their programs.** -/
theorem stage_programs (e : AppError) (s : Pool ι Stage Redis) (ts : List (Turn ι ℕ)) :
    run (Pool.stepProg Command.exec e Redis.tick) (s.map Stage.prog) ts = (run (callStep e) s ts).map Stage.prog :=
  Pool.run_map Stage.prog stage_advance (stage_interrupt e) s ts

/-- a `create_session` of the id has stored its session and is about to list it -/
def Pending (s : Pool ι Stage Redis) (userId jti : String) : Prop := ∃ i, s.task i = .createAdd userId jti

instance [Fintype ι] (s : Pool ι Stage Redis) (userId jti : String) : Decidable (Pending s userId jti) :=
  inferInstanceAs (Decidable (∃ i, s.task i = .createAdd userId jti))

/-- the turn leaves no stored session unlisted -/
def Unraced (s : Pool ι Stage Redis) : Turn ι ℕ → Prop
  | .advance i =>
    match s.task i with
    | .revokeRem jti userId => s.shared.hasSession userId jti = true → Pending s userId jti
    | .revokeEach userId [] => ∀ jti ∈ s.shared.userSessions userId, s.shared.hasSession userId jti = true →
      Pending s userId jti
    | .touchSet jti session _ => jti ∈ s.shared.userSessions session.userId ∨ Pending s session.userId jti
    | _ => True
  | .interrupt i =>
    match s.task i with
    | .createAdd userId jti => s.shared.hasSession userId jti = true → jti ∈ s.shared.userSessions userId
    | _ => True
  | .outside _ => True

instance [Fintype ι] (s : Pool ι Stage Redis) : (t : Turn ι ℕ) → Decidable (Unraced s t)
  | .advance i => by
    rw [Unraced]
    cases s.task i with
    | revokeEach userId jtis => cases jtis <;> dsimp only <;> infer_instance
    | _ => dsimp only; infer_instance
  | .interrupt i => by
    rw [Unraced]
    cases s.task i <;> dsimp only <;> infer_instance
  | .outside _ => isTrue trivial

/-! ## The invariant -/

/-- every stored session is listed, or about to be -/
def Listed (s : Pool ι Stage Redis) : Prop := ∀ userId, s.shared.Covered userId (Pending s userId)

/-- what one command leaves covered, with the calls that are still to list a session -/
theorem listed_advance {e : AppError} {s : Pool ι Stage Redis} {i : ι} {t : Stage} {r : Redis}
    (hnext : (s.task i).next s.shared = (t, r))
    (hr : ∀ userId, r.Covered userId fun jti =>
      t = .createAdd userId jti ∨ Pending s userId jti ∧ s.task i ≠ .createAdd userId jti) :
    Listed (callStep e s (.advance i)) := by
  intro userId jti hs
  rw [callStep, Pool.advance_shared hnext] at hs ⊢
  rcases hr userId jti hs with hmem | rfl | ⟨⟨j, hj⟩, hi⟩
  · exact .inl hmem
  · exact .inr ⟨i, by rw [Pool.advance_task hnext, if_pos rfl]⟩
  · refine .inr ⟨j, ?_⟩
    rw [Pool.advance_task hnext, if_neg]
    · exact hj
    · rintro rfl
      exact hi hj

/-- a stage that lists nothing -/
theorem listed_of_covered {e : AppError} {s : Pool ι Stage Redis} {i : ι} {t : Stage} {r : Redis}
    (hnext : (s.task i).next s.shared = (t, r)) (hi : ∀ userId jti, s.task i ≠ .createAdd userId jti)
    (hr : ∀ userId, r.Covered userId (Pending s userId)) : Listed (callStep e s (.advance i)) :=
  listed_advance hnext fun userId jti hs => (hr userId jti hs).imp_right fun hp => .inr ⟨hp, hi userId jti⟩

/-- one command of a call -/
theorem advance_listed {e : AppError} {s : Pool ι Stage Redis} {i : ι} (h : Listed s) (hok : Unraced s (.advance i)) :
    Listed (callStep e s (.advance i)) := by
  rw [Unraced] at hok
  cases ht : s.task i with
  | create userId jti ttlSeconds deviceInfo ip now =>
    rcases hw : Command.exec (.setEx jti ⟨userId, jti, deviceInfo, ip, now, now⟩ ttlSeconds) s.shared with e' | ⟨n, r⟩
    · exact listed_of_covered (by rw [ht, Stage.next, Stage.send, Pool.send, hw]) (by simp [ht]) h
    · refine listed_advance (by rw [ht, Stage.next, Stage.send, Pool.send, hw]) fun u => ?_
      have hcov : s.shared.Covered u fun j => Stage.createAdd userId jti = .createAdd u j ∨
          Pending s u j ∧ s.task i ≠ .createAdd u j :=
        fun j hs => (h u j hs).imp_right fun hp => .inr ⟨hp, by simp [ht]⟩
      exact hcov.setEx hw fun hu => .inr (.inl (hu ▸ rfl))
  | createAdd userId jti =>
    obtain ⟨n, r, hw⟩ := exec_sadd_ok s.shared jti userId
    refine listed_advance (by rw [ht, Stage.next, Stage.send, Pool.send, hw]) fun u j hs => ?_
    refine ((h u).sadd hw j hs).imp_right fun hp => .inr ⟨hp.1, fun hi => hp.2 ?_⟩
    rw [ht, Stage.createAdd.injEq] at hi
    exact ⟨hi.1.symm, hi.2.symm⟩
  | revoke jti userId =>
    obtain ⟨n, r, hw⟩ : ∃ n r, Command.exec (.del jti) s.shared = .ok (n, r) := ⟨_, _, rfl⟩
    exact listed_of_covered (by rw [ht, Stage.next, Stage.send, Pool.send, hw]) (by simp [ht]) fun u => (h u).del hw
  | revokeRem jti userId =>
    obtain ⟨n, r, hw⟩ : ∃ n r, Command.exec (.srem userId jti) s.shared = .ok (n, r) := ⟨_, _, rfl⟩
    rw [ht] at hok
    refine listed_of_covered (by rw [ht, Stage.next, Stage.send, Pool.send, hw]) (by simp [ht]) fun u => ?_
    exact (h u).srem hw fun hu => hu ▸ hok
  | revokeAll userId => exact listed_of_covered (by rw [ht, Stage.next]) (by simp [ht]) h
  | revokeEach userId jtis =>
    cases jtis with
    | cons jti jtis =>
      obtain ⟨n, r, hw⟩ : ∃ n r, Command.exec (.del jti) s.shared = .ok (n, r) := ⟨_, _, rfl⟩
      exact listed_of_covered (by rw [ht, Stage.next, Stage.send, Pool.send, hw]) (by simp [ht]) fun u => (h u).del hw
    | nil =>
      obtain ⟨n, r, hw⟩ : ∃ n r, Command.exec (.delSet userId) s.shared = .ok (n, r) := ⟨_, _, rfl⟩
      rw [ht] at hok
      refine listed_of_covered (by rw [ht, Stage.next, Stage.send, Pool.send, hw]) (by simp [ht]) fun u => ?_
      exact (h u).delSet hw fun hu => hu ▸ hok
  | touch jti now =>
    rcases hget : s.shared.get jti with _ | session
    · exact listed_of_covered (by rw [ht, Stage.next, hget]) (by simp [ht]) h
    · exact listed_of_covered (by rw [ht, Stage.next, hget]) (by simp [ht]) h
  | touchTtl jti session now => exact listed_of_covered (by rw [ht, Stage.next]) (by simp [ht]) h
  | touchSet jti session ttlSeconds =>
    rw [ht] at hok
    rcases hw : Command.exec (.setEx jti session ttlSeconds) s.shared with e' | ⟨n, r⟩
    · exact listed_of_covered (by rw [ht, Stage.next, Stage.send, Pool.send, hw]) (by simp [ht]) h
    · refine listed_of_covered (by rw [ht, Stage.next, Stage.send, Pool.send, hw]) (by simp [ht]) fun u => ?_
      exact (h u).setEx hw fun hu => hu ▸ hok
  | done => exact listed_of_covered (by rw [ht, Stage.next]) (by simp [ht]) h
  | failed e' => exact listed_of_covered (by rw [ht, Stage.next]) (by simp [ht]) h

theorem step_listed {e : AppError} (s : Pool ι Stage Redis) (t : Turn ι ℕ) (hok : Unraced s t) (h : Listed s) :
    Listed (callStep e s t) := by
  cases t with
  | advance i => exact advance_listed h hok
  | interrupt i =>
    intro u j hs
    rcases h u j hs with hmem | ⟨k, hk⟩
    · exact .inl hmem
    · by_cases hki : k = i
      · subst hki
        rw [Unraced, hk] at hok
        exact .inl (hok hs)
      · exact .inr ⟨k, by rw [callStep, Pool.interrupt_task, if_neg hki, hk]⟩
  | outside ms => exact fun u => (h u).tick

/-! ## A logout alone -/

theorem run_forM_del (jtis : List String) (r : Redis) :
    ∃ r', (jtis.forM fun jti => (execute (.del jti) : Call Unit)).run Command.exec r = (.ok (), r') ∧
      ∀ jti, r'.get jti = if jti ∈ jtis then none else r.get jti := by
  induction jtis generalizing r with
  | nil => exact ⟨r, rfl, fun jti => by simp⟩
  | cons jti jtis ih =>
    obtain ⟨n, r₁, hw⟩ : ∃ n r₁, Command.exec (.del jti) r = .ok (n, r₁) := ⟨_, _, rfl⟩
    obtain ⟨r₂, hrun, hget⟩ := ih r₁
    refine ⟨r₂, ?_, fun jti' => ?_⟩
    · exact (run_bind_of_ok (a := ()) (execute_eq_ok.2 ⟨n, hw⟩)).trans hrun
    · rw [hget, (exec_del jti hw).2]
      by_cases hj : jti' = jti <;> simp [hj]

/-- if all sessions of the user are listed, `revoke_all_sessions` alone leaves none -/
theorem run_revokeAllSessions {r : Redis} {userId : String}
    (h : ∀ jti, r.hasSession userId jti = true → jti ∈ r.userSessions userId) (jti : String) :
    ((revokeAllSessions userId).run Command.exec r).2.hasSession userId jti = false := by
  obtain ⟨r₁, hrun, hget⟩ := run_forM_del (r.userSessions userId) r
  obtain ⟨n, r₂, hw⟩ : ∃ n r₂, Command.exec (.delSet userId) r₁ = .ok (n, r₂) := ⟨_, _, rfl⟩
  rw [revokeAllSessions, run_bind_of_ok (run_select _), run_bind_of_ok hrun, execute_eq_ok (u := ()).2 ⟨n, hw⟩,
    ← Bool.not_eq_true, hasSession_of_get_eq (exec_delSet userId hw).1, hasSession_iff]
  rintro ⟨session, hs, hu⟩
  rw [hget] at hs
  split_ifs at hs with hlisted
  exact hlisted (h jti (hasSession_iff.2 ⟨session, hs, hu⟩))

/-! ## Main result -/

/-- **Every live refresh session stays revocable.** In a run of unraced turns, whenever no call is in progress every stored
session is listed under its user, and a `revoke_all_sessions` alone leaves no session of the user. -/
theorem sessions_revocable (e : AppError) (calls : ι → Stage) (now : ℕ) (ts : List (Turn ι ℕ)) :
    Every (callStep e) Unraced ⟨calls, .empty now⟩ ts →
      let s := run (callStep e) ⟨calls, .empty now⟩ ts
      (∀ i, (s.task i).idle = true) → ∀ userId,
        (∀ jti, s.shared.hasSession userId jti = true → jti ∈ s.shared.userSessions userId) ∧
        ∀ jti, ((revokeAllSessions userId).run Command.exec s.shared).2.hasSession userId jti = false := by
  intro hts s hidle userId
  have h : Listed s := by
    refine run_inv_of_every (I := Listed) step_listed (fun u j hs => ?_) hts
    cases hs
  have hlisted : ∀ jti, s.shared.hasSession userId jti = true → jti ∈ s.shared.userSessions userId := by
    intro jti hs
    rcases h userId jti hs with hmem | ⟨i, hi⟩
    · exact hmem
    · have := hidle i
      rw [hi] at this
      cases this
  exact ⟨hlisted, run_revokeAllSessions hlisted⟩

/-- two logins of user 7, one of them refreshed and revoked, then a logout everywhere -/
def calmCalls : Fin 5 → Stage :=
  ![.create "7" "a" 60 none none 0, .create "7" "b" 60 none none 0, .touch "a" 1, .revoke "a" "7", .revokeAll "7"]

def calmTrace : List (Turn (Fin 5) ℕ) :=
  [.advance 0, .advance 1, .advance 1, .advance 0, .advance 2, .outside 500, .advance 2, .advance 2, .advance 3, .advance 3,
    .advance 4, .advance 4, .advance 4]

theorem sessions_revocable_calm :
    let s := run (callStep (redisErr "lost")) ⟨calmCalls, .empty 0⟩ calmTrace
    (∀ jti, s.shared.hasSession "7" jti = true → jti ∈ s.shared.userSessions "7") ∧
      ∀ jti, ((revokeAllSessions "7").run Command.exec s.shared).2.hasSession "7" jti = false :=
  sessions_revocable (redisErr "lost") calmCalls 0 calmTrace (by decide) (by decide) "7"

/-- a login sends SETEX, a logout reads the set, the login sends SADD, the logout deletes the set -/
def orphanedTrace : List (Turn (Fin 2) ℕ) := [.advance 0, .advance 1, .advance 0, .advance 1]

/-- **A session that no logout removes.** -/
theorem session_orphaned :
    let s := run (callStep (redisErr "lost")) ⟨![.create "7" "b" 60 none none 0, .revokeAll "7"], .empty 0⟩ orphanedTrace
    (∀ i, (s.task i).idle = true) ∧ s.shared.hasSession "7" "b" = true ∧ "b" ∉ s.shared.userSessions "7" ∧
      ((revokeAllSessions "7").run Command.exec s.shared).2.hasSession "7" "b" = true := by
  decide

end Lumiere.Auth
