/-
Requests of `Routes/Auth.lean` side by side, one Redis command or statement at a time; commands may fail, time may pass
and other requests may write to PostgreSQL.

- `AuthStage`: a request in progress, named by what it sends next.
- `authStage_advance`, `authStage_programs`: a pool of stages is a pool of the programs.
- `Refreshing`, `refreshing_next`: what one command of a refresh does.
-/
import Lumiere.Routes.Auth
import Mathlib.Data.Fintype.Basic

namespace Lumiere.Routes

open Lumiere.Core Lumiere.Core.Prog Lumiere.Models Lumiere.Db Lumiere.Auth

/-! ## Requests in progress -/

inductive AuthStage where
  | refresh (jti : String) (d : Draw)
  | refreshDel (jti : String) (session : Session) (userId : Snowflake) (d : Draw)
  | refreshRem (jti : String) (session : Session) (userId : Snowflake) (d : Draw)
  | refreshSet (session : Session) (d : Draw) (response : AuthResponse)
  | refreshAdd (session : Session) (d : Draw) (response : AuthResponse)
  | deleteMe (auth : Snowflake) (password : String) (now : DateTime)
  | deleteMeServers (auth : Snowflake) (now : DateTime)
  | deleteMeUpdate (auth : Snowflake) (now : DateTime)
  | revokeAll (userId : String)
  /-- the ids that are left to delete -/
  | revokeEach (userId : String) (jtis : List String)
  | ok (response : AuthResponse)
  | failed (e : AppError)
deriving DecidableEq, Repr

namespace AuthStage

section Programs

variable (jwt : Jwt) (config : AuthConfig) (verifyPassword : String → String → Except String Bool)

/-- what is left of the request -/
def prog : AuthStage → AuthHandler AuthResponse
  | .refresh jti d => onRedis (refreshSession jwt config jti d)
  | .refreshDel jti session userId d => onRedis do
    revokeSession jti session.userId
    issueTokens jwt config session userId d
  | .refreshRem jti session userId d => onRedis do
    execute (.srem session.userId jti)
    issueTokens jwt config session userId d
  | .refreshSet session d response => onRedis do
    createSession session.userId d.refreshJti config.refreshTokenTtl session.deviceInfo session.ip d.storedAt
    pure response
  | .refreshAdd session d response => onRedis do
    execute (.sadd session.userId d.refreshJti)
    pure response
  | .deleteMe auth password now => Routes.deleteMe verifyPassword auth password now
  | .deleteMeServers auth now => do
    let ownsServers ← select fun s => s.pg.servers.any fun v => v.ownerId = auth.toI64
    failIf ownsServers (.badRequest "Transfer ownership of all servers before deleting your account")
    execute (.deleteUser auth.toI64 now)
    onRedis (revokeAllSessions (toString auth.value))
    pure .noContent
  | .deleteMeUpdate auth now => do
    execute (.deleteUser auth.toI64 now)
    onRedis (revokeAllSessions (toString auth.value))
    pure .noContent
  | .revokeAll userId => do
    onRedis (revokeAllSessions userId)
    pure .noContent
  | .revokeEach userId jtis => do
    onRedis do
      jtis.forM fun jti => execute (.del jti)
      execute (.delSet userId)
    pure .noContent
  | .ok response => pure response
  | .failed e => fail e

def send : Write → AuthStage → Stores → AuthStage × Stores := Pool.send Write.exec .failed

/-- the old session is gone: the new tokens are made before the next command -/
def issue (session : Session) (userId : Snowflake) (d : Draw) : AuthStage :=
  match createAccessToken jwt userId config.accessTokenTtl d.accessJti d.accessIat with
  | .error e => .failed (.internal e)
  | .ok (accessToken, _) =>
    match createRefreshToken jwt userId config.refreshTokenTtl d.refreshJti d.refreshIat with
    | .error e => .failed (.internal e)
    | .ok (refreshToken, _) => .refreshSet session d (.tokens accessToken refreshToken)

def next : AuthStage → Stores → AuthStage × Stores
  | .refresh jti d, s =>
    (match s.redis.get jti with
    | none => .failed (.unauthorized "Session revoked")
    | some session =>
      match Snowflake.fromStr session.userId with
      | none => .failed (.internal "Invalid user_id in session")
      | some userId => .refreshDel jti session userId d, s)
  | .refreshDel jti session userId d, s => send (.redis (.del jti)) (.refreshRem jti session userId d) s
  | .refreshRem jti session userId d, s =>
    send (.redis (.srem session.userId jti)) (issue jwt config session userId d) s
  | .refreshSet session d response, s =>
    send (.redis (.setEx d.refreshJti
      ⟨session.userId, d.refreshJti, session.deviceInfo, session.ip, d.storedAt, d.storedAt⟩ config.refreshTokenTtl))
      (.refreshAdd session d response) s
  | .refreshAdd session d response, s => send (.redis (.sadd session.userId d.refreshJti)) (.ok response) s
  | .deleteMe auth password now, s =>
    (match s.pg.users.find? fun u => u.id = auth.toI64 && u.deletedAt.isNone with
    | none => .failed (.notFound "User not found")
    | some user =>
      match verifyPassword password user.passwordHash with
      | .error e => .failed (.internal e)
      | .ok valid => if !valid then .failed (.unauthorized "Invalid password") else .deleteMeServers auth now, s)
  | .deleteMeServers auth now, s =>
    (if s.pg.servers.any fun v => v.ownerId = auth.toI64 then
      .failed (.badRequest "Transfer ownership of all servers before deleting your account")
    else .deleteMeUpdate auth now, s)
  | .deleteMeUpdate auth now, s => send (.deleteUser auth.toI64 now) (.revokeAll (toString auth.value)) s
  | .revokeAll userId, s => (.revokeEach userId (s.redis.userSessions userId), s)
  | .revokeEach userId (jti :: jtis), s => send (.redis (.del jti)) (.revokeEach userId jtis) s
  | .revokeEach userId [], s => send (.redis (.delSet userId)) (.ok .noContent) s
  | .ok response, s => (.ok response, s)
  | .failed e, s => (.failed e, s)

/-- the pending command fails -/
def stop (e : AppError) : AuthStage → AuthStage
  | .ok response => .ok response
  | .failed e' => .failed e'
  | _ => .failed e

/-- a refresh request: the token is verified before the first command -/
def ofRefresh (refreshToken : String) (d : Draw) : AuthStage :=
  match verifyToken jwt refreshToken d.verifiedAt with
  | none => .failed (.unauthorized "Invalid refresh token")
  | some claims =>
    if claims.tokenType ≠ .refresh then .failed (.unauthorized "Not a refresh token") else .refresh claims.jti d

end Programs

/-- the request has returned its response -/
def succeeded : AuthStage → Bool
  | .ok _ => true
  | _ => false

end AuthStage

section Stages

variable {jwt : Jwt} {config : AuthConfig} {verifyPassword : String → String → Except String Bool}

theorem prog_ofRefresh (token : String) (d : Draw) :
    (AuthStage.ofRefresh jwt token d).prog jwt config verifyPassword = onRedis (refresh jwt config token d) := by
  rw [AuthStage.ofRefresh, refresh]
  rcases verifyToken jwt token d.verifiedAt with _ | claims
  · rfl
  · show _ = onRedis (failIf (claims.tokenType ≠ .refresh) (.unauthorized "Not a refresh token") >>= fun _ =>
      refreshSession jwt config claims.jti d)
    dsimp only
    rw [failIf]
    split_ifs <;> rfl

theorem prog_issue (session : Session) (userId : Snowflake) (d : Draw) :
    onRedis (issueTokens jwt config session userId d) =
      (AuthStage.issue jwt config session userId d).prog jwt config verifyPassword := by
  rw [AuthStage.issue, issueTokens, createAccessToken, createRefreshToken, createToken, createToken]
  rcases jwt.encode _ with e | accessToken
  · rfl
  · rcases jwt.encode _ with e | refreshToken <;> rfl

theorem authStage_exec (jwt : Jwt) (config : AuthConfig) (verifyPassword : String → String → Except String Bool)
    (w : Write) (t : AuthStage) {k : ℕ → AuthHandler AuthResponse}
    (h : ∀ n, k n = t.prog jwt config verifyPassword) (s : Stores) :
    (Prog.exec w k).advance Write.exec s =
      ((AuthStage.send w t s).1.prog jwt config verifyPassword, (AuthStage.send w t s).2) :=
  Pool.advance_exec (AuthStage.prog jwt config verifyPassword) (fun _ => rfl) w t h s

/-- **A stage and its program take the same steps.** -/
theorem authStage_advance (t : AuthStage) (s : Stores) :
    (t.prog jwt config verifyPassword).advance Write.exec s =
      ((t.next jwt config verifyPassword s).1.prog jwt config verifyPassword,
        (t.next jwt config verifyPassword s).2) := by
  cases t with
  | refresh jti d =>
    rw [AuthStage.next]
    show (onRedis (orFail (.unauthorized "Session revoked") (s.redis.get jti) >>= fun session => do
      let userId ← orFail (.internal "Invalid user_id in session") (Snowflake.fromStr session.userId)
      revokeSession jti session.userId
      issueTokens jwt config session userId d), s) = _
    rcases s.redis.get jti with _ | session
    · rfl
    · show (onRedis (orFail (.internal "Invalid user_id in session") (Snowflake.fromStr session.userId) >>= fun userId => do
        revokeSession jti session.userId
        issueTokens jwt config session userId d), s) = _
      dsimp only
      rcases Snowflake.fromStr session.userId with _ | userId <;> rfl
  | refreshDel jti session userId d =>
    exact authStage_exec jwt config verifyPassword (.redis (.del jti)) (.refreshRem jti session userId d) (fun _ => rfl) s
  | refreshRem jti session userId d =>
    exact authStage_exec jwt config verifyPassword (.redis (.srem session.userId jti)) _ (fun _ => prog_issue session userId d) s
  | refreshSet session d response => exact authStage_exec jwt config verifyPassword _ (.refreshAdd session d response) (fun _ => rfl) s
  | refreshAdd session d response => exact authStage_exec jwt config verifyPassword _ (.ok response) (fun _ => rfl) s
  | deleteMe auth password now =>
    rw [AuthStage.next]
    show (orFail (.notFound "User not found") (s.pg.users.find? _) >>= fun user => do
      let valid ← Prog.ofExcept ((verifyPassword password user.passwordHash).mapError AppError.internal)
      failIf (!valid) (.unauthorized "Invalid password")
      (AuthStage.deleteMeServers auth now).prog jwt config verifyPassword, s) = _
    rcases s.pg.users.find? _ with _ | user
    · rfl
    · show (Prog.ofExcept ((verifyPassword password user.passwordHash).mapError AppError.internal) >>= fun valid => do
        failIf (!valid) (.unauthorized "Invalid password")
        (AuthStage.deleteMeServers auth now).prog jwt config verifyPassword, s) = _
      dsimp only
      rcases verifyPassword password user.passwordHash with e | valid
      · rfl
      · cases valid <;> rfl
  | deleteMeServers auth now =>
    rw [AuthStage.next]
    show (failIf _ _ >>= fun _ => (AuthStage.deleteMeUpdate auth now).prog jwt config verifyPassword, s) = _
    rw [failIf]
    split_ifs <;> rfl
  | deleteMeUpdate auth now =>
    exact authStage_exec jwt config verifyPassword (.deleteUser auth.toI64 now) (.revokeAll (toString auth.value))
      (fun _ => rfl) s
  | revokeAll userId => rfl
  | revokeEach userId jtis =>
    cases jtis with
    | nil => exact authStage_exec jwt config verifyPassword (.redis (.delSet userId)) (.ok .noContent) (fun _ => rfl) s
    | cons jti jtis => exact authStage_exec jwt config verifyPassword (.redis (.del jti)) (.revokeEach userId jtis) (fun _ => rfl) s
  | ok response => rfl
  | failed e => rfl

theorem authStage_interrupt (e : AppError) (t : AuthStage) :
    (t.prog jwt config verifyPassword).interrupt e = (t.stop e).prog jwt config verifyPassword := by
  cases t with
  | revokeEach userId jtis => cases jtis <;> rfl
  | _ => rfl

theorem ok_of_succeeded {t : AuthStage} (h : (t.prog jwt config verifyPassword).succeeded = true) :
    ∃ response, t = .ok response := by
  cases t with
  | ok response => exact ⟨response, rfl⟩
  | revokeEach userId jtis => cases jtis <;> cases h
  | _ => cases h

end Stages

/-! ## What a refresh does -/

namespace AuthStage

/-- the request is a refresh, or has ended -/
def refreshes : AuthStage → Bool
  | .refresh .. | .refreshDel .. | .refreshRem .. | .refreshSet .. | .refreshAdd .. | .ok _ | .failed _ => true
  | _ => false

/-- the user and the id of a session that the request has stored and not yet listed -/
def lists : AuthStage → Option (String × String)
  | .refreshAdd session d _ => some (session.userId, d.refreshJti)
  | _ => none

end AuthStage

/-- the steps of a refresh -/
inductive Refreshing (ttlSeconds : ℕ) : AuthStage → Redis → AuthStage → Redis → Prop where
  /-- SADD does not fail -/
  | fails {t : AuthStage} (h : t.lists = none) (e : AppError) (r : Redis) : Refreshing ttlSeconds t r (.failed e) r
  | gets {jti : String} {session : Session} {r : Redis} (userId : Snowflake) (d : Draw) (h : r.get jti = some session) :
    Refreshing ttlSeconds (.refresh jti d) r (.refreshDel jti session userId d) r
  | deletes {jti : String} {n : ℕ} {r r' : Redis} (session : Session) (userId : Snowflake) (d : Draw)
    (h : Command.exec (.del jti) r = .ok (n, r')) :
    Refreshing ttlSeconds (.refreshDel jti session userId d) r (.refreshRem jti session userId d) r'
  | removes {jti : String} {n : ℕ} {r r' : Redis} {session : Session} (userId : Snowflake) (d : Draw)
    (response : AuthResponse) (h : Command.exec (.srem session.userId jti) r = .ok (n, r')) :
    Refreshing ttlSeconds (.refreshRem jti session userId d) r (.refreshSet session d response) r'
  /-- the old session is gone, but no token can be made -/
  | unsigned {jti : String} {n : ℕ} {r r' : Redis} {session : Session} (userId : Snowflake) (d : Draw)
    (e : AppError) (h : Command.exec (.srem session.userId jti) r = .ok (n, r')) :
    Refreshing ttlSeconds (.refreshRem jti session userId d) r (.failed e) r'
  | stores {n : ℕ} {r r' : Redis} {session : Session} {d : Draw} (response : AuthResponse)
    (h : Command.exec (.setEx d.refreshJti
      ⟨session.userId, d.refreshJti, session.deviceInfo, session.ip, d.storedAt, d.storedAt⟩ ttlSeconds) r = .ok (n, r')) :
    Refreshing ttlSeconds (.refreshSet session d response) r (.refreshAdd session d response) r'
  | lists {n : ℕ} {r r' : Redis} {session : Session} {d : Draw} (response : AuthResponse)
    (h : Command.exec (.sadd session.userId d.refreshJti) r = .ok (n, r')) :
    Refreshing ttlSeconds (.refreshAdd session d response) r (.ok response) r'
  | rests (response : AuthResponse) (r : Redis) : Refreshing ttlSeconds (.ok response) r (.ok response) r

theorem exec_redis_eq_ok {w : Command} {s s' : Stores} {n : ℕ} :
    Write.exec (.redis w) s = .ok (n, s') ↔ ∃ r, w.exec s.redis = .ok (n, r) ∧ s' = { s with redis := r } := by
  rw [Write.exec]
  rcases w.exec s.redis with e | ⟨m, r⟩
  · simp
  · simp only [Except.ok.injEq, Prod.mk.injEq]
    constructor
    · rintro ⟨rfl, rfl⟩
      exact ⟨r, ⟨rfl, rfl⟩, rfl⟩
    · rintro ⟨r', ⟨rfl, rfl⟩, rfl⟩
      exact ⟨rfl, rfl⟩

theorem send_redis_cases {w : Command} {t t' : AuthStage} {s s' : Stores}
    (h : AuthStage.send (.redis w) t s = (t', s')) :
    (t' = t ∧ ∃ n r, w.exec s.redis = .ok (n, r) ∧ s' = { s with redis := r }) ∨ ∃ e, t' = .failed e ∧ s' = s := by
  rcases Pool.send_cases h with ⟨ht, n, hw⟩ | hfailed
  · obtain ⟨r, hr⟩ := exec_redis_eq_ok.1 hw
    exact .inl ⟨ht, n, r, hr⟩
  · exact .inr hfailed

/-! ## Side by side -/

/-- what happens outside the requests -/
inductive Outside where
  | time (ms : ℕ)
  /-- other requests have written to PostgreSQL -/
  | pg (pg : Postgres)

def Stores.outside (s : Stores) : Outside → Stores
  | .time ms => { s with redis := s.redis.tick ms }
  | .pg pg => { s with pg }

section Pools

variable (jwt : Jwt) (config : AuthConfig) (verifyPassword : String → String → Except String Bool) (e : AppError)
variable {ι : Type} [DecidableEq ι]

/-- one turn of the requests; `e` is what a failed command reports -/
def authStep : Pool ι AuthStage Stores → Turn ι Outside → Pool ι AuthStage Stores :=
  Pool.step (AuthStage.next jwt config verifyPassword) (AuthStage.stop e) Stores.outside

def authProgStep : Pool ι (AuthHandler AuthResponse) Stores → Turn ι Outside → Pool ι (AuthHandler AuthResponse) Stores :=
  Pool.stepProg Write.exec e Stores.outside

/-- **A pool of stages runs as the pool of their programs.** -/
theorem authStage_programs (s : Pool ι AuthStage Stores) (ts : List (Turn ι Outside)) :
    run (authProgStep e) (s.map (AuthStage.prog jwt config verifyPassword)) ts =
      (run (authStep jwt config verifyPassword e) s ts).map (AuthStage.prog jwt config verifyPassword) :=
  Pool.run_map _ authStage_advance (authStage_interrupt e) s ts

variable {jwt config verifyPassword e} {s : Pool ι AuthStage Stores} {i : ι} {t : AuthStage} {x : Stores}

theorem authStep_task (h : (s.task i).next jwt config verifyPassword s.shared = (t, x)) (k : ι) :
    (authStep jwt config verifyPassword e s (.advance i)).task k = if k = i then t else s.task k :=
  Pool.advance_task h k

theorem authStep_shared (h : (s.task i).next jwt config verifyPassword s.shared = (t, x)) :
    (authStep jwt config verifyPassword e s (.advance i)).shared = x :=
  Pool.advance_shared h

theorem authStep_interrupt (k : ι) :
    (authStep jwt config verifyPassword e s (.interrupt i)).task k = if k = i then (s.task i).stop e else s.task k :=
  Pool.interrupt_task k

end Pools

theorem refreshing_next {jwt : Jwt} {config : AuthConfig} {verifyPassword : String → String → Except String Bool}
    {t t' : AuthStage} {s s' : Stores} (ht : t.refreshes = true)
    (hnext : t.next jwt config verifyPassword s = (t', s')) :
    Refreshing config.refreshTokenTtl t s.redis t' s'.redis := by
  cases t with
  | refresh jti d =>
    rw [AuthStage.next] at hnext
    obtain ⟨rfl, rfl⟩ := Prod.mk.inj hnext
    rcases hget : s.redis.get jti with _ | session
    · exact .fails rfl ..
    · dsimp only
      rcases Snowflake.fromStr session.userId with _ | userId
      · exact .fails rfl ..
      · exact .gets userId d hget
  | refreshDel jti session userId d =>
    rw [AuthStage.next] at hnext
    rcases send_redis_cases hnext with ⟨rfl, n, r, hw, rfl⟩ | ⟨e, rfl, rfl⟩
    · exact .deletes session userId d hw
    · exact .fails rfl ..
  | refreshRem jti session userId d =>
    rw [AuthStage.next] at hnext
    rcases send_redis_cases hnext with ⟨rfl, n, r, hw, rfl⟩ | ⟨e, rfl, rfl⟩
    · rw [AuthStage.issue]
      rcases createAccessToken jwt userId config.accessTokenTtl d.accessJti d.accessIat with e | ⟨accessToken, _⟩
      · exact .unsigned userId d _ hw
      · rcases createRefreshToken jwt userId config.refreshTokenTtl d.refreshJti d.refreshIat with e | ⟨refreshToken, _⟩
        · exact .unsigned userId d _ hw
        · exact .removes userId d _ hw
    · exact .fails rfl ..
  | refreshSet session d response =>
    rw [AuthStage.next] at hnext
    rcases send_redis_cases hnext with ⟨rfl, n, r, hw, rfl⟩ | ⟨e, rfl, rfl⟩
    · exact .stores response hw
    · exact .fails rfl ..
  | refreshAdd session d response =>
    obtain ⟨n, r, hw⟩ := exec_sadd_ok s.redis d.refreshJti session.userId
    rw [AuthStage.next, AuthStage.send, Pool.send, exec_redis_eq_ok.2 ⟨r, hw, rfl⟩] at hnext
    obtain ⟨rfl, rfl⟩ := Prod.mk.inj hnext
    exact .lists response hw
  | ok response =>
    obtain ⟨rfl, rfl⟩ := Prod.mk.inj hnext
    exact .rests ..
  | failed e =>
    obtain ⟨rfl, rfl⟩ := Prod.mk.inj hnext
    exact .fails rfl ..
  | deleteMe | deleteMeServers | deleteMeUpdate | revokeAll | revokeEach => cases ht

end Lumiere.Routes
