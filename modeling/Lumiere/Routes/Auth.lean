/-
The requests that rotate and revoke refresh tokens: `refresh`, `logout` and `logout_all`
(`lumiere-server/src/routes/auth.rs`) and `delete_me` (`routes/users.rs`), as programs over Redis and PostgreSQL.

A refresh takes, besides the token, what it draws from outside: the times at which it reads the clock and the ids of the
two tokens it issues.
-/
import Lumiere.Auth.Jwt
import Lumiere.Auth.SessionStore
import Lumiere.Db.Postgres

namespace Lumiere.Routes

open Lumiere.Core Lumiere.Core.Prog Lumiere.Models Lumiere.Db Lumiere.Auth

structure Stores where
  pg : Postgres
  redis : Redis

inductive Write where
  | redis (w : Command)
  /-- `UPDATE users SET deleted_at = now() WHERE id = $1` -/
  | deleteUser (id : ℤ) (now : DateTime)
deriving DecidableEq, Repr

def Write.exec : Write → Stores → Except AppError (ℕ × Stores)
  | .redis w, s =>
    match w.exec s.redis with
    | .ok (n, r) => .ok (n, { s with redis := r })
    | .error e => .error e
  | .deleteUser id now, s =>
    .ok (s.pg.users.count fun u => u.id = id, { s with
      pg := { s.pg with
        users := s.pg.users.updateWhere (fun u => u.id = id) (fun u => { u with deletedAt := some now })
          (User.id_deleted now) } })

abbrev AuthHandler := Prog Stores Write AppError

def onRedis {α : Type} (call : Call α) : AuthHandler α := call.lift Stores.redis Write.redis

inductive AuthResponse where
  | tokens (accessToken refreshToken : String)
  | noContent
deriving DecidableEq, Repr

structure AuthConfig where
  accessTokenTtl : ℕ
  refreshTokenTtl : ℕ
deriving DecidableEq, Repr

structure Draw where
  verifiedAt : ℕ
  accessIat : ℕ
  accessJti : String
  refreshIat : ℕ
  refreshJti : String
  storedAt : ℤ
deriving DecidableEq, Repr

section Requests

variable (jwt : Jwt) (config : AuthConfig)

/-- the new pair of tokens, and the session of the new refresh token -/
def issueTokens (session : Session) (userId : Snowflake) (d : Draw) : Call AuthResponse := do
  let (accessToken, _) ← ofExcept
    ((createAccessToken jwt userId config.accessTokenTtl d.accessJti d.accessIat).mapError .internal)
  let (refreshToken, refreshJti) ← ofExcept
    ((createRefreshToken jwt userId config.refreshTokenTtl d.refreshJti d.refreshIat).mapError .internal)
  createSession session.userId refreshJti config.refreshTokenTtl session.deviceInfo session.ip d.storedAt
  pure (.tokens accessToken refreshToken)

/-- a refresh whose token has been verified -/
def refreshSession (jti : String) (d : Draw) : Call AuthResponse := do
  let stored ← getSession jti
  let session ← orFail (.unauthorized "Session revoked") stored
  let userId ← orFail (.internal "Invalid user_id in session") (Snowflake.fromStr session.userId)
  revokeSession jti session.userId
  issueTokens jwt config session userId d

def refresh (refreshToken : String) (d : Draw) : Call AuthResponse := do
  let claims ← orFail (.unauthorized "Invalid refresh token") (verifyToken jwt refreshToken d.verifiedAt)
  failIf (claims.tokenType ≠ .refresh) (.unauthorized "Not a refresh token")
  refreshSession jwt config claims.jti d

/-- a refresh succeeds only with a stored session -/
theorem session_of_refresh {jwt : Jwt} {config : AuthConfig} {token : String} {d : Draw} {r r' : Redis}
    {response : AuthResponse} (h : (refresh jwt config token d).run Command.exec r = (.ok response, r')) :
    ∃ claims session, jwt.decode token = some claims ∧ r.get claims.jti = some session := by
  obtain ⟨claims, r₁, hclaims, h₁⟩ := run_bind_eq_ok.1 h
  obtain ⟨hverify, rfl⟩ := orFail_eq_ok.1 hclaims
  obtain ⟨_, r₂, htype, h₂⟩ := run_bind_eq_ok.1 h₁
  obtain ⟨-, rfl⟩ := failIf_eq_ok.1 htype
  obtain ⟨stored, r₃, hget, h₃⟩ := run_bind_eq_ok.1 h₂
  obtain ⟨hstored, -⟩ := Prod.mk.inj hget
  obtain rfl := Except.ok.inj hstored
  obtain ⟨session, r₄, hsession, -⟩ := run_bind_eq_ok.1 h₃
  exact ⟨claims, session, decode_of_verifyToken hverify, (orFail_eq_ok.1 hsession).1⟩

end Requests

def logout (auth : Snowflake) : AuthHandler AuthResponse := do
  onRedis (revokeAllSessions (toString auth.value))
  pure .noContent

def logoutAll (auth : Snowflake) : AuthHandler AuthResponse := do
  onRedis (revokeAllSessions (toString auth.value))
  pure .noContent

def deleteMe (verifyPassword : String → String → Except String Bool) (auth : Snowflake) (password : String)
    (now : DateTime) : AuthHandler AuthResponse := do
  let row ← select fun s => s.pg.users.find? fun u => u.id = auth.toI64 && u.deletedAt.isNone
  let user ← orFail (.notFound "User not found") row
  let valid ← ofExcept ((verifyPassword password user.passwordHash).mapError .internal)
  failIf (!valid) (.unauthorized "Invalid password")
  let ownsServers ← select fun s => s.pg.servers.any fun v => v.ownerId = auth.toI64
  failIf ownsServers (.badRequest "Transfer ownership of all servers before deleting your account")
  execute (.deleteUser auth.toI64 now)
  onRedis (revokeAllSessions (toString auth.value))
  pure .noContent

end Lumiere.Routes
