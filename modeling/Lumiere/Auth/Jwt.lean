/-
Access and refresh tokens (`lumiere-auth/src/jwt.rs`). The `jsonwebtoken` crate under the configured secret is a
parameter: it signs claims, and gives the claims of a token that it signed back. The random token id is an argument.
-/
import Lumiere.Models.Snowflake
import Mathlib.Data.Nat.Notation

namespace Lumiere.Auth

open Lumiere.Models

inductive TokenType where
  | access
  | refresh
deriving DecidableEq, Repr

structure Claims where
  sub : String
  exp : ℕ
  iat : ℕ
  jti : String
  tokenType : TokenType
deriving DecidableEq, Repr

structure Jwt where
  encode : Claims → Except String String
  /-- the claims, if the signature holds; the expiry is not looked at -/
  decode : String → Option Claims

/-- the token and its id -/
def createToken (jwt : Jwt) (userId : Snowflake) (ttlSeconds : ℕ) (tokenType : TokenType) (jti : String) (now : ℕ) :
    Except String (String × String) := do
  let token ← jwt.encode { sub := toString userId.value, exp := now + ttlSeconds, iat := now, jti, tokenType }
  return (token, jti)

def createAccessToken (jwt : Jwt) (userId : Snowflake) (ttlSeconds : ℕ) (jti : String) (now : ℕ) :
    Except String (String × String) :=
  createToken jwt userId ttlSeconds .access jti now

def createRefreshToken (jwt : Jwt) (userId : Snowflake) (ttlSeconds : ℕ) (jti : String) (now : ℕ) :
    Except String (String × String) :=
  createToken jwt userId ttlSeconds .refresh jti now

/-- the default validation allows a leeway of 60 seconds on `exp` -/
def verifyToken (jwt : Jwt) (token : String) (now : ℕ) : Option Claims :=
  (jwt.decode token).filter fun c => now ≤ c.exp + 60

theorem decode_of_verifyToken {jwt : Jwt} {token : String} {now : ℕ} {claims : Claims}
    (h : verifyToken jwt token now = some claims) : jwt.decode token = some claims :=
  (Option.filter_eq_some_iff.1 h).1

end Lumiere.Auth
