/-
The global rate limit (`middleware/rate_limit.rs`): every request is charged to the key of its identifier before it is
authenticated. The identifier is the `sub` of a bearer token whose signature nobody has checked yet, or else an address;
the handlers behind the middleware check the token (`lumiere-auth/src/middleware.rs`).

The `jsonwebtoken` crate and the decoding of a payload (base64, then JSON) are parameters.

- `globalRateLimitMiddleware_eq_keyed`: identifiers do not share a bucket.
- `unaffected_iff`: requests of a class, with tokens that do not verify and from other addresses, leave the answers to a
  user alone exactly if none of them has the identifier of a request of the user.
- `forged_token`: a payload that names the user is enough.
-/
import Lumiere.Auth.Jwt
import Lumiere.Core.Json
import Lumiere.Core.Keyed
import Lumiere.Middleware.RateLimit
import Lumiere.Models.Error

namespace Lumiere.Middleware

open Lumiere.Core Lumiere.Models Lumiere.Auth

/-! ## Requests -/

structure HeaderValue where
  bytes : List UInt8
deriving DecidableEq, Repr

/-- visible ASCII only -/
def HeaderValue.toStr (h : HeaderValue) : Option String :=
  if h.bytes.all fun b => (32 ≤ b && b < 127) || b = 9 then
    some (String.ofList (h.bytes.map fun b => Char.ofNat b.toNat))
  else none

structure Request where
  authorization : Option HeaderValue
  forwardedFor : Option HeaderValue
  realIp : Option HeaderValue
  /-- the address of the connection, if the server passes it on -/
  connectInfo : Option String
deriving DecidableEq, Repr

/-- what becomes of the command that runs the script -/
inductive Outcome where
  | answered
  /-- the script has run, but its reply is lost -/
  | lost
  | unreached
deriving DecidableEq, Repr

structure Arrival where
  request : Request
  /-- of the server, in seconds -/
  clock : ℕ
  /-- of Redis, in microseconds -/
  time : ℕ
  outcome : Outcome
deriving DecidableEq, Repr

/-! ## Authentication -/

structure AuthUser where
  id : Snowflake
  jti : String
deriving DecidableEq, Repr

inductive AuthError where
  | missingToken
  | invalidToken
deriving DecidableEq, Repr

def extractBearerToken (req : Request) : Except AuthError String := do
  let value ← req.authorization.elim (.error .missingToken) .ok
  let header ← value.toStr.elim (.error .invalidToken) .ok
  if !Str.startsWith "Bearer " header then .error .invalidToken
  else .ok (String.ofList (header.toList.drop 7))

variable (jwt : Jwt)

def fromRequestParts (clock : ℕ) (req : Request) : Except AuthError AuthUser := do
  let token ← extractBearerToken req
  let claims ← (verifyToken jwt token clock).elim (.error .invalidToken) .ok
  if claims.tokenType ≠ .access then .error .invalidToken
  else
    let userId ← (Snowflake.fromStr claims.sub).elim (.error .invalidToken) .ok
    .ok ⟨userId, claims.jti⟩

/-! ## Identifiers -/

variable (decodePayload : String → Option Value)

/-- no signature is looked at -/
def extractUserIdFromToken (token : String) : Option String :=
  match Str.split '.' token with
  | [_, part, _] => (decodePayload part).bind fun payload => (payload.get? "sub").bind Value.asStr
  | _ => none

def extractClientIp (req : Request) : String :=
  match req.connectInfo with
  | some ip => "ip:" ++ ip
  | none =>
    match (req.forwardedFor.bind HeaderValue.toStr).bind fun value => (Str.split ',' value).head? with
    | some firstIp => "ip:" ++ Str.trim firstIp
    | none =>
      match req.realIp.bind HeaderValue.toStr with
      | some value => "ip:" ++ Str.trim value
      | none => "ip:unknown"

def extractIdentifier (req : Request) : String :=
  match ((req.authorization.bind HeaderValue.toStr).bind (Str.stripPrefix "Bearer ")).bind
      (extractUserIdFromToken decodePayload) with
  | some userId => "user:" ++ userId
  | none => extractClientIp req

/-! ## The middleware -/

structure RateLimitConfig where
  keyPrefix : String
  maxRequests : ℕ
  windowSeconds : ℕ
deriving DecidableEq, Repr

structure RateLimitResult where
  allowed : Bool
  remaining : ℕ
  limit : ℕ
  retryAfter : Option ℕ
deriving DecidableEq, Repr

def globalLimit : RateLimitConfig := ⟨"rl:global", 120, 1⟩

/-- `n as u32` -/
def asU32 (n : ℤ) : ℕ := (n % 4294967296).toNat

abbrev Keys := String → Option Key

def rateLimitKey (config : RateLimitConfig) (identifier : String) : String := config.keyPrefix ++ ":" ++ identifier

def rateLimitResult (config : RateLimitConfig) (result : Reply) : RateLimitResult :=
  let allowed := result.allowed = 1
  let retryAfter := asU32 result.retryAfterMs
  { allowed
    remaining := asU32 result.remainingTokens
    limit := config.maxRequests
    retryAfter := if allowed then none else some retryAfter }

def checkRateLimit (config : RateLimitConfig) (identifier : String) (outcome : Outcome) (time : ℕ) (keys : Keys) :
    Except AppError RateLimitResult × Keys :=
  let key := rateLimitKey config identifier
  let (result, k) := invoke config.maxRequests config.windowSeconds (keys key) time
  match outcome with
  | .answered => (.ok (rateLimitResult config result), Function.update keys key k)
  | .lost => (.error (.internal "Rate limit service unavailable"), Function.update keys key k)
  | .unreached => (.error (.internal "Rate limit service unavailable"), keys)

/-- the request is refused, or passed on; the result is for the headers -/
inductive Verdict where
  | limited (result : RateLimitResult)
  | passed (result : Option RateLimitResult)
deriving DecidableEq, Repr

def Verdict.allows : Verdict → Bool
  | .limited _ => false
  | .passed _ => true

def globalRateLimitMiddleware (keys : Keys) (a : Arrival) : Verdict × Keys :=
  let identifier := extractIdentifier decodePayload a.request
  match checkRateLimit globalLimit identifier a.outcome a.time keys with
  | (.ok result, keys) => if !result.allowed then (.limited result, keys) else (.passed (some result), keys)
  -- without Redis nobody is refused
  | (.error _, keys) => (.passed none, keys)

/-! ## What is claimed, and of which requests -/

/-- the bearer token verifies under the server's secret -/
def Arrival.verifies (a : Arrival) : Bool :=
  match extractBearerToken a.request with
  | .ok token => (verifyToken jwt token a.clock).isSome
  | .error _ => false

/-- the request is authenticated as one of the user -/
def Arrival.ofUser (userId : Snowflake) (a : Arrival) : Bool :=
  match fromRequestParts jwt a.clock a.request with
  | .ok user => user.id = userId
  | .error _ => false

/-- the addresses of the user's requests -/
def ownIps (userId : Snowflake) (arrivals : List Arrival) : List String :=
  (arrivals.filter (Arrival.ofUser jwt userId)).map fun a => extractClientIp a.request

/-- requests of a class, without a token that verifies and not from an address of the user -/
def foreign (kind : Request → Bool) (userId : Snowflake) (arrivals : List Arrival) (a : Arrival) : Bool :=
  kind a.request && !a.verifies jwt && !(ownIps jwt userId arrivals).contains (extractClientIp a.request)

/-- without the foreign requests the sequences are the same -/
def DifferInForeign (kind : Request → Bool) (userId : Snowflake) (arrivals arrivals' : List Arrival) : Prop :=
  (arrivals.filter fun a => !foreign jwt kind userId arrivals a) =
    arrivals'.filter fun a => !foreign jwt kind userId arrivals a

/-- what the middleware answers to the requests of a user -/
def verdicts (userId : Snowflake) (keys : Keys) (arrivals : List Arrival) : List (Arrival × Verdict) :=
  (arrivals.zip (outputs (globalRateLimitMiddleware decodePayload) keys arrivals)).filter fun x => x.1.ofUser jwt userId

/-- which requests of the user are passed on does not depend on foreign requests of the class -/
def Unaffected (kind : Request → Bool) (userId : Snowflake) : Prop :=
  ∀ keys arrivals arrivals', DifferInForeign jwt kind userId arrivals arrivals' →
    (verdicts jwt decodePayload userId keys arrivals).map (fun x => (x.1, x.2.allows)) =
      (verdicts jwt decodePayload userId keys arrivals').map fun x => (x.1, x.2.allows)

/-- such a request never has the identifier of one of the user -/
def Apart (kind : Request → Bool) (userId : Snowflake) : Prop :=
  ∀ f g : Arrival, kind f.request = true → f.verifies jwt = false → g.ofUser jwt userId = true →
    extractClientIp f.request ≠ extractClientIp g.request →
      extractIdentifier decodePayload f.request ≠ extractIdentifier decodePayload g.request

/-! ## Identifiers do not share a bucket -/

variable {jwt} {decodePayload}

/-- the request at the key of its identifier -/
def charge (key : Option Key) (a : Arrival) : Verdict × Option Key :=
  let (result, k) := invoke globalLimit.maxRequests globalLimit.windowSeconds key a.time
  match a.outcome with
  | .answered =>
    let result := rateLimitResult globalLimit result
    (if !result.allowed then .limited result else .passed (some result), k)
  | .lost => (.passed none, k)
  | .unreached => (.passed none, key)

def keyOf (decodePayload : String → Option Value) (a : Arrival) : String :=
  rateLimitKey globalLimit (extractIdentifier decodePayload a.request)

theorem keyOf_inj {a b : Arrival} : keyOf decodePayload a = keyOf decodePayload b ↔
    extractIdentifier decodePayload a.request = extractIdentifier decodePayload b.request := by
  rw [keyOf, keyOf, rateLimitKey, rateLimitKey, String.append_right_inj]

theorem globalRateLimitMiddleware_eq_keyed :
    globalRateLimitMiddleware decodePayload = keyed (keyOf decodePayload) charge := by
  funext keys a
  obtain ⟨request, clock, time, outcome⟩ := a
  cases outcome with
  | answered =>
    unfold globalRateLimitMiddleware checkRateLimit keyed charge keyOf
    dsimp only
    generalize invoke _ _ _ time = r
    cases (rateLimitResult globalLimit r.1).allowed with
    | false => rfl
    | true => rfl
  | lost => rfl
  | unreached =>
    unfold globalRateLimitMiddleware checkRateLimit keyed charge
    simp only [Function.update_eq_self]

theorem verifies_of_ofUser {a : Arrival} {userId : Snowflake} (h : a.ofUser jwt userId = true) :
    a.verifies jwt = true := by
  unfold Arrival.ofUser fromRequestParts at h
  unfold Arrival.verifies
  rcases htoken : extractBearerToken a.request with e | token
  · rw [htoken] at h
    cases h
  · rcases hclaims : verifyToken jwt token a.clock with _ | claims
    · simp [htoken, hclaims, bind, Except.bind] at h
    · simp [hclaims]

/-! ## Requests with other identifiers change nothing -/

variable {kind : Request → Bool} {userId : Snowflake} {keys : Keys} {arrivals arrivals' : List Arrival}

theorem not_foreign_of_ofUser {a : Arrival} (h : a.ofUser jwt userId = true) :
    foreign jwt kind userId arrivals a = false := by
  simp [foreign, verifies_of_ofUser h]

/-- the user's requests are the same -/
theorem DifferInForeign.mem_of_ofUser (h : DifferInForeign jwt kind userId arrivals arrivals') {a : Arrival}
    (ha : a.ofUser jwt userId = true) : a ∈ arrivals ↔ a ∈ arrivals' := by
  have hkeep : ∀ l : List Arrival, a ∈ l ↔ a ∈ l.filter fun a => !foreign jwt kind userId arrivals a := by
    intro l
    rw [List.mem_filter, not_foreign_of_ofUser ha]
    simp
  rw [hkeep arrivals, hkeep arrivals', h]

/-- the keys of the user's requests -/
def ownKeys (jwt : Jwt) (decodePayload : String → Option Value) (userId : Snowflake) (arrivals : List Arrival) : List String :=
  (arrivals.filter (Arrival.ofUser jwt userId)).map (keyOf decodePayload)

/-- the requests that share a key with the user -/
theorem filter_ownKeys (hapart : Apart jwt decodePayload kind userId)
    (h : DifferInForeign jwt kind userId arrivals arrivals') :
    (arrivals.filter fun a => (ownKeys jwt decodePayload userId arrivals).contains (keyOf decodePayload a)) =
      arrivals'.filter fun a => (ownKeys jwt decodePayload userId arrivals).contains (keyOf decodePayload a) := by
  have hown : ∀ a, foreign jwt kind userId arrivals a = true →
      (ownKeys jwt decodePayload userId arrivals).contains (keyOf decodePayload a) = false := by
    intro f hf
    simp only [foreign, Bool.and_eq_true, Bool.not_eq_true'] at hf
    obtain ⟨⟨hkind, hverifies⟩, hip⟩ := hf
    rw [← Bool.not_eq_true, List.contains_iff_mem]
    intro hmem
    obtain ⟨g, hg, hkey⟩ := List.mem_map.1 hmem
    obtain ⟨hg, hofUser⟩ := List.mem_filter.1 hg
    refine hapart f g hkind hverifies hofUser (fun hsame => ?_) (keyOf_inj.1 hkey.symm)
    rw [← Bool.not_eq_true, List.contains_iff_mem] at hip
    exact hip (List.mem_map.2 ⟨g, List.mem_filter.2 ⟨hg, hofUser⟩, hsame.symm⟩)
  have hdrop : ∀ l : List Arrival,
      (l.filter fun a => (ownKeys jwt decodePayload userId arrivals).contains (keyOf decodePayload a)) =
        (l.filter fun a => !foreign jwt kind userId arrivals a).filter fun a =>
          (ownKeys jwt decodePayload userId arrivals).contains (keyOf decodePayload a) := by
    intro l
    rw [List.filter_filter]
    refine List.filter_congr fun a _ => ?_
    cases hf : foreign jwt kind userId arrivals a with
    | true => rw [hown a hf]; rfl
    | false => simp
  rw [hdrop arrivals, hdrop arrivals', h]

/-- the user's verdicts are those of the requests that share a key with the user -/
theorem verdicts_eq (h : ∀ a ∈ arrivals', a.ofUser jwt userId = true → a ∈ arrivals) :
    verdicts jwt decodePayload userId keys arrivals' =
      (((arrivals'.filter fun a => (ownKeys jwt decodePayload userId arrivals).contains (keyOf decodePayload a)).zip
        (outputs (keyed (keyOf decodePayload) charge) keys
          (arrivals'.filter fun a => (ownKeys jwt decodePayload userId arrivals).contains (keyOf decodePayload a)))).filter
        fun x => x.1.ofUser jwt userId) := by
  rw [verdicts, globalRateLimitMiddleware_eq_keyed, ← filter_outputs_keyed
    (fun key => (ownKeys jwt decodePayload userId arrivals).contains key) arrivals' fun _ _ => rfl, List.filter_filter]
  refine List.filter_congr fun x hx => ?_
  cases hofUser : x.1.ofUser jwt userId with
  | true =>
    have hmem : keyOf decodePayload x.1 ∈ ownKeys jwt decodePayload userId arrivals := List.mem_map.2
      ⟨x.1, List.mem_filter.2 ⟨h x.1 (List.of_mem_zip hx).1 hofUser, hofUser⟩, rfl⟩
    simp [hmem]
  | false => simp

theorem verdicts_of_apart (hapart : Apart jwt decodePayload kind userId)
    (h : DifferInForeign jwt kind userId arrivals arrivals') :
    verdicts jwt decodePayload userId keys arrivals = verdicts jwt decodePayload userId keys arrivals' := by
  rw [verdicts_eq fun _ ha _ => ha, verdicts_eq fun a ha hofUser => (h.mem_of_ofUser hofUser).2 ha,
    filter_ownKeys hapart h]

/-! ## Requests with the user's identifier use up the bucket -/

theorem allows_charge (key : Option Key) {a : Arrival} (h : a.outcome = .answered) :
    (charge key a).1.allows = decide ((invoke 120 1 key a.time).1.allowed = 1) := by
  unfold charge
  rw [h]
  simp only [rateLimitResult, globalLimit]
  by_cases hallowed : (invoke 120 1 key a.time).1.allowed = 1 <;> simp [hallowed, Verdict.allows]

theorem run_charge {a : Arrival} (h : a.outcome = .answered) (n : ℕ) :
    run (fun key a => (charge key a).2) none (List.replicate n a) = keyAfter 120 1 (List.replicate n a.time) := by
  induction n with
  | zero => rfl
  | succ n ih =>
    rw [List.replicate_succ', List.replicate_succ', keyAfter, run_snoc, run_snoc, ih]
    unfold charge
    rw [h]
    rfl

/-- the request when Redis answers at time 0 -/
def Arrival.atZero (a : Arrival) : Arrival := { a with time := 0, outcome := .answered }

@[simp] theorem request_atZero (a : Arrival) : a.atZero.request = a.request := rfl

@[simp] theorem verifies_atZero (a : Arrival) : a.atZero.verifies jwt = a.verifies jwt := rfl

@[simp] theorem ofUser_atZero (a : Arrival) : a.atZero.ofUser jwt userId = a.ofUser jwt userId := rfl

/-- as many requests as there are tokens, and one of the user -/
def attack (f g : Arrival) : List Arrival := List.replicate 120 f.atZero ++ [g.atZero]

section Attack

variable {f g : Arrival}

theorem filter_attack {p : Arrival → Bool} (hf : p f.atZero = false) :
    (attack f g).filter p = [g.atZero].filter p := by
  rw [attack, List.filter_append, List.filter_replicate, hf]
  rfl

theorem ofUser_of_not_verifies (hf : f.verifies jwt = false) : f.ofUser jwt userId = false := by
  rw [← Bool.not_eq_true]
  intro h
  rw [verifies_of_ofUser h] at hf
  cases hf

theorem differInForeign_attack (hkind : kind f.request = true) (hf : f.verifies jwt = false)
    (hg : g.ofUser jwt userId = true) (hip : extractClientIp f.request ≠ extractClientIp g.request) :
    DifferInForeign jwt kind userId (attack f g) [g.atZero] := by
  have hips : ownIps jwt userId (attack f g) = [extractClientIp g.request] := by
    rw [ownIps, filter_attack (ofUser_of_not_verifies hf)]
    simp [hg]
  have hforeign : foreign jwt kind userId (attack f g) f.atZero = true := by
    simp [foreign, hips, hkind, hf, hip]
  exact filter_attack (by rw [hforeign]; rfl)

/-- the user's verdict depends on the state of the bucket -/
theorem verdicts_attack (hf : f.verifies jwt = false) (hg : g.ofUser jwt userId = true)
    (hsame : extractIdentifier decodePayload f.request = extractIdentifier decodePayload g.request) (n : ℕ) :
    verdicts jwt decodePayload userId (fun _ => none) (List.replicate n f.atZero ++ [g.atZero]) =
      [(g.atZero, (charge (keyAfter 120 1 (List.replicate n 0)) g.atZero).1)] := by
  have hkeys : ∀ a ∈ List.replicate n f.atZero ++ [g.atZero], keyOf decodePayload a = keyOf decodePayload g.atZero := by
    intro a ha
    rw [keyOf_inj]
    rcases List.mem_append.1 ha with ha | ha
    · rw [List.eq_of_mem_replicate ha]
      exact hsame
    · rw [List.mem_singleton.1 ha]
  have hnone : ((List.replicate n f.atZero).zip (outputs charge none (List.replicate n f.atZero))).filter
      (fun x => x.1.ofUser jwt userId) = [] := by
    refine List.filter_eq_nil_iff.2 fun x hx => ?_
    rw [List.eq_of_mem_replicate (List.of_mem_zip hx).1, ofUser_atZero, ofUser_of_not_verifies hf]
    exact Bool.false_ne_true
  rw [verdicts, globalRateLimitMiddleware_eq_keyed, outputs_keyed_of_forall _ _ hkeys, outputs_append, List.zip_append
    (length_outputs _ _ _).symm, List.filter_append, hnone, run_charge rfl]
  exact List.filter_cons_of_pos (p := fun x : Arrival × Verdict => x.1.ofUser jwt userId) hg

theorem allowed_first : (invoke 120 1 none 0).1.allowed = 1 := by
  have hfull : ¬ tokensAt 120 1 (nowMs 0) none < 1 := by
    rw [tokensAt_none]
    norm_num
  show (script 120 1 (nowMs 0) none).1.allowed = 1
  rw [script_of_not_lt hfull]

/-- the attack works -/
theorem attack_denies (hf : f.verifies jwt = false) (hg : g.ofUser jwt userId = true)
    (hsame : extractIdentifier decodePayload f.request = extractIdentifier decodePayload g.request) :
    (verdicts jwt decodePayload userId (fun _ => none) (attack f g)).map (fun x => (x.1, x.2.allows)) = [(g.atZero, false)] ∧
      (verdicts jwt decodePayload userId (fun _ => none) [g.atZero]).map (fun x => (x.1, x.2.allows)) =
        [(g.atZero, true)] := by
  have halone := verdicts_attack hf hg hsame 0
  rw [List.replicate_zero, List.nil_append] at halone
  have hdenied := invoke_keyAfter_replicate (by norm_num : 1 ≤ 120) (le_refl 1) 0
  have hfirst : (invoke 120 1 (keyAfter 120 1 (List.replicate 0 0)) 0).1.allowed = 1 := allowed_first
  have htime : g.atZero.time = 0 := rfl
  rw [attack, verdicts_attack hf hg hsame 120, halone, List.map_singleton, List.map_singleton, allows_charge _ rfl,
    allows_charge _ rfl, htime, hdenied, hfirst]
  exact ⟨rfl, rfl⟩

end Attack

/-- **Foreign requests do not matter exactly if none of them has the identifier of a request of the user.** -/
theorem unaffected_iff (jwt : Jwt) (decodePayload : String → Option Value) (kind : Request → Bool) (userId : Snowflake) :
    Unaffected jwt decodePayload kind userId ↔ Apart jwt decodePayload kind userId := by
  constructor
  · intro h f g hkind hf hg hip hsame
    obtain ⟨hdenied, hallowed⟩ := attack_denies hf hg hsame
    have hequal := h (fun _ => none) _ _ (differInForeign_attack hkind hf hg hip)
    rw [hdenied, hallowed] at hequal
    cases hequal
  · intro hapart keys arrivals arrivals' h
    rw [verdicts_of_apart hapart h]

/-! ## A forged token -/

def header (text : String) : HeaderValue := ⟨text.toList.map fun c => c.toNat.toUInt8⟩

def visible (text : String) : Bool := text.toList.all fun c => 32 ≤ c.toNat && c.toNat < 127

theorem toStr_header {text : String} (h : visible text = true) : (header text).toStr = some text := by
  have hchars : ∀ c ∈ text.toList, 32 ≤ c.toNat ∧ c.toNat < 127 := by
    simpa [visible] using h
  have hbyte : ∀ c ∈ text.toList, c.toNat.toUInt8.toNat = c.toNat := fun c hc => by
    have := (hchars c hc).2
    rw [UInt8.toNat_ofNat']
    omega
  have hall : ((header text).bytes.all fun b => (32 ≤ b && b < 127) || b = 9) = true := by
    refine List.all_eq_true.2 fun b hb => ?_
    obtain ⟨c, hc, rfl⟩ := List.mem_map.1 hb
    have h1 : (32 : UInt8) ≤ c.toNat.toUInt8 := UInt8.le_iff_toNat_le.2 ((hbyte c hc).symm ▸ (hchars c hc).1)
    have h2 : c.toNat.toUInt8 < 127 := UInt8.lt_iff_toNat_lt.2 ((hbyte c hc).symm ▸ (hchars c hc).2)
    simp [h1, h2]
  have hmap : (header text).bytes.map (fun b => Char.ofNat b.toNat) = text.toList := by
    rw [header, List.map_map]
    refine (List.map_congr_left fun c hc => ?_).trans (List.map_id _)
    rw [Function.comp, hbyte c hc]
    exact Char.ofNat_toNat c
  rw [HeaderValue.toStr, if_pos hall, hmap, String.ofList_toList]

theorem visible_append {a b : String} (ha : visible a = true) (hb : visible b = true) : visible (a ++ b) = true := by
  rw [visible, String.toList_append, List.all_append]
  exact Bool.and_eq_true_iff.2 ⟨ha, hb⟩

/-- `{"alg":"HS256"}`, `{"sub":"7","exp":9,"iat":0,"jti":"j","token_type":"access"}`, signed with `secret` -/
def genuineToken : String :=
  "eyJhbGciOiJIUzI1NiJ9.eyJzdWIiOiI3IiwiZXhwIjo5LCJpYXQiOjAsImp0aSI6ImoiLCJ0b2tlbl90eXBlIjoiYWNjZXNzIn0." ++
    "ME_5gY2rBnunQGcBNJmp5egp8bO_VUpzSxbTKjV9nfk"

def genuineClaims : Claims := ⟨"7", 9, 0, "j", .access⟩

/-- `{"alg":"HS256"}`, `{"sub":"7"}`, not signed -/
def forgedToken : String := "eyJhbGciOiJIUzI1NiJ9.eyJzdWIiOiI3In0.AAAA"

def secretJwt : Jwt where
  encode claims := if claims = genuineClaims then .ok genuineToken else .error "no key"
  decode token := if token = genuineToken then some genuineClaims else none

def decodedPayload (part : String) : Option Value :=
  if part = "eyJzdWIiOiI3In0" then some (.object [("sub", .string "7")])
  else if part = "eyJzdWIiOiI3IiwiZXhwIjo5LCJpYXQiOjAsImp0aSI6ImoiLCJ0b2tlbl90eXBlIjoiYWNjZXNzIn0" then
    some (.object [("sub", .string "7"), ("exp", .int 9), ("iat", .int 0), ("jti", .string "j"),
      ("token_type", .string "access")])
  else none

def requestWith (token ip : String) : Arrival where
  request := ⟨some (header ("Bearer " ++ token)), some (header ip), none, none⟩
  clock := 0
  time := 0
  outcome := .answered

section RequestWith

variable {token : String}

theorem toStr_bearer (h : visible token = true) : (header ("Bearer " ++ token)).toStr = some ("Bearer " ++ token) :=
  toStr_header (visible_append (by decide) h)

theorem extractBearerToken_requestWith (h : visible token = true) (ip : String) :
    extractBearerToken (requestWith token ip).request = .ok token := by
  simp [extractBearerToken, requestWith, toStr_bearer h, bind, Except.bind, Str.startsWith_append]

theorem extractIdentifier_requestWith {sub : String} (h : visible token = true) (ip : String)
    (hsub : extractUserIdFromToken decodePayload token = some sub) :
    extractIdentifier decodePayload (requestWith token ip).request = "user:" ++ sub := by
  simp [extractIdentifier, requestWith, toStr_bearer h, Str.stripPrefix_append, hsub]

end RequestWith

/-- 120 requests with the forged token, and user 7 is refused -/
theorem forged_token : ¬ ∀ userId, Unaffected secretJwt decodedPayload (fun _ => true) userId := by
  intro h
  have hvisible : visible forgedToken = true := by simp [visible, forgedToken]
  have hvisible' : visible genuineToken = true := by
    refine visible_append ?_ ?_
    · simp [visible]
    · simp [visible]
  have hf : (requestWith forgedToken "10.0.0.2").verifies secretJwt = false := by
    rw [Arrival.verifies, extractBearerToken_requestWith hvisible]
    decide +kernel
  have hg : (requestWith genuineToken "10.0.0.1").ofUser secretJwt ⟨7⟩ = true := by
    rw [Arrival.ofUser, fromRequestParts, extractBearerToken_requestWith hvisible']
    decide +kernel
  have hip : extractClientIp (requestWith forgedToken "10.0.0.2").request ≠
      extractClientIp (requestWith genuineToken "10.0.0.1").request := by decide +kernel
  have hsame : extractIdentifier decodedPayload (requestWith forgedToken "10.0.0.2").request =
      extractIdentifier decodedPayload (requestWith genuineToken "10.0.0.1").request := by
    rw [extractIdentifier_requestWith hvisible _ (by decide +kernel : _ = some "7"),
      extractIdentifier_requestWith hvisible' _ (by decide +kernel : _ = some "7")]
  obtain ⟨hdenied, hallowed⟩ := attack_denies hf hg hsame
  have hequal := h ⟨7⟩ (fun _ => none) _ _ (differInForeign_attack rfl hf hg hip)
  rw [hdenied, hallowed] at hequal
  cases hequal

end Lumiere.Middleware
