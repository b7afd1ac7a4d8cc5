/-
The clients of APNs and FCM (`lumiere-push/src/apns.rs`, `fcm.rs`). A client keeps one bearer token for all its sends,
behind a read–write lock: APNs signs a JWT itself, FCM has one signed and exchanges it. A send whose token is rejected
drops the token and tries once more.

- `send`: one send, given the tokens that it gets and the answers to its requests.
- `Dead`: the answers that show a device token to be dead. `send_invalid_iff`: these and no others make a send end with
  `InvalidToken`; an answer to the second request never does.
- `token_discipline`: over every interleaving of sends, renewals and cancellations, how often a new token comes and how
  old the tokens are that requests go out under.
- `dead_tokens_leave`: the devices that a batch takes out of the store are those with an answer of this kind.
-/
import Lumiere.Core.Bearer
import Lumiere.Core.Deserialize
import Lumiere.Push.PushService

namespace Lumiere.Push

open Lumiere.Core Lumiere.Models

/-! ## Responses -/

structure Response where
  status : ℕ
  /-- `None` if the body cannot be read -/
  text : Option String
deriving DecidableEq, Repr

/-- `.text().await.unwrap_or_default()` -/
def Response.body (r : Response) : String := r.text.getD ""

def Response.isSuccess (r : Response) : Bool := decide (200 ≤ r.status ∧ r.status < 300)

/-- what becomes of a request; an error is one of the transport -/
abbrev Answer := Except String Response

/-- `body.contains(pattern)` -/
def contains (body pattern : String) : Bool := decide (pattern.toList <:+: body.toList)

def seconds (n : ℕ) : ℕ := n * 1000000000

/-- what a send is told: its first and, after a rejection, its second token, and the answers to the requests; an error
in place of a token is the message of an `ApnsError` or an `FcmError` -/
structure Told where
  token : Bool → Except String String
  answer : Bool → Answer

/-- how a send ends; `none` is a panic -/
abbrev Ended := Option (Except PushError Unit)

/-! ## FCM -/

namespace FcmClient

def tokenTtl : ℕ := seconds 3600

def tokenRefreshMargin : ℕ := seconds 600

theorem life_pos : 0 < tokenTtl - tokenRefreshMargin := Nat.sub_pos_of_lt (Nat.mul_lt_mul_of_pos_right (by simp) (by simp))

def rejects : Answer → Bool
  | .ok response => response.status = 401
  | .error _ => false

/-- `expires_at` is the time of the answer `+ TOKEN_TTL - TOKEN_REFRESH_MARGIN` -/
def policy : Bearer.Policy Answer := ⟨tokenTtl - tokenRefreshMargin, rejects, life_pos⟩

/-- `&registration_token[..8.min(registration_token.len())]`, in events and messages -/
def short (registrationToken : String) : Option String :=
  (Str.splitAtByte (min 8 registrationToken.utf8ByteSize) registrationToken).map Prod.fst

/-- the event of the status 200; `debug` says whether such events are recorded, and its fields evaluated -/
def delivered (debug : Bool) (registrationToken : String) : Ended :=
  if debug then (short registrationToken).map fun _ => .ok () else some (.ok ())

def unregistered (registrationToken : String) : Ended :=
  (short registrationToken).map fun token => .error (.invalidToken ("FCM token " ++ token ++ " is unregistered"))

/-- `FcmErrorDetail`, of which only the message is used -/
def errorDetail (json : Value) : Option (Option String) :=
  let keys := ["message", "status", "code"]
  if Deserialize.isStruct keys json then do
    let message ← Deserialize.optional keys "message" Value.asStr json
    let _ ← Deserialize.optional keys "status" Value.asStr json
    let _ ← Deserialize.optional keys "code" (Deserialize.int 0 4294967295) json
    some message
  else none

/-- `from_str::<FcmErrorResponse>(..).ok().and_then(|e| e.error).and_then(|e| e.message)` -/
def errorMessage (parse : String → Option Value) (body : String) : Option String := do
  let json ← parse body
  if Deserialize.isStruct ["error"] json then
    let error ← Deserialize.optional ["error"] "error" errorDetail json
    error.join
  else none

/-- the answer to the second request -/
def afterRetry : Answer → Except PushError Unit
  | .error e => .error (.fcmError ("Retry HTTP request failed: " ++ e))
  | .ok response =>
    if response.isSuccess then .ok ()
    else .error (.fcmError ("FCM retry failed after token refresh: " ++ response.body))

/-- the answer to the first request, unless that says 401 -/
def onResponse (debug : Bool) (parse : String → Option Value) (registrationToken : String) (response : Response) :
    Ended :=
  match response.status with
  | 200 => delivered debug registrationToken
  | 404 =>
    if contains response.body "UNREGISTERED" || contains response.body "not found" then unregistered registrationToken
    else some (.error (.fcmError ("FCM 404 error: " ++ response.body)))
  | 429 => some (.error (.fcmError "Rate limited by FCM"))
  | status =>
    if contains response.body "UNREGISTERED" then unregistered registrationToken
    else some (.error (.fcmError
      ("FCM status " ++ toString status ++ ": " ++ (errorMessage parse response.body).getD response.body)))

def send (debug : Bool) (parse : String → Option Value) (told : Told) (registrationToken : String) : Ended :=
  if registrationToken.isEmpty then some (.error (.invalidToken "FCM registration token is empty"))
  else match told.token false with
    | .error e => some (.error (.fcmError e))
    | .ok _ =>
      match told.answer false with
      | .error e => some (.error (.fcmError ("HTTP request failed: " ++ e)))
      | .ok response =>
        if response.status = 401 then
          match told.token true with
          | .error e => some (.error (.fcmError e))
          | .ok _ => some (afterRetry (told.answer true))
        else onResponse debug parse registrationToken response

/-- a response that says that the token is unregistered -/
def DeadResponse (response : Response) : Prop :=
  contains response.body "UNREGISTERED" = true ∧ response.status ∉ [200, 401, 429] ∨
    contains response.body "not found" = true ∧ response.status = 404

/-- the token is empty, or the first answer to a send with it says that it is dead -/
def Dead (told : Told) (registrationToken : String) : Prop :=
  registrationToken = "" ∨ (∃ token, told.token false = .ok token) ∧
    ∃ response, told.answer false = .ok response ∧ DeadResponse response

/-- the first answer to a send with the token says that it was delivered -/
def Delivered (told : Told) : Prop :=
  (∃ token, told.token false = .ok token) ∧ ∃ response, told.answer false = .ok response ∧ response.status = 200

end FcmClient

/-! ## APNs -/

namespace ApnsClient

def tokenTtl : ℕ := seconds 3600

def tokenRefreshMargin : ℕ := seconds 600

theorem life_pos : 0 < tokenTtl - tokenRefreshMargin := FcmClient.life_pos

def rejects : Answer → Bool
  | .ok response => response.status = 401 || response.status = 403
  | .error _ => false

def policy : Bearer.Policy Answer := ⟨tokenTtl - tokenRefreshMargin, rejects, life_pos⟩

def isAsciiHexdigit (c : Char) : Bool :=
  ('0' ≤ c && c ≤ '9') || ('a' ≤ c && c ≤ 'f') || ('A' ≤ c && c ≤ 'F')

def wellFormed (deviceToken : String) : Bool :=
  decide (deviceToken.utf8ByteSize = 64) && deviceToken.toList.all isAsciiHexdigit

/-- `from_str::<ApnsErrorBody>(..).map(|b| b.reason).unwrap_or_else(|_| body)` -/
def reason (parse : String → Option Value) (body : String) : String :=
  ((parse body).bind fun json =>
    if Deserialize.isStruct ["reason"] json then
      Deserialize.required Value.asStr (Deserialize.lookup ["reason"] "reason" json)
    else none).getD body

/-- the answer to the second request -/
def afterRetry : Answer → Except PushError Unit
  | .error e => .error (.apnsError ("HTTP request failed: " ++ e))
  | .ok response =>
    if response.isSuccess then .ok ()
    else .error (.apnsError
      ("APNs retry failed after token refresh (" ++ toString response.status ++ "): " ++ response.body))

/-- the answer to the first request, unless that says 401 or 403 -/
def onResponse (parse : String → Option Value) (deviceToken : String) (response : Response) : Ended :=
  match response.status with
  | 200 => some (.ok ())
  | 410 =>
    (Str.splitAtByte 8 deviceToken).map fun p =>
      .error (.invalidToken ("APNs token " ++ p.1 ++ " is no longer valid (410 Gone)"))
  | 400 => some (.error (.apnsError ("Bad request: " ++ reason parse response.body)))
  | 429 => some (.error (.apnsError "Rate limited by APNs"))
  | other => some (.error (.apnsError ("Unexpected APNs status " ++ toString other ++ ": " ++ response.body)))

def send (parse : String → Option Value) (told : Told) (deviceToken : String) : Ended :=
  if !wellFormed deviceToken then
    some (.error (.invalidToken
      ("APNs token must be exactly 64 hex characters, got " ++ toString deviceToken.utf8ByteSize ++ " chars")))
  else match told.token false with
    | .error e => some (.error (.apnsError e))
    | .ok _ =>
      match told.answer false with
      | .error e => some (.error (.apnsError ("HTTP request failed: " ++ e)))
      | .ok response =>
        if response.status = 401 ∨ response.status = 403 then
          match told.token true with
          | .error e => some (.error (.apnsError e))
          | .ok _ => some (afterRetry (told.answer true))
        else onResponse parse deviceToken response

/-- the token has another form, or the first answer to a send with it says that it is gone -/
def Dead (told : Told) (deviceToken : String) : Prop :=
  wellFormed deviceToken = false ∨
    (∃ token, told.token false = .ok token) ∧ ∃ response, told.answer false = .ok response ∧ response.status = 410

end ApnsClient

/-! ## When a device token is dead -/

def PushError.isInvalid : Except PushError Unit → Prop
  | .error (.invalidToken _) => True
  | _ => False

namespace FcmClient

variable {debug : Bool} {parse : String → Option Value} {told : Told} {registrationToken : String}
  {outcome : Except PushError Unit}

theorem not_isInvalid_delivered (h : delivered debug registrationToken = some outcome) :
    ¬ PushError.isInvalid outcome := by
  unfold delivered at h
  split_ifs at h
  · obtain ⟨token, -, rfl⟩ := Option.map_eq_some_iff.mp h
    exact id
  · obtain rfl := Option.some.inj h
    exact id

theorem isInvalid_unregistered (h : unregistered registrationToken = some outcome) : PushError.isInvalid outcome := by
  unfold unregistered at h
  obtain ⟨token, -, rfl⟩ := Option.map_eq_some_iff.mp h
  trivial

theorem not_isInvalid_afterRetry (answer : Answer) : ¬ PushError.isInvalid (afterRetry answer) := by
  unfold afterRetry
  cases answer with
  | error e => exact id
  | ok response =>
    simp only
    split_ifs <;> exact id

theorem onResponse_invalid_iff {response : Response} (hstatus : response.status ≠ 401)
    (h : onResponse debug parse registrationToken response = some outcome) :
    PushError.isInvalid outcome ↔ DeadResponse response := by
  unfold onResponse at h
  unfold DeadResponse
  split at h
  · rename_i hs
    simp [not_isInvalid_delivered h, hs]
  · rename_i hs
    split_ifs at h with hbody
    · simp only [isInvalid_unregistered h, hs]
      simpa using hbody
    · obtain rfl := Option.some.inj h
      simp only [Bool.or_eq_true, not_or, Bool.not_eq_true] at hbody
      simp [PushError.isInvalid, hbody.1, hbody.2]
  · rename_i hs
    obtain rfl := Option.some.inj h
    simp [PushError.isInvalid, hs]
  · rename_i h200 h404 h429
    have h200 : response.status ≠ 200 := h200
    have h404 : response.status ≠ 404 := h404
    have h429 : response.status ≠ 429 := h429
    split_ifs at h with hbody
    · simp only [isInvalid_unregistered h, hbody]
      simp [hstatus, h200, h429]
    · obtain rfl := Option.some.inj h
      simp only [Bool.not_eq_true] at hbody
      simp [PushError.isInvalid, hbody, h404]

/-- a send ends with `InvalidToken` exactly on a dead token -/
theorem send_invalid_iff (h : send debug parse told registrationToken = some outcome) :
    PushError.isInvalid outcome ↔ Dead told registrationToken := by
  unfold send at h
  unfold Dead
  split_ifs at h with hempty
  · obtain rfl := Option.some.inj h
    simp [PushError.isInvalid, String.isEmpty_iff.mp hempty]
  · have hne : registrationToken ≠ "" := fun he => hempty (String.isEmpty_iff.mpr he)
    cases htoken : told.token false with
    | error e =>
      simp only [htoken, Option.some.injEq] at h
      subst h
      simp [PushError.isInvalid, hne]
    | ok token =>
      cases hanswer : told.answer false with
      | error e =>
        simp only [htoken, hanswer, Option.some.injEq] at h
        subst h
        simp [PushError.isInvalid, hne]
      | ok response =>
        simp only [htoken, hanswer] at h
        split_ifs at h with hstatus
        · have hdead : ¬ DeadResponse response := by simp [DeadResponse, hstatus]
          cases hagain : told.token true with
          | error e =>
            simp only [hagain, Option.some.injEq] at h
            subst h
            simp [PushError.isInvalid, hne, hdead]
          | ok fresh =>
            simp only [hagain, Option.some.injEq] at h
            subst h
            simp [not_isInvalid_afterRetry, hne, hdead]
        · simp [onResponse_invalid_iff hstatus h, hne]

end FcmClient

namespace ApnsClient

variable {parse : String → Option Value} {told : Told} {deviceToken : String} {outcome : Except PushError Unit}

theorem not_isInvalid_afterRetry (answer : Answer) : ¬ PushError.isInvalid (afterRetry answer) := by
  unfold afterRetry
  cases answer with
  | error e => exact id
  | ok response =>
    simp only
    split_ifs <;> exact id

theorem onResponse_invalid_iff {response : Response} (h : onResponse parse deviceToken response = some outcome) :
    PushError.isInvalid outcome ↔ response.status = 410 := by
  unfold onResponse at h
  split at h
  case h_2 hs =>
    obtain ⟨p, -, rfl⟩ := Option.map_eq_some_iff.mp h
    simp [PushError.isInvalid, hs]
  all_goals
    obtain rfl := Option.some.inj h
    simp_all [PushError.isInvalid]

/-- a send ends with `InvalidToken` exactly on a dead token -/
theorem send_invalid_iff (h : send parse told deviceToken = some outcome) :
    PushError.isInvalid outcome ↔ Dead told deviceToken := by
  unfold send at h
  unfold Dead
  cases hformed : wellFormed deviceToken with
  | false =>
    simp only [hformed, Bool.not_false, if_true, Option.some.injEq] at h
    subst h
    simp [PushError.isInvalid]
  | true =>
    simp only [hformed, Bool.not_true, Bool.false_eq_true, if_false] at h
    cases htoken : told.token false with
    | error e =>
      simp only [htoken, Option.some.injEq] at h
      subst h
      simp [PushError.isInvalid]
    | ok token =>
      cases hanswer : told.answer false with
      | error e =>
        simp only [htoken, hanswer, Option.some.injEq] at h
        subst h
        simp [PushError.isInvalid]
      | ok response =>
        simp only [htoken, hanswer] at h
        split_ifs at h with hstatus
        · have hgone : response.status ≠ 410 := by omega
          cases hagain : told.token true with
          | error e =>
            simp only [hagain, Option.some.injEq] at h
            subst h
            simp [PushError.isInvalid, hgone]
          | ok fresh =>
            simp only [hagain, Option.some.injEq] at h
            subst h
            simp [not_isInvalid_afterRetry, hgone]
        · simp [onResponse_invalid_iff h]

end ApnsClient

/-! ## Panics -/

theorem splitChars_of_ascii {n : ℕ} {cs : List Char} (hascii : ∀ c ∈ cs, c.utf8Size = 1) (hn : n ≤ cs.length) :
    Str.splitChars n cs = some (cs.take n, cs.drop n) := by
  induction cs generalizing n with
  | nil =>
    obtain rfl : n = 0 := Nat.le_zero.mp hn
    rfl
  | cons c cs ih =>
    cases n with
    | zero => rfl
    | succ n =>
      have hrest := ih (fun d hd => hascii d (List.mem_cons_of_mem c hd)) (Nat.le_of_succ_le_succ hn)
      have hone := hascii c List.mem_cons_self
      unfold Str.splitChars
      rw [if_pos (by omega), hone, Nat.add_sub_cancel, hrest]
      rfl

theorem utf8ByteSize_of_ascii {cs : List Char} (hascii : ∀ c ∈ cs, c.utf8Size = 1) :
    (String.ofList cs).utf8ByteSize = cs.length := by
  induction cs with
  | nil => rfl
  | cons c cs ih =>
    rw [Str.utf8ByteSize_ofList_cons, hascii c List.mem_cons_self, ih fun d hd => hascii d (List.mem_cons_of_mem c hd),
      List.length_cons, Nat.add_comm]

theorem utf8Size_of_hexdigit {c : Char} (h : ApnsClient.isAsciiHexdigit c = true) : c.utf8Size = 1 := by
  rw [Char.utf8Size_eq_one_iff]
  simp only [ApnsClient.isAsciiHexdigit, Bool.or_eq_true, Bool.and_eq_true, decide_eq_true_eq, Char.le_def] at h
  have hbound : c.val.toNat ≤ 127 := by
    rcases h with (⟨-, h⟩ | ⟨-, h⟩) | ⟨-, h⟩ <;> exact Nat.le_trans (UInt32.le_iff_toNat_le.mp h) (by decide)
  exact UInt32.le_iff_toNat_le.mpr hbound

/-- a token of 64 digits can be cut at any byte -/
theorem ApnsClient.send_isSome (parse : String → Option Value) (told : Told) (deviceToken : String) :
    (ApnsClient.send parse told deviceToken).isSome = true := by
  unfold ApnsClient.send
  cases hformed : ApnsClient.wellFormed deviceToken with
  | false => rfl
  | true =>
    simp only [ApnsClient.wellFormed, Bool.and_eq_true, decide_eq_true_eq, List.all_eq_true] at hformed
    obtain ⟨hsize, hdigits⟩ := hformed
    have hascii : ∀ c ∈ deviceToken.toList, c.utf8Size = 1 := fun c hc => utf8Size_of_hexdigit (hdigits c hc)
    have hlength : deviceToken.toList.length = 64 := by
      rw [← utf8ByteSize_of_ascii hascii, String.ofList_toList, hsize]
    have hcut : (Str.splitAtByte 8 deviceToken).isSome = true := by
      unfold Str.splitAtByte
      rw [splitChars_of_ascii hascii (by omega)]
      rfl
    simp only [Bool.not_true, Bool.false_eq_true, if_false]
    cases told.token false with
    | error e => rfl
    | ok token =>
      cases told.answer false with
      | error e => rfl
      | ok response =>
        simp only
        split_ifs
        · cases told.token true <;> rfl
        · unfold ApnsClient.onResponse
          split <;> simp [hcut]

namespace FcmClient

variable {debug : Bool} {parse : String → Option Value} {told : Told} {registrationToken : String}

theorem delivered_eq_none_iff :
    delivered debug registrationToken = none ↔ debug = true ∧ short registrationToken = none := by
  cases debug <;> simp [delivered]

theorem unregistered_eq_none_iff : unregistered registrationToken = none ↔ short registrationToken = none := by
  unfold unregistered
  exact Option.map_eq_none_iff

theorem onResponse_eq_none_iff {response : Response} (hstatus : response.status ≠ 401) :
    onResponse debug parse registrationToken response = none ↔
      (DeadResponse response ∨ debug = true ∧ response.status = 200) ∧ short registrationToken = none := by
  unfold onResponse DeadResponse
  split
  · rename_i hs
    simp [delivered_eq_none_iff, hs]
  · rename_i hs
    split_ifs with hbody
    · simp only [unregistered_eq_none_iff, hs]
      simpa using fun _ => hbody
    · simp only [Bool.or_eq_true, not_or, Bool.not_eq_true] at hbody
      simp [hbody.1, hbody.2, hs]
  · rename_i hs
    simp [hs]
  · rename_i h200 h404 h429
    have h200 : response.status ≠ 200 := h200
    have h404 : response.status ≠ 404 := h404
    have h429 : response.status ≠ 429 := h429
    split_ifs with hbody
    · simp [unregistered_eq_none_iff, hbody, hstatus, h200, h429]
    · simp only [Bool.not_eq_true] at hbody
      simp [hbody, h200, h404]

/-- a send panics exactly if the token cannot be cut at its eighth byte and has to be: for it is dead, or for the event that
it was delivered is recorded -/
theorem send_eq_none_iff :
    send debug parse told registrationToken = none ↔ registrationToken ≠ "" ∧
      (Dead told registrationToken ∨ debug = true ∧ Delivered told) ∧ short registrationToken = none := by
  unfold send Dead Delivered
  split_ifs with hempty
  · simp [String.isEmpty_iff.mp hempty]
  · have hne : registrationToken ≠ "" := fun he => hempty (String.isEmpty_iff.mpr he)
    cases htoken : told.token false with
    | error e => simp [hne]
    | ok token =>
      cases hanswer : told.answer false with
      | error e => simp [hne]
      | ok response =>
        simp only
        split_ifs with hstatus
        · have hdead : ¬ DeadResponse response := by simp [DeadResponse, hstatus]
          cases told.token true <;> simp [hne, hdead, hstatus]
        · simp [onResponse_eq_none_iff hstatus, hne]

end FcmClient

/-! ## Batches -/

/-- the policy of the client for a platform -/
def Platform.policy : Platform → Bearer.Policy Answer
  | .ios => ApnsClient.policy
  | .android => FcmClient.policy

def Platform.send (debug : Bool) (parse : String → Option Value) (told : Told) (token : String) : Platform → Ended
  | .ios => ApnsClient.send parse told token
  | .android => FcmClient.send debug parse told token

def Platform.Dead (told : Told) (token : String) : Platform → Prop
  | .ios => ApnsClient.Dead told token
  | .android => FcmClient.Dead told token

namespace PushService

def configured (p : PushService) : Platform → Bool
  | .ios => p.apns.isSome
  | .android => p.fcm.isSome

/-- the clients answered the attempts as they were told, without a panic -/
def Follows (p : PushService) (debug : Bool) (parse : String → Option Value) (told : ℕ → Told)
    (attempts : List Attempt) : Prop :=
  ∀ (i : ℕ) (a : Attempt), attempts[i]? = some a → p.configured a.device.platform = true →
    a.device.platform.send debug parse (told i) a.device.token = some a.outcome

/-- some attempt with this token, by a client that is configured, was told that it is dead -/
def FoundDead (p : PushService) (told : ℕ → Told) (attempts : List Attempt) (token : String) : Prop :=
  ∃ (i : ℕ) (a : Attempt), attempts[i]? = some a ∧ a.device.token = token ∧ p.configured a.device.platform = true ∧
    a.device.platform.Dead (told i) token

theorem sendToDevice_of_not_configured {p : PushService} {device : DeviceToken}
    (h : p.configured device.platform = false) (n : ℕ) (notification : PushNotification) :
    p.sendToDevice n device notification = .error (.platformNotConfigured device.platform) := by
  unfold sendToDevice
  cases hplatform : device.platform with
  | ios =>
    rw [hplatform] at h
    simp only [Option.isSome_eq_false_iff.mp h |> Option.isNone_iff_eq_none.mp]
  | android =>
    rw [hplatform] at h
    simp only [Option.isSome_eq_false_iff.mp h |> Option.isNone_iff_eq_none.mp]

end PushService

theorem Attempt.invalid_iff (a : Attempt) : a.invalid = true ↔ PushError.isInvalid a.outcome := by
  unfold Attempt.invalid PushError.isInvalid
  cases a.outcome with
  | ok u => simp
  | error e => cases e <;> simp

theorem send_invalid_iff {debug : Bool} {parse : String → Option Value} {told : Told} {token : String}
    {platform : Platform} {outcome : Except PushError Unit} (h : platform.send debug parse told token = some outcome) :
    PushError.isInvalid outcome ↔ platform.Dead told token := by
  cases platform with
  | ios => exact ApnsClient.send_invalid_iff h
  | android => exact FcmClient.send_invalid_iff h

/-- **Devices leave the store for dead tokens alone.** In a batch in which no send panics, a device stays exactly if no
attempt with its token, by a client that is configured, found that it is empty or malformed or was first answered that
it is dead; other errors and the answers to repeated requests take nothing away. -/
theorem dead_tokens_leave (p : PushService) (debug : Bool) (parse : String → Option Value) (told : ℕ → Told)
    (tokens : DeviceTokenStore) (userIds : List Snowflake) (notification : PushNotification)
    (hfollows : p.Follows debug parse told (p.sendToUsers tokens userIds notification).2.attempts) :
    let s := (p.sendToUsers tokens userIds notification).2
    ∀ userId d, d ∈ s.tokens.getTokens userId ↔
      d ∈ tokens.getTokens userId ∧ ¬ p.FoundDead told s.attempts d.token := by
  intro s userId d
  obtain ⟨⟨n, hsent⟩, -⟩ := sent_batch p tokens userIds notification
  have houtcomes : ∀ (i : ℕ) (a : Attempt), s.attempts[i]? = some a →
      a.outcome = p.sendToDevice i a.device notification := by
    intro i a hi
    have hout := hsent.outcomes i a hi
    rwa [List.length_nil, Nat.zero_add] at hout
  have hmem : d.token ∈ invalidTokens s.attempts ↔ p.FoundDead told s.attempts d.token := by
    unfold invalidTokens PushService.FoundDead
    rw [List.mem_map]
    constructor
    · intro h
      obtain ⟨a, ha, htoken⟩ := h
      obtain ⟨hmem, hinvalid⟩ := List.mem_filter.mp ha
      obtain ⟨i, hi⟩ := List.mem_iff_getElem?.mp hmem
      rw [Attempt.invalid_iff] at hinvalid
      cases hconfigured : p.configured a.device.platform with
      | false =>
        rw [houtcomes i a hi, PushService.sendToDevice_of_not_configured hconfigured] at hinvalid
        cases hinvalid
      | true => exact ⟨i, a, hi, htoken, hconfigured, htoken ▸ (send_invalid_iff (hfollows i a hi hconfigured)).mp hinvalid⟩
    · intro h
      obtain ⟨i, a, hi, htoken, hconfigured, hdead⟩ := h
      refine ⟨a, List.mem_filter.mpr ⟨List.mem_of_getElem? hi, ?_⟩, htoken⟩
      rw [Attempt.invalid_iff, send_invalid_iff (hfollows i a hi hconfigured), htoken]
      exact hdead
  have hs : s.tokens = tokens.without (invalidTokens s.attempts) := hsent.tokens
  rw [hs, getTokens_without, List.mem_filter, ← hmem]
  simp

/-- one Android device each of two users, and FCM, which knows the token of the first no more -/
def twoPhones : DeviceTokenStore := (DeviceTokenStore.new.register (phone 7 "old" .android)).register (phone 8 "new" .android)

def gone : ℕ → Told
  | 0 => ⟨fun _ => .ok "bearer", fun _ => .ok ⟨404, some "UNREGISTERED"⟩⟩
  | _ => ⟨fun _ => .ok "bearer", fun _ => .ok ⟨200, none⟩⟩

def answering : PushService :=
  ⟨none, some fun n token _ => (FcmClient.send true (fun _ => none) (gone n) token).getD (.error (.fcmError ""))⟩

theorem dead_token_leaves :
    let s := (answering.sendToUsers twoPhones [.ofI64 7, .ofI64 8] ⟨"title", "body", [], none, none, none⟩).2
    ∀ userId d, d ∈ s.tokens.getTokens userId ↔
      d ∈ twoPhones.getTokens userId ∧ ¬ answering.FoundDead gone s.attempts d.token := by
  refine dead_tokens_leave answering true (fun _ => none) gone twoPhones _ _ ?_
  have hattempts : (answering.sendToUsers twoPhones [.ofI64 7, .ofI64 8] ⟨"title", "body", [], none, none, none⟩).2.attempts =
      [⟨phone 7 "old" .android, .error (.invalidToken "FCM token old is unregistered")⟩, ⟨phone 8 "new" .android, .ok ()⟩] := by
    decide +kernel
  rw [hattempts]
  intro i a ha _
  rcases i with _ | _ | i
  · obtain rfl := Option.some.inj ha
    decide +kernel
  · obtain rfl := Option.some.inj ha
    decide +kernel
  · cases ha

/-! ## Bearer tokens -/

/-- **Tokens are renewed rarely and used while they are fresh.** In every interleaving of sends through one client, new
tokens come at most once in each 3000 seconds that have begun, and once for each answer that rejected a token; a request
goes out under a token that came less than 3000 seconds before, so less than its 3600 seconds after it was asked for, if
the issuer took at most 600; and the second request of a send under one that came after the send dropped the first. How
often the issuer is asked in vain is not bounded. -/
theorem token_discipline {ι : Type} [DecidableEq ι] (platform : Platform) (t₀ : ℕ)
    (ops : List (Bearer.Op ι String Answer String)) :
    let s := run (Bearer.step platform.policy) (Bearer.init t₀) ops
    seconds 3000 * s.renewals ≤ (s.now - t₀) + seconds 3000 * (1 + s.rejections.length) ∧
      ∀ h ∈ s.handouts, ∃ newer older asked stored,
        s.changes = newer ++ .renewed asked stored h.token :: older ∧
          stored ≤ h.time ∧ h.time < stored + seconds 3000 ∧
          (stored ≤ asked + seconds 600 → h.time < asked + seconds 3600) ∧
          (h.retry = true → h.caller ∈ Bearer.droppers older) := by
  intro s
  have hlife : platform.policy.life = seconds 3000 := by cases platform <;> rfl
  refine ⟨hlife ▸ Bearer.renewals_le platform.policy t₀ ops, ?_⟩
  intro h hh
  obtain ⟨newer, older, asked, stored, hchanges, hstored, htime, hretry⟩ := Bearer.run_handed platform.policy t₀ ops h hh
  rw [hlife] at htime
  refine ⟨newer, older, asked, stored, hchanges, hstored, htime, ?_, hretry⟩
  intro hquick
  have hsum : seconds 600 + seconds 3000 = seconds 3600 := rfl
  omega

/-- of two sends, the first has its token rejected and goes on under a new one, which the second finds -/
def rejectedTrace : List (Bearer.Op (Fin 2) String Answer String) :=
  [.advance 0, .advance 0, .advance 0, .issued 0 (.ok "old"), .answered 0 (.ok ⟨401, none⟩), .advance 0, .advance 0,
    .advance 0, .advance 0, .issued 0 (.ok "new"), .answered 0 (.ok ⟨200, none⟩), .tick 1000, .advance 1,
    .answered 1 (.ok ⟨200, none⟩)]

theorem token_discipline_rejected :
    let s := run (Bearer.step Platform.android.policy) (Bearer.init 0) rejectedTrace
    s.renewals = 2 ∧ s.rejections.length = 1 ∧
      seconds 3000 * s.renewals ≤ (s.now - 0) + seconds 3000 * (1 + s.rejections.length) :=
  ⟨by decide, by decide, (token_discipline .android 0 rejectedTrace).1⟩

end Lumiere.Push
