/-
The login handler and what it keeps in Redis for an address (`login` in routes/auth.rs, `is_login_blocked`,
`record_login_failure` and `clear_login_failures` in middleware/rate_limit.rs): a count of failures that expires, and a
block. Both keys contain the address, so those of other addresses are not touched.

The database at the moment of an attempt, the verification of a password hash and the tokens of a successful login are
parameters. Times are seconds on Redis' clock.

- `login_cases`: what one attempt does. `toLockout_login`: it is a step of the lockout of `Core/Lockout.lean`.
- `login_guessing_bound`: at most 19 failures are recorded in half an hour, and the other attempts whose credentials
  would be judged are refused.
-/
import Lumiere.Core.Lockout
import Lumiere.Core.Str
import Lumiere.Models.Error
import Mathlib.Data.Rat.Defs
import Mathlib.Algebra.Order.Ring.Rat

namespace Lumiere.Routes

open Lumiere.Core Lumiere.Models

/-! ## The keys of an address -/

structure IpKeys where
  /-- `ip_fail:{ip}`: the count and when it expires -/
  fail : Option (ℕ × ℚ)
  /-- `ip_block:{ip}`: when it expires -/
  block : Option ℚ
deriving DecidableEq, Repr

def IpKeys.empty : IpKeys := ⟨none, none⟩

def loginFailMax : ℕ := 10

def loginBlockSeconds : ℚ := 1800

def isLoginBlocked (now : ℚ) (keys : IpKeys) : Bool := (keys.block.filter fun expires => now < expires).isSome

/-- `LOGIN_FAILURE_SCRIPT`: the key after it -/
def loginFailureScript (seconds now : ℚ) (fail : Option (ℕ × ℚ)) : ℕ × ℚ :=
  match fail.filter fun f => now < f.2 with
  -- `count == 1`: the window begins
  | none => (1, now + seconds)
  | some (count, expires) => (count + 1, expires)

def recordLoginFailure (recordedAt blockedAt : ℚ) (keys : IpKeys) : IpKeys :=
  let (count, expires) := loginFailureScript loginBlockSeconds recordedAt keys.fail
  { fail := some (count, expires)
    block := if loginFailMax ≤ count then some (blockedAt + loginBlockSeconds) else keys.block }

def clearLoginFailures (keys : IpKeys) : IpKeys := { keys with fail := none }

/-! ## The handler -/

structure LoginRequest where
  email : String
  password : String
deriving DecidableEq, Repr

structure UserRow where
  id : ℤ
  username : String
  passwordHash : String
  avatar : Option String
  bio : Option String
  createdAt : ℤ
deriving DecidableEq, Repr

structure UserResponse where
  id : ℤ
  username : String
  email : String
  avatar : Option String
  bio : Option String
  createdAt : ℤ
deriving DecidableEq, Repr

structure LoginResponse where
  user : UserResponse
  accessToken : String
  refreshToken : String
deriving DecidableEq, Repr

/-- a request and what it finds; the clock stands at `recordedAt` when a failure is counted, and at `blockedAt` when that
starts a block -/
structure LoginAttempt where
  /-- `none` is a body that is no `LoginRequest` -/
  body : Option LoginRequest
  findUser : String → Except String (Option UserRow)
  issueTokens : UserRow → Except AppError (String × String)
  checkedAt : ℚ
  recordedAt : ℚ
  blockedAt : ℚ
  checked_le : checkedAt ≤ recordedAt
  recorded_le : recordedAt ≤ blockedAt

section Handler

variable (toLowercase : String → String) (verifyPassword : String → String → Except String Bool)

def login (a : LoginAttempt) (keys : IpKeys) : Except AppError LoginResponse × IpKeys :=
  if isLoginBlocked a.checkedAt keys then (.error (.rateLimited 1800), keys)
  else
    match a.body with
    | none => (.error (.badRequest "Invalid request body"), keys)
    | some body =>
      let email := Str.trim (toLowercase body.email)
      match a.findUser email with
      | .error e => (.error (.internal e), keys)
      | .ok none =>
        (.error (.unauthorized "Invalid email or password"), recordLoginFailure a.recordedAt a.blockedAt keys)
      | .ok (some row) =>
        match verifyPassword body.password row.passwordHash with
        | .error e => (.error (.internal e), keys)
        | .ok false =>
          (.error (.unauthorized "Invalid email or password"), recordLoginFailure a.recordedAt a.blockedAt keys)
        | .ok true =>
          let response := (a.issueTokens row).map fun (accessToken, refreshToken) =>
            ⟨⟨row.id, row.username, email, row.avatar, row.bio, row.createdAt⟩, accessToken, refreshToken⟩
          (response, clearLoginFailures keys)

/-- whether the credentials are right; `none` where the handler ends before it knows -/
def LoginAttempt.judged (a : LoginAttempt) : Option Bool :=
  a.body.bind fun body =>
    match a.findUser (Str.trim (toLowercase body.email)) with
    | .error _ => none
    | .ok none => some false
    | .ok (some row) => (verifyPassword body.password row.passwordHash).toOption

/-- the attempt is recorded as a failure -/
def Recorded (keys : IpKeys) (a : LoginAttempt) : Prop :=
  isLoginBlocked a.checkedAt keys = false ∧ a.judged toLowercase verifyPassword = some false

instance (keys : IpKeys) (a : LoginAttempt) : Decidable (Recorded toLowercase verifyPassword keys a) :=
  inferInstanceAs (Decidable (_ ∧ _))

/-- the attempts of a run that are recorded -/
def recorded : IpKeys → List LoginAttempt → List LoginAttempt
  | _, [] => []
  | keys, a :: as =>
    if Recorded toLowercase verifyPassword keys a then a :: recorded (login toLowercase verifyPassword a keys).2 as
    else recorded (login toLowercase verifyPassword a keys).2 as

/-- the keys after a run -/
def keysAfter (keys : IpKeys) (as : List LoginAttempt) : IpKeys :=
  run (fun keys a => (login toLowercase verifyPassword a keys).2) keys as

end Handler

/-! ## One attempt -/

variable {toLowercase : String → String} {verifyPassword : String → String → Except String Bool} {keys : IpKeys}
  {a : LoginAttempt}

theorem login_of_blocked (h : isLoginBlocked a.checkedAt keys = true) :
    login toLowercase verifyPassword a keys = (.error (.rateLimited 1800), keys) :=
  if_pos h

variable (toLowercase verifyPassword) in
/-- **What an attempt does** that is not refused. -/
theorem login_cases (h : isLoginBlocked a.checkedAt keys = false) :
    match a.judged toLowercase verifyPassword with
    | none => ∃ e, (e = .badRequest "Invalid request body" ∨ ∃ message, e = .internal message) ∧
        login toLowercase verifyPassword a keys = (.error e, keys)
    | some false => login toLowercase verifyPassword a keys =
        (.error (.unauthorized "Invalid email or password"), recordLoginFailure a.recordedAt a.blockedAt keys)
    | some true => ∃ response, login toLowercase verifyPassword a keys = (response, clearLoginFailures keys) := by
  unfold login LoginAttempt.judged
  rw [h, if_neg Bool.false_ne_true]
  cases hbody : a.body with
  | none => exact ⟨_, .inl rfl, rfl⟩
  | some body =>
    dsimp only [Option.bind_some]
    cases hfound : a.findUser (Str.trim (toLowercase body.email)) with
    | error e => exact ⟨_, .inr ⟨e, rfl⟩, rfl⟩
    | ok row =>
      cases row with
      | none => rfl
      | some row =>
        dsimp only
        cases hverify : verifyPassword body.password row.passwordHash with
        | error e => exact ⟨_, .inr ⟨e, rfl⟩, rfl⟩
        | ok valid =>
          cases valid with
          | false => rfl
          | true => exact ⟨_, rfl⟩

theorem login_of_recorded (h : Recorded toLowercase verifyPassword keys a) : login toLowercase verifyPassword a keys =
    (.error (.unauthorized "Invalid email or password"), recordLoginFailure a.recordedAt a.blockedAt keys) := by
  have hcases := login_cases toLowercase verifyPassword h.1
  rw [h.2] at hcases
  exact hcases

/-! ## The lockout -/

def loginPolicy : Lockout.Policy ℚ := ⟨loginFailMax, loginBlockSeconds, by decide, by norm_num [loginBlockSeconds]⟩

def IpKeys.toLockout (keys : IpKeys) : Lockout ℚ := ⟨keys.fail, keys.block⟩

variable (toLowercase verifyPassword) in
def LoginAttempt.toAttempt (a : LoginAttempt) : Lockout.Attempt ℚ :=
  ⟨a.checkedAt, a.recordedAt, a.blockedAt, a.judged toLowercase verifyPassword = some false, a.checked_le, a.recorded_le⟩

theorem blocked_toLockout (now : ℚ) : keys.toLockout.blocked now = isLoginBlocked now keys := by
  unfold Lockout.blocked isLoginBlocked IpKeys.toLockout
  cases hb : keys.block with
  | none => rfl
  | some expires =>
    by_cases h : now < expires <;> simp [Option.filter, h]

theorem toLockout_recordLoginFailure (recordedAt blockedAt : ℚ) :
    (recordLoginFailure recordedAt blockedAt keys).toLockout = keys.toLockout.failure loginPolicy recordedAt blockedAt := by
  unfold recordLoginFailure loginFailureScript Lockout.failure IpKeys.toLockout
  cases keys.fail.filter fun f => decide (recordedAt < f.2) with
  | none => rfl
  | some f => rfl

theorem admits_iff : keys.toLockout.admits (a.toAttempt toLowercase verifyPassword) = true ↔
    Recorded toLowercase verifyPassword keys a := by
  unfold Lockout.admits
  rw [blocked_toLockout]
  simp [Recorded, LoginAttempt.toAttempt]

/-- **An attempt that does not succeed is a step of the lockout.** -/
theorem toLockout_login (h : a.judged toLowercase verifyPassword ≠ some true) :
    (login toLowercase verifyPassword a keys).2.toLockout =
      keys.toLockout.step loginPolicy (a.toAttempt toLowercase verifyPassword) := by
  unfold Lockout.step
  split_ifs with hadmits
  · rw [login_of_recorded (admits_iff.1 hadmits)]
    exact toLockout_recordLoginFailure _ _
  · have hrecorded := fun hr => hadmits (admits_iff.2 hr)
    cases hblocked : isLoginBlocked a.checkedAt keys with
    | true => rw [login_of_blocked hblocked]
    | false =>
      have hcases := login_cases toLowercase verifyPassword hblocked
      cases hjudged : a.judged toLowercase verifyPassword with
      | none =>
        rw [hjudged] at hcases
        obtain ⟨e, -, hlogin⟩ := hcases
        rw [hlogin]
      | some valid =>
        cases valid with
        | false => exact absurd ⟨hblocked, hjudged⟩ hrecorded
        | true => exact absurd hjudged h

/-- a success clears the count, and nothing else -/
theorem toLockout_login_of_success (keys : IpKeys) (h : a.judged toLowercase verifyPassword = some true) :
    (login toLowercase verifyPassword a keys).2.toLockout = keys.toLockout ∨
      (login toLowercase verifyPassword a keys).2.toLockout = ⟨none, keys.toLockout.blockedUntil⟩ := by
  cases hblocked : isLoginBlocked a.checkedAt keys with
  | true => exact .inl (by rw [login_of_blocked hblocked])
  | false =>
    have hcases := login_cases toLowercase verifyPassword hblocked
    rw [h] at hcases
    obtain ⟨response, hlogin⟩ := hcases
    exact .inr (by rw [hlogin]; rfl)

theorem valid_login {now : ℚ} (h : keys.toLockout.Valid loginPolicy now) (hnow : now ≤ a.checkedAt) :
    (login toLowercase verifyPassword a keys).2.toLockout.Valid loginPolicy a.blockedAt := by
  by_cases hsuccess : a.judged toLowercase verifyPassword = some true
  · rcases toLockout_login_of_success keys hsuccess with hlogin | hlogin
    · rw [hlogin]
      exact h.mono (hnow.trans (a.checked_le.trans a.recorded_le))
    · rw [hlogin]
      exact Lockout.Valid.none
  · rw [toLockout_login hsuccess]
    exact Lockout.valid_step (a := a.toAttempt toLowercase verifyPassword) h hnow

theorem map_recorded {as : List LoginAttempt} (h : ∀ a ∈ as, a.judged toLowercase verifyPassword ≠ some true) :
    (recorded toLowercase verifyPassword keys as).map (LoginAttempt.toAttempt toLowercase verifyPassword) =
      keys.toLockout.admitted loginPolicy (as.map (LoginAttempt.toAttempt toLowercase verifyPassword)) := by
  induction as generalizing keys with
  | nil => rfl
  | cons a as ih =>
    have hrest := @ih (login toLowercase verifyPassword a keys).2 fun a ha => h a (List.mem_cons_of_mem _ ha)
    rw [toLockout_login (h a List.mem_cons_self)] at hrest
    rw [recorded, List.map_cons, Lockout.admitted]
    by_cases hrecorded : Recorded toLowercase verifyPassword keys a
    · rw [if_pos hrecorded, if_pos (admits_iff.2 hrecorded), List.map_cons, hrest]
    · rw [if_neg hrecorded, if_neg (fun hadmits => hrecorded (admits_iff.1 hadmits)), hrest]

/-! ## Runs -/

/-- one after the other -/
def InTurn (as : List LoginAttempt) : Prop := as.Pairwise fun a b => a.blockedAt ≤ b.checkedAt

instance (as : List LoginAttempt) : Decidable (InTurn as) :=
  inferInstanceAs (Decidable (as.Pairwise fun a b => a.blockedAt ≤ b.checkedAt))

theorem exists_le_checkedAt (as : List LoginAttempt) : ∃ now : ℚ, ∀ a ∈ as, now ≤ a.checkedAt := by
  induction as with
  | nil => exact ⟨0, fun a ha => absurd ha List.not_mem_nil⟩
  | cons a as ih =>
    obtain ⟨now, hnow⟩ := ih
    refine ⟨min a.checkedAt now, fun b hb => ?_⟩
    rcases List.mem_cons.1 hb with rfl | hb
    · exact min_le_left _ _
    · exact (min_le_right _ _).trans (hnow b hb)

variable (toLowercase verifyPassword) in
theorem sequential_of_inTurn {now : ℚ} {as : List LoginAttempt} (h : InTurn as) (hnow : ∀ a ∈ as, now ≤ a.checkedAt) :
    Lockout.Sequential now (as.map (LoginAttempt.toAttempt toLowercase verifyPassword)) := by
  induction as generalizing now with
  | nil => trivial
  | cons a as ih =>
    obtain ⟨hfirst, hrest⟩ := List.pairwise_cons.1 h
    exact ⟨hnow a List.mem_cons_self, ih hrest hfirst⟩

variable (toLowercase verifyPassword) in
/-- the keys are valid as of a time before all that follows -/
theorem valid_keysAfter {now : ℚ} {earlier later : List LoginAttempt} (hvalid : keys.toLockout.Valid loginPolicy now)
    (h : InTurn (earlier ++ later)) (hnow : ∀ a ∈ earlier ++ later, now ≤ a.checkedAt) :
    ∃ now', (keysAfter toLowercase verifyPassword keys earlier).toLockout.Valid loginPolicy now' ∧
      ∀ a ∈ later, now' ≤ a.checkedAt := by
  induction earlier generalizing keys now with
  | nil => exact ⟨now, hvalid, hnow⟩
  | cons a earlier ih =>
    rw [List.cons_append] at h hnow
    obtain ⟨hfirst, hrest⟩ := List.pairwise_cons.1 h
    exact ih (valid_login hvalid (hnow a List.mem_cons_self)) hrest hfirst

/-- sharper than what is asked for: 8 failures in one window, then 10 in the next -/
theorem recorded_le {earlier attempts : List LoginAttempt} (h : InTurn (earlier ++ attempts))
    (hfail : ∀ a ∈ attempts, a.judged toLowercase verifyPassword ≠ some true) (start : ℚ) :
    ((recorded toLowercase verifyPassword (keysAfter toLowercase verifyPassword .empty earlier) attempts).filter fun a =>
      start ≤ a.recordedAt ∧ a.recordedAt < start + 1800).length ≤ 18 := by
  obtain ⟨now, hnow⟩ := exists_le_checkedAt (earlier ++ attempts)
  have hempty : IpKeys.empty.toLockout.Valid loginPolicy now := Lockout.Valid.none (s := IpKeys.empty.toLockout)
  obtain ⟨now', hvalid, hnow'⟩ := valid_keysAfter toLowercase verifyPassword hempty h hnow
  have hseq := sequential_of_inTurn toLowercase verifyPassword (List.pairwise_append.1 h).2.1 hnow'
  have hbound := Lockout.admitted_le hvalid hseq start
  rw [← map_recorded hfail, Lockout.countFrom, List.filter_map, List.length_map] at hbound
  exact hbound

/-- what becomes of an attempt whose credentials are not accepted -/
theorem outcome_of_failure (h : a.judged toLowercase verifyPassword ≠ some true) :
    (Recorded toLowercase verifyPassword keys a ∧ login toLowercase verifyPassword a keys =
      (.error (.unauthorized "Invalid email or password"), recordLoginFailure a.recordedAt a.blockedAt keys)) ∨
    (isLoginBlocked a.checkedAt keys = true ∧
      login toLowercase verifyPassword a keys = (.error (.rateLimited 1800), keys)) ∨
    (a.judged toLowercase verifyPassword = none ∧
      ∃ e, (e = .badRequest "Invalid request body" ∨ ∃ message, e = .internal message) ∧
        login toLowercase verifyPassword a keys = (.error e, keys)) := by
  cases hblocked : isLoginBlocked a.checkedAt keys with
  | true => exact .inr (.inl ⟨rfl, login_of_blocked hblocked⟩)
  | false =>
    cases hjudged : a.judged toLowercase verifyPassword with
    | none =>
      have hcases := login_cases toLowercase verifyPassword hblocked
      rw [hjudged] at hcases
      exact .inr (.inr ⟨rfl, hcases⟩)
    | some valid =>
      cases valid with
      | false => exact .inl ⟨⟨hblocked, hjudged⟩, login_of_recorded ⟨hblocked, hjudged⟩⟩
      | true => exact absurd hjudged h

/-- **The login guessing bound.** After whatever attempts came earlier, in a run of attempts without success at most 19
are recorded in any half-open interval of 1800 seconds; every other attempt is refused by the block, or ends before its
credentials are judged. -/
theorem login_guessing_bound (toLowercase : String → String) (verifyPassword : String → String → Except String Bool)
    (earlier attempts : List LoginAttempt) (hturn : InTurn (earlier ++ attempts))
    (hfail : ∀ a ∈ attempts, a.judged toLowercase verifyPassword ≠ some true) :
    (∀ start : ℚ, ((recorded toLowercase verifyPassword (keysAfter toLowercase verifyPassword .empty earlier)
      attempts).filter fun a => start ≤ a.recordedAt ∧ a.recordedAt < start + 1800).length ≤ 19) ∧
    Every (fun keys a => (login toLowercase verifyPassword a keys).2)
      (fun keys a =>
        (Recorded toLowercase verifyPassword keys a ∧ login toLowercase verifyPassword a keys =
          (.error (.unauthorized "Invalid email or password"), recordLoginFailure a.recordedAt a.blockedAt keys)) ∨
        (isLoginBlocked a.checkedAt keys = true ∧
          login toLowercase verifyPassword a keys = (.error (.rateLimited 1800), keys)) ∨
        (a.judged toLowercase verifyPassword = none ∧
          ∃ e, (e = .badRequest "Invalid request body" ∨ ∃ message, e = .internal message) ∧
            login toLowercase verifyPassword a keys = (.error e, keys)))
      (keysAfter toLowercase verifyPassword .empty earlier) attempts := by
  refine ⟨fun start => (recorded_le hturn hfail start).trans (by decide), ?_⟩
  exact (every_of_forall hfail).mono fun keys a h => outcome_of_failure h

/-- an attempt at a time, on a database without users -/
def strangerAt (time : ℚ) (body : Option LoginRequest) : LoginAttempt :=
  ⟨body, fun _ => .ok none, fun _ => .error (.internal ""), time, time, time, le_rfl, le_rfl⟩

theorem login_guessing_bound_twice : ∃ attempts : List LoginAttempt, InTurn ([] ++ attempts) ∧
    (∀ a ∈ attempts, a.judged id (fun _ _ => .ok false) ≠ some true) ∧
    ∀ start : ℚ, ((recorded id (fun _ _ => .ok false) (keysAfter id (fun _ _ => .ok false) .empty [])
      attempts).filter fun a => start ≤ a.recordedAt ∧ a.recordedAt < start + 1800).length ≤ 19 :=
  have hturn : InTurn ([] ++ [strangerAt 0 (some ⟨"a@b.c", "x"⟩), strangerAt 1 (some ⟨"a@b.c", "y"⟩)]) := by decide
  have hfail : ∀ a ∈ [strangerAt 0 (some ⟨"a@b.c", "x"⟩), strangerAt 1 (some ⟨"a@b.c", "y"⟩)],
      a.judged id (fun _ _ => .ok false) ≠ some true := by decide
  ⟨_, hturn, hfail, (login_guessing_bound id (fun _ _ => .ok false) [] _ hturn hfail).1⟩

/-- **A body that is no login request** is neither recorded nor refused. -/
theorem unreadable_body : ¬ ∀ attempts : List LoginAttempt, InTurn attempts →
    (∀ a ∈ attempts, a.judged id (fun _ _ => .ok false) ≠ some true) →
    Every (fun keys a => (login id (fun _ _ => .ok false) a keys).2)
      (fun keys a => Recorded id (fun _ _ => .ok false) keys a ∨ isLoginBlocked a.checkedAt keys = true) .empty attempts := by
  intro h
  have hevery := h [strangerAt 0 none] (by decide) (by decide)
  rcases hevery.1 with hrecorded | hblocked
  · exact absurd hrecorded.2 (by decide)
  · exact absurd hblocked (by decide)

end Lumiere.Routes
