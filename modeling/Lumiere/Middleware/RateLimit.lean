/-
The rate limiter (`middleware/rate_limit.rs`). A Lua script in Redis keeps a token bucket for each key, as a hash with
two fields, and lets it expire after two windows; a denied request writes nothing. Lua's numbers are exact here.

- `script`: one run of the script; `invoke`: the same, on a key that may have expired.
- `invoke_eq_script`: expiry changes nothing.
- `Agrees.script`: the script is a request to the bucket of `Core/TokenBucket.lean`.
- `token_bucket`: stored tokens are in range, and in any interval of T milliseconds at most r + r*T/(1000*w) requests
  are allowed.
-/
import Lumiere.Core.Run
import Lumiere.Core.TokenBucket
import Mathlib.Data.Rat.Floor

namespace Lumiere.Middleware

open Lumiere.Core

/-! ## The script -/

/-- the hash of a key and the time, in milliseconds, at which it expires -/
structure Key where
  tokens : ℚ
  last : ℚ
  expires : ℚ
deriving DecidableEq, Repr

structure Reply where
  /-- 0 or 1 -/
  allowed : ℤ
  retryAfterMs : ℤ
  remainingTokens : ℤ
deriving DecidableEq, Repr

/-- `now` of the script: `TIME` answers in seconds and microseconds -/
def nowMs (time : ℕ) : ℚ := ((time / 1000000 : ℕ) : ℚ) * 1000 + ⌊((time % 1000000 : ℕ) : ℚ) / 1000⌋

/-- the bucket after the refill -/
def tokensAt (rate windowSeconds : ℕ) (now : ℚ) (key : Option Key) : ℚ :=
  let windowMs : ℚ := windowSeconds * 1000
  let (tokens, last) := match key with
    | none => ((rate : ℚ), now)
    | some k => (k.tokens, k.last)
  let elapsed := max 0 (now - last)
  let refill := elapsed * rate / windowMs
  min rate (tokens + refill)

/-- `RATE_LIMIT_SCRIPT` -/
def script (rate windowSeconds : ℕ) (now : ℚ) (key : Option Key) : Reply × Option Key :=
  let windowMs : ℚ := windowSeconds * 1000
  let tokens := tokensAt rate windowSeconds now key
  if tokens < 1 then
    let wait := ⌈(1 - tokens) * windowMs / rate⌉
    (⟨0, wait, ⌊tokens⌋⟩, key)
  else
    let tokens := tokens - 1
    (⟨1, 0, ⌊tokens⌋⟩, some ⟨tokens, now, now + ⌈windowMs / 1000⌉ * 2 * 1000⟩)

/-- Redis removes a key when its time has come -/
def live (now : ℚ) (key : Option Key) : Option Key := key.filter fun k => now < k.expires

/-- the script runs at a time, in microseconds -/
def invoke (rate windowSeconds : ℕ) (key : Option Key) (time : ℕ) : Reply × Option Key :=
  script rate windowSeconds (nowMs time) (live (nowMs time) key)

/-- as if keys did not expire -/
def invokeUnexpired (rate windowSeconds : ℕ) (key : Option Key) (time : ℕ) : Reply × Option Key :=
  script rate windowSeconds (nowMs time) key

/-- the key after requests at some times -/
def keyAfter (rate windowSeconds : ℕ) (times : List ℕ) : Option Key :=
  run (fun key time => (invoke rate windowSeconds key time).2) none times

/-- the requests that are allowed, by their times -/
def allowedTimes (rate windowSeconds : ℕ) (times : List ℕ) : List ℕ :=
  ((times.zip (outputs (invoke rate windowSeconds) none times)).filter fun request => request.2.allowed = 1).map Prod.fst

/-! ## Keys that the script has written -/

structure Key.Valid (rate windowSeconds : ℕ) (k : Key) : Prop where
  nonneg : 0 ≤ k.tokens
  le : k.tokens ≤ rate
  expires : k.expires = k.last + windowSeconds * 2000

variable {rate windowSeconds : ℕ} {now : ℚ} {key : Option Key}

theorem Key.valid_none : ∀ k ∈ (none : Option Key), k.Valid rate windowSeconds := fun k hk =>
  absurd hk (Option.not_mem_none k)

theorem tokensAt_none (now : ℚ) : tokensAt rate windowSeconds now none = rate := by
  simp [tokensAt]

theorem tokensAt_le (now : ℚ) (key : Option Key) : tokensAt rate windowSeconds now key ≤ rate := min_le_left _ _

theorem script_of_lt (h : tokensAt rate windowSeconds now key < 1) :
    ∃ reply, reply.allowed = 0 ∧ script rate windowSeconds now key = (reply, key) :=
  ⟨_, rfl, if_pos h⟩

theorem script_of_not_lt (h : ¬ tokensAt rate windowSeconds now key < 1) :
    script rate windowSeconds now key = (⟨1, 0, ⌊tokensAt rate windowSeconds now key - 1⌋⟩,
      some ⟨tokensAt rate windowSeconds now key - 1, now, now + windowSeconds * 2000⟩) := by
  have hceil : (⌈(windowSeconds * 1000 : ℚ) / 1000⌉ : ℚ) * 2 * 1000 = windowSeconds * 2000 := by
    rw [mul_div_cancel_right₀ _ (by norm_num : (1000 : ℚ) ≠ 0), Int.ceil_natCast, Int.cast_natCast]
    ring
  unfold script
  rw [if_neg h, hceil]

/-- what the script stores is in range -/
theorem valid_script (h : ∀ k ∈ key, k.Valid rate windowSeconds) :
    ∀ k ∈ (script rate windowSeconds now key).2, k.Valid rate windowSeconds := by
  by_cases hlt : tokensAt rate windowSeconds now key < 1
  · obtain ⟨reply, -, hscript⟩ := script_of_lt hlt
    rw [hscript]
    exact h
  · rw [script_of_not_lt hlt]
    rintro k ⟨⟩
    refine ⟨sub_nonneg.2 (not_lt.1 hlt), ?_, rfl⟩
    exact (sub_le_self _ zero_le_one).trans (tokensAt_le now key)

/-- an expired key is as good as none -/
theorem tokensAt_of_expired (hwindow : 1 ≤ windowSeconds) {k : Key} (h : k.Valid rate windowSeconds)
    (hexpired : k.expires ≤ now) : tokensAt rate windowSeconds now (some k) = rate := by
  have hw : (0 : ℚ) < windowSeconds := by exact_mod_cast hwindow
  have helapsed : (windowSeconds : ℚ) * 1000 ≤ max 0 (now - k.last) := by
    refine le_trans ?_ (le_max_right _ _)
    rw [h.expires] at hexpired
    linarith
  have hrefill : (rate : ℚ) ≤ max 0 (now - k.last) * rate / (windowSeconds * 1000) := by
    rw [le_div_iff₀ (by linarith), mul_comm]
    exact mul_le_mul_of_nonneg_right helapsed (Nat.cast_nonneg _)
  exact min_eq_left (hrefill.trans (le_add_of_nonneg_left h.nonneg))

/-- **A request after the key has expired is treated as it would have been without expiry.** -/
theorem invoke_eq_script (hrate : 1 ≤ rate) (hwindow : 1 ≤ windowSeconds)
    (h : ∀ k ∈ key, k.Valid rate windowSeconds) (time : ℕ) :
    invoke rate windowSeconds key time = invokeUnexpired rate windowSeconds key time := by
  unfold invoke invokeUnexpired
  rcases key with _ | k
  · rfl
  by_cases hlive : nowMs time < k.expires
  · have hkeep : live (nowMs time) (some k) = some k := Option.filter_some_pos (decide_eq_true hlive)
    rw [hkeep]
  · have hgone : live (nowMs time) (some k) = none := Option.filter_some_neg (by simpa using hlive)
    have hfull := tokensAt_of_expired hwindow (h k rfl) (not_lt.1 hlive)
    have hone : ¬ (rate : ℚ) < 1 := by
      rw [not_lt]
      exact_mod_cast hrate
    rw [hgone, script_of_not_lt (by rwa [tokensAt_none]), script_of_not_lt (by rwa [hfull]), tokensAt_none, hfull]

theorem valid_invoke (hrate : 1 ≤ rate) (hwindow : 1 ≤ windowSeconds) (h : ∀ k ∈ key, k.Valid rate windowSeconds)
    (time : ℕ) : ∀ k ∈ (invoke rate windowSeconds key time).2, k.Valid rate windowSeconds := by
  rw [invoke_eq_script hrate hwindow h]
  exact valid_script h

theorem valid_keyAfter (hrate : 1 ≤ rate) (hwindow : 1 ≤ windowSeconds) (times : List ℕ) :
    ∀ k ∈ keyAfter rate windowSeconds times, k.Valid rate windowSeconds :=
  run_inv (I := fun key : Option Key => ∀ k ∈ key, k.Valid rate windowSeconds)
    (fun _ time h => valid_invoke hrate hwindow h time) Key.valid_none times

theorem outputs_invoke (hrate : 1 ≤ rate) (hwindow : 1 ≤ windowSeconds) (h : ∀ k ∈ key, k.Valid rate windowSeconds)
    (times : List ℕ) :
    outputs (invoke rate windowSeconds) key times = outputs (invokeUnexpired rate windowSeconds) key times := by
  induction times generalizing key with
  | nil => rfl
  | cons time times ih =>
    rw [outputs, outputs, ← invoke_eq_script hrate hwindow h, ih (valid_invoke hrate hwindow h time)]

/-! ## Requests at one time -/

theorem tokensAt_last {k : Key} (h : k.Valid rate windowSeconds) :
    tokensAt rate windowSeconds k.last (some k) = k.tokens := by
  simp [tokensAt, h.le]

section Again

variable {k : Key} {time : ℕ}

theorem invoke_again (hrate : 1 ≤ rate) (hwindow : 1 ≤ windowSeconds) (h : k.Valid rate windowSeconds)
    (hlast : k.last = nowMs time) (htokens : 1 ≤ k.tokens) :
    (invoke rate windowSeconds (some k) time).2 = some ⟨k.tokens - 1, k.last, k.expires⟩ := by
  have hlevel := tokensAt_last h
  rw [invoke_eq_script hrate hwindow (by rintro k ⟨⟩; exact h), invokeUnexpired, ← hlast,
    script_of_not_lt (by rw [hlevel]; exact not_lt.2 htokens), hlevel, h.expires]

theorem invoke_exhausted (hrate : 1 ≤ rate) (hwindow : 1 ≤ windowSeconds) (h : k.Valid rate windowSeconds)
    (hlast : k.last = nowMs time) (htokens : k.tokens < 1) :
    (invoke rate windowSeconds (some k) time).1.allowed = 0 := by
  rw [invoke_eq_script hrate hwindow (by rintro k ⟨⟩; exact h), invokeUnexpired, ← hlast]
  obtain ⟨reply, hreply, hscript⟩ := script_of_lt (by rwa [tokensAt_last h])
  rw [hscript, hreply]

end Again

/-- the key after requests at one time -/
theorem keyAfter_replicate (hwindow : 1 ≤ windowSeconds) (time n : ℕ) (hn : n + 1 ≤ rate) :
    keyAfter rate windowSeconds (List.replicate (n + 1) time) =
      some ⟨rate - (n + 1 : ℕ), nowMs time, nowMs time + windowSeconds * 2000⟩ := by
  have hrate : 1 ≤ rate := le_trans (Nat.le_add_left 1 n) hn
  induction n with
  | zero =>
    have hfull : ¬ tokensAt rate windowSeconds (nowMs time) none < 1 := by
      rw [tokensAt_none, not_lt]
      exact_mod_cast hrate
    show (script rate windowSeconds (nowMs time) none).2 = _
    rw [script_of_not_lt hfull, tokensAt_none]
    simp
  | succ n ih =>
    have hprev := ih (by omega)
    have hvalid := valid_keyAfter hrate hwindow (List.replicate (n + 1) time) _ hprev
    have htokens : (1 : ℚ) ≤ rate - (n + 1 : ℕ) := by
      rw [le_sub_iff_add_le]
      exact_mod_cast (by omega : 1 + (n + 1) ≤ rate)
    rw [List.replicate_succ', keyAfter, run_snoc, ← keyAfter, hprev]
    refine (invoke_again hrate hwindow hvalid rfl htokens).trans ?_
    push_cast
    rw [sub_sub]

/-- r requests at one time leave nothing for the next -/
theorem invoke_keyAfter_replicate (hrate : 1 ≤ rate) (hwindow : 1 ≤ windowSeconds) (time : ℕ) :
    (invoke rate windowSeconds (keyAfter rate windowSeconds (List.replicate rate time)) time).1.allowed = 0 := by
  obtain ⟨n, rfl⟩ := Nat.exists_eq_add_of_le' hrate
  have hkey := keyAfter_replicate hwindow time n le_rfl
  have hvalid := valid_keyAfter hrate hwindow (List.replicate (n + 1) time) _ hkey
  rw [hkey]
  refine invoke_exhausted hrate hwindow hvalid rfl ?_
  simp

/-! ## The bucket -/

/-- r tokens, and r per window -/
def limit (rate windowSeconds : ℕ) : Limit ℚ where
  capacity := rate
  rate := rate / (windowSeconds * 1000)
  capacity_nonneg := Nat.cast_nonneg _
  rate_nonneg := by positivity

/-- a key stands for its bucket; no key, for a full one -/
def Agrees (key : Option Key) (b : Bucket (limit rate windowSeconds)) : Prop :=
  match key with
  | none => b = .full
  | some k => b.level = k.tokens ∧ b.last = k.last

theorem Agrees.levelAt {b : Bucket (limit rate windowSeconds)} (h : Agrees key b) (now : ℚ) :
    b.levelAt now = tokensAt rate windowSeconds now key := by
  cases key with
  | none =>
    rw [h, tokensAt_none]
    exact Bucket.levelAt_full now
  | some k =>
    obtain ⟨hlevel, hlast⟩ := h
    have hrefill : max 0 (now - k.last) * (rate / (windowSeconds * 1000)) =
        max 0 (now - k.last) * rate / (windowSeconds * 1000) := (mul_div_assoc _ _ _).symm
    rw [Bucket.levelAt, hlevel, hlast]
    exact congrArg (fun refill => min (rate : ℚ) (k.tokens + refill)) hrefill

/-- one run of the script is one request -/
theorem Agrees.script {b : Bucket (limit rate windowSeconds)} (h : Agrees key b) (now : ℚ) :
    ((script rate windowSeconds now key).1.allowed = 1 ↔ 1 ≤ b.levelAt now) ∧
      Agrees (script rate windowSeconds now key).2 (b.request now) := by
  have hlevel := h.levelAt now
  by_cases hlt : tokensAt rate windowSeconds now key < 1
  · obtain ⟨reply, hreply, hscript⟩ := script_of_lt hlt
    have hdenied : ¬ 1 ≤ b.levelAt now := by rwa [hlevel, not_le]
    rw [hscript, Bucket.request_of_lt hdenied, hreply]
    exact ⟨⟨nofun, fun hle => absurd hle hdenied⟩, h⟩
  · have hallowed : 1 ≤ b.levelAt now := by rwa [hlevel, ← not_lt]
    rw [script_of_not_lt hlt, Bucket.request, dif_pos hallowed]
    exact ⟨⟨fun _ => hallowed, fun _ => rfl⟩, congrArg (· - 1) hlevel, rfl⟩

/-- the requests that are allowed are those the bucket admits -/
theorem map_allowed {b : Bucket (limit rate windowSeconds)} (h : Agrees key b) (times : List ℕ) :
    (((times.zip (outputs (invokeUnexpired rate windowSeconds) key times)).filter fun request =>
      request.2.allowed = 1).map Prod.fst).map nowMs = b.admitted (times.map nowMs) := by
  induction times generalizing key b with
  | nil => rfl
  | cons time times ih =>
    obtain ⟨hallowed, hnext⟩ := h.script (nowMs time)
    have hrest := ih hnext
    have hhead : decide ((invokeUnexpired rate windowSeconds key time).1.allowed = 1) =
        decide (1 ≤ b.levelAt (nowMs time)) :=
      decide_eq_decide.2 hallowed
    simp only [outputs, List.zip_cons_cons, List.filter_cons, hhead, List.map_cons, Bucket.admitted]
    by_cases h1 : 1 ≤ b.levelAt (nowMs time)
    · rw [if_pos (decide_eq_true h1), if_pos h1, List.map_cons, List.map_cons, ← hrest]
      rfl
    · rw [if_neg (by simpa using h1), if_neg h1, ← hrest]
      rfl

/-! ## The bound -/

theorem nowMs_eq (time : ℕ) : nowMs time = (time / 1000 : ℕ) := by
  have hfloor : ⌊((time % 1000000 : ℕ) : ℚ) / 1000⌋ = ((time % 1000000 / 1000 : ℕ) : ℤ) := by
    have h := Rat.floor_natCast_div_natCast (time % 1000000) 1000
    exact_mod_cast h
  have hsplit : time / 1000000 * 1000 + time % 1000000 / 1000 = time / 1000 := by omega
  rw [nowMs, hfloor, ← hsplit]
  push_cast
  rfl

theorem nowMs_mono {s t : ℕ} (h : s ≤ t) : nowMs s ≤ nowMs t := by
  rw [nowMs_eq, nowMs_eq]
  exact_mod_cast Nat.div_le_div_right h

theorem map_nowMs_allowedTimes (hrate : 1 ≤ rate) (hwindow : 1 ≤ windowSeconds) (times : List ℕ) :
    (allowedTimes rate windowSeconds times).map nowMs =
      (Bucket.full : Bucket (limit rate windowSeconds)).admitted (times.map nowMs) := by
  have hfull : Agrees none (Bucket.full : Bucket (limit rate windowSeconds)) := rfl
  rw [allowedTimes, outputs_invoke hrate hwindow Key.valid_none]
  exact map_allowed hfull times

/-- in an interval of the clock that the script reads -/
theorem allowed_le (hrate : 1 ≤ rate) (hwindow : 1 ≤ windowSeconds) {times : List ℕ}
    (hsorted : times.Pairwise (· ≤ ·)) {a T : ℚ} (hT : 0 ≤ T) :
    ((((allowedTimes rate windowSeconds times).filter fun time => a ≤ nowMs time ∧ nowMs time ≤ a + T).length : ℕ) : ℚ) ≤
      rate + rate * T / (1000 * windowSeconds) := by
  have hbound := (Bucket.full : Bucket (limit rate windowSeconds)).admitted_le (times.map nowMs)
    (hsorted.map nowMs fun _ _ h => nowMs_mono h) a (a + T) (le_add_of_nonneg_right hT)
  rw [← map_nowMs_allowedTimes hrate hwindow, List.filter_map, List.length_map] at hbound
  refine hbound.trans (le_of_eq ?_)
  unfold limit
  ring

/-- **The token bucket bound.** -/
theorem token_bucket (rate windowSeconds : ℕ) (hrate : 1 ≤ rate) (hwindow : 1 ≤ windowSeconds) (times : List ℕ)
    (hsorted : times.Pairwise (· ≤ ·)) :
    (∀ k ∈ keyAfter rate windowSeconds times, 0 ≤ k.tokens ∧ k.tokens ≤ rate) ∧
      outputs (invoke rate windowSeconds) none times = outputs (invokeUnexpired rate windowSeconds) none times ∧
      (∀ a T : ℚ, 0 ≤ T →
        ((((allowedTimes rate windowSeconds times).filter fun time =>
          a ≤ nowMs time ∧ nowMs time ≤ a + T).length : ℕ) : ℚ) ≤ rate + rate * T / (1000 * windowSeconds)) ∧
      ∀ a T : ℕ,
        ((((allowedTimes rate windowSeconds times).filter fun time => a ≤ time ∧ time ≤ a + 1000 * T).length : ℕ) : ℚ) ≤
          rate + rate * T / (1000 * windowSeconds) := by
  refine ⟨fun k hk => ?_, outputs_invoke hrate hwindow Key.valid_none times, fun a T hT =>
    allowed_le hrate hwindow hsorted hT, fun a T => ?_⟩
  · have hvalid := valid_keyAfter hrate hwindow times k hk
    exact ⟨hvalid.nonneg, hvalid.le⟩
  · -- on the script's clock the interval is no longer
    have hle := allowed_le hrate hwindow hsorted (a := nowMs a) (Nat.cast_nonneg (α := ℚ) T)
    refine le_trans ?_ hle
    refine Nat.cast_le.2 (List.Sublist.length_le (List.monotone_filter_right _ fun time htime => ?_))
    obtain ⟨hfrom, hto⟩ := of_decide_eq_true htime
    refine decide_eq_true ⟨nowMs_mono hfrom, (nowMs_mono hto).trans (le_of_eq ?_)⟩
    rw [nowMs_eq, nowMs_eq, Nat.add_mul_div_left _ _ (by norm_num)]
    push_cast
    rfl

/-- five messages in five seconds: six within two milliseconds, and one more two seconds later -/
def burst : List ℕ := [0, 0, 1000, 1000, 2000, 2000, 2002000]

theorem token_bucket_burst : 1 ≤ 5 ∧ burst.Pairwise (· ≤ ·) ∧
    (∀ k ∈ keyAfter 5 5 burst, 0 ≤ k.tokens ∧ k.tokens ≤ (5 : ℕ)) ∧
      outputs (invoke 5 5) none burst = outputs (invokeUnexpired 5 5) none burst ∧
      (∀ a T : ℚ, 0 ≤ T →
        ((((allowedTimes 5 5 burst).filter fun time => a ≤ nowMs time ∧ nowMs time ≤ a + T).length : ℕ) : ℚ) ≤
          (5 : ℕ) + (5 : ℕ) * T / (1000 * (5 : ℕ))) ∧
      ∀ a T : ℕ,
        ((((allowedTimes 5 5 burst).filter fun time => a ≤ time ∧ time ≤ a + 1000 * T).length : ℕ) : ℚ) ≤
          (5 : ℕ) + (5 : ℕ) * T / (1000 * (5 : ℕ)) :=
  have hsorted : burst.Pairwise (· ≤ ·) := by decide
  ⟨by decide, hsorted, token_bucket 5 5 (by decide) (by decide) burst hsorted⟩

end Lumiere.Middleware
