/-
The retry-after of a refused request (`middleware/rate_limit.rs`). The script answers in milliseconds; the response
writes the number into the header `retry-after`, that HTTP reads as seconds.

- `allowedAfter_iff`: when the next request is allowed.
- `honest_iff`: the header is right only if a token is back within a millisecond, or if the number of milliseconds,
  cut to 32 bits, happens to be the number of seconds.
- `five_messages`: after five messages at once the header says 1000 seconds in place of one.
-/
import Lumiere.Middleware.GlobalLimit
import Mathlib.Order.Bounds.Basic

namespace Lumiere.Middleware

open Lumiere.Core

/-! ## The response -/

structure Response where
  status : ℕ
  body : Value
  headers : List (String × String)

/-- `clock` is the server's, in seconds -/
def rateLimitResponse (clock : ℕ) (result : RateLimitResult) : Response :=
  let retryAfter := result.retryAfter.getD 1
  let reset := clock + retryAfter
  { status := 429
    body := .object [("error", .object [("code", .string "RATE_LIMITED"), ("message", .string "Rate limited"),
      ("retry_after", .int retryAfter)])]
    headers := [("x-ratelimit-limit", toString result.limit), ("x-ratelimit-remaining", "0"),
      ("x-ratelimit-reset", toString reset), ("retry-after", toString retryAfter)] }

/-- what a client reads: seconds -/
def Response.retryAfter (response : Response) : Option ℕ := (response.headers.lookup "retry-after").bind Str.parseU64

theorem retryAfter_rateLimitResponse (clock : ℕ) {result : RateLimitResult}
    (h : result.retryAfter.getD 1 < 18446744073709551616) :
    (rateLimitResponse clock result).retryAfter = some (result.retryAfter.getD 1) := by
  have hlookup : (rateLimitResponse clock result).headers.lookup "retry-after" =
      some (toString (result.retryAfter.getD 1)) := by
    simp [rateLimitResponse, List.lookup_cons]
  rw [Response.retryAfter, hlookup, Option.bind_some, Str.parseU64_toString h]

/-! ## Honest answers -/

/-- a request some seconds later is allowed, if the key is left alone in between -/
def AllowedAfter (config : RateLimitConfig) (key : Option Key) (time n : ℕ) : Prop :=
  let key' := (invoke config.maxRequests config.windowSeconds key time).2
  (invoke config.maxRequests config.windowSeconds key' (time + 1000000 * n)).1.allowed = 1

/-- the response to a request names the least number of seconds after which it is allowed -/
def Honest (config : RateLimitConfig) (key : Option Key) (time clock : ℕ) : Prop :=
  ∃ n, (rateLimitResponse clock (rateLimitResult config
      (invoke config.maxRequests config.windowSeconds key time).1)).retryAfter = some n ∧
    IsLeast {n | AllowedAfter config key time n} n

/-- how far the bucket's time lies ahead of the clock, in milliseconds -/
def aheadMs (now : ℚ) (key : Option Key) : ℚ := key.elim 0 fun k => max 0 (k.last - now)

/-- how long the part of a token that is missing takes to come, in milliseconds -/
def refillMs (config : RateLimitConfig) (now : ℚ) (key : Option Key) : ℚ :=
  (1 - tokensAt config.maxRequests config.windowSeconds now key) * (config.windowSeconds * 1000) / config.maxRequests

variable {config : RateLimitConfig} {key : Option Key}

/-- a bucket for a key -/
def Key.Valid.bucket {k : Key} (h : k.Valid config.maxRequests config.windowSeconds) :
    Bucket (limit config.maxRequests config.windowSeconds) :=
  ⟨k.tokens, k.last, h.nonneg, h.le⟩

theorem Key.Valid.agrees {k : Key} (h : k.Valid config.maxRequests config.windowSeconds) : Agrees (some k) h.bucket :=
  ⟨rfl, rfl⟩

theorem nowMs_add (time n : ℕ) : nowMs (time + 1000000 * n) = nowMs time + 1000 * n := by
  have hdiv : (time + 1000000 * n) / 1000 = time / 1000 + 1000 * n := by omega
  rw [nowMs_eq, nowMs_eq, hdiv]
  push_cast
  rfl

section Denied

variable (hrate : 1 ≤ config.maxRequests) (hwindow : 1 ≤ config.windowSeconds)
  (hvalid : ∀ k ∈ key, k.Valid config.maxRequests config.windowSeconds) {time : ℕ}
  (hdenied : (invoke config.maxRequests config.windowSeconds key time).1.allowed ≠ 1)

include hrate hwindow hvalid hdenied

theorem tokensAt_lt_of_denied : tokensAt config.maxRequests config.windowSeconds (nowMs time) key < 1 := by
  by_contra hlt
  rw [invoke_eq_script hrate hwindow hvalid, invokeUnexpired, script_of_not_lt hlt] at hdenied
  exact hdenied rfl

/-- a refused request gets the wait and leaves the key -/
theorem invoke_of_denied : invoke config.maxRequests config.windowSeconds key time =
    (⟨0, ⌈refillMs config (nowMs time) key⌉,
      ⌊tokensAt config.maxRequests config.windowSeconds (nowMs time) key⌋⟩, key) := by
  have hlt := tokensAt_lt_of_denied hrate hwindow hvalid hdenied
  rw [invoke_eq_script hrate hwindow hvalid, invokeUnexpired, script, if_pos hlt]
  rfl

/-- **The next request is allowed** once the clock has come up to the bucket's time and the missing part is there. -/
theorem allowedAfter_iff (n : ℕ) :
    AllowedAfter config key time n ↔ aheadMs (nowMs time) key + refillMs config (nowMs time) key ≤ 1000 * n := by
  have hlt := tokensAt_lt_of_denied hrate hwindow hvalid hdenied
  rw [AllowedAfter, invoke_of_denied hrate hwindow hvalid hdenied, invoke_eq_script hrate hwindow hvalid]
  cases key with
  | none =>
    rw [tokensAt_none] at hlt
    exact absurd hlt (not_lt.2 (by exact_mod_cast hrate))
  | some k =>
    have hk := hvalid k rfl
    have hagrees := hk.agrees
    have hrate' : (0 : ℚ) < config.maxRequests := by exact_mod_cast hrate
    have hwindow' : (0 : ℚ) < config.windowSeconds := by exact_mod_cast hwindow
    have hwait : hk.bucket.wait (nowMs time) = aheadMs (nowMs time) (some k) + refillMs config (nowMs time) (some k) := by
      rw [Bucket.wait, hagrees.levelAt, refillMs]
      refine congrArg (aheadMs (nowMs time) (some k) + ·) ?_
      rw [limit, div_div_eq_mul_div]
    rw [invokeUnexpired, nowMs_add, (hagrees.script _).1, ← hwait]
    refine Bucket.one_le_levelAt_iff hk.bucket ?_ ?_ (by rwa [hagrees.levelAt]) (by positivity)
    · exact (by exact_mod_cast hrate : (1 : ℚ) ≤ config.maxRequests)
    · exact div_pos hrate' (by positivity)

theorem refillMs_pos : 0 < refillMs config (nowMs time) key := by
  have hlt := tokensAt_lt_of_denied hrate hwindow hvalid hdenied
  have hrate' : (0 : ℚ) < config.maxRequests := by exact_mod_cast hrate
  have hwindow' : (0 : ℚ) < config.windowSeconds := by exact_mod_cast hwindow
  have hmissing := sub_pos.2 hlt
  exact div_pos (by positivity) hrate'

/-- the number in the header -/
theorem retryAfter_of_denied (clock : ℕ) :
    (rateLimitResponse clock (rateLimitResult config
      (invoke config.maxRequests config.windowSeconds key time).1)).retryAfter =
        some (asU32 ⌈refillMs config (nowMs time) key⌉) := by
  have hretry : (rateLimitResult config (invoke config.maxRequests config.windowSeconds key time).1).retryAfter.getD 1 =
      asU32 ⌈refillMs config (nowMs time) key⌉ := by
    rw [invoke_of_denied hrate hwindow hvalid hdenied]
    rfl
  have hlt : asU32 ⌈refillMs config (nowMs time) key⌉ < 18446744073709551616 := by
    unfold asU32
    omega
  rw [retryAfter_rateLimitResponse clock (by rwa [hretry]), hretry]

theorem allowedAfter_iff_ceil (n : ℕ) :
    AllowedAfter config key time n ↔ ⌈(aheadMs (nowMs time) key + refillMs config (nowMs time) key) / 1000⌉ ≤ (n : ℤ) := by
  rw [allowedAfter_iff hrate hwindow hvalid hdenied, Int.ceil_le, div_le_iff₀ (by norm_num), Int.cast_natCast, mul_comm]

theorem honest_iff_ceil (clock : ℕ) : Honest config key time clock ↔
    ⌈refillMs config (nowMs time) key⌉ % 4294967296 =
      ⌈(aheadMs (nowMs time) key + refillMs config (nowMs time) key) / 1000⌉ := by
  have hahead : 0 ≤ aheadMs (nowMs time) key := by
    cases key with
    | none => exact le_rfl
    | some k => exact le_max_left _ _
  have hrefill := refillMs_pos hrate hwindow hvalid hdenied
  have hseconds : 0 ≤ ⌈(aheadMs (nowMs time) key + refillMs config (nowMs time) key) / 1000⌉ :=
    Int.ceil_nonneg (by positivity)
  have hasU32 : (asU32 ⌈refillMs config (nowMs time) key⌉ : ℤ) = ⌈refillMs config (nowMs time) key⌉ % 4294967296 :=
    Int.toNat_of_nonneg (Int.emod_nonneg _ (by norm_num))
  unfold Honest
  rw [retryAfter_of_denied hrate hwindow hvalid hdenied]
  simp only [Option.some.injEq, exists_eq_left', IsLeast, lowerBounds, Set.mem_ofPred_eq,
    allowedAfter_iff_ceil hrate hwindow hvalid hdenied, hasU32]
  constructor
  · intro h
    obtain ⟨hle, hleast⟩ := h
    have hleast' := hleast (a := ⌈(aheadMs (nowMs time) key + refillMs config (nowMs time) key) / 1000⌉.toNat)
      (by omega)
    omega
  · intro h
    exact ⟨h.ge, fun n hn => by omega⟩

end Denied

/-- whole milliseconds and whole seconds of a wait are the same number for one millisecond only -/
theorem ceil_eq_ceil_thousandth {w : ℚ} (h : 0 < w) : ⌈w⌉ = ⌈w / 1000⌉ ↔ w ≤ 1 := by
  constructor
  · intro heq
    by_contra hw
    have htwo : 1 < ⌈w⌉ := Int.lt_ceil.2 (by exact_mod_cast not_le.1 hw)
    have hlong : (1 : ℚ) < w / 1000 := by exact_mod_cast Int.lt_ceil.1 (heq ▸ htwo)
    have hle : w ≤ ⌈w / 1000⌉ := heq ▸ Int.le_ceil w
    linarith [Int.ceil_lt_add_one (w / 1000)]
  · intro hw
    have hone : ⌈w⌉ = 1 := Int.ceil_eq_iff.2 ⟨by simpa using h, by simpa using hw⟩
    have hone' : ⌈w / 1000⌉ = 1 := Int.ceil_eq_iff.2 ⟨by simpa using h, by push_cast; linarith⟩
    rw [hone, hone']

/-- **When the retry-after is honest**: the whole milliseconds that the missing part of a token takes, cut to 32 bits,
are the whole seconds until the token is there. If the clock has not gone back and nothing is cut, that is a token that
comes within a millisecond. -/
theorem honest_iff (config : RateLimitConfig) (hrate : 1 ≤ config.maxRequests) (hwindow : 1 ≤ config.windowSeconds)
    (key : Option Key) (hvalid : ∀ k ∈ key, k.Valid config.maxRequests config.windowSeconds) (time clock : ℕ)
    (hdenied : (invoke config.maxRequests config.windowSeconds key time).1.allowed ≠ 1) :
    (Honest config key time clock ↔ ⌈refillMs config (nowMs time) key⌉ % 4294967296 =
      ⌈(aheadMs (nowMs time) key + refillMs config (nowMs time) key) / 1000⌉) ∧
    (aheadMs (nowMs time) key = 0 → refillMs config (nowMs time) key ≤ 4294967295 →
      (Honest config key time clock ↔ refillMs config (nowMs time) key ≤ 1)) := by
  have hiff := honest_iff_ceil hrate hwindow hvalid hdenied clock
  refine ⟨hiff, fun hahead hle => hiff.trans ?_⟩
  have hpos : 0 < ⌈refillMs config (nowMs time) key⌉ := Int.ceil_pos.2 (refillMs_pos hrate hwindow hvalid hdenied)
  have hsmall : ⌈refillMs config (nowMs time) key⌉ ≤ 4294967295 := Int.ceil_le.2 (by exact_mod_cast hle)
  rw [hahead, zero_add, Int.emod_eq_of_lt hpos.le (by omega)]
  exact ceil_eq_ceil_thousandth (refillMs_pos hrate hwindow hvalid hdenied)

/-! ## Five messages at once -/

def messageSendLimit : RateLimitConfig := ⟨"rl:msg", 5, 5⟩

/-- the key after five messages at time 0 -/
def emptied : Option Key := some ⟨0, 0, 10000⟩

theorem keyAfter_five : keyAfter 5 5 (List.replicate 5 0) = emptied := by
  rw [keyAfter_replicate (by decide) 0 4 (show 4 + 1 ≤ 5 by decide), nowMs_eq]
  norm_num [emptied]

theorem valid_emptied : ∀ k ∈ emptied, k.Valid messageSendLimit.maxRequests messageSendLimit.windowSeconds := by
  rw [← keyAfter_five]
  exact valid_keyAfter (by decide) (by decide) (List.replicate 5 0)

theorem denied_emptied : (invoke messageSendLimit.maxRequests messageSendLimit.windowSeconds emptied 0).1.allowed ≠ 1 := by
  have h := invoke_keyAfter_replicate (show 1 ≤ 5 by decide) (show 1 ≤ 5 by decide) 0
  rw [keyAfter_five] at h
  exact fun hallowed => absurd (h.symm.trans hallowed) (by decide)

theorem tokensAt_emptied : tokensAt 5 5 (nowMs 0) emptied = 0 := by
  norm_num [tokensAt, emptied, nowMs_eq]

theorem refillMs_emptied : refillMs messageSendLimit (nowMs 0) emptied = 1000 := by
  rw [refillMs]
  show (1 - tokensAt 5 5 (nowMs 0) emptied) * ((5 : ℕ) * 1000) / (5 : ℕ) = 1000
  rw [tokensAt_emptied]
  norm_num

theorem aheadMs_emptied : aheadMs (nowMs 0) emptied = 0 := by
  norm_num [aheadMs, emptied, nowMs_eq]

/-- **The sixth message at once** is told to wait for 1000 seconds; one second later it is allowed. -/
theorem five_messages :
    keyAfter messageSendLimit.maxRequests messageSendLimit.windowSeconds (List.replicate 5 0) = emptied ∧
    (invoke messageSendLimit.maxRequests messageSendLimit.windowSeconds emptied 0).1.allowed ≠ 1 ∧
    (∀ clock, (rateLimitResponse clock (rateLimitResult messageSendLimit
      (invoke messageSendLimit.maxRequests messageSendLimit.windowSeconds emptied 0).1)).retryAfter = some 1000) ∧
    AllowedAfter messageSendLimit emptied 0 1 ∧ ∀ clock, ¬ Honest messageSendLimit emptied 0 clock := by
  refine ⟨keyAfter_five, denied_emptied, fun clock => ?_, ?_, fun clock => ?_⟩
  · rw [retryAfter_of_denied (by decide) (by decide) valid_emptied denied_emptied, refillMs_emptied]
    have hceil : ⌈(1000 : ℚ)⌉ = 1000 := by norm_num
    rw [hceil]
    rfl
  · rw [allowedAfter_iff (by decide) (by decide) valid_emptied denied_emptied, refillMs_emptied, aheadMs_emptied]
    norm_num
  · rw [honest_iff_ceil (by decide) (by decide) valid_emptied denied_emptied, refillMs_emptied, aheadMs_emptied]
    norm_num

theorem honest_iff_five : 1 ≤ messageSendLimit.maxRequests ∧ 1 ≤ messageSendLimit.windowSeconds ∧
    (∀ k ∈ emptied, k.Valid messageSendLimit.maxRequests messageSendLimit.windowSeconds) ∧
    (invoke messageSendLimit.maxRequests messageSendLimit.windowSeconds emptied 0).1.allowed ≠ 1 ∧
    (Honest messageSendLimit emptied 0 0 ↔ ⌈refillMs messageSendLimit (nowMs 0) emptied⌉ % 4294967296 =
      ⌈(aheadMs (nowMs 0) emptied + refillMs messageSendLimit (nowMs 0) emptied) / 1000⌉) ∧
    (aheadMs (nowMs 0) emptied = 0 → refillMs messageSendLimit (nowMs 0) emptied ≤ 4294967295 →
      (Honest messageSendLimit emptied 0 0 ↔ refillMs messageSendLimit (nowMs 0) emptied ≤ 1)) :=
  ⟨by decide, by decide, valid_emptied, denied_emptied,
    honest_iff messageSendLimit (by decide) (by decide) emptied valid_emptied 0 0 denied_emptied⟩

end Lumiere.Middleware
