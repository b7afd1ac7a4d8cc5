/-
Lockout after failures. Failures are counted in a window that begins with the first of them; the one that reaches the
limit starts a block as long as the window. The clock is read three times for an attempt: when it is checked against the
block, when its failure is counted, and when it starts a block.

- `failure_cases`: a failure is counted in the current window, or begins a new one.
- `valid_step`: a full count is outlived by its block.
- `admitted_le`: in any interval of the window's length, at most `limit + (limit - 2)` failures get past the check.
-/
import Mathlib.Algebra.Order.Field.Basic
import Mathlib.Data.List.Pairwise
import Mathlib.Tactic.Linarith

namespace Lumiere.Core

variable {K : Type} [Field K] [LinearOrder K]

/-! ## The machine -/

structure Lockout (K : Type) where
  /-- how many failures are counted, and when the count expires -/
  failures : Option (ℕ × K)
  blockedUntil : Option K
deriving DecidableEq, Repr

structure Lockout.Policy (K : Type) [Field K] [LinearOrder K] where
  limit : ℕ
  window : K
  limit_pos : 1 ≤ limit
  window_nonneg : 0 ≤ window

structure Lockout.Attempt (K : Type) [LE K] where
  checked : K
  counted : K
  blocked : K
  fails : Bool
  checked_le : checked ≤ counted
  counted_le : counted ≤ blocked

namespace Lockout

variable (p : Policy K) (s : Lockout K)

def blocked (now : K) : Bool := s.blockedUntil.any fun e => decide (now < e)

/-- a failure, counted at one time and blocking from another -/
def failure (counted blocked : K) : Lockout K :=
  let (n, e) :=
    match s.failures.filter fun f => decide (counted < f.2) with
    | none => (1, counted + p.window)
    | some (n, e) => (n + 1, e)
  ⟨some (n, e), if p.limit ≤ n then some (blocked + p.window) else s.blockedUntil⟩

/-- the attempt fails behind the check -/
def admits (a : Attempt K) : Bool := !s.blocked a.checked && a.fails

def step (a : Attempt K) : Lockout K := if s.admits a then s.failure p a.counted a.blocked else s

def admitted : Lockout K → List (Attempt K) → List (Attempt K)
  | _, [] => []
  | s, a :: as => if s.admits a then a :: admitted (s.step p a) as else admitted (s.step p a) as

/-! ## What a state can be -/

/-- at a time -/
structure Valid (p : Policy K) (now : K) (s : Lockout K) : Prop where
  pos : ∀ n e, s.failures = some (n, e) → 1 ≤ n
  le : ∀ n e, s.failures = some (n, e) → n ≤ p.limit
  expires : ∀ n e, s.failures = some (n, e) → e ≤ now + p.window
  /-- a full count is outlived by its block -/
  full : ∀ n e, s.failures = some (n, e) → n = p.limit → ∃ b, s.blockedUntil = some b ∧ e ≤ b

variable {p s} {now start : K} {a : Attempt K} {as : List (Attempt K)}

theorem Valid.none : Valid p now ⟨none, s.blockedUntil⟩ := by
  constructor <;> intro n e h <;> cases h

theorem Valid.mono {now' : K} [IsStrictOrderedRing K] (h : Valid p now s) (hle : now ≤ now') : Valid p now' s :=
  ⟨h.pos, h.le, fun n e hf => (h.expires n e hf).trans (add_le_add_left hle p.window), h.full⟩

/-- **What a failure does**: it is counted in the current window, which is not full, or begins a new one. -/
theorem failure_cases (h : Valid p now s) (hfree : s.blocked a.checked = false) :
    (∃ n e, s.failures = some (n, e) ∧ a.counted < e ∧ n < p.limit ∧ s.failure p a.counted a.blocked =
      ⟨some (n + 1, e), if p.limit ≤ n + 1 then some (a.blocked + p.window) else s.blockedUntil⟩) ∨
    (∀ n e, s.failures = some (n, e) → e ≤ a.counted) ∧ s.failure p a.counted a.blocked =
      ⟨some (1, a.counted + p.window), if p.limit ≤ 1 then some (a.blocked + p.window) else s.blockedUntil⟩ := by
  unfold failure
  cases hf : s.failures with
  | none => exact .inr ⟨nofun, rfl⟩
  | some f =>
    obtain ⟨n, e⟩ := f
    by_cases hlive : a.counted < e
    · refine .inl ⟨n, e, rfl, hlive, lt_of_le_of_ne (h.le n e hf) fun hfull => ?_, ?_⟩
      · -- a block would still be on
        obtain ⟨b, hb, hle⟩ := h.full n e hf hfull
        have hblocked : s.blocked a.checked = true := by
          rw [blocked, hb]
          exact decide_eq_true ((a.checked_le.trans_lt hlive).trans_le hle)
        rw [hblocked] at hfree
        cases hfree
      · have hkeep : (some (n, e)).filter (fun f => decide (a.counted < f.2)) = some (n, e) :=
          Option.filter_some_pos (decide_eq_true hlive)
        rw [hkeep]
    · have hgone : (some (n, e)).filter (fun f => decide (a.counted < f.2)) = none :=
        Option.filter_some_neg (by simpa using hlive)
      rw [hgone]
      refine .inr ⟨fun n' e' hf' => ?_, rfl⟩
      obtain ⟨rfl, rfl⟩ := Prod.mk.inj (Option.some.inj hf')
      exact not_lt.1 hlive

theorem valid_failure [IsStrictOrderedRing K] (h : Valid p now s) (hnow : now ≤ a.checked)
    (hfree : s.blocked a.checked = false) : Valid p a.blocked (s.failure p a.counted a.blocked) := by
  have hcounted := a.counted_le
  have hchecked := a.checked_le
  rcases failure_cases h hfree with ⟨n, e, hf, -, hn, hs⟩ | ⟨-, hs⟩
  · have hexpires := h.expires n e hf
    rw [hs]
    refine ⟨?_, ?_, ?_, ?_⟩ <;> intro n' e' hf' <;> obtain ⟨rfl, rfl⟩ := Prod.mk.inj (Option.some.inj hf')
    · omega
    · omega
    · linarith
    · intro hfull
      rw [if_pos hfull.ge]
      exact ⟨_, rfl, by linarith⟩
  · have hlimit := p.limit_pos
    rw [hs]
    refine ⟨?_, ?_, ?_, ?_⟩ <;> intro n' e' hf' <;> obtain ⟨rfl, rfl⟩ := Prod.mk.inj (Option.some.inj hf')
    · exact le_rfl
    · exact hlimit
    · linarith
    · intro hfull
      rw [if_pos hfull.ge]
      exact ⟨_, rfl, by linarith⟩

/-- **Every attempt keeps the state valid.** -/
theorem valid_step [IsStrictOrderedRing K] (h : Valid p now s) (hnow : now ≤ a.checked) :
    Valid p a.blocked (s.step p a) := by
  unfold step
  split_ifs with hadmits
  · refine valid_failure h hnow ?_
    simpa using (Bool.and_eq_true_iff.1 hadmits).1
  · exact h.mono (hnow.trans (a.checked_le.trans a.counted_le))

/-! ## The bound -/

/-- one after the other, from a time on -/
def Sequential {T : Type} [LE T] : T → List (Attempt T) → Prop
  | _, [] => True
  | now, a :: as => now ≤ a.checked ∧ Sequential a.blocked as

theorem Sequential.mono {T : Type} [Preorder T] {now now' : T} {as : List (Attempt T)} (h : Sequential now as)
    (hle : now' ≤ now) : Sequential now' as := by
  cases as with
  | nil => trivial
  | cons a as => exact ⟨hle.trans h.1, h.2⟩

omit [Field K] in
theorem Sequential.le_checked (h : Sequential now as) : ∀ a ∈ as, now ≤ a.checked := by
  induction as generalizing now with
  | nil => exact fun a ha => absurd ha List.not_mem_nil
  | cons b as ih =>
    intro a ha
    rcases List.mem_cons.1 ha with rfl | ha
    · exact h.1
    · exact ih (h.2.mono (h.1.trans (b.checked_le.trans b.counted_le))) a ha

theorem admitted_sublist (s : Lockout K) (as : List (Attempt K)) : (s.admitted p as).Sublist as := by
  induction as generalizing s with
  | nil => exact .refl _
  | cons a as ih =>
    rw [admitted]
    split_ifs
    · exact (ih _).cons_cons a
    · exact (ih _).cons a

/-- nobody gets past a block -/
theorem le_counted_of_admitted {b : K} (hb : s.blockedUntil = some b) (hseq : Sequential now as) :
    ∀ a ∈ s.admitted p as, b ≤ a.counted := by
  induction as generalizing now with
  | nil => exact fun a ha => absurd ha List.not_mem_nil
  | cons a as ih =>
    intro x hx
    rw [admitted, step] at hx
    split_ifs at hx with hadmits
    · have hfree : ¬ a.checked < b := by simpa [admits, blocked, hb] using (Bool.and_eq_true_iff.1 hadmits).1
      have ha := (not_lt.1 hfree).trans a.checked_le
      rcases List.mem_cons.1 hx with rfl | hx
      · exact ha
      · have hle := hseq.2.le_checked x ((admitted_sublist _ _).subset hx)
        exact ha.trans (a.counted_le.trans (hle.trans x.checked_le))
    · exact ih hseq.2 x hx

/-- the failures in an interval as long as the window -/
def countFrom (p : Policy K) (start : K) (as : List (Attempt K)) : ℕ :=
  (as.filter fun a => decide (start ≤ a.counted ∧ a.counted < start + p.window)).length

theorem countFrom_of_ge (h : ∀ a ∈ as, start + p.window ≤ a.counted) : countFrom p start as = 0 := by
  rw [countFrom, List.length_eq_zero_iff]
  refine List.filter_eq_nil_iff.2 fun a ha hin => ?_
  exact absurd (of_decide_eq_true hin).2 (not_lt.2 (h a ha))

theorem countFrom_cons_le (p : Policy K) (start : K) (a : Attempt K) (as : List (Attempt K)) : countFrom p start (a :: as) ≤ countFrom p start as + 1 := by
  unfold countFrom
  rw [List.filter_cons]
  split_ifs <;> simp

theorem countFrom_cons_of_lt (h : a.counted < start) : countFrom p start (a :: as) = countFrom p start as := by
  unfold countFrom
  rw [List.filter_cons_of_neg]
  simp [h]

/-- a state in which a block outlasts the interval -/
theorem countFrom_of_blocked {b : K} (hb : s.blockedUntil = some b) (hle : start + p.window ≤ b)
    (hseq : Sequential now as) : countFrom p start (s.admitted p as) = 0 :=
  countFrom_of_ge fun a ha => hle.trans (le_counted_of_admitted hb hseq a ha)

/-- what is admitted with an attempt is counted no sooner -/
theorem counted_le_of_mem_cons (hseq : Sequential a.blocked as) (s : Lockout K) :
    ∀ x ∈ a :: s.admitted p as, a.counted ≤ x.counted := by
  intro x hx
  rcases List.mem_cons.1 hx with rfl | hx
  · exact le_rfl
  · exact a.counted_le.trans ((hseq.le_checked x ((admitted_sublist _ _).subset hx)).trans x.checked_le)

theorem countFrom_cons_of_late (hseq : Sequential a.blocked as) (h : start + p.window ≤ a.counted) :
    countFrom p start (a :: s.admitted p as) = 0 :=
  countFrom_of_ge fun x hx => h.trans (counted_le_of_mem_cons hseq s x hx)

theorem admitted_cons_of_admits (h : s.admits a = true) :
    s.admitted p (a :: as) = a :: (s.failure p a.counted a.blocked).admitted p as := by
  rw [admitted, if_pos h, step, if_pos h]

theorem admitted_cons_of_not_admits (h : ¬ s.admits a = true) : s.admitted p (a :: as) = s.admitted p as := by
  rw [admitted, if_neg h, step, if_neg h]

omit [Field K] in
theorem free_of_admits (h : s.admits a = true) : s.blocked a.checked = false := by
  simpa using (Bool.and_eq_true_iff.1 h).1

variable [IsStrictOrderedRing K]

theorem Valid.after (h : Valid p now s) (hnow : now ≤ a.checked) : Valid p a.blocked s :=
  h.mono (hnow.trans (a.checked_le.trans a.counted_le))

/-- the current window lasts to the end of the interval: what it has left is the bound -/
theorem countFrom_le_of_current {n : ℕ} {e : K} (h : Valid p now s) (hseq : Sequential now as)
    (hf : s.failures = some (n, e)) (he : start + p.window ≤ e) : countFrom p start (s.admitted p as) ≤ p.limit - n := by
  induction as generalizing now s n with
  | nil => exact Nat.zero_le _
  | cons a as ih =>
    by_cases hadmits : s.admits a = true
    · rw [admitted_cons_of_admits hadmits]
      by_cases hin : a.counted < start + p.window
      · rcases failure_cases h (free_of_admits hadmits) with ⟨n', e', hf', -, hn, hs⟩ | ⟨hgone, -⟩
        · obtain ⟨rfl, rfl⟩ := Prod.mk.inj (Option.some.inj (hf.symm.trans hf'))
          have hrest := ih (valid_failure h hseq.1 (free_of_admits hadmits)) hseq.2 (congrArg failures hs)
          have hcons := countFrom_cons_le p start a ((s.failure p a.counted a.blocked).admitted p as)
          omega
        · exact absurd (he.trans (hgone n e hf)) (not_le.2 hin)
      · rw [countFrom_cons_of_late hseq.2 (not_lt.1 hin)]
        exact Nat.zero_le _
    · rw [admitted_cons_of_not_admits hadmits]
      exact ih (h.after hseq.1) hseq.2 hf

/-- the interval has begun: the current window can come up to one below the limit, then another follows -/
theorem countFrom_le_of_started {n : ℕ} {e : K} (h : Valid p now s) (hseq : Sequential now as) (hstart : start ≤ now)
    (hf : s.failures = some (n, e)) : countFrom p start (s.admitted p as) ≤ p.limit + (p.limit - 1 - n) := by
  induction as generalizing now s n with
  | nil => exact Nat.zero_le _
  | cons a as ih =>
    have hafter : start ≤ a.blocked := hstart.trans (hseq.1.trans (a.checked_le.trans a.counted_le))
    by_cases hadmits : s.admits a = true
    · have hvalid := valid_failure h hseq.1 (free_of_admits hadmits)
      have hcons := countFrom_cons_le p start a ((s.failure p a.counted a.blocked).admitted p as)
      rw [admitted_cons_of_admits hadmits]
      rcases failure_cases h (free_of_admits hadmits) with ⟨n', e', hf', -, hn, hs⟩ | ⟨-, hs⟩
      · obtain ⟨rfl, rfl⟩ := Prod.mk.inj (Option.some.inj (hf.symm.trans hf'))
        by_cases hfull : p.limit ≤ n + 1
        · -- the block outlasts the interval
          rw [if_pos hfull] at hs
          have hrest := countFrom_of_blocked (congrArg blockedUntil hs)
            (add_le_add_left hafter p.window) hseq.2
          omega
        · have hrest := ih hvalid hseq.2 hafter (congrArg failures hs)
          omega
      · have hcurrent : start + p.window ≤ a.counted + p.window :=
          add_le_add_left (hstart.trans (hseq.1.trans a.checked_le)) p.window
        have hrest := countFrom_le_of_current hvalid hseq.2 (congrArg failures hs) hcurrent
        have hlimit := p.limit_pos
        omega
    · rw [admitted_cons_of_not_admits hadmits]
      exact ih (h.after hseq.1) hseq.2 hafter hf

/-- **At most `limit + (limit - 2)` failures get past the check** in an interval of the window's length, whatever
happened before it. -/
theorem admitted_le (h : Valid p now s) (hseq : Sequential now as) (start : K) :
    countFrom p start (s.admitted p as) ≤ p.limit + (p.limit - 2) := by
  induction as generalizing now s with
  | nil => exact Nat.zero_le _
  | cons a as ih =>
    by_cases hadmits : s.admits a = true
    · have hvalid := valid_failure h hseq.1 (free_of_admits hadmits)
      rw [admitted_cons_of_admits hadmits]
      by_cases hstart : start ≤ a.counted
      · have hafter := hstart.trans a.counted_le
        have hcons := countFrom_cons_le p start a ((s.failure p a.counted a.blocked).admitted p as)
        rcases failure_cases h (free_of_admits hadmits) with ⟨n, e, hf, -, hn, hs⟩ | ⟨-, hs⟩
        · have hpos := h.pos n e hf
          by_cases hfull : p.limit ≤ n + 1
          · rw [if_pos hfull] at hs
            have hrest := countFrom_of_blocked (congrArg blockedUntil hs)
              (add_le_add_left hafter p.window) hseq.2
            omega
          · have hrest := countFrom_le_of_started hvalid hseq.2 hafter (congrArg failures hs)
            omega
        · have hrest := countFrom_le_of_current hvalid hseq.2 (congrArg failures hs) (add_le_add_left hstart p.window)
          have hlimit := p.limit_pos
          omega
      · rw [countFrom_cons_of_lt (not_le.1 hstart)]
        exact ih hvalid hseq.2
    · rw [admitted_cons_of_not_admits hadmits]
      exact ih (h.after hseq.1) hseq.2

end Lockout

end Lumiere.Core
