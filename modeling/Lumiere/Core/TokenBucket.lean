/-
Token buckets over an ordered field. A bucket holds a level as of some time, and fills at a rate up to a capacity. A
request is admitted if a whole token is there, and takes it; otherwise the bucket stays as it is.

- `levelAt_le_add`: what a bucket can gain between two times.
- `admitted_le_of_ge`: from some time on, the admitted requests are paid for by the level at that time and the gain.
- `admitted_le`: so in any interval they are at most the capacity and the gain.
- `one_le_levelAt_iff`: when a token is back.
-/
import Mathlib.Algebra.Order.Field.Basic
import Mathlib.Data.List.Pairwise
import Mathlib.Tactic.Linarith
import Mathlib.Tactic.Ring

namespace Lumiere.Core

structure Limit (K : Type) [Field K] [LinearOrder K] where
  capacity : K
  rate : K
  capacity_nonneg : 0 ≤ capacity
  rate_nonneg : 0 ≤ rate

section Bucket

variable {K : Type} [Field K] [LinearOrder K]

structure Bucket (L : Limit K) where
  level : K
  last : K
  nonneg : 0 ≤ level
  le : level ≤ L.capacity

variable {L : Limit K}

namespace Bucket

def full : Bucket L := ⟨L.capacity, 0, L.capacity_nonneg, le_refl _⟩

/-- a clock that goes back refills nothing -/
def levelAt (b : Bucket L) (t : K) : K := min L.capacity (b.level + max 0 (t - b.last) * L.rate)

theorem levelAt_le (b : Bucket L) (t : K) : b.levelAt t ≤ L.capacity := min_le_left _ _

theorem levelAt_last (b : Bucket L) : b.levelAt b.last = b.level := by
  rw [levelAt, sub_self, max_self, zero_mul, add_zero]
  exact min_eq_right b.le

variable [IsStrictOrderedRing K]

theorem level_le_levelAt (b : Bucket L) (t : K) : b.level ≤ b.levelAt t :=
  le_min b.le (le_add_of_nonneg_right (mul_nonneg (le_max_left _ _) L.rate_nonneg))

theorem levelAt_nonneg (b : Bucket L) (t : K) : 0 ≤ b.levelAt t := b.nonneg.trans (b.level_le_levelAt t)

@[simp] theorem levelAt_full (t : K) : (full : Bucket L).levelAt t = L.capacity :=
  le_antisymm (levelAt_le _ _) (level_le_levelAt full t)

theorem levelAt_le_add (b : Bucket L) {s t : K} (h : s ≤ t) : b.levelAt t ≤ b.levelAt s + (t - s) * L.rate := by
  have hgain : 0 ≤ (t - s) * L.rate := mul_nonneg (sub_nonneg.2 h) L.rate_nonneg
  have helapsed : max 0 (t - b.last) ≤ max 0 (s - b.last) + (t - s) := by
    refine max_le (add_nonneg (le_max_left _ _) (sub_nonneg.2 h)) ?_
    linarith [le_max_right 0 (s - b.last)]
  have hfill : max 0 (t - b.last) * L.rate ≤ max 0 (s - b.last) * L.rate + (t - s) * L.rate := by
    rw [← add_mul]
    exact mul_le_mul_of_nonneg_right helapsed L.rate_nonneg
  unfold levelAt
  rw [← min_add_add_right]
  refine min_le_min ?_ ?_
  · exact le_add_of_nonneg_right hgain
  · linarith

/-- the time until a token is back: a clock that stands before `last` comes there first -/
def wait (b : Bucket L) (t : K) : K := max 0 (b.last - t) + (1 - b.levelAt t) / L.rate

/-- **A token is back once the bucket has waited for it.** -/
theorem one_le_levelAt_iff (b : Bucket L) {t x : K} (hcapacity : 1 ≤ L.capacity) (hrate : 0 < L.rate)
    (ht : b.levelAt t < 1) (hx : 0 ≤ x) : 1 ≤ b.levelAt (t + x) ↔ b.wait t ≤ x := by
  have hlevel : b.levelAt t = b.level + max 0 (t - b.last) * L.rate := by
    rcases min_choice L.capacity (b.level + max 0 (t - b.last) * L.rate) with h | h
    · exact absurd (h ▸ ht : L.capacity < 1) (not_lt.2 hcapacity)
    · exact h
  have hadmits : 1 ≤ b.levelAt (t + x) ↔ 1 ≤ b.level + max 0 (t + x - b.last) * L.rate := by
    rw [levelAt, le_min_iff]
    exact ⟨fun h => h.2, fun h => ⟨hcapacity, h⟩⟩
  rw [hadmits, wait, ← le_sub_iff_add_le', div_le_iff₀ hrate]
  rcases le_total b.last t with hlast | hlast
  · rw [max_eq_right (by linarith : 0 ≤ t - b.last)] at hlevel
    rw [max_eq_left (by linarith : b.last - t ≤ 0), max_eq_right (by linarith : 0 ≤ t + x - b.last), hlevel, sub_zero]
    have hgain : (t + x - b.last) * L.rate = (t - b.last) * L.rate + x * L.rate := by ring
    constructor <;> intro h <;> linarith
  · rw [max_eq_left (by linarith : t - b.last ≤ 0), zero_mul, add_zero] at hlevel
    rw [max_eq_right (by linarith : 0 ≤ b.last - t), hlevel]
    have hsub : x - (b.last - t) = t + x - b.last := by ring
    rw [hsub]
    rcases le_total 0 (t + x - b.last) with hpast | hpast
    · rw [max_eq_right hpast]
      constructor <;> intro h <;> linarith
    · -- the clock has not come back to `last`
      have hnone : (t + x - b.last) * L.rate ≤ 0 := mul_nonpos_of_nonpos_of_nonneg hpast hrate.le
      rw [max_eq_left hpast, zero_mul, add_zero]
      constructor <;> intro h <;> linarith

/-- an admitted request takes one token -/
def request (b : Bucket L) (t : K) : Bucket L :=
  if h : 1 ≤ b.levelAt t then
    ⟨b.levelAt t - 1, t, sub_nonneg.2 h, (sub_le_self _ zero_le_one).trans (b.levelAt_le t)⟩
  else b

theorem levelAt_request_of_le {b : Bucket L} {t : K} (h : 1 ≤ b.levelAt t) :
    (b.request t).levelAt t = b.levelAt t - 1 := by
  rw [request, dif_pos h]
  exact levelAt_last _

theorem request_of_lt {b : Bucket L} {t : K} (h : ¬ 1 ≤ b.levelAt t) : b.request t = b := dif_neg h

/-- the times at which requests are admitted -/
def admitted : Bucket L → List K → List K
  | _, [] => []
  | b, t :: ts => if 1 ≤ b.levelAt t then t :: admitted (b.request t) ts else admitted (b.request t) ts

theorem admitted_sublist (b : Bucket L) (ts : List K) : (b.admitted ts).Sublist ts := by
  induction ts generalizing b with
  | nil => exact .refl _
  | cons t ts ih =>
    rw [admitted]
    split_ifs
    · exact (ih _).cons_cons t
    · exact (ih _).cons t

/-- a request, and the tokens that are left -/
theorem length_admitted_cons (b : Bucket L) (t : K) (ts : List K) (p : K → Bool) (hp : p t = true) :
    (((b.admitted (t :: ts)).filter p).length : K) + (b.request t).levelAt t =
      ((((b.request t).admitted ts).filter p).length : K) + b.levelAt t := by
  rw [admitted]
  split_ifs with h
  · rw [List.filter_cons_of_pos hp, List.length_cons, levelAt_request_of_le h]
    push_cast
    ring
  · rw [request_of_lt h]

/-- **Admitted requests are paid for by the level and the gain.** -/
theorem admitted_le_of_ge (b : Bucket L) (ts : List K) (hsorted : ts.Pairwise (· ≤ ·)) (s e : K) (hse : s ≤ e)
    (hs : ∀ t ∈ ts, s ≤ t) :
    (((b.admitted ts).filter fun t => decide (t ≤ e)).length : K) ≤ b.levelAt s + (e - s) * L.rate := by
  have hpaid : 0 ≤ b.levelAt s + (e - s) * L.rate :=
    add_nonneg (b.levelAt_nonneg s) (mul_nonneg (sub_nonneg.2 hse) L.rate_nonneg)
  induction ts generalizing b s with
  | nil => simpa [admitted] using hpaid
  | cons t ts ih =>
    obtain ⟨hfirst, hsorted⟩ := List.pairwise_cons.1 hsorted
    by_cases hte : t ≤ e
    · have hst := hs t List.mem_cons_self
      have hcons := b.length_admitted_cons t ts (fun t => decide (t ≤ e)) (decide_eq_true hte)
      have hrest := ih (b.request t) hsorted t hte hfirst
        (add_nonneg (levelAt_nonneg _ t) (mul_nonneg (sub_nonneg.2 hte) L.rate_nonneg))
      have hgain := b.levelAt_le_add hst
      calc (((b.admitted (t :: ts)).filter fun t => decide (t ≤ e)).length : K)
          ≤ b.levelAt t + (e - t) * L.rate := by linarith
        _ ≤ b.levelAt s + (t - s) * L.rate + (e - t) * L.rate := by linarith
        _ = b.levelAt s + (e - s) * L.rate := by ring
    · -- the interval is over
      have hnone : (b.admitted (t :: ts)).filter (fun t => decide (t ≤ e)) = [] := by
        refine List.filter_eq_nil_iff.2 fun t' ht' hle => hte ?_
        rcases List.mem_cons.1 ((b.admitted_sublist _).subset ht') with rfl | hmem
        · exact of_decide_eq_true hle
        · exact (hfirst t' hmem).trans (of_decide_eq_true hle)
      rw [hnone]
      simpa using hpaid

/-- **In any interval at most the capacity and the gain are admitted.** -/
theorem admitted_le (b : Bucket L) (ts : List K) (hsorted : ts.Pairwise (· ≤ ·)) (a e : K) (hae : a ≤ e) :
    (((b.admitted ts).filter fun t => decide (a ≤ t ∧ t ≤ e)).length : K) ≤ L.capacity + (e - a) * L.rate := by
  induction ts generalizing b with
  | nil => simpa [admitted] using add_nonneg L.capacity_nonneg (mul_nonneg (sub_nonneg.2 hae) L.rate_nonneg)
  | cons t ts ih =>
    obtain ⟨hfirst, htail⟩ := List.pairwise_cons.1 hsorted
    by_cases hat : a ≤ t
    · -- the interval has begun
      have hge : ∀ t' ∈ t :: ts, a ≤ t' := by
        intro t' ht'
        rcases List.mem_cons.1 ht' with rfl | ht'
        · exact hat
        · exact hat.trans (hfirst t' ht')
      have hfilter : (b.admitted (t :: ts)).filter (fun t => decide (a ≤ t ∧ t ≤ e)) =
          (b.admitted (t :: ts)).filter fun t => decide (t ≤ e) :=
        List.filter_congr fun t' ht' => by simp [hge t' ((b.admitted_sublist _).subset ht')]
      rw [hfilter]
      exact (b.admitted_le_of_ge _ hsorted a e hae hge).trans (add_le_add_left (b.levelAt_le a) _)
    · have hskip : (b.admitted (t :: ts)).filter (fun t => decide (a ≤ t ∧ t ≤ e)) =
          ((b.request t).admitted ts).filter fun t => decide (a ≤ t ∧ t ≤ e) := by
        rw [admitted]
        split_ifs
        · exact List.filter_cons_of_neg (by simp [hat])
        · rfl
      rw [hskip]
      exact ih (b.request t) htail

end Bucket

end Bucket

end Lumiere.Core
