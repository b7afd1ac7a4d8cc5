/-
Packed 64-bit words: `(a <<< k) ||| b` with `b` below `2^k` is `a * 2^k + b`, a right shift by k reads `a` back and a
mask of k ones reads `b` back, as long as `a` has at most `64 - k` bits. Packed words compare lexicographically.
-/
import Mathlib.Tactic

namespace Lumiere.Core

variable {a b k : UInt64}

theorem toNat_shl (hk : k.toNat < 64) (ha : a.toNat * 2 ^ k.toNat < 2 ^ 64) :
    (a <<< k).toNat = a.toNat * 2 ^ k.toNat := by
  rw [UInt64.toNat_shiftLeft, Nat.mod_eq_of_lt hk, Nat.shiftLeft_eq, Nat.mod_eq_of_lt ha]

theorem toNat_pack (hk : k.toNat < 64) (ha : a.toNat * 2 ^ k.toNat < 2 ^ 64) (hb : b.toNat < 2 ^ k.toNat) :
    ((a <<< k) ||| b).toNat = a.toNat * 2 ^ k.toNat + b.toNat := by
  have hor := Nat.shiftLeft_add_eq_or_of_lt hb a.toNat
  rw [UInt64.toNat_or, toNat_shl hk ha]
  rw [Nat.shiftLeft_eq] at hor
  exact hor.symm

theorem toNat_shr (hk : k.toNat < 64) : (a >>> k).toNat = a.toNat / 2 ^ k.toNat := by
  rw [UInt64.toNat_shiftRight, Nat.mod_eq_of_lt hk, Nat.shiftRight_eq_div_pow]

theorem toNat_mask {m : UInt64} {n : ℕ} (hm : m.toNat = 2 ^ n - 1) : (a &&& m).toNat = a.toNat % 2 ^ n := by
  rw [UInt64.toNat_and, hm, Nat.and_two_pow_sub_one_eq_mod]

/-- two packed words with low parts below B compare by their high parts first -/
theorem pack_lt_pack {p q x y B : ℕ} (hx : x < B) (h : p < q ∨ (p = q ∧ x < y)) : p * B + x < q * B + y := by
  rcases h with h | ⟨rfl, h⟩
  · calc p * B + x < p * B + B := by omega
      _ = (p + 1) * B := by ring
      _ ≤ q * B := Nat.mul_le_mul_right B h
      _ ≤ q * B + y := Nat.le_add_right _ _
  · omega

end Lumiere.Core
