/-
Time buckets of the message store (`lumiere-models/src/bucket.rs`): ten days each, counted from the Lumiere epoch.

- `bucketFromSnowflake_eq`: the bucket of any id is its millisecond count divided by the length of a bucket; neither
  the calendar nor a cast interferes.
- `bucketOfId_mono`, `bucketOfId_mono_of_neg`: on the ids of one sign of a signed column buckets follow the order of
  the ids.
- `Exact`, `exact_of_snowflake`: what each step of the computation gives.
- `bucket_arithmetic`: buckets, their order, and the two lists of buckets.
-/
import Mathlib.Data.Int.Lemmas
import Mathlib.Tactic.Ring
import Lumiere.Models.Snowflake

namespace Lumiere.Models

open Lumiere.Core

/-- `v as i32` -/
def toI32 (v : ℤ) : ℤ := v.bmod 4294967296

/-- days in a bucket -/
def bucketSizeDays : ℤ := 10

/-- 2024-01-01T00:00:00Z in seconds -/
def lumiereEpochSecs : ℤ := 1704067200

def bucketFromDatetime (dt : DateTime) : ℤ :=
  let epochDays := toI32 ((dt.timestamp - lumiereEpochSecs).tdiv 86400)
  epochDays.tdiv bucketSizeDays

def bucketFromSnowflake (s : Snowflake) : ℤ := bucketFromDatetime s.createdAt

/-- `lo..=hi` -/
def inclusive (lo hi : ℤ) : List ℤ := (List.range (hi + 1 - lo).toNat).map fun i : ℕ => lo + (i : ℤ)

/-- the buckets from that of an id down to a minimum -/
def bucketsBefore (before : Snowflake) (minBucket : ℤ) : List ℤ :=
  (inclusive minBucket (bucketFromSnowflake before)).reverse

/-- the lower bucket comes first -/
def ordered (x y : ℤ) : ℤ × ℤ := if x ≤ y then (x, y) else (y, x)

/-- the buckets between those of two ids -/
def bucketRange (from_ to_ : Snowflake) : List ℤ :=
  let bounds := ordered (bucketFromSnowflake from_) (bucketFromSnowflake to_)
  (inclusive bounds.1 bounds.2).reverse

/-! ## Ranges -/

@[simp] theorem mem_inclusive {lo hi b : ℤ} : b ∈ inclusive lo hi ↔ lo ≤ b ∧ b ≤ hi := by
  simp only [inclusive, List.mem_map, List.mem_range]
  constructor
  · rintro ⟨i, hi', rfl⟩
    omega
  · rintro ⟨h1, h2⟩
    exact ⟨(b - lo).toNat, by omega, by omega⟩

theorem inclusive_pairwise (lo hi : ℤ) : (inclusive lo hi).Pairwise (· < ·) := by
  unfold inclusive
  rw [List.pairwise_map]
  exact List.pairwise_lt_range.imp fun h => by omega

/-! ## Buckets of ids -/

theorem toNat_timestampMs (s : Snowflake) : s.timestampMs.toNat = s.value.toNat / 2 ^ 22 :=
  toNat_shr (by decide)

theorem fromTimestampMillis_of_range {ms : ℤ} (h : -8334601228800000 ≤ ms ∧ ms ≤ 8210266876799999) :
    DateTime.fromTimestampMillis ms = some ⟨ms⟩ := if_pos h

/-- the creation time of every id is inside chrono's range -/
theorem createdAt_millis (s : Snowflake) : s.createdAt.millis = (s.timestampMs.toNat : ℤ) + 1704067200000 := by
  have hlt : s.timestampMs.toNat < 2 ^ 42 := by
    rw [toNat_timestampMs]
    have := s.value.toNat_lt
    omega
  have hadd : (s.timestampMs + lumiereEpoch).toNat = s.timestampMs.toNat + 1704067200000 := by
    have he : lumiereEpoch.toNat = 1704067200000 := rfl
    rw [UInt64.toNat_add, he]
    omega
  have hint : (s.timestampMs + lumiereEpoch).toBitVec.toInt = (s.timestampMs.toNat : ℤ) + 1704067200000 := by
    rw [BitVec.toInt_eq_toNat_cond, UInt64.toNat_toBitVec, hadd]
    split_ifs <;> omega
  have hsome := @fromTimestampMillis_of_range ((s.timestampMs.toNat : ℤ) + 1704067200000) (by omega)
  unfold Snowflake.createdAt
  simp only [hint, hsome, Option.getD_some]

theorem toI32_of_lt {v : ℤ} (h0 : 0 ≤ v) (h : v < 2 ^ 31) : toI32 v = v := by
  unfold toI32
  rw [Int.bmod_eq_of_le] <;> omega

theorem bucketFromSnowflake_eq (s : Snowflake) : bucketFromSnowflake s = (s.timestampMs.toNat / 864000000 : ℕ) := by
  have hlt : s.timestampMs.toNat < 2 ^ 42 := by
    rw [toNat_timestampMs]
    have := s.value.toNat_lt
    omega
  have hsecs : s.createdAt.timestamp - lumiereEpochSecs = (s.timestampMs.toNat / 1000 : ℕ) := by
    rw [DateTime.timestamp, createdAt_millis, lumiereEpochSecs]
    omega
  have hdays : ((s.timestampMs.toNat / 1000 : ℕ) : ℤ).tdiv 86400 = (s.timestampMs.toNat / 86400000 : ℕ) := by
    rw [Int.tdiv_eq_ediv_of_nonneg (by omega)]
    omega
  have hcast : toI32 (s.timestampMs.toNat / 86400000 : ℕ) = (s.timestampMs.toNat / 86400000 : ℕ) :=
    toI32_of_lt (by omega) (by omega)
  unfold bucketFromSnowflake bucketFromDatetime
  dsimp only
  rw [hsecs, hdays, hcast, bucketSizeDays, Int.tdiv_eq_ediv_of_nonneg (by omega)]
  omega

/-- the bucket of a signed column value -/
def bucketOfId (id : ℤ) : ℤ := bucketFromSnowflake (Snowflake.ofI64 id)

theorem bucketOfId_nonneg (id : ℤ) : 0 ≤ bucketOfId id := by
  rw [bucketOfId, bucketFromSnowflake_eq]
  omega

theorem bucketOfId_eq {id : ℤ} (h0 : 0 ≤ id) (h : id < 2 ^ 63) : bucketOfId id = id / 2 ^ 22 / 864000000 := by
  have hv : (Snowflake.ofI64 id).value.toNat = id.toNat := by
    unfold Snowflake.ofI64 UInt64.ofInt
    rw [UInt64.toNat_ofNat']
    omega
  rw [bucketOfId, bucketFromSnowflake_eq, toNat_timestampMs, hv]
  omega

/-- a negative value is read as an unsigned one -/
theorem bucketOfId_eq_of_neg {id : ℤ} (h : -2 ^ 63 ≤ id) (h0 : id < 0) :
    bucketOfId id = (id + 2 ^ 64) / 2 ^ 22 / 864000000 := by
  have hv : (Snowflake.ofI64 id).value.toNat = (id + 2 ^ 64).toNat := by
    unfold Snowflake.ofI64 UInt64.ofInt
    rw [UInt64.toNat_ofNat']
    omega
  rw [bucketOfId, bucketFromSnowflake_eq, toNat_timestampMs, hv]
  omega

theorem bucketOfId_mono {a b : ℤ} (h0 : 0 ≤ a) (hab : a ≤ b) (h : b < 2 ^ 63) : bucketOfId a ≤ bucketOfId b := by
  rw [bucketOfId_eq h0 (by omega), bucketOfId_eq (by omega) h]
  omega

theorem bucketOfId_mono_of_neg {a b : ℤ} (h : -2 ^ 63 ≤ a) (hab : a ≤ b) (h0 : b < 0) :
    bucketOfId a ≤ bucketOfId b := by
  rw [bucketOfId_eq_of_neg h (by omega), bucketOfId_eq_of_neg (by omega) h0]
  omega

/-- the two signs meet in one bucket -/
theorem bucketOfId_sign {id : ℤ} (h : -2 ^ 63 ≤ id ∧ id < 2 ^ 63) :
    (0 ≤ id → bucketOfId id ≤ 2545) ∧ (id < 0 → 2545 ≤ bucketOfId id) := by
  constructor
  · intro h0
    rw [bucketOfId_eq h0 h.2]
    omega
  · intro h0
    rw [bucketOfId_eq_of_neg h.1 h0]
    omega

/-! ## Exactly -/

/-- no step from an id to its bucket overflows, loses digits or falls back to another date -/
structure Exact (s : Snowflake) : Prop where
  sum : (s.timestampMs + lumiereEpoch).toNat = s.timestampMs.toNat + lumiereEpoch.toNat
  asI64 : (s.timestampMs + lumiereEpoch).toBitVec.toInt = (s.timestampMs + lumiereEpoch).toNat
  date : DateTime.fromTimestampMillis (s.timestampMs + lumiereEpoch).toBitVec.toInt = some s.createdAt
  seconds : s.createdAt.timestamp - lumiereEpochSecs = (s.timestampMs.toNat / 1000 : ℕ)
  asI32 : toI32 ((s.createdAt.timestamp - lumiereEpochSecs).tdiv 86400) = (s.timestampMs.toNat / 86400000 : ℕ)
  bucket : bucketFromSnowflake s = (s.timestampMs.toNat / 864000000 : ℕ)

theorem timestampMs_lt (s : Snowflake) : s.timestampMs.toNat < 2 ^ 42 := by
  have h := s.value.toNat_lt
  rw [toNat_timestampMs]
  omega

theorem exact_of_snowflake (s : Snowflake) : Exact s := by
  have hlt := timestampMs_lt s
  have hepoch : lumiereEpoch.toNat = 1704067200000 := rfl
  have hsum : (s.timestampMs + lumiereEpoch).toNat = s.timestampMs.toNat + lumiereEpoch.toNat := by
    rw [UInt64.toNat_add]
    omega
  have hint : (s.timestampMs + lumiereEpoch).toBitVec.toInt = (s.timestampMs + lumiereEpoch).toNat := by
    rw [BitVec.toInt_eq_toNat_cond, UInt64.toNat_toBitVec]
    split_ifs <;> omega
  have hsome : DateTime.fromTimestampMillis (s.timestampMs + lumiereEpoch).toBitVec.toInt =
      some ⟨(s.timestampMs + lumiereEpoch).toBitVec.toInt⟩ := fromTimestampMillis_of_range (by omega)
  have hseconds : s.createdAt.timestamp - lumiereEpochSecs = (s.timestampMs.toNat / 1000 : ℕ) := by
    rw [DateTime.timestamp, createdAt_millis, lumiereEpochSecs]
    omega
  refine ⟨hsum, hint, ?_, hseconds, ?_, bucketFromSnowflake_eq s⟩
  · have hcreated : s.createdAt =
        (DateTime.fromTimestampMillis (s.timestampMs + lumiereEpoch).toBitVec.toInt).getD default := rfl
    rw [hcreated, hsome, Option.getD_some]
  · rw [hseconds, Int.tdiv_eq_ediv_of_nonneg (by omega), toI32_of_lt (by omega) (by omega)]
    omega

/-! ## Order -/

theorem bucketFromSnowflake_mono {a b : Snowflake} (h : a.value ≤ b.value) :
    bucketFromSnowflake a ≤ bucketFromSnowflake b := by
  have hvalue : a.value.toNat ≤ b.value.toNat := UInt64.le_iff_toNat_le.1 h
  rw [bucketFromSnowflake_eq, bucketFromSnowflake_eq, toNat_timestampMs, toNat_timestampMs]
  omega

theorem toI64_eq_of_lt {s : Snowflake} (h : s.value.toNat < 2 ^ 63) : s.toI64 = s.value.toNat := by
  rw [Snowflake.toI64, BitVec.toInt_eq_toNat_cond, UInt64.toNat_toBitVec]
  split_ifs <;> omega

theorem toI64_le_iff {a b : Snowflake} (ha : a.value.toNat < 2 ^ 63) (hb : b.value.toNat < 2 ^ 63) :
    a.toI64 ≤ b.toI64 ↔ a.value ≤ b.value := by
  rw [toI64_eq_of_lt ha, toI64_eq_of_lt hb, UInt64.le_iff_toNat_le]
  omega

theorem descending_reverse (lo hi : ℤ) : (inclusive lo hi).reverse.Pairwise (· > ·) :=
  List.pairwise_reverse.2 (inclusive_pairwise lo hi)

theorem ordered_eq (x y : ℤ) : ordered x y = (min x y, max x y) := by
  unfold ordered
  split_ifs with h
  · rw [min_eq_left h, max_eq_right h]
  · rw [min_eq_right (by omega), max_eq_left (by omega)]

theorem mem_bucketRange {a b : Snowflake} {n : ℤ} :
    n ∈ bucketRange a b ↔ min (bucketFromSnowflake a) (bucketFromSnowflake b) ≤ n ∧
      n ≤ max (bucketFromSnowflake a) (bucketFromSnowflake b) := by
  rw [bucketRange, ordered_eq, List.mem_reverse, mem_inclusive]

/-- **The arithmetic of buckets.** The bucket of an id is its millisecond count divided by the milliseconds of ten days,
and nothing is lost on the way; buckets follow the order of the ids, as do the values of a signed column below 2^63; the
two lists are strictly descending and have every bucket in between. -/
theorem bucket_arithmetic (a b : Snowflake) (m : ℤ) :
    (Exact a ∧ bucketFromSnowflake a = ((a.value >>> 22).toNat / 864000000 : ℕ)) ∧
    (a.value ≤ b.value → bucketFromSnowflake a ≤ bucketFromSnowflake b) ∧
    (a.value.toNat < 2 ^ 63 → b.value.toNat < 2 ^ 63 → (a.toI64 ≤ b.toI64 ↔ a.value ≤ b.value)) ∧
    ((bucketsBefore a m).Pairwise (· > ·) ∧ ∀ n, n ∈ bucketsBefore a m ↔ m ≤ n ∧ n ≤ bucketFromSnowflake a) ∧
    (bucketFromSnowflake a < m → bucketsBefore a m = []) ∧
    ((bucketRange a b).Pairwise (· > ·) ∧ ∀ n, n ∈ bucketRange a b ↔
      min (bucketFromSnowflake a) (bucketFromSnowflake b) ≤ n ∧ n ≤ max (bucketFromSnowflake a) (bucketFromSnowflake b)) ∧
    ∀ s : Snowflake, (a.value ≤ s.value ∧ s.value ≤ b.value) ∨ (b.value ≤ s.value ∧ s.value ≤ a.value) →
      bucketFromSnowflake s ∈ bucketRange a b := by
  have hmem : ∀ n, n ∈ bucketsBefore a m ↔ m ≤ n ∧ n ≤ bucketFromSnowflake a := fun n => by
    rw [bucketsBefore, List.mem_reverse, mem_inclusive]
  have hshift : a.value >>> 22 = a.timestampMs := rfl
  have hbucket : bucketFromSnowflake a = ((a.value >>> 22).toNat / 864000000 : ℕ) := by
    rw [hshift, bucketFromSnowflake_eq]
  refine ⟨⟨exact_of_snowflake a, hbucket⟩, bucketFromSnowflake_mono, toI64_le_iff,
    ⟨descending_reverse _ _, hmem⟩, fun hm => ?_, ⟨?_, fun n => mem_bucketRange⟩, fun s hs => ?_⟩
  · refine List.eq_nil_iff_forall_not_mem.2 fun n hn => ?_
    have hbounds := (hmem n).1 hn
    omega
  · exact descending_reverse _ _
  · rcases hs with ⟨ha, hb⟩ | ⟨hb, ha⟩
    · exact mem_bucketRange.2 ⟨min_le_of_left_le (bucketFromSnowflake_mono ha),
        le_max_of_le_right (bucketFromSnowflake_mono hb)⟩
    · exact mem_bucketRange.2 ⟨min_le_of_right_le (bucketFromSnowflake_mono hb),
        le_max_of_le_left (bucketFromSnowflake_mono ha)⟩

end Lumiere.Models
