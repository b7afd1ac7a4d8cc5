/-
Snowflake ids (`lumiere-models/src/snowflake.rs`): a 64-bit word [timestamp][10-bit machine id][12-bit sequence], with
the casts to and from the signed 64-bit columns of both databases.

`created_at` goes through chrono's millisecond constructor, which refuses a count outside its calendar; a refused
count falls back to the Unix epoch (`unwrap_or_default`).
-/
import Lumiere.Core.Bits
import Lumiere.Core.Str

namespace Lumiere.Models

open Lumiere.Core

/-- custom epoch: 2024-01-01T00:00:00Z in milliseconds -/
def lumiereEpoch : UInt64 := 1704067200000

def machineIdBits : UInt64 := 10
def sequenceBits : UInt64 := 12

def maxMachineId : UInt16 := ((1 : UInt16) <<< machineIdBits.toUInt16) - 1
def maxSequence : UInt16 := ((1 : UInt16) <<< sequenceBits.toUInt16) - 1

def machineIdShift : UInt64 := sequenceBits
def timestampShift : UInt64 := machineIdBits + sequenceBits

structure Snowflake where
  value : UInt64
deriving DecidableEq, Repr

namespace Snowflake

/-- milliseconds since the Lumiere epoch -/
def timestampMs (s : Snowflake) : UInt64 := s.value >>> timestampShift

def machineId (s : Snowflake) : UInt16 := ((s.value >>> machineIdShift) &&& maxMachineId.toUInt64).toUInt16

def sequence (s : Snowflake) : UInt16 := (s.value &&& maxSequence.toUInt64).toUInt16

/-- `v as u64` of a signed 64-bit value -/
def ofI64 (v : ℤ) : Snowflake := ⟨UInt64.ofInt v⟩

/-- `s.0 as i64` -/
def toI64 (s : Snowflake) : ℤ := s.value.toBitVec.toInt

def fromStr (s : String) : Option Snowflake := (Str.parseU64 s).map fun n => ⟨UInt64.ofNat n⟩

end Snowflake

/-- an id is read back from its text -/
theorem Snowflake.fromStr_toString (s : Snowflake) : fromStr (toString s.value) = some s := by
  have hparse : Str.parseU64 (toString s.value) = some s.value.toNat := Str.parseU64_toString s.value.toNat_lt
  rw [fromStr, hparse]
  simp

theorem toString_value_inj {a b : Snowflake} : toString a.value = toString b.value ↔ a = b := by
  constructor
  · intro h
    exact Option.some.inj ((Snowflake.fromStr_toString a).symm.trans (h ▸ Snowflake.fromStr_toString b))
  · rintro rfl
    rfl

theorem Snowflake.ofI64_toI64 (s : Snowflake) : ofI64 s.toI64 = s := by
  obtain ⟨v⟩ := s
  have hv : v.toBitVec.toInt % 18446744073709551616 = (v.toNat : ℤ) := by
    have hlt := v.toNat_lt
    rw [BitVec.toInt_eq_toNat_bmod, UInt64.toNat_toBitVec]
    refine Int.bmod_emod.trans (Int.emod_eq_of_lt ?_ ?_) <;> omega
  unfold ofI64 toI64
  congr 1
  rw [UInt64.ofInt]
  exact (congrArg (fun i : ℤ => UInt64.ofNat i.toNat) hv).trans (by simp)

/-- a UTC instant, in milliseconds since the Unix epoch -/
structure DateTime where
  millis : ℤ
deriving DecidableEq, Repr

instance : Inhabited DateTime := ⟨⟨0⟩⟩

namespace DateTime

/-- chrono's range: -262143-01-01T00:00:00.000 to 262142-12-31T23:59:59.999 -/
def fromTimestampMillis (ms : ℤ) : Option DateTime :=
  if -8334601228800000 ≤ ms ∧ ms ≤ 8210266876799999 then some ⟨ms⟩ else none

/-- whole seconds since the Unix epoch, rounded down -/
def timestamp (d : DateTime) : ℤ := d.millis / 1000

end DateTime

def Snowflake.createdAt (s : Snowflake) : DateTime :=
  let ms := s.timestampMs + lumiereEpoch
  (DateTime.fromTimestampMillis ms.toBitVec.toInt).getD default

/-! ## The fields of a packed id -/

/-- the word `next_id` builds from its three fields -/
def packId (ts : UInt64) (machineId seq : UInt16) : UInt64 :=
  (ts <<< timestampShift) ||| (machineId.toUInt64 <<< machineIdShift) ||| seq.toUInt64

section Fields

variable {ts : UInt64} {mid seq : UInt16}

theorem toNat_packId (hts : ts.toNat < 2 ^ 42) (hmid : mid ≤ maxMachineId) (hseq : seq ≤ maxSequence) :
    (packId ts mid seq).toNat = ts.toNat * 2 ^ 22 + (mid.toNat * 2 ^ 12 + seq.toNat) := by
  have hm : mid.toNat ≤ 1023 := hmid
  have hs : seq.toNat ≤ 4095 := hseq
  have hm64 : mid.toUInt64.toNat * 2 ^ machineIdShift.toNat < 2 ^ 64 := by
    rw [UInt16.toNat_toUInt64]; show mid.toNat * 2 ^ 12 < 2 ^ 64; omega
  have hs64 : seq.toUInt64.toNat < 2 ^ machineIdShift.toNat := by
    rw [UInt16.toNat_toUInt64]; show seq.toNat < 2 ^ 12; omega
  have hlow : ((mid.toUInt64 <<< machineIdShift) ||| seq.toUInt64).toNat = mid.toNat * 2 ^ 12 + seq.toNat :=
    toNat_pack (by decide) hm64 hs64
  have hts64 : ts.toNat * 2 ^ timestampShift.toNat < 2 ^ 64 := by
    show ts.toNat * 2 ^ 22 < 2 ^ 64; omega
  have hlow22 : ((mid.toUInt64 <<< machineIdShift) ||| seq.toUInt64).toNat < 2 ^ timestampShift.toNat := by
    rw [hlow]; show mid.toNat * 2 ^ 12 + seq.toNat < 2 ^ 22; omega
  rw [packId, UInt64.or_assoc, toNat_pack (by decide) hts64 hlow22, hlow]
  rfl

theorem timestampMs_packId (hts : ts.toNat < 2 ^ 42) (hmid : mid ≤ maxMachineId) (hseq : seq ≤ maxSequence) :
    (Snowflake.mk (packId ts mid seq)).timestampMs = ts := by
  have hm : mid.toNat ≤ 1023 := hmid
  have hs : seq.toNat ≤ 4095 := hseq
  apply UInt64.toNat_inj.1
  rw [Snowflake.timestampMs, toNat_shr (by decide), toNat_packId hts hmid hseq]
  show (ts.toNat * 2 ^ 22 + (mid.toNat * 2 ^ 12 + seq.toNat)) / 2 ^ 22 = ts.toNat
  omega

theorem machineId_packId (hts : ts.toNat < 2 ^ 42) (hmid : mid ≤ maxMachineId) (hseq : seq ≤ maxSequence) :
    (Snowflake.mk (packId ts mid seq)).machineId = mid := by
  have hm : mid.toNat ≤ 1023 := hmid
  have hs : seq.toNat ≤ 4095 := hseq
  have hmask : maxMachineId.toUInt64.toNat = 2 ^ 10 - 1 := by decide
  apply UInt16.toNat_inj.1
  rw [Snowflake.machineId, UInt64.toNat_toUInt16, toNat_mask hmask, toNat_shr (by decide), toNat_packId hts hmid hseq]
  show (ts.toNat * 2 ^ 22 + (mid.toNat * 2 ^ 12 + seq.toNat)) / 2 ^ 12 % 2 ^ 10 % 2 ^ 16 = mid.toNat
  omega

end Fields

end Lumiere.Models
