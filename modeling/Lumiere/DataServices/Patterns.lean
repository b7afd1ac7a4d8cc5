/-
`delete_pattern` of the Redis cache (`lumiere-data-services/src/redis_cache.rs`), which is what `invalidate_pattern` of
`cache.rs` calls. SCAN collects the keys, DEL removes them in chunks of 100; others store and remove keys meanwhile.

- `deletePattern_sweeps`: what matches is gone afterwards unless somebody has stored it meanwhile, and nothing else is
  touched; the number returned counts what SCAN has reported.
- `deletePattern_sweeps_users`: a key that SCAN reports twice counts twice, and one stored meanwhile may stay.
-/
import Lumiere.Core.Sweep
import Mathlib.Data.List.Perm.Subperm

namespace Lumiere.DataServices.Patterns

open Lumiere.Core Lumiere.Core.Prog

-- `E` is the error of the connection
variable {V E : Type}

/-! ## The cache -/

structure RedisCache where
  /-- in front of every key -/
  keyPrefix : String
deriving DecidableEq, Repr

def RedisCache.prefixedKey (cache : RedisCache) (key : String) : String := cache.keyPrefix ++ key

inductive Command where
  | del (keys : List String)
deriving DecidableEq, Repr

def Command.keys : Command → List String
  | .del keys => keys

/-- the number of keys that were there -/
def Command.exec : Command → Keyspace String V → Except E (ℕ × Keyspace String V)
  | .del keys, db => .ok (keys.dedup.countP fun k => (db k).isSome, db.remove keys)

abbrev CacheCall (V E : Type) := Prog (Keyspace String V) Command E

/-- `keys.chunks(n)` -/
def chunks {α : Type} (n : ℕ) (l : List α) : List (List α) :=
  (List.range ((l.length + n - 1) / n)).map fun i => (l.drop (n * i)).take n

/-- what follows the SCAN -/
def deleteKeys (keys : List String) : CacheCall V E ℕ :=
  if keys.isEmpty then pure 0
  else do
    (chunks 100 keys).forM fun chunk => execute (.del chunk)
    pure keys.length

/-- the keys that SCAN is asked for -/
def matched (glob : Glob) (cache : RedisCache) (pattern key : String) : Bool :=
  glob.accepts (cache.prefixedKey pattern) key

abbrev Deletion (V E : Type) := Sweep String V Command E ℕ

def deletePattern : Deletion V E → Sweep.Op String V E → Deletion V E := Sweep.step deleteKeys Command.exec

/-! ## Chunks -/

theorem mem_chunks {α : Type} {n : ℕ} (hn : 0 < n) {l : List α} {a : α} :
    a ∈ l ↔ ∃ chunk ∈ chunks n l, a ∈ chunk := by
  constructor
  · intro ha
    obtain ⟨j, hj, rfl⟩ := List.mem_iff_getElem.mp ha
    refine ⟨(l.drop (n * (j / n))).take n, List.mem_map.mpr ⟨j / n, ?_, rfl⟩, ?_⟩
    · rw [List.mem_range, Nat.div_lt_iff_lt_mul hn]
      have hround := Nat.div_add_mod (l.length + n - 1) n
      have hrest := Nat.mod_lt (l.length + n - 1) hn
      rw [Nat.mul_comm]
      omega
    · have hsplit := Nat.div_add_mod j n
      have hrest := Nat.mod_lt j hn
      refine List.mem_iff_getElem.mpr ⟨j % n, ?_, ?_⟩
      · rw [List.length_take, List.length_drop]
        omega
      · rw [List.getElem_take, List.getElem_drop]
        congr 1
  · intro h
    obtain ⟨chunk, hchunk, ha⟩ := h
    obtain ⟨i, -, rfl⟩ := List.mem_map.mp hchunk
    exact List.mem_of_mem_drop (List.mem_of_mem_take ha)

/-! ## The deletion -/

theorem exec_eq_remove (w : Command) (db : Keyspace String V) (n : ℕ) (db' : Keyspace String V)
    (h : (w.exec db : Except E _) = .ok (n, db')) : db' = db.remove w.keys := by
  cases w with
  | del keys => exact (Prod.mk.inj (Except.ok.inj h)).2.symm

theorem deleteKeys_issues (ks : List String) : (deleteKeys ks : CacheCall V E ℕ).Issues fun w => w.keys ⊆ ks := by
  rw [deleteKeys]
  split_ifs with hempty
  · exact issues_pure 0
  · apply issues_bind
    · apply issues_forM
      intro chunk hchunk
      refine issues_execute ?_
      intro k hk
      exact (mem_chunks (by decide)).mpr ⟨chunk, hchunk, hk⟩
    · intro _
      exact issues_pure _

theorem deleteKeys_owes (ks : List String) (k : String) (hk : k ∈ ks) :
    (deleteKeys ks : CacheCall V E ℕ).Owes (fun w k => k ∈ w.keys) k := by
  rw [deleteKeys, if_neg]
  · obtain ⟨chunk, hchunk, hkc⟩ := (mem_chunks (n := 100) (by decide)).mp hk
    exact owes_bind (owes_forM_execute hchunk hkc)
  · intro hempty
    rw [List.isEmpty_iff.mp hempty] at hk
    cases hk

theorem deleteKeys_returns (ks : List String) : (deleteKeys ks : CacheCall V E ℕ).Returns fun n => n = ks.length := by
  rw [deleteKeys]
  split_ifs with hempty
  · rw [List.isEmpty_iff.mp hempty]
    rfl
  · apply returns_bind
    intro _
    rfl

/-- the store after a deletion, and the number that it returns -/
structure Swept (pat : String → Bool) (db : Keyspace String V) (changes : List (Change String V)) (n : ℕ)
    (left : Keyspace String V) : Prop where
  gone : ∀ k, pat k = true → NeverSet k changes → left k = none
  /-- the keys that were there all the time are counted -/
  counted : ∀ keys : List String, keys.Nodup → (∀ k ∈ keys, pat k = true ∧ Stays k db changes) → keys.length ≤ n

/-- **A deletion by pattern removes what matches and nothing else,** whatever others do meanwhile. -/
theorem deletePattern_sweeps (glob : Glob) (cache : RedisCache) (pattern : String)
    (db : Keyspace String V) {ops : List (Sweep.Op String V E)}
    (h : Sweep.Scanned (matched glob cache pattern) db ops) :
    (∀ k, matched glob cache pattern k = false →
      (run deletePattern (Sweep.start db) ops).db k = db.after (Sweep.changes ops) k) ∧
      ∀ n, (run deletePattern (Sweep.start db) ops).state = .inr (.ret n) →
        Swept (matched glob cache pattern) db (Sweep.changes ops) n
          (run deletePattern (Sweep.start db) ops).db := by
  refine ⟨fun k hk => Sweep.untouched exec_eq_remove deleteKeys_issues h hk, ?_⟩
  intro n hdone
  constructor
  · intro k hk hset
    exact Sweep.swept exec_eq_remove deleteKeys_issues deleteKeys_owes h hk hset hdone
  · intro keys hnodup hkeys
    obtain ⟨l, batch, hpre, hlast, hn⟩ := Sweep.returned deleteKeys_returns hdone
    rw [hn]
    apply List.Subperm.length_le
    apply hnodup.subperm
    intro k hk
    apply h.complete l batch hpre hlast k (hkeys k hk).1
    exact Sweep.stays_of_prefix (hkeys k hk).2 ((List.prefix_append l _).trans hpre)

def users : RedisCache := ⟨"cache:"⟩

def twoUsers : Keyspace String ℕ
  | "cache:user:1:name" => some 1
  | "cache:user:1:avatar" => some 2
  | "cache:user:2:name" => some 3
  | _ => none

/-- while user 1 is invalidated, entries are stored for both users; a key is reported twice -/
def busy : List (Sweep.Op String ℕ Empty) :=
  [.reply 7 ["cache:user:1:name"], .change ⟨"cache:user:1:bio", some 4⟩, .change ⟨"cache:user:2:bio", some 5⟩,
    .reply 0 ["cache:user:1:avatar", "cache:user:1:name"], .advance]

theorem scanned_busy : Sweep.Scanned (matched .literal users "user:1:*") twoUsers busy := by
  refine Sweep.scanned_of_last (l := busy.take 3) (m := busy.drop 4) (by decide) (by decide) ?_
  intro k hk hstays
  have hthere : (twoUsers k).isSome = true := hstays [] List.nil_prefix
  unfold twoUsers at hthere
  split at hthere
  · decide
  · decide
  · exact absurd hk (by decide)
  · cases hthere

/-- the entry of user 2 and the one stored meanwhile are still there -/
theorem deletePattern_sweeps_users :
    (run deletePattern (Sweep.start twoUsers) busy).db "cache:user:2:bio" = some 5 ∧
      Swept (matched .literal users "user:1:*") twoUsers (Sweep.changes busy) 3
        (run deletePattern (Sweep.start twoUsers) busy).db ∧
      (run deletePattern (Sweep.start twoUsers) busy).db "cache:user:1:bio" = some 4 :=
  ⟨((deletePattern_sweeps .literal users "user:1:*" twoUsers scanned_busy).1 _ (by decide)).trans (by decide),
    (deletePattern_sweeps .literal users "user:1:*" twoUsers scanned_busy).2 3 rfl, by decide⟩

end Lumiere.DataServices.Patterns
