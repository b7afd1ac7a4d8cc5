/-
Lists in Redis, as keys that can expire: `RPUSH`, `LTRIM`, `EXPIRE` and `LRANGE`. Times are seconds on Redis' clock.

- `ltrim_last`: trimming to the last n.
- `pushLast_eq`: a push that keeps the last n and starts the time to live again.
- `pushes_suffix`: in a run of such pushes, the last ones that fit and came before the key could expire are all there.
-/
import Lumiere.Core.Run
import Mathlib.Algebra.Order.Ring.Rat
import Mathlib.Data.List.Chain
import Mathlib.Data.List.Induction

namespace Lumiere.Core

variable {α : Type}

/-! ## Commands -/

structure ListKey (α : Type) where
  items : List α
  /-- `none` is a key without time to live -/
  expires : Option ℚ
deriving DecidableEq, Repr

namespace ListKey

variable (now : ℚ) (key : Option (ListKey α))

def live : Option (ListKey α) := key.filter fun k => k.expires.all fun e => decide (now < e)

/-- a missing key is an empty list -/
def read : List α := ((live now key).map items).getD []

/-- the elements between two indices; negative ones count from the end -/
def slice (start stop : ℤ) (l : List α) : List α :=
  let first := if start < 0 then max 0 (l.length + start) else start
  let last := if stop < 0 then l.length + stop else stop
  (l.take (last + 1).toNat).drop first.toNat

def rpush (x : α) : Option (ListKey α) :=
  match live now key with
  | none => some ⟨[x], none⟩
  | some k => some { k with items := k.items ++ [x] }

/-- an empty list is a missing key -/
def ltrim (start stop : ℤ) : Option (ListKey α) :=
  (live now key).bind fun k =>
    let items := slice start stop k.items
    if items.isEmpty then none else some { k with items }

def expire (seconds : ℚ) : Option (ListKey α) := (live now key).map fun k => { k with expires := some (now + seconds) }

def lrange (start stop : ℤ) : List α := slice start stop (read now key)

variable {now key}

/-! ## Slices -/

theorem slice_all (l : List α) : slice 0 (-1) l = l := by
  have hlast : ((l.length : ℤ) + -1 + 1).toNat = l.length := by omega
  simp only [slice, lt_irrefl, if_false, Int.toNat_zero, List.drop_zero, neg_lt_zero, zero_lt_one, if_true, hlast,
    List.take_length]

theorem slice_last {n : ℕ} (hn : 0 < n) (l : List α) : slice (-(n : ℤ)) (-1) l = l.drop (l.length - n) := by
  have hneg : -(n : ℤ) < 0 := by omega
  have hfirst : (max 0 ((l.length : ℤ) + -(n : ℤ))).toNat = l.length - n := by omega
  have hlast : ((l.length : ℤ) + -1 + 1).toNat = l.length := by omega
  simp only [slice, hneg, neg_lt_zero, zero_lt_one, if_true, hfirst, hlast, List.take_length]

theorem lrange_all : lrange now key 0 (-1) = read now key := slice_all _

/-! ## Keeping the last -/

/-- `RPUSH`, `LTRIM -n -1` and `EXPIRE` in one pipeline -/
def pushLast (n : ℕ) (seconds : ℚ) (now : ℚ) (x : α) (key : Option (ListKey α)) : Option (ListKey α) :=
  expire now (ltrim now (rpush now key x) (-(n : ℤ)) (-1)) seconds

theorem live_of_all {items : List α} {e : Option ℚ} (h : e.all (fun e => decide (now < e)) = true) :
    live now (some ⟨items, e⟩) = some ⟨items, e⟩ :=
  Option.filter_some_pos h

theorem read_of_lt {items : List α} {e : ℚ} (h : now < e) : read now (some ⟨items, some e⟩) = items := by
  rw [read, live_of_all (by simpa using h)]
  rfl

theorem read_of_le {items : List α} {e : ℚ} (h : e ≤ now) : read now (some ⟨items, some e⟩) = [] := by
  have hgone : live now (some ⟨items, some e⟩) = none := Option.filter_some_neg (by simpa using h)
  rw [read, hgone]
  rfl

theorem mem_of_mem_read {x : α} (h : x ∈ read now key) : ∃ k ∈ key, x ∈ k.items := by
  unfold read at h
  cases hlive : live now key with
  | none =>
    rw [hlive] at h
    cases h
  | some k =>
    rw [hlive] at h
    exact ⟨k, (Option.filter_eq_some_iff.1 hlive).1, h⟩

theorem live_rpush (now : ℚ) (key : Option (ListKey α)) (x : α) : ∃ e, live now (rpush now key x) = some ⟨read now key ++ [x], e⟩ := by
  unfold rpush read
  cases hlive : live now key with
  | none => exact ⟨none, rfl⟩
  | some k =>
    have hk : k.expires.all (fun e => decide (now < e)) = true := (Option.filter_eq_some_iff.1 hlive).2
    exact ⟨k.expires, Option.filter_some_pos hk⟩

/-- **A push keeps the last n** and starts the time to live again. -/
theorem pushLast_eq {n : ℕ} (hn : 0 < n) (seconds now : ℚ) (x : α) (key : Option (ListKey α)) :
    pushLast n seconds now x key =
      some ⟨(read now key ++ [x]).drop ((read now key ++ [x]).length - n), some (now + seconds)⟩ := by
  obtain ⟨e, hpush⟩ := live_rpush now key x
  have hne : ((read now key ++ [x]).drop ((read now key ++ [x]).length - n)).isEmpty = false := by
    rw [List.isEmpty_eq_false_iff, ne_eq, List.drop_eq_nil_iff, List.length_append, List.length_singleton]
    omega
  have hkeep : ∀ items : List α, live now (some ⟨items, e⟩) = some ⟨items, e⟩ := fun _ =>
    live_of_all (Option.filter_eq_some_iff.1 hpush).2
  rw [pushLast, ltrim, hpush, Option.bind_some]
  dsimp only
  rw [slice_last hn, hne, if_neg Bool.false_ne_true, expire, hkeep]
  rfl

/-- pushes at some times -/
def pushes (n : ℕ) (seconds : ℚ) (ops : List (ℚ × α)) : Option (ListKey α) :=
  run (fun key op => pushLast n seconds op.1 op.2 key) none ops

theorem pushes_snoc (n : ℕ) (seconds : ℚ) (ops : List (ℚ × α)) (op : ℚ × α) :
    pushes n seconds (ops ++ [op]) = pushLast n seconds op.1 op.2 (pushes n seconds ops) :=
  run_snoc _ _ _ _

/-- what a key holds has been pushed -/
theorem mem_of_mem_pushes {n : ℕ} (hn : 0 < n) {seconds : ℚ} {ops : List (ℚ × α)} {x : α}
    (h : x ∈ read now (pushes n seconds ops)) : x ∈ ops.map Prod.snd := by
  induction ops using List.reverseRecOn generalizing now with
  | nil => cases h
  | append_singleton ops op ih =>
    obtain ⟨k, hk, hx⟩ := mem_of_mem_read h
    rw [pushes_snoc, pushLast_eq hn] at hk
    obtain rfl := Option.some.inj hk
    rw [List.map_append, List.mem_append]
    rcases List.mem_append.1 (List.mem_of_mem_drop hx) with hold | hnew
    · exact .inl (ih hold)
    · exact .inr (by simpa using hnew)

/-- **The last pushes are all there**, if they fit and none came after the key could have expired. -/
theorem pushes_suffix {n : ℕ} {seconds : ℚ} (pre : List (ℚ × α)) {suf : List (ℚ × α)} (hne : suf ≠ []) (hlen : suf.length ≤ n)
    (hchain : suf.IsChain fun a b => b.1 < a.1 + seconds) :
    ∃ front last, (∀ x ∈ front, x ∈ pre.map Prod.snd) ∧ suf.getLast? = some last ∧
      pushes n seconds (pre ++ suf) = some ⟨front ++ suf.map Prod.snd, some (last.1 + seconds)⟩ := by
  induction suf using List.reverseRecOn with
  | nil => exact absurd rfl hne
  | append_singleton suf op ih =>
    rw [List.length_append, List.length_singleton] at hlen
    have hn : 0 < n := by omega
    -- what the push finds: the ones before it, and some older ones
    have hread : ∃ front, (∀ x ∈ front, x ∈ pre.map Prod.snd) ∧
        read op.1 (pushes n seconds (pre ++ suf)) = front ++ suf.map Prod.snd := by
      by_cases hsuf : suf = []
      · refine ⟨read op.1 (pushes n seconds pre), fun x hx => mem_of_mem_pushes hn hx, ?_⟩
        rw [hsuf, List.append_nil, List.map_nil, List.append_nil]
      · obtain ⟨hbefore, -, hnext⟩ := List.isChain_append.1 hchain
        obtain ⟨front, last, hfront, hlast, hkey⟩ := ih hsuf (by omega) hbefore
        refine ⟨front, hfront, ?_⟩
        rw [hkey, read_of_lt (hnext last hlast op rfl)]
    obtain ⟨front, hfront, hread⟩ := hread
    have hdrop : (front ++ (suf ++ [op]).map Prod.snd).length - n ≤ front.length := by
      rw [List.length_append, List.length_map, List.length_append, List.length_singleton]
      omega
    refine ⟨front.drop ((front ++ (suf ++ [op]).map Prod.snd).length - n), op,
      fun x hx => hfront x (List.mem_of_mem_drop hx), List.getLast?_concat, ?_⟩
    have hpushed : read op.1 (pushes n seconds (pre ++ suf)) ++ [op.2] = front ++ (suf ++ [op]).map Prod.snd := by
      rw [hread, List.append_assoc, List.map_append]
      rfl
    rw [← List.append_assoc, pushes_snoc, pushLast_eq hn, hpushed, List.drop_append_of_le_length hdrop]

end ListKey

end Lumiere.Core
