/-
Keys that expire. A key is held for the same time from when it was last set or renewed; one that has expired is not
there, so it cannot be renewed, and can be taken by whoever finds it free.

- `Tracks`: what every operation of a machine does to one key, as an `Act`.
- `held_iff`: a key has a value exactly if it was set to it, or taken with it while it was free, and never since was
  left alone for a lifetime, nor set or removed.
- `taken_apart`, `taken_length_le`: a key that is nothing but taken is taken at times that lie a lifetime apart, and is
  there for a lifetime each time.
- `St`: many keys and their clock. `left_put`, `left_renew`, `left_take`: what the commands do to each key.
-/
import Lumiere.Core.Run
import Mathlib.Data.List.Chain
import Mathlib.Logic.Function.Basic
import Mathlib.Tactic.Common

namespace Lumiere.Core.Lease

variable {σ ν : Type} {ω : Type}

/-! ## One key -/

/-- a key with the time that it has left, if it is there -/
abbrev Left (ν : Type) := Option (ν × ℕ)

inductive Act (ν : Type) where
  /-- time passes -/
  | tick (n : ℕ)
  | set (v : ν)
  | renew
  /-- set, if it is not there -/
  | take (v : ν)
  | del
  | idle
deriving DecidableEq, Repr

def Act.on (ttl : ℕ) (x : Left ν) : Act ν → Left ν
  | .tick n => x.bind fun e => if n < e.2 then some (e.1, e.2 - n) else none
  | .set v => some (v, ttl)
  | .renew => x.map fun e => (e.1, ttl)
  | .take v => x.or (some (v, ttl))
  | .del => none
  | .idle => x

/-- the key, with so much time left, is not set or removed, and is never left alone for the time that it has -/
def Kept (ttl : ℕ) : ℕ → List (Act ν) → Prop
  | r, [] => 0 < r
  | r, .tick n :: acts => n < r ∧ Kept ttl (r - n) acts
  | _, .renew :: acts => Kept ttl ttl acts
  | r, .take _ :: acts | r, .idle :: acts => Kept ttl r acts
  | _, .set _ :: _ | _, .del :: _ => False

variable {ttl : ℕ}

theorem foldl_of_kept {r : ℕ} {v : ν} {acts : List (Act ν)} (h : Kept ttl r acts) :
    ∃ r', acts.foldl (Act.on ttl) (some (v, r)) = some (v, r') := by
  induction acts generalizing r with
  | nil => exact ⟨r, rfl⟩
  | cons a acts ih =>
    rw [List.foldl_cons]
    cases a with
    | tick n =>
      obtain ⟨hn, h⟩ := h
      simpa [Act.on, hn] using ih h
    | set w => exact absurd h id
    | renew => exact ih h
    | take w => exact ih h
    | del => exact absurd h id
    | idle => exact ih h

/-- of a key that is there, the value was set before, and the key was kept since -/
theorem kept_of_foldl {x : Left ν} {v : ν} {r' : ℕ} {acts : List (Act ν)}
    (h : acts.foldl (Act.on ttl) x = some (v, r')) (hr' : 0 < r') :
    (∃ r, x = some (v, r) ∧ Kept ttl r acts) ∨
      ∃ pre a post, acts = pre ++ a :: post ∧ (a = .set v ∨ a = .take v ∧ pre.foldl (Act.on ttl) x = none) ∧
        Kept ttl ttl post := by
  induction acts generalizing x with
  | nil => exact .inl ⟨r', h, hr'⟩
  | cons a acts ih =>
    rw [List.foldl_cons] at h
    rcases ih h with ⟨r, hx, hkept⟩ | ⟨pre, b, post, hacts, hb, hkept⟩
    · cases a with
      | tick n =>
        obtain ⟨e, rfl, he⟩ := Option.bind_eq_some_iff.mp hx
        split_ifs at he with hn
        obtain ⟨rfl, rfl⟩ := Prod.mk.inj (Option.some.inj he)
        exact .inl ⟨e.2, rfl, hn, hkept⟩
      | set w =>
        obtain ⟨rfl, rfl⟩ := Prod.mk.inj (Option.some.inj hx)
        exact .inr ⟨[], .set w, acts, rfl, .inl rfl, hkept⟩
      | renew =>
        obtain ⟨e, rfl, he⟩ := Option.map_eq_some_iff.mp hx
        obtain ⟨rfl, rfl⟩ := Prod.mk.inj he
        exact .inl ⟨e.2, rfl, hkept⟩
      | take w =>
        cases x with
        | some e => exact .inl ⟨r, hx, hkept⟩
        | none =>
          obtain ⟨rfl, rfl⟩ := Prod.mk.inj (Option.some.inj hx)
          exact .inr ⟨[], .take w, acts, rfl, .inr ⟨rfl, rfl⟩, hkept⟩
      | del => cases hx
      | idle => exact .inl ⟨r, hx, hkept⟩
    · refine .inr ⟨a :: pre, b, post, by rw [hacts, List.cons_append], ?_, hkept⟩
      rcases hb with hb | ⟨hb, hpre⟩
      · exact .inl hb
      · exact .inr ⟨hb, by rw [List.foldl_cons, hpre]⟩

theorem on_pos (httl : 0 < ttl) {x : Left ν} (hx : ∀ e ∈ x, 0 < e.2) (a : Act ν) : ∀ e ∈ a.on ttl x, 0 < e.2 := by
  intro e he
  cases a with
  | tick n =>
    obtain ⟨e', he', heq⟩ := Option.bind_eq_some_iff.mp he
    split_ifs at heq with hn
    obtain rfl := Option.some.inj heq
    exact Nat.sub_pos_of_lt hn
  | set v =>
    obtain rfl := Option.some.inj he
    exact httl
  | renew =>
    obtain ⟨e', he', rfl⟩ := Option.map_eq_some_iff.mp he
    exact httl
  | take v =>
    cases x with
    | some e' => exact hx e he
    | none =>
      obtain rfl := Option.some.inj he
      exact httl
  | del => cases he
  | idle => exact hx e he

/-! ## A key of a machine -/

section Machine

variable (step : σ → ω → σ) (act : σ → ω → Act ν)

/-- what the operations of a run do to the key, one by one -/
def acts : σ → List ω → List (Act ν)
  | _, [] => []
  | s, o :: ops => act s o :: acts (step s o) ops

/-- every operation does to the key what is said of it -/
def Tracks (ttl : ℕ) (left : σ → Left ν) : Prop := ∀ s o, left (step s o) = (act s o).on ttl (left s)

variable {step act} {left : σ → Left ν}

theorem left_run (h : Tracks step act ttl left) (s : σ) (ops : List ω) :
    left (run step s ops) = (acts step act s ops).foldl (Act.on ttl) (left s) := by
  induction ops generalizing s with
  | nil => rfl
  | cons o ops ih => rw [run_cons, ih, acts, List.foldl_cons, h]

/-- where in a run an act is -/
theorem ops_of_acts {s : σ} {ops : List ω} {pre post : List (Act ν)} {a : Act ν}
    (h : acts step act s ops = pre ++ a :: post) :
    ∃ pre' o post', ops = pre' ++ o :: post' ∧ acts step act s pre' = pre ∧ act (run step s pre') o = a ∧
      acts step act (run step s (pre' ++ [o])) post' = post := by
  induction ops generalizing s pre with
  | nil => simp [acts] at h
  | cons o ops ih =>
    rw [acts] at h
    cases pre with
    | nil =>
      obtain ⟨ha, hpost⟩ := List.cons.inj h
      exact ⟨[], o, ops, rfl, rfl, ha, hpost⟩
    | cons b pre =>
      obtain ⟨rfl, hrest⟩ := List.cons.inj h
      obtain ⟨pre', o', post', rfl, rfl, ha, hpost⟩ := ih hrest
      exact ⟨o :: pre', o', post', rfl, rfl, ha, hpost⟩

/-- **What a key holds.** -/
theorem held_iff (h : Tracks step act ttl left) (httl : 0 < ttl) {s : σ} (hs : left s = none) (ops : List ω) (v : ν) :
    (left (run step s ops)).map Prod.fst = some v ↔
      ∃ pre o post, ops = pre ++ o :: post ∧
        (act (run step s pre) o = .set v ∨ act (run step s pre) o = .take v ∧ left (run step s pre) = none) ∧
        Kept ttl ttl (acts step act (run step s (pre ++ [o])) post) := by
  have hpos : ∀ e ∈ left (run step s ops), 0 < e.2 := by
    refine run_inv (I := fun s => ∀ e ∈ left s, 0 < e.2) ?_ (by simp [hs]) ops
    intro s o hi
    rw [h]
    exact on_pos httl hi (act s o)
  constructor
  · intro hv
    obtain ⟨⟨w, r⟩, hleft, rfl⟩ := Option.map_eq_some_iff.mp hv
    have hr := hpos _ hleft
    rw [left_run h, hs] at hleft
    rcases kept_of_foldl hleft hr with ⟨r, hx, -⟩ | ⟨pre, a, post, hacts, ha, hkept⟩
    · cases hx
    · obtain ⟨pre', o, post', rfl, rfl, rfl, rfl⟩ := ops_of_acts hacts
      refine ⟨pre', o, post', rfl, ?_, hkept⟩
      rw [left_run h, hs]
      exact ha
  · intro hheld
    obtain ⟨pre, o, post, rfl, ha, hkept⟩ := hheld
    obtain ⟨r, hfold⟩ := foldl_of_kept (v := v) hkept
    have hset : left (run step s (pre ++ [o])) = some (v, ttl) := by
      rw [run_snoc, h]
      rcases ha with ha | ⟨ha, hfree⟩
      · rw [ha, Act.on]
      · rw [ha, hfree, Act.on, Option.none_or]
    rw [List.append_cons, run_append, left_run h, hset, hfold]
    rfl

end Machine

/-! ## A key that is only taken -/

section Taken

variable {step : σ → ω → σ} {act : σ → ω → Act ν} {left : σ → Left ν} {now : σ → ℕ}

def Act.ticks : Act ν → ℕ
  | .tick n => n
  | _ => 0

/-- only time passes, or the key is taken if it is free -/
def Act.onlyTakes : Act ν → Prop
  | .set _ | .renew | .del => False
  | .tick _ | .take _ | .idle => True

def Act.isTake : Act ν → Bool
  | .take _ => true
  | _ => false

/-- the times at which the key is taken, oldest first -/
def taken (step : σ → ω → σ) (act : σ → ω → Act ν) (left : σ → Left ν) (now : σ → ℕ) : σ → List ω → List ℕ
  | _, [] => []
  | s, o :: ops =>
    (if (act s o).isTake && (left s).isNone then [now s] else []) ++ taken step act left now (step s o) ops

theorem taken_append (s : σ) (ops ops' : List ω) :
    taken step act left now s (ops ++ ops') =
      taken step act left now s ops ++ taken step act left now (run step s ops) ops' := by
  induction ops generalizing s with
  | nil => rfl
  | cons o ops ih => rw [List.cons_append, taken, taken, ih, run_cons, List.append_assoc]

/-- the key is there for a lifetime from when it was last taken, and each time was a lifetime after the one before -/
structure Taken (ttl : ℕ) (left : Left ν) (now : ℕ) (times : List ℕ) : Prop where
  left : left.map Prod.snd = times.getLast?.bind fun t => if now < t + ttl then some (t + ttl - now) else none
  past : ∀ t ∈ times.getLast?, t ≤ now
  apart : times.IsChain fun t t' => t + ttl ≤ t'

theorem Taken.tick {x : Left ν} {time : ℕ} {times : List ℕ} (h : Taken ttl x time times) (n : ℕ) :
    Taken ttl (Act.on ttl x (.tick n)) (time + n) times := by
  refine ⟨?_, fun t ht => Nat.le_add_right_of_le (h.past t ht), h.apart⟩
  have hleft := h.left
  cases x with
  | none =>
    cases htimes : times.getLast? with
    | none => rfl
    | some t =>
      simp only [htimes, Option.map_none, Option.bind_some] at hleft
      split_ifs at hleft with hnow
      have hlater : ¬ time + n < t + ttl := by omega
      simp [Act.on, hlater]
  | some e =>
    cases htimes : times.getLast? with
    | none => simp [htimes] at hleft
    | some t =>
      simp only [htimes, Option.map_some, Option.bind_some] at hleft
      split_ifs at hleft with hnow
      have he : e.2 = t + ttl - time := Option.some.inj hleft
      have hiff : n < t + ttl - time ↔ time + n < t + ttl := by omega
      have hsub : t + ttl - time - n = t + ttl - (time + n) := by omega
      simp only [Act.on, Option.bind_some, he, hiff, hsub]
      split_ifs <;> rfl

theorem Taken.take (httl : 0 < ttl) {time : ℕ} {times : List ℕ} (h : Taken ttl (none : Left ν) time times) (v : ν) :
    Taken ttl (some (v, ttl)) time (times ++ [time]) := by
  refine ⟨by simp [httl], by simp, List.isChain_append.mpr ⟨h.apart, List.isChain_singleton _, ?_⟩⟩
  intro t ht t' ht'
  obtain rfl : time = t' := by simpa using ht'
  have hleft := h.left
  rw [Option.mem_def.mp ht, Option.map_none, Option.bind_some] at hleft
  split_ifs at hleft with hnow
  omega

/-- **A key is taken once in a lifetime.** -/
theorem taken_apart (h : Tracks step act ttl left) (hnow : ∀ s o, now (step s o) = now s + (act s o).ticks)
    (httl : 0 < ttl) {s : σ} (hs : left s = none) {ops : List ω} (honly : ∀ s, ∀ o ∈ ops, (act s o).onlyTakes) :
    Taken ttl (left (run step s ops)) (now (run step s ops)) (taken step act left now s ops) := by
  induction ops using List.reverseRecOn with
  | nil => exact ⟨by rw [run_nil, hs]; rfl, by simp [taken], List.isChain_nil⟩
  | append_singleton ops o ih =>
    have ih := ih fun s o' ho' => honly s o' (List.mem_append_left _ ho')
    have honly := honly (run step s ops) o (by simp)
    rw [run_snoc, taken_append, taken, taken, List.append_nil, h, hnow]
    cases hact : act (run step s ops) o with
    | tick n =>
      simpa [Act.isTake, Act.ticks] using ih.tick n
    | idle => simpa [Act.isTake, Act.ticks, Act.on] using ih
    | take v =>
      cases hleft : left (run step s ops) with
      | some e =>
        rw [hleft] at ih
        simpa [Act.isTake, Act.ticks, Act.on] using ih
      | none =>
        rw [hleft] at ih
        simpa [Act.isTake, Act.ticks, Act.on] using ih.take httl v
    | _ =>
      rw [hact] at honly
      exact absurd honly id

theorem taken_ge (hnow : ∀ s o, now (step s o) = now s + (act s o).ticks) (s : σ) (ops : List ω) :
    ∀ t ∈ taken step act left now s ops, now s ≤ t := by
  induction ops generalizing s with
  | nil => simp [taken]
  | cons o ops ih =>
    intro t ht
    rw [taken, List.mem_append] at ht
    rcases ht with ht | ht
    · split_ifs at ht
      · exact (List.mem_singleton.mp ht).ge
      · cases ht
    · have hlater := ih (step s o) t ht
      rw [hnow] at hlater
      exact (Nat.le_add_right _ _).trans hlater

/-- times that lie apart need room -/
theorem span_of_apart {d a : ℕ} {l : List ℕ} (h : (a :: l).IsChain fun t t' => t + d ≤ t') :
    ∀ t ∈ (a :: l).getLast?, a + d * l.length ≤ t := by
  induction l generalizing a with
  | nil => simp
  | cons b l ih =>
    obtain ⟨hab, hl⟩ := List.isChain_cons_cons.mp h
    intro t ht
    rw [List.getLast?_cons_cons] at ht
    have hspan := ih hl t ht
    calc a + d * (l.length + 1) = a + d + d * l.length := by rw [Nat.mul_succ]; omega
      _ ≤ b + d * l.length := Nat.add_le_add_right hab _
      _ ≤ t := hspan

/-- **How often a key is taken in a run.** -/
theorem taken_length_le (h : Tracks step act ttl left) (hnow : ∀ s o, now (step s o) = now s + (act s o).ticks)
    (httl : 0 < ttl) {s : σ} (hs : left s = none) {ops : List ω} (honly : ∀ s, ∀ o ∈ ops, (act s o).onlyTakes) :
    ttl * ((taken step act left now s ops).length - 1) ≤ now (run step s ops) - now s := by
  have htaken := taken_apart h hnow httl hs honly
  have hge : ∀ t ∈ taken step act left now s ops, now s ≤ t := taken_ge hnow s ops
  cases htimes : taken step act left now s ops with
  | nil => simp
  | cons a l =>
    rw [htimes] at htaken hge
    obtain ⟨t, ht⟩ := Option.isSome_iff_exists.mp (List.getLast?_isSome.mpr (List.cons_ne_nil a l))
    have hspan := span_of_apart htaken.apart t ht
    have hpast := htaken.past t ht
    have hfirst := hge a List.mem_cons_self
    rw [List.length_cons, Nat.add_sub_cancel]
    omega

/-- the key is free for whoever comes a lifetime after it was last taken -/
theorem Taken.free_iff {x : Left ν} {time : ℕ} {times : List ℕ} (h : Taken ttl x time times) :
    x = none ↔ ∀ t ∈ times, t + ttl ≤ time := by
  have hlast : x = none ↔ ∀ t ∈ times.getLast?, t + ttl ≤ time := by
    rw [← Option.map_eq_none_iff (f := Prod.snd), h.left]
    cases times.getLast? with
    | none => simp
    | some t => simp
  rw [hlast]
  constructor
  · intro hfree t ht
    obtain ⟨last, hlast⟩ := Option.isSome_iff_exists.mp (List.getLast?_isSome.mpr (List.ne_nil_of_mem ht))
    obtain ⟨l, rfl⟩ := List.getLast?_eq_some_iff.mp hlast
    have hfree := hfree last hlast
    rcases List.mem_append.mp ht with ht | ht
    · have hle : (l ++ [last]).Pairwise (· ≤ ·) :=
        List.isChain_iff_pairwise.mp (h.apart.imp fun _ _ h => (Nat.le_add_right _ _).trans h)
      have := (List.pairwise_append.mp hle).2.2 t ht last (List.mem_singleton_self last)
      omega
    · rw [List.mem_singleton.mp ht]
      exact hfree
  · intro hall t ht
    exact hall t (List.mem_of_getLast? ht)

end Taken

/-! ## Many keys -/

section Keys

variable {κ : Type} [DecidableEq κ]

structure St (κ ν : Type) where
  now : ℕ
  /-- the value and the time at which it expires -/
  entries : κ → Option (ν × ℕ)

def init (now : ℕ) : St κ ν := ⟨now, fun _ => none⟩

namespace St

variable (s : St κ ν)

omit [DecidableEq κ] in
/-- the key with the time that it has left -/
def left (k : κ) : Left ν := (s.entries k).bind fun e => if s.now < e.2 then some (e.1, e.2 - s.now) else none

omit [DecidableEq κ] in
/-- `GET k` -/
def read (k : κ) : Option ν := (s.left k).map Prod.fst

omit [DecidableEq κ] in
def tick (n : ℕ) : St κ ν := { s with now := s.now + n }

/-- `SET k v EX ttl` -/
def put (ttl : ℕ) (k : κ) (v : ν) : St κ ν := { s with entries := Function.update s.entries k (some (v, s.now + ttl)) }

/-- `EXPIRE k ttl` -/
def renew (ttl : ℕ) (k : κ) : St κ ν :=
  match s.read k with
  | some v => s.put ttl k v
  | none => s

/-- `SET k v EX ttl NX` -/
def take (ttl : ℕ) (k : κ) (v : ν) : St κ ν := if (s.read k).isSome then s else s.put ttl k v

end St

variable (s : St κ ν) (j k : κ) (v : ν)

omit [DecidableEq κ] in
theorem left_tick (n : ℕ) : (s.tick n).left k = Act.on ttl (s.left k) (.tick n) := by
  unfold St.left St.tick Act.on
  cases s.entries k with
  | none => rfl
  | some e =>
    have hiff : s.now + n < e.2 ↔ s.now < e.2 ∧ n < e.2 - s.now := by omega
    have hsub : e.2 - (s.now + n) = e.2 - s.now - n := by omega
    by_cases hnow : s.now < e.2
    · simp [hiff, hnow, hsub]
    · simp [hiff, hnow]

theorem left_put (httl : 0 < ttl) :
    (s.put ttl j v).left k = Act.on ttl (s.left k) (if j = k then .set v else .idle) := by
  unfold St.left St.put
  by_cases hjk : j = k
  · subst hjk
    simp [httl, Act.on]
  · simp [hjk, Function.update_of_ne (Ne.symm hjk), Act.on]

theorem left_renew (httl : 0 < ttl) :
    (s.renew ttl j).left k = Act.on ttl (s.left k) (if j = k then .renew else .idle) := by
  unfold St.renew St.read
  cases hleft : s.left j with
  | none =>
    by_cases hjk : j = k
    · subst hjk
      simp [hleft, Act.on]
    · simp [hjk, Act.on]
  | some e =>
    simp only [Option.map_some]
    rw [left_put s j k e.1 httl]
    by_cases hjk : j = k
    · subst hjk
      simp [hleft, Act.on]
    · simp [hjk]

theorem left_take (httl : 0 < ttl) :
    (s.take ttl j v).left k = Act.on ttl (s.left k) (if j = k then .take v else .idle) := by
  unfold St.take St.read
  cases hleft : s.left j with
  | none =>
    simp only [Option.map_none, Option.isSome_none, Bool.false_eq_true, if_false]
    rw [left_put s j k v httl]
    by_cases hjk : j = k
    · subst hjk
      simp [hleft, Act.on]
    · simp [hjk]
  | some e =>
    simp only [Option.map_some, Option.isSome_some, if_true]
    by_cases hjk : j = k
    · subst hjk
      simp [hleft, Act.on]
    · simp [hjk, Act.on]

end Keys

end Lumiere.Core.Lease
