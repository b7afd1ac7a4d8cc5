/-
Counting in fixed windows. The first hit that finds no window begins one, and the hits of a window are counted; one
passes if the count, itself included, is at most a limit. Times are natural numbers and do not decrease.

- `passed_le`: in any stretch as long as a window, at most twice the limit pass; one less, if hits begin the windows.
- `passes_of_sparse`: a hit passes if no more hits than the limit lie in the stretch that ends with it.
-/
import Lumiere.Core.Run
import Mathlib.Data.List.Induction
import Mathlib.Order.Basic

namespace Lumiere.Core

/-- when the current window began, and the hits in it -/
structure Window where
  start : Option ℕ
  count : ℕ
deriving DecidableEq, Repr

namespace Window

def empty : Window := ⟨none, 0⟩

variable (length limit : ℕ) (w : Window)

/-- the window is not over -/
def isOpen (t : ℕ) : Bool := w.start.any fun start => t < start + length

def hit (t : ℕ) : Window := if w.isOpen length t then { w with count := w.count + 1 } else ⟨some t, 1⟩

/-- the hits that pass -/
def passed : Window → List ℕ → List ℕ
  | _, [] => []
  | w, t :: ts => (if (w.hit length t).count ≤ limit then [t] else []) ++ passed (w.hit length t) ts

/-- the window began before, or at the hit that is to come -/
def Before (t : ℕ) : Prop := ∀ start ∈ w.start, start ≤ t

variable {length limit w}

theorem hit_cases (length : ℕ) (w : Window) (t : ℕ) :
    (∃ start ∈ w.start, t < start + length ∧ w.hit length t = ⟨some start, w.count + 1⟩) ∨
      (∀ start ∈ w.start, start + length ≤ t) ∧ w.hit length t = ⟨some t, 1⟩ := by
  unfold hit isOpen
  cases hstart : w.start with
  | none => simp
  | some start =>
    by_cases ht : t < start + length
    · simp [ht]
    · simp [ht, not_lt.mp ht]

theorem before_hit (t t' : ℕ) (h : w.Before t) (ht : t ≤ t') : (w.hit length t).Before t' := by
  intro start hstart
  rcases hit_cases length w t with ⟨s, hs, -, heq⟩ | ⟨-, heq⟩
  · rw [heq] at hstart
    obtain rfl := Option.some.inj hstart
    exact Nat.le_trans (h s hs) ht
  · rw [heq] at hstart
    obtain rfl := Option.some.inj hstart
    exact ht

theorem passed_append (length limit : ℕ) (w : Window) (ts ts' : List ℕ) :
    passed length limit w (ts ++ ts') = passed length limit w ts ++ passed length limit (run (hit length) w ts) ts' := by
  induction ts generalizing w with
  | nil => rfl
  | cons t ts ih =>
    rw [List.cons_append, passed, passed, ih, List.append_assoc]
    rfl

/-! ## How many pass -/

/-- what a window leaves to the stretch that begins at `a`: nothing if it begins after the stretch, what is left of its
limit if it begins in it, a whole window more if it begins before and reaches into it; if it is over by then, the next may
begin before the stretch, but with a hit -/
def room (length limit a : ℕ) (w : Window) : ℕ :=
  match w.start with
  | none => 2 * limit - 1
  | some start =>
    if start + length ≤ a then 2 * limit - 1
    else if start < a then limit - w.count + limit
    else if start < a + length then limit - w.count
    else 0

theorem room_le (a : ℕ) (w : Window) : room length limit a w ≤ 2 * limit := by
  unfold room
  split
  · omega
  · split_ifs <;> omega

/-- **A hit that passes takes up room.** -/
theorem room_hit (limit : ℕ) (hlength : 0 < length) (a t : ℕ) (h : w.Before t) :
    room length limit a (w.hit length t) +
        (if (w.hit length t).count ≤ limit ∧ a ≤ t ∧ t < a + length then 1 else 0) ≤
      room length limit a w := by
  rcases hit_cases length w t with ⟨start, hstart, ht, heq⟩ | ⟨hover, heq⟩
  · have hle := h start hstart
    rw [heq]
    unfold room
    rw [Option.mem_def.mp hstart]
    dsimp only
    split_ifs <;> omega
  · rw [heq]
    cases hstart : w.start with
    | none =>
      simp only [room, hstart]
      split_ifs <;> omega
    | some start =>
      have hle := hover start hstart
      simp only [room, hstart]
      split_ifs <;> omega

/-- **In a stretch as long as a window, at most twice the limit pass.** -/
theorem passed_le_room (hlength : 0 < length) (a : ℕ) {ts : List ℕ} (hts : ts.Pairwise (· ≤ ·))
    (h : ∀ t ∈ ts.head?, w.Before t) :
    (passed length limit w ts).countP (fun t => a ≤ t ∧ t < a + length) ≤ room length limit a w := by
  induction ts generalizing w with
  | nil => simp [passed]
  | cons t ts ih =>
    obtain ⟨hle, hts⟩ := List.pairwise_cons.mp hts
    have hbefore := h t rfl
    have hnext : ∀ t' ∈ ts.head?, (w.hit length t).Before t' := by
      intro t' ht'
      exact before_hit t t' hbefore (hle t' (List.mem_of_head? ht'))
    have hrest := ih hts hnext
    have hroom := room_hit limit hlength a t hbefore
    rw [passed, List.countP_append]
    by_cases hpass : (w.hit length t).count ≤ limit
    · rw [if_pos hpass, List.countP_singleton]
      simp only [hpass, true_and, decide_eq_true_eq] at hroom ⊢
      omega
    · rw [if_neg hpass, List.countP_nil]
      simp only [hpass, false_and, if_false] at hroom
      omega

theorem passed_le (hlength : 0 < length) (a : ℕ) {ts : List ℕ} (hts : ts.Pairwise (· ≤ ·))
    (h : ∀ t ∈ ts.head?, w.Before t) :
    (passed length limit w ts).countP (fun t => a ≤ t ∧ t < a + length) ≤ 2 * limit :=
  (passed_le_room hlength a hts h).trans (room_le a w)

theorem passed_empty_le (hlength : 0 < length) (a : ℕ) {ts : List ℕ} (hts : ts.Pairwise (· ≤ ·)) :
    (passed length limit empty ts).countP (fun t => a ≤ t ∧ t < a + length) ≤ 2 * limit - 1 :=
  passed_le_room hlength a hts (by simp [Before, empty])

/-! ## Who is never stopped -/

/-- the hits of a window are among those since it began -/
def Counts (w : Window) (ts : List ℕ) : Prop := ∀ start ∈ w.start, w.count ≤ ts.countP fun t => start ≤ t

theorem counts_hit (t : ℕ) {ts : List ℕ} (h : w.Counts ts) (hbefore : w.Before t) :
    (w.hit length t).Counts (ts ++ [t]) := by
  intro start hstart
  rw [List.countP_append]
  rcases hit_cases length w t with ⟨s, hs, -, heq⟩ | ⟨-, heq⟩
  · rw [heq] at hstart ⊢
    obtain rfl := Option.some.inj hstart
    have hcount := h s hs
    simp [hbefore s hs, hcount]
  · rw [heq] at hstart ⊢
    obtain rfl := Option.some.inj hstart
    simp

theorem counts_run (length : ℕ) (hw : w.Counts []) {ts : List ℕ} (hts : ts.Pairwise (· ≤ ·)) (h : ∀ t ∈ ts, w.Before t) :
    (run (hit length) w ts).Counts ts ∧ ∀ t, (∀ t' ∈ ts, t' ≤ t) → w.Before t → (run (hit length) w ts).Before t := by
  induction ts using List.reverseRecOn with
  | nil => exact ⟨hw, fun t _ hb => hb⟩
  | append_singleton ts t ih =>
    obtain ⟨hts, -, hle⟩ := List.pairwise_append.mp hts
    obtain ⟨hcounts, hbefore⟩ := ih hts fun t' ht' => h t' (List.mem_append_left _ ht')
    have ht : (run (hit length) w ts).Before t :=
      hbefore t (fun t' ht' => hle t' ht' t (List.mem_singleton_self t)) (h t (by simp))
    rw [run_snoc]
    refine ⟨counts_hit t hcounts ht, ?_⟩
    intro t' ht' _
    exact before_hit t t' ht (ht' t (by simp))

/-- **Whoever keeps to the limit is never stopped.** -/
theorem passes_of_sparse (hlimit : 0 < limit) (hw : w.Counts []) {ts : List ℕ} {t : ℕ}
    (hts : (ts ++ [t]).Pairwise (· ≤ ·)) (h : ∀ t' ∈ ts ++ [t], w.Before t')
    (hsparse : (ts ++ [t]).countP (fun t' => t < t' + length) ≤ limit) :
    ((run (hit length) w ts).hit length t).count ≤ limit := by
  have hrun := counts_run length hw hts h
  rw [run_snoc] at hrun
  rcases hit_cases length (run (hit length) w ts) t with ⟨start, -, ht, heq⟩ | ⟨-, heq⟩
  · have hcount := hrun.1 start (by rw [heq]; rfl)
    refine hcount.trans (le_trans ?_ hsparse)
    apply List.countP_mono_left
    intro t' _ ht'
    simp only [decide_eq_true_eq] at ht' ⊢
    omega
  · rw [heq]
    exact hlimit

end Window

end Lumiere.Core
