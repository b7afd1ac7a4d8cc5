/-
A table of exclusive locks. A lock is free or held by one task; a task may take a lock that is free or its own, and
releases all its locks at once.

- `held_take`, `held_release`: what the others hold they keep.
- `disjoint`: no two tasks hold one lock.
-/
import Mathlib.Logic.Function.Basic
import Mathlib.Tactic.SplitIfs

namespace Lumiere.Core

/-- the holder of each lock -/
abbrev Locks (κ ι : Type) := κ → Option ι

namespace Locks

variable {κ ι : Type} [DecidableEq κ] [DecidableEq ι] {l : Locks κ ι} {i j : ι} {k k' : κ}

def none : Locks κ ι := fun _ => Option.none

/-- the task may take the lock at once -/
def free (l : Locks κ ι) (i : ι) (k : κ) : Bool := (l k).all (· = i)

def take (l : Locks κ ι) (i : ι) (k : κ) : Locks κ ι := Function.update l k (some i)

def release (l : Locks κ ι) (i : ι) : Locks κ ι := fun k => if l k = some i then Option.none else l k

omit [DecidableEq κ] [DecidableEq ι] in
theorem disjoint (hi : l k = some i) (hj : l k = some j) : i = j := Option.some.inj (hi.symm.trans hj)

omit [DecidableEq ι] in
@[simp] theorem take_self : l.take i k k = some i := Function.update_self ..

theorem held_take (hfree : l.free i k = true) (h : l k' = some j) : l.take i k k' = some j := by
  rw [take, Function.update_apply]
  split_ifs with hk
  · subst hk
    rw [free, h] at hfree
    rw [of_decide_eq_true hfree]
  · exact h

omit [DecidableEq κ] in
theorem held_release (hne : j ≠ i) (h : l k = some j) : l.release i k = some j := by
  rw [release, if_neg]
  · exact h
  · rw [h]
    exact fun hj => hne (Option.some.inj hj)

end Locks

end Lumiere.Core
