/-
Rows in the order of a key, as `ORDER BY` and a clustering key give them.

- `eq_of_increasing`: rows in increasing order are determined by which they are.
- `filter_after`: what a cursor leaves of such rows is what comes after the row it was taken from.
-/
import Mathlib.Data.List.Sort

namespace Lumiere.Core

variable {α κ : Type} [LinearOrder κ] {key : α → κ} {rows l pre suf : List α} {a : α}

def ordered (key : α → κ) (rows : List α) : List α := rows.insertionSort fun a b => key a ≤ key b

/-- each key is less than the one after it -/
def Increasing (key : α → κ) (l : List α) : Prop := l.Pairwise fun a b => key a < key b

theorem mem_ordered : a ∈ ordered key rows ↔ a ∈ rows := List.mem_insertionSort _

theorem increasing_ordered (h : (rows.map key).Nodup) : Increasing key (ordered key rows) := by
  have hperm : (ordered key rows).Perm rows := List.perm_insertionSort _ _
  have hnodup : ((ordered key rows).map key).Nodup := (hperm.map key).nodup_iff.2 h
  have : Std.Total fun a b : α => key a ≤ key b := ⟨fun a b => le_total (key a) (key b)⟩
  have : IsTrans α fun a b : α => key a ≤ key b := ⟨fun _ _ _ hab hbc => hab.trans hbc⟩
  have hle : (ordered key rows).Pairwise fun a b => key a ≤ key b := List.pairwise_insertionSort _ rows
  exact hle.imp₂ (fun a b hle hne => lt_of_le_of_ne hle hne) (List.pairwise_map.1 hnodup)

theorem eq_of_increasing {l' : List α} (h : Increasing key l) (h' : Increasing key l') (hmem : ∀ a, a ∈ l ↔ a ∈ l') :
    l = l' := by
  have : Std.Antisymm fun a b : α => key a < key b := ⟨fun a b hab hba => absurd hba (lt_asymm hab)⟩
  have : Std.Irrefl fun a b : α => key a < key b := ⟨fun a => lt_irrefl (key a)⟩
  exact List.Pairwise.eq_of_mem_iff h h' hmem

/-- **A cursor leaves what comes after it.** -/
theorem filter_after (h : Increasing key (pre ++ suf)) (ha : pre.getLast? = some a) :
    (pre ++ suf).filter (fun b => key a < key b) = suf := by
  obtain ⟨before, rfl⟩ := List.getLast?_eq_some_iff.1 ha
  obtain ⟨hpre, -, hafter⟩ := List.pairwise_append.1 h
  have hnone : (before ++ [a]).filter (fun b => key a < key b) = [] := by
    refine List.filter_eq_nil_iff.2 fun b hb hlt => ?_
    rcases List.mem_append.1 hb with hb | hb
    · exact lt_asymm ((List.pairwise_append.1 hpre).2.2 b hb a (List.mem_singleton_self a)) (of_decide_eq_true hlt)
    · rw [List.mem_singleton.1 hb] at hlt
      exact lt_irrefl _ (of_decide_eq_true hlt)
  have hall : suf.filter (fun b => key a < key b) = suf :=
    List.filter_eq_self.2 fun b hb => decide_eq_true (hafter a (by simp) b hb)
  rw [List.filter_append, hnone, hall, List.nil_append]

end Lumiere.Core
