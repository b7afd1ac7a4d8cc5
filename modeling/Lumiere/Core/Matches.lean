/-
The matches of a pattern in a list. A matcher looks at the front of a list, and returns what it found and how many
elements that takes.

- `matchesAll`: the matches at every position. `matchesIter`: the search from the left that goes on behind each match.
- `Marked`: a match begins with a mark and holds no other one. `matchesIter_eq`: the search then finds them all.
- `matchesAll_append`: and a match never crosses into a later mark, so texts can be put together there.
-/
import Mathlib.Data.List.Infix

namespace Lumiere.Core

variable {α β : Type} {m : List α → Option (β × ℕ)} {mark : α} {l x y : List α}

/-! ## Searches -/

def matchesAll (m : List α → Option (β × ℕ)) (l : List α) : List β := (l.tails.filterMap m).map Prod.fst

/-- leftmost matches that do not overlap; the next `skip` elements belong to the last match -/
def matchesIter (m : List α → Option (β × ℕ)) : ℕ → List α → List β
  | _, [] => []
  | skip + 1, _ :: l => matchesIter m skip l
  | 0, a :: l =>
    match m (a :: l) with
    | some (b, len) => b :: matchesIter m (len - 1) l
    | none => matchesIter m 0 l

/-- what the matcher sees of the list at each position -/
theorem tails_eq_map_drop (l : List α) : l.tails = (List.range (l.length + 1)).map fun i => l.drop i := by
  apply List.ext_getElem
  · rw [List.length_tails, List.length_map, List.length_range]
  · intro i h₁ h₂
    rw [List.getElem_tails, List.getElem_map, List.getElem_range]

theorem filterMap_tails (m : List α → Option β) (l : List α) :
    l.tails.filterMap m = (List.range (l.length + 1)).filterMap fun i => m (l.drop i) := by
  rw [tails_eq_map_drop, List.filterMap_map]
  rfl

theorem matchesAll_cons (m : List α → Option (β × ℕ)) (a : α) (l : List α) :
    matchesAll m (a :: l) = ((m (a :: l)).map Prod.fst).toList ++ matchesAll m l := by
  rw [matchesAll, List.tails_cons, List.filterMap_cons]
  cases m (a :: l) with
  | none => rfl
  | some r => rfl

/-! ## Marked matches -/

structure Marked (mark : α) (m : List α → Option (β × ℕ)) : Prop where
  head : ∀ {l b len}, m l = some (b, len) → l.head? = some mark
  inside : ∀ {l b len}, m l = some (b, len) → mark ∉ (l.take len).tail
  length : ∀ {l b len}, m l = some (b, len) → len ≤ l.length
  /-- a match depends on what it takes only -/
  extent : ∀ {l l' b len}, m l = some (b, len) → l'.take len = l.take len → m l' = some (b, len)

variable (hm : Marked mark m)

include hm

theorem Marked.nil : m [] = none := by
  cases h : m [] with
  | none => rfl
  | some r => exact absurd (hm.head h) (by simp)

theorem Marked.cons_ne {a : α} (h : a ≠ mark) : m (a :: l) = none := by
  cases hm' : m (a :: l) with
  | none => rfl
  | some r => exact absurd (Option.some.inj (hm.head hm')) h

/-- elements without a mark hold no match -/
theorem matchesAll_append_of_not_mem (h : mark ∉ x) : matchesAll m (x ++ y) = matchesAll m y := by
  unfold matchesAll
  induction x with
  | nil => rfl
  | cons a x ih =>
    have ha : a ≠ mark := fun ha => h (ha ▸ List.mem_cons_self)
    rw [List.cons_append, List.tails_cons, List.filterMap_cons_none (hm.cons_ne ha)]
    exact ih fun hx => h (List.mem_cons_of_mem _ hx)

/-- what follows a later mark changes nothing about a match -/
theorem Marked.append_mark (hx : x ≠ []) : m (x ++ mark :: y) = m x := by
  have hshort : ∀ {b len}, m (x ++ mark :: y) = some (b, len) → len ≤ x.length := by
    intro b len h
    by_contra hlen
    apply hm.inside h
    obtain ⟨a, x', rfl⟩ := List.exists_cons_of_ne_nil hx
    rw [List.length_cons] at hlen
    have htake : (a :: x' ++ mark :: y).take len = (a :: x' ++ mark :: y).take (x'.length + 2 + (len - (x'.length + 2))) := by
      congr 1
      omega
    rw [htake, List.take_add]
    have hfirst : (a :: x' ++ mark :: y).take (x'.length + 2) = a :: (x' ++ [mark]) := by
      rw [List.cons_append, List.take_succ_cons, List.take_append, List.take_of_length_le (by omega)]
      simp
    rw [hfirst, List.cons_append, List.tail_cons]
    simp
  cases h : m (x ++ mark :: y) with
  | some r =>
    obtain ⟨b, len⟩ := r
    exact (hm.extent h (List.take_append_of_le_length (hshort h)).symm).symm
  | none =>
    cases hx' : m x with
    | none => rfl
    | some r =>
      obtain ⟨b, len⟩ := r
      rw [hm.extent hx' (List.take_append_of_le_length (hm.length hx'))] at h
      cases h

/-- **Texts are put together at a mark.** -/
theorem matchesAll_append : matchesAll m (x ++ mark :: y) = matchesAll m x ++ matchesAll m (mark :: y) := by
  unfold matchesAll
  rw [← List.map_append]
  congr 1
  induction x with
  | nil => rw [List.tails, List.filterMap_cons_none hm.nil]; rfl
  | cons a x ih =>
    have hhead := hm.append_mark (x := a :: x) (y := y) (List.cons_ne_nil _ _)
    rw [List.cons_append, List.tails_cons, List.tails_cons, List.filterMap_cons, List.filterMap_cons, ih,
      ← List.cons_append, hhead]
    cases m (a :: x) with
    | none => rfl
    | some r => rfl

/-- **The search from the left finds every match**: none begins inside another. -/
theorem matchesIter_eq (skip : ℕ) (h : mark ∉ l.take skip) : matchesIter m skip l = matchesAll m l := by
  unfold matchesAll
  induction l generalizing skip with
  | nil => rw [List.tails, List.filterMap_cons_none hm.nil]; rfl
  | cons a l ih =>
    rw [List.tails_cons]
    cases skip with
    | zero =>
      rw [matchesIter]
      cases hmatch : m (a :: l) with
      | none => rw [List.filterMap_cons_none hmatch, ← ih 0 (by simp)]
      | some r =>
        obtain ⟨b, len⟩ := r
        have hrest : mark ∉ l.take (len - 1) := by
          have hinside := hm.inside hmatch
          cases len with
          | zero => simp
          | succ len => simpa using hinside
        rw [List.filterMap_cons_some hmatch, List.map_cons, ← ih _ hrest]
    | succ skip =>
      rw [List.take_succ_cons] at h
      have ha : a ≠ mark := fun ha => h (ha ▸ List.mem_cons_self)
      rw [matchesIter, List.filterMap_cons_none (hm.cons_ne ha)]
      exact ih skip fun hl => h (List.mem_cons_of_mem _ hl)

end Lumiere.Core
