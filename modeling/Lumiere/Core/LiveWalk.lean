/-
Reading rows page by page, from the greatest key down, while others insert rows. Each page is asked for by a cursor
taken from the last row of the page before, and finds the rows of its own time.

- `liveWalk`: one request at each of the given times, until a page is empty; `none` means that the times ran out.
- `liveWalk_complete`: what was there from the start is read once, in order, whatever is inserted meanwhile; and the
  walk ends, if there are more times than rows.
-/
import Mathlib.Data.List.Basic
import Mathlib.Order.Lattice

namespace Lumiere.Core

variable {ι : Type*} {α κ ε : Type}

def liveWalk (page : ι → Option κ → Except ε (List α)) (cursor : α → κ) :
    List ι → Option κ → Except ε (Option (List (List α)))
  | [], _ => .ok none
  | time :: times, before =>
    match page time before with
    | .error e => .error e
    | .ok p =>
      match p.getLast? with
      | none => .ok (some [])
      | some a =>
        match liveWalk page cursor times (some (cursor a)) with
        | .ok (some pages) => .ok (some (p :: pages))
        | r => r

variable [LinearOrder κ] {page : ι → Option κ → Except ε (List α)} {key : α → κ} {rows : ι → List α} {limit : ℕ}
  {times : List ι} {before : Option κ} {l : List α} {a b : α}

/-- each key is greater than the one after it -/
def Decreasing (key : α → κ) (l : List α) : Prop := l.Pairwise fun a b => key b < key a

def older (key : α → κ) (before : Option κ) (l : List α) : List α := l.filter fun a => before.all fun k => key a < k

/-- rows in order that stay once they are there -/
structure Growing (key : α → κ) (rows : ι → List α) (times : List ι) : Prop where
  decreasing : ∀ t ∈ times, Decreasing key (rows t)
  grows : times.Pairwise fun t t' => rows t ⊆ rows t'

/-- the pages hold all that is there at the first time, in order, and nothing that is never there -/
structure ReadsAll (key : α → κ) (rows : ι → List α) (times : List ι) (before : Option κ) (pages : List (List α)) :
    Prop where
  decreasing : Decreasing key pages.flatten
  complete : ∀ t ∈ times.head?, older key before (rows t) ⊆ pages.flatten
  sound : ∀ a ∈ pages.flatten, ∃ t ∈ times, a ∈ older key before (rows t)

/-! ## One page -/

theorem mem_older : a ∈ older key before l ↔ a ∈ l ∧ ∀ k ∈ before, key a < k := by
  cases before <;> simp [older]

theorem Decreasing.older (h : Decreasing key l) : Decreasing key (older key before l) := List.Pairwise.filter _ h

theorem le_of_getLast? (h : Decreasing key l) (ha : l.getLast? = some a) : ∀ x ∈ l, key a ≤ key x := by
  obtain ⟨front, rfl⟩ := List.getLast?_eq_some_iff.mp ha
  intro x hx
  rcases List.mem_append.mp hx with hx | hx
  · exact le_of_lt ((List.pairwise_append.mp h).2.2 x hx a (List.mem_singleton_self a))
  · rw [List.mem_singleton.mp hx]

/-- what a page leaves comes after its last row -/
theorem mem_take_or_lt (h : Decreasing key l) (ha : (l.take limit).getLast? = some a) :
    ∀ x ∈ l, x ∈ l.take limit ∨ key x < key a := by
  intro x hx
  rw [← List.take_append_drop limit l] at h hx
  rcases List.mem_append.mp hx with hx | hx
  · exact .inl hx
  · exact .inr ((List.pairwise_append.mp h).2.2 a (List.mem_of_getLast? ha) x hx)

theorem eq_nil_of_take (hlimit : 0 < limit) (h : (l.take limit).getLast? = none) : l = [] := by
  rw [List.getLast?_eq_none_iff, List.take_eq_nil_iff] at h
  rcases h with h | h
  · omega
  · exact h

/-- a cursor leaves fewer rows than there were -/
theorem older_length_lt (ha : a ∈ older key before l) :
    (older key (some (key a)) l).length < (older key before l).length := by
  have hsub : older key (some (key a)) l = older key (some (key a)) (older key before l) := by
    rw [older, older, older, List.filter_filter]
    apply List.filter_congr
    intro x _
    have hbefore := (mem_older.mp ha).2
    cases before with
    | none => simp
    | some k =>
      have hk := hbefore k rfl
      have htrans : key x < key a → key x < k := fun hx => lt_trans hx hk
      by_cases hx : key x < key a <;> simp [hx, htrans]
  rw [hsub, older]
  apply List.length_filter_lt_length_iff_exists.mpr
  exact ⟨a, ha, by simp⟩

/-! ## The walk -/

/-- what is left of a walk after its first page -/
theorem ReadsAll.cons {time : ι} {pages : List (List α)} {p : List α} (h : Growing key rows (time :: times))
    (hp : p = (older key before (rows time)).take limit) (ha : p.getLast? = some a) (htimes : times ≠ [])
    (hrest : ReadsAll key rows times (some (key a)) pages) : ReadsAll key rows (time :: times) before (p :: pages) := by
  have hsorted : Decreasing key (older key before (rows time)) := (h.decreasing time List.mem_cons_self).older
  have hpsorted : Decreasing key p := hp ▸ hsorted.sublist (List.take_sublist _ _)
  have hpsub : p ⊆ older key before (rows time) := hp ▸ List.take_subset _ _
  have hlater : ∀ x ∈ pages.flatten, ∃ t ∈ times, x ∈ rows t ∧ key x < key a := by
    intro x hx
    obtain ⟨t, ht, hx⟩ := hrest.sound x hx
    obtain ⟨hmem, hlt⟩ := mem_older.mp hx
    exact ⟨t, ht, hmem, hlt _ rfl⟩
  constructor
  · rw [List.flatten_cons]
    apply List.pairwise_append.mpr
    refine ⟨hpsorted, hrest.decreasing, ?_⟩
    intro x hx y hy
    obtain ⟨-, -, -, hlt⟩ := hlater y hy
    exact lt_of_lt_of_le hlt (le_of_getLast? hpsorted ha x hx)
  · intro t ht x hx
    obtain rfl : time = t := by simpa using ht
    rw [List.flatten_cons, List.mem_append]
    rcases mem_take_or_lt hsorted (hp ▸ ha) x hx with hin | hlt
    · exact .inl (hp ▸ hin)
    · -- the row is there at the next request too
      obtain ⟨t', later, rfl⟩ := List.exists_cons_of_ne_nil htimes
      have hgrows := (List.pairwise_cons.mp h.grows).1 t' List.mem_cons_self
      have hmem := (mem_older.mp hx).1
      exact .inr (hrest.complete t' rfl (mem_older.mpr ⟨hgrows hmem, by simpa using hlt⟩))
  · intro x hx
    rw [List.flatten_cons, List.mem_append] at hx
    rcases hx with hx | hx
    · exact ⟨time, List.mem_cons_self, hpsub hx⟩
    · obtain ⟨t, ht, hmem, hlt⟩ := hlater x hx
      refine ⟨t, List.mem_cons_of_mem _ ht, mem_older.mpr ⟨hmem, ?_⟩⟩
      intro k hk
      exact lt_trans hlt ((mem_older.mp (hpsub (List.mem_of_getLast? ha))).2 k hk)

theorem liveWalk_from (hlimit : 0 < limit)
    (hpage : ∀ t ∈ times, ∀ before, page t before = .ok ((older key before (rows t)).take limit))
    (h : Growing key rows times) (before : Option κ) :
    ∃ r, liveWalk page key times before = .ok r ∧ (∀ pages ∈ r, ReadsAll key rows times before pages) ∧
      ∀ t ∈ times.getLast?, (older key before (rows t)).length < times.length → r.isSome = true := by
  induction times generalizing before with
  | nil =>
    refine ⟨none, rfl, ?_, ?_⟩
    · simp
    · simp
  | cons time times ih =>
    have hread := hpage time List.mem_cons_self before
    rw [liveWalk, hread]
    dsimp only
    cases hlast : ((older key before (rows time)).take limit).getLast? with
    | none =>
      have hnil : older key before (rows time) = [] := eq_nil_of_take hlimit hlast
      refine ⟨some [], rfl, ?_, ?_⟩
      · intro pages hpages
        obtain rfl : [] = pages := by simpa using hpages
        refine ⟨List.Pairwise.nil, ?_, by simp⟩
        intro t ht
        obtain rfl : time = t := by simpa using ht
        rw [hnil]
        exact List.nil_subset _
      · simp
    | some a =>
      have hgrowing : Growing key rows times :=
        ⟨fun t ht => h.decreasing t (List.mem_cons_of_mem _ ht), (List.pairwise_cons.mp h.grows).2⟩
      obtain ⟨r, hr, hall, hends⟩ := ih (fun t ht => hpage t (List.mem_cons_of_mem _ ht)) hgrowing (some (key a))
      have ha : a ∈ older key before (rows time) := List.mem_of_mem_take (List.mem_of_getLast? hlast)
      dsimp only
      rw [hr]
      refine ⟨r.map (List.cons ((older key before (rows time)).take limit)), ?_, ?_, ?_⟩
      · cases r <;> rfl
      · intro pages hpages
        obtain ⟨pages', hpages', rfl⟩ := Option.map_eq_some_iff.mp hpages
        refine ReadsAll.cons h rfl hlast ?_ (hall pages' hpages')
        rintro rfl
        simp only [liveWalk, Except.ok.injEq] at hr
        rw [← hr] at hpages'
        cases hpages'
      · intro t ht hlength
        rw [Option.isSome_map]
        cases times with
        | nil =>
          obtain rfl : time = t := by simpa using ht
          have hpos := List.length_pos_of_mem ha
          rw [List.length_singleton] at hlength
          omega
        | cons time' times =>
          rw [List.getLast?_cons_cons] at ht
          have hgrows := (List.pairwise_cons.mp h.grows).1 t (List.mem_of_getLast? ht)
          obtain ⟨hmem, hlt⟩ := mem_older.mp ha
          have hfewer := older_length_lt (mem_older.mpr ⟨hgrows hmem, hlt⟩ : a ∈ older key before (rows t))
          apply hends t ht
          rw [List.length_cons] at hlength
          omega

/-- **A walk among insertions.** -/
theorem liveWalk_complete (hlimit : 0 < limit)
    (hpage : ∀ t ∈ times, ∀ before, page t before = .ok ((older key before (rows t)).take limit))
    (h : Growing key rows times) :
    ∃ r, liveWalk page key times none = .ok r ∧
      (∀ pages ∈ r, Decreasing key pages.flatten ∧ (∀ t ∈ times.head?, rows t ⊆ pages.flatten) ∧
        ∀ a ∈ pages.flatten, ∃ t ∈ times, a ∈ rows t) ∧
      ∀ t ∈ times.getLast?, (rows t).length < times.length → r.isSome = true := by
  have hall : ∀ l : List α, older key none l = l := by
    intro l
    simp [older]
  obtain ⟨r, hr, hreads, hends⟩ := liveWalk_from hlimit hpage h none
  refine ⟨r, hr, ?_, ?_⟩
  · intro pages hpages
    have hread := hreads pages hpages
    refine ⟨hread.decreasing, ?_, ?_⟩
    · intro t ht
      exact hall (rows t) ▸ hread.complete t ht
    · intro a ha
      obtain ⟨t, ht, hmem⟩ := hread.sound a ha
      exact ⟨t, ht, hall (rows t) ▸ hmem⟩
  · intro t ht hlength
    exact hends t ht (by rwa [hall])

end Lumiere.Core
