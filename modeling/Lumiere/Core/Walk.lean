/-
Reading a sequence page by page, each page asked for by a cursor taken from the last entry of the page before, until a
page is empty. `fuel` bounds the number of requests; `none` means that it ran out.

- `walk_complete`: if the page after each prefix of `l` is a prefix of what is left of `l`, empty only at the end, the
  walk ends within one request more than `l` has entries, and its pages make up `l`.
- `walk_shown_iff`: if rows that are not shown are dropped only after `limit` rows were read, the walk is complete exactly
  if no `limit` consecutive rows are dropped ahead of one that is shown.
-/
import Mathlib.Data.List.Basic

namespace Lumiere.Core

variable {α κ ε : Type}

def walk (page : Option κ → Except ε (List α)) (cursor : α → κ) : ℕ → Option κ → Except ε (Option (List (List α)))
  | 0, _ => .ok none
  | fuel + 1, after =>
    match page after with
    | .error e => .error e
    | .ok p =>
      match p.getLast? with
      | none => .ok (some [])
      | some a =>
        match walk page cursor fuel (some (cursor a)) with
        | .ok (some pages) => .ok (some (p :: pages))
        | r => r

variable {page : Option κ → Except ε (List α)} {cursor : α → κ} {limit : ℕ} {l : List α}

/-- the page after `pre` is a prefix of `suf`, empty only where `suf` is -/
def PageOf (page : Option κ → Except ε (List α)) (cursor : α → κ) (limit : ℕ) (pre suf : List α) : Prop :=
  ∃ p rest, page (pre.getLast?.map cursor) = .ok p ∧ suf = p ++ rest ∧ p.length ≤ limit ∧ (p = [] → suf = [])

theorem walk_of_nil {after : Option κ} (h : page after = .ok []) (fuel : ℕ) :
    walk page cursor (fuel + 1) after = .ok (some []) := by
  simp [walk, h]

theorem walk_of_page {after : Option κ} {p : List α} {a : α} {pages : List (List α)} {fuel : ℕ}
    (h : page after = .ok p) (ha : p.getLast? = some a)
    (hrest : walk page cursor fuel (some (cursor a)) = .ok (some pages)) :
    walk page cursor (fuel + 1) after = .ok (some (p :: pages)) := by
  simp [walk, h, ha, hrest]

theorem walk_from (h : ∀ pre suf, l = pre ++ suf → PageOf page cursor limit pre suf) (n : ℕ) (pre suf : List α)
    (hl : l = pre ++ suf) (hn : suf.length ≤ n) :
    ∃ pages, (∀ fuel, n < fuel → walk page cursor fuel (pre.getLast?.map cursor) = .ok (some pages)) ∧
      pages.flatten = suf ∧ ∀ p ∈ pages, p.length ≤ limit := by
  induction n generalizing pre suf with
  | zero =>
    obtain rfl := List.length_eq_zero_iff.1 (Nat.le_zero.1 hn)
    obtain ⟨p, rest, hp, hsuf, -, -⟩ := h pre [] hl
    obtain ⟨rfl, -⟩ := List.append_eq_nil_iff.1 hsuf.symm
    refine ⟨[], fun fuel hf => ?_, rfl, by simp⟩
    obtain ⟨fuel, rfl⟩ := Nat.exists_eq_succ_of_ne_zero (Nat.ne_of_gt hf)
    exact walk_of_nil hp fuel
  | succ n ih =>
    obtain ⟨p, rest, hp, hsuf, hlen, hend⟩ := h pre suf hl
    rcases p.eq_nil_or_concat with rfl | ⟨q, a, rfl⟩
    · obtain rfl := hend rfl
      refine ⟨[], fun fuel hf => ?_, rfl, by simp⟩
      obtain ⟨fuel, rfl⟩ := Nat.exists_eq_succ_of_ne_zero (Nat.ne_of_gt (Nat.zero_lt_of_lt hf))
      exact walk_of_nil hp fuel
    · -- the next request starts after the page just read
      rw [List.concat_eq_append] at hp hsuf hlen
      have hlast : (pre ++ (q ++ [a])).getLast?.map cursor = some (cursor a) := by simp [← List.append_assoc]
      have hshort : rest.length ≤ n := by
        rw [hsuf, List.length_append, List.length_append, List.length_singleton] at hn
        omega
      obtain ⟨pages, hwalk, hflat, hle⟩ := ih (pre ++ (q ++ [a])) rest (by rw [hl, hsuf]; simp only [List.append_assoc]) hshort
      refine ⟨(q ++ [a]) :: pages, fun fuel hf => ?_, by rw [List.flatten_cons, hflat, hsuf], fun p' hp' => ?_⟩
      · obtain ⟨fuel, rfl⟩ := Nat.exists_eq_succ_of_ne_zero (Nat.ne_of_gt (Nat.zero_lt_of_lt hf))
        exact walk_of_page hp (by simp) (hlast ▸ hwalk fuel (by omega))
      · rcases List.mem_cons.1 hp' with rfl | hp'
        · exact hlen
        · exact hle p' hp'

/-- **A walk reads everything once.** -/
theorem walk_complete (h : ∀ pre suf, l = pre ++ suf → PageOf page cursor limit pre suf) :
    ∃ pages, (∀ fuel, l.length < fuel → walk page cursor fuel none = .ok (some pages)) ∧
      pages.flatten = l ∧ ∀ p ∈ pages, p.length ≤ limit :=
  walk_from h l.length [] l rfl (Nat.le_refl _)

/-! ## Rows that are dropped after they were read -/

section Shown

variable {ρ : Type} {shown : ρ → Option α} {key : ρ → κ} {rows : List ρ}

/-- no `limit` consecutive rows that are not shown come before one that is -/
def NoGap (shown : ρ → Option α) (limit : ℕ) (rows : List ρ) : Prop :=
  ∀ pre mid suf, rows = pre ++ (mid ++ suf) → mid.length = limit → (∀ r ∈ mid, shown r = none) → ∀ r ∈ suf, shown r = none

theorem noGap_of_shown (hlimit : 0 < limit) (h : ∀ r ∈ rows, shown r ≠ none) : NoGap shown limit rows := by
  rintro pre (_ | ⟨r, mid⟩) suf hrows hlen hmid
  · rw [List.length_nil] at hlen
    omega
  · exact absurd (hmid r List.mem_cons_self) (h r (by simp [hrows]))

/-- a gap begins after every row that is shown and comes before it -/
theorem noGap_after {q rest : List ρ} {r : ρ} (hr : shown r ≠ none) (hq : q.length < limit) :
    NoGap shown limit (q ++ r :: rest) ↔ NoGap shown limit rest := by
  constructor
  · intro h pre mid suf hrest
    exact h (q ++ r :: pre) mid suf (by rw [hrest, List.append_assoc, List.cons_append])
  · intro h pre mid suf hrows hlen hmid
    rcases List.append_eq_append_iff.1 hrows with ⟨as, rfl, hlater⟩ | ⟨bs, rfl, hlater⟩
    · -- the gap begins after `q`
      cases as with
      | nil =>
        cases mid with
        | nil => simp only [List.length_nil] at hlen; omega
        | cons r' mid =>
          obtain ⟨rfl, -⟩ := List.cons.inj hlater
          exact absurd (hmid r List.mem_cons_self) hr
      | cons r' as =>
        obtain ⟨rfl, hrest⟩ := List.cons.inj hlater
        exact h as mid suf hrest hlen hmid
    · -- it would begin within `q`, and `r` would be in it
      have hin : r ∈ mid := by
        rw [List.length_append] at hq
        rcases List.append_eq_append_iff.1 hlater with ⟨cs, rfl, -⟩ | ⟨cs, rfl, hcs⟩
        · rw [List.length_append] at hq
          omega
        · cases cs with
          | nil =>
            rw [List.append_nil] at hlen
            omega
          | cons r' cs =>
            obtain ⟨rfl, -⟩ := List.cons.inj hcs
            exact List.mem_append_right _ List.mem_cons_self
      exact absurd (hmid r hin) hr

/-- the last row shown among the first `limit` -/
theorem exists_last_shown {l : List ρ} (h : (l.take limit).filterMap shown ≠ []) :
    ∃ q r rest y, l = q ++ r :: rest ∧ q.length < limit ∧ shown r = some y ∧
      (l.take limit).filterMap shown = q.filterMap shown ++ [y] := by
  rcases ((l.take limit).filterMap shown).eq_nil_or_concat with hnil | ⟨ys, y, hlast⟩
  · exact absurd hnil h
  rw [List.concat_eq_append] at hlast
  obtain ⟨l₁, l₂, htake, rfl, hl₂⟩ := List.filterMap_eq_append_iff.1 hlast
  obtain ⟨m, r, m', rfl, hm, hr, -⟩ := List.filterMap_eq_cons_iff.1 hl₂
  have hlen := List.length_take_le limit l
  rw [htake] at hlen
  simp only [List.length_append, List.length_cons] at hlen
  refine ⟨l₁ ++ m, r, m' ++ l.drop limit, y, ?_, ?_, hr, ?_⟩
  · calc l = l.take limit ++ l.drop limit := (List.take_append_drop limit l).symm
      _ = l₁ ++ m ++ r :: (m' ++ l.drop limit) := by rw [htake]; simp only [List.append_assoc, List.cons_append]
  · rw [List.length_append]
    omega
  · rw [hlast, List.filterMap_append, List.filterMap_eq_nil_iff.2 hm, List.append_nil]

/-- an empty page where something is left is a gap -/
theorem noGap_of_none {l : List ρ} (h : (l.take limit).filterMap shown = []) :
    NoGap shown limit l ↔ l.filterMap shown = [] := by
  rw [List.filterMap_eq_nil_iff] at h ⊢
  constructor
  · intro hgap r hr
    rcases Nat.lt_or_ge l.length limit with hlt | hge
    · rw [List.take_of_length_le (Nat.le_of_lt hlt)] at h
      exact h r hr
    · rw [← List.take_append_drop limit l, List.mem_append] at hr
      rcases hr with hr | hr
      · exact h r hr
      · exact hgap [] (l.take limit) (l.drop limit) (List.take_append_drop limit l).symm (List.length_take_of_le hge) h r hr
  · rintro hnone pre mid suf rfl - - r hr
    exact hnone r (by simp [hr])

theorem walk_shown_from (hcursor : ∀ r y, shown r = some y → cursor y = key r)
    (hpage : ∀ pre suf, rows = pre ++ suf → page (pre.getLast?.map key) = .ok ((suf.take limit).filterMap shown))
    (n : ℕ) (pre suf : List ρ) (hrows : rows = pre ++ suf) (hn : suf.length ≤ n) :
    ∃ pages, (∀ fuel, n < fuel → walk page cursor fuel (pre.getLast?.map key) = .ok (some pages)) ∧
      (pages.flatten.map cursor = (suf.filterMap shown).map cursor ↔ NoGap shown limit suf) := by
  induction n generalizing pre suf with
  | zero =>
    obtain rfl := List.length_eq_zero_iff.1 (Nat.le_zero.1 hn)
    refine ⟨[], fun fuel hf => ?_, iff_of_true rfl ((noGap_of_none (by simp)).2 rfl)⟩
    obtain ⟨fuel, rfl⟩ := Nat.exists_eq_succ_of_ne_zero (Nat.ne_of_gt hf)
    exact walk_of_nil (by rw [hpage pre [] hrows, List.take_nil, List.filterMap_nil]) fuel
  | succ n ih =>
    have hread := hpage pre suf hrows
    by_cases hnone : (suf.take limit).filterMap shown = []
    · rw [hnone] at hread
      refine ⟨[], fun fuel hf => ?_, ?_⟩
      · obtain ⟨fuel, rfl⟩ := Nat.exists_eq_succ_of_ne_zero (Nat.ne_of_gt (Nat.zero_lt_of_lt hf))
        exact walk_of_nil hread fuel
      · rw [noGap_of_none hnone, List.flatten_nil, List.map_nil, eq_comm, List.map_eq_nil_iff]
    · -- the next request starts after the last row that is shown
      obtain ⟨q, r, rest, y, hsuf, hq, hr, hpage'⟩ := exists_last_shown hnone
      rw [hpage'] at hread
      have hlast : (pre ++ (q ++ [r])).getLast?.map key = some (cursor y) := by
        simp [← List.append_assoc, hcursor r y hr]
      have hrows' : rows = pre ++ (q ++ [r]) ++ rest := by
        rw [hrows, hsuf]
        simp only [List.append_assoc, List.singleton_append]
      have hshort : rest.length ≤ n := by
        rw [hsuf, List.length_append, List.length_cons] at hn
        omega
      obtain ⟨pages, hwalk, hflat⟩ := ih (pre ++ (q ++ [r])) rest hrows' hshort
      refine ⟨(q.filterMap shown ++ [y]) :: pages, fun fuel hf => ?_, ?_⟩
      · obtain ⟨fuel, rfl⟩ := Nat.exists_eq_succ_of_ne_zero (Nat.ne_of_gt (Nat.zero_lt_of_lt hf))
        exact walk_of_page hread (by simp) (hlast ▸ hwalk fuel (by omega))
      · have hread' : suf.filterMap shown = q.filterMap shown ++ [y] ++ rest.filterMap shown := by
          rw [hsuf, List.filterMap_append, List.filterMap_cons_some hr, List.append_assoc, List.singleton_append]
        have hmap : ∀ l, (q.filterMap shown ++ [y] ++ l).map cursor = (q.filterMap shown ++ [y]).map cursor ++ l.map cursor :=
          fun _ => List.map_append
        rw [List.flatten_cons, hread', hmap, hmap, List.append_cancel_left_eq, hflat, hsuf, noGap_after (by simp [hr]) hq]

/-- **A walk that drops rows after it read them** is complete exactly if there is no gap. It ends in any case. -/
theorem walk_shown_iff (hcursor : ∀ r y, shown r = some y → cursor y = key r)
    (hpage : ∀ pre suf, rows = pre ++ suf → page (pre.getLast?.map key) = .ok ((suf.take limit).filterMap shown)) :
    ∃ pages, (∀ fuel, rows.length < fuel → walk page cursor fuel none = .ok (some pages)) ∧
      (pages.flatten.map cursor = (rows.filterMap shown).map cursor ↔ NoGap shown limit rows) :=
  walk_shown_from hcursor hpage rows.length [] rows rfl (Nat.le_refl _)

end Shown

end Lumiere.Core
