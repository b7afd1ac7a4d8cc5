/-
A page collected from consecutive segments. Each segment is read with a limit computed from what the page still lacks,
and the rows that are not shown are dropped only after the read. `ρ` are the rows as stored, `μ` the rows as shown.

- `collect`: the rows shown on a page of `n`, or `none` if a read is refused.
- `Crisp`: no segment's limit cuts live rows off behind rows that are dropped.
- `crisp_of_taken`, `crisp_of_shown`: without rows to drop, and with every read granted in full, a scan is crisp.
- `collect_exact`: the page holds exactly the first `n` live rows, all of them shown, if and only if the scan is crisp.
-/
import Mathlib.Data.List.Basic
import Mathlib.Data.List.Nodup

namespace Lumiere.Core

variable {ρ μ : Type}

section

variable (cap : ℕ → Option ℕ) (shown : ρ → Option μ)

/-- `cap n` is the limit of a read when `n` rows are missing, `none` where such a read is refused -/
def collect : ℕ → List (List ρ) → Option (List μ)
  | _, [] => some []
  | n, seg :: segs =>
    if n = 0 then some []
    else match cap n with
      | none => none
      | some m =>
        let got := (seg.take m).filterMap shown
        (collect (n - got.length) segs).map (got ++ ·)

variable (live : ρ → Bool)

/-- the first `n` live rows of a segment are the shown ones among its first `m` rows -/
def CrispAt (n m : ℕ) (seg : List ρ) : Prop :=
  (∀ r ∈ (seg.filter live).take n, (shown r).isSome) ∧
  ((∀ r ∈ seg.drop m, live r = false) ∨ m = n ∧ ∀ r ∈ seg.take n, live r = true)

/-- the reads of a scan for `n` rows are granted and crisp, each for the rows still missing -/
def Crisp : ℕ → List (List ρ) → Prop
  | _, [] => True
  | n, seg :: segs =>
    n = 0 ∨ (∃ m, cap n = some m ∧ CrispAt shown live n m seg) ∧ Crisp (n - (seg.filter live).length) segs

end

variable {cap : ℕ → Option ℕ} {shown : ρ → Option μ} {live : ρ → Bool}

theorem filterMap_filter_live (hlive : ∀ r y, shown r = some y → live r = true) (l : List ρ) :
    (l.filter live).filterMap shown = l.filterMap shown := by
  rw [List.filterMap_filter]
  refine List.filterMap_congr fun r _ => ?_
  split_ifs with h
  · rfl
  · cases hs : shown r with
    | none => rfl
    | some y => exact absurd (hlive r y hs) h

theorem map_some_filterMap {l : List ρ} (h : ∀ r ∈ l, (shown r).isSome) : (l.filterMap shown).map some = l.map shown := by
  induction l with
  | nil => rfl
  | cons r l ih =>
    obtain ⟨y, hy⟩ := Option.isSome_iff_exists.1 (h r List.mem_cons_self)
    simp [hy, ih fun r' hr' => h r' (List.mem_cons_of_mem r hr')]

/-- a crisp read returns the first `n` live rows -/
theorem CrispAt.read (hlive : ∀ r y, shown r = some y → live r = true) {n m : ℕ} {seg : List ρ} (hm : m ≤ n)
    (h : CrispAt shown live n m seg) :
    ((seg.take m).filterMap shown).map some = ((seg.filter live).take n).map shown := by
  obtain ⟨hsome, hcut⟩ := h
  have htake : (seg.take m).filter live = (seg.filter live).take n := by
    have hsplit : seg.filter live = (seg.take m).filter live ++ (seg.drop m).filter live := by
      rw [← List.filter_append, List.take_append_drop]
    have hlen : ((seg.take m).filter live).length ≤ n :=
      Nat.le_trans (List.length_filter_le _ _) (Nat.le_trans (List.length_take_le _ _) hm)
    rcases hcut with hdead | ⟨rfl, hall⟩
    · have hnil : (seg.drop m).filter live = [] := List.filter_eq_nil_iff.2 fun r hr => by simp [hdead r hr]
      rw [hsplit, hnil, List.append_nil, List.take_of_length_le hlen]
    · have hself : (seg.take m).filter live = seg.take m := List.filter_eq_self.2 hall
      rw [hsplit, hself]
      rcases Nat.le_total m seg.length with hle | hle
      · rw [List.take_append_of_le_length (by simp [hle]), List.take_take, Nat.min_self]
      · rw [List.drop_eq_nil_of_le hle, List.filter_nil, List.append_nil, List.take_take, Nat.min_self]
  rw [← filterMap_filter_live hlive, htake]
  exact map_some_filterMap hsome

/-- a read that returns the first `n` live rows is crisp -/
theorem crispAt_of_read (hlive : ∀ r y, shown r = some y → live r = true) {n m : ℕ} {seg : List ρ} (hm : m ≤ n)
    (h : ((seg.take m).filterMap shown).map some = ((seg.filter live).take n).map shown) :
    CrispAt shown live n m seg := by
  refine ⟨fun r hr => ?_, ?_⟩
  · have hmem : shown r ∈ ((seg.take m).filterMap shown).map some := h ▸ List.mem_map_of_mem hr
    obtain ⟨y, -, hy⟩ := List.mem_map.1 hmem
    simp [← hy]
  · have hsplit : seg.filter live = (seg.take m).filter live ++ (seg.drop m).filter live := by
      rw [← List.filter_append, List.take_append_drop]
    have hgot : ((seg.take m).filterMap shown).length ≤ ((seg.take m).filter live).length := by
      rw [← filterMap_filter_live hlive]
      exact List.length_filterMap_le _ _
    have hlen := congrArg List.length h
    have htot := congrArg List.length hsplit
    have hcap : ((seg.take m).filter live).length ≤ (seg.take m).length := List.length_filter_le _ _
    rw [List.length_append] at htot
    rw [List.length_map, List.length_map, List.length_take] at hlen
    rw [List.length_take] at hcap
    rcases Nat.lt_or_ge n (seg.filter live).length with hlt | hge
    · -- the read is full, so its limit was `n` and every row of it was live
      obtain rfl : m = n := by omega
      refine .inr ⟨rfl, List.length_filter_eq_length_iff.1 ?_⟩
      rw [List.length_take]
      omega
    · have hnil : (seg.drop m).filter live = [] := List.length_eq_zero_iff.1 (by omega)
      exact .inl fun r hr => by simpa using List.filter_eq_nil_iff.1 hnil r hr

/-! ## The page as a whole -/

theorem mem_collect {n : ℕ} {segs : List (List ρ)} {out : List μ} (h : collect cap shown n segs = some out) {y : μ}
    (hy : y ∈ out) : ∃ r ∈ segs.flatten, shown r = some y := by
  induction segs generalizing n out with
  | nil => simp only [collect, Option.some.injEq] at h; simp [← h] at hy
  | cons seg segs ih =>
    unfold collect at h
    split_ifs at h with hn
    · simp only [Option.some.injEq] at h; simp [← h] at hy
    · split at h
      · simp at h
      · obtain ⟨rest, hrest, rfl⟩ := Option.map_eq_some_iff.1 h
        rcases List.mem_append.1 hy with hy | hy
        · obtain ⟨r, hr, hs⟩ := List.mem_filterMap.1 hy
          exact ⟨r, List.mem_flatten.2 ⟨seg, List.mem_cons_self, List.mem_of_mem_take hr⟩, hs⟩
        · obtain ⟨r, hr, hs⟩ := ih hrest hy
          exact ⟨r, by simp only [List.flatten_cons, List.mem_append]; exact .inr hr, hs⟩

/-- a page that starts as it should has read its first segment as it should, if later rows are told apart from it -/
theorem read_of_page {got rest : List μ} {l : List ρ} {tail : List (Option μ)} (hle : got.length ≤ l.length)
    (hdisj : ∀ y ∈ rest, ∀ r ∈ l, shown r ≠ some y) (h : (got ++ rest).map some = l.map shown ++ tail) :
    got.map some = l.map shown ∧ rest.map some = tail := by
  rw [List.map_append] at h
  have hlen : (got.map some).length = (l.map shown).length := by
    rw [List.length_map, List.length_map]
    rcases Nat.lt_or_ge got.length l.length with hlt | hge
    · -- the row after the last one read would come from a later segment
      have hi := congrArg (fun x => x[got.length]?) h
      simp only [List.getElem?_append_left (show got.length < (l.map shown).length by simpa using hlt)] at hi
      rw [List.getElem?_append_right (by simp), List.length_map, Nat.sub_self, List.getElem?_map, List.getElem?_map,
        List.getElem?_eq_getElem hlt] at hi
      cases rest with
      | nil => simp at hi
      | cons y rest => exact absurd (by simpa using hi.symm) (hdisj y List.mem_cons_self _ (List.getElem_mem hlt))
    · omega
  exact List.append_inj h hlen

/-- a crisp scan collects the first `n` live rows -/
theorem collect_of_crisp (hlive : ∀ r y, shown r = some y → live r = true) (hcap : ∀ n m, cap n = some m → m ≤ n)
    {n : ℕ} {segs : List (List ρ)} (h : Crisp cap shown live n segs) :
    ∃ out, collect cap shown n segs = some out ∧ out.map some = ((segs.flatten.filter live).take n).map shown := by
  induction segs generalizing n with
  | nil => exact ⟨[], rfl, by simp⟩
  | cons seg segs ih =>
    unfold collect
    rcases Nat.eq_zero_or_pos n with rfl | hn
    · exact ⟨[], by simp, by simp⟩
    rcases h with h0 | ⟨⟨m, hm, hcrisp⟩, hlater⟩
    · omega
    have hread := hcrisp.read hlive (hcap n m hm)
    have hlen := congrArg List.length hread
    simp only [List.length_map, List.length_take] at hlen
    obtain ⟨rest, hrest, htail⟩ := ih hlater
    refine ⟨(seg.take m).filterMap shown ++ rest, ?_, ?_⟩
    · simp only [if_neg (Nat.ne_of_gt hn), hm, hlen]
      rw [show n - min n (seg.filter live).length = n - (seg.filter live).length by omega, hrest]
      rfl
    · rw [List.flatten_cons, List.filter_append, List.take_append, List.map_append, List.map_append, hread, htail]

/-- **A page is exact if and only if its scan is crisp.** `key` tells shown rows apart. -/
theorem collect_exact {κ : Type} (keyOf : μ → κ) (key : ρ → κ)
    (hlive : ∀ r y, shown r = some y → live r = true) (hkey : ∀ r y, shown r = some y → keyOf y = key r)
    (hcap : ∀ n m, cap n = some m → m ≤ n) {n : ℕ} {segs : List (List ρ)} (hnd : (segs.flatten.map key).Nodup) :
    (∃ out, collect cap shown n segs = some out ∧ out.map some = ((segs.flatten.filter live).take n).map shown) ↔
      Crisp cap shown live n segs := by
  refine ⟨fun h => ?_, collect_of_crisp hlive hcap⟩
  induction segs generalizing n with
  | nil => trivial
  | cons seg segs ih =>
    rw [List.flatten_cons, List.map_append] at hnd
    have hnd' : (segs.flatten.map key).Nodup := (List.nodup_append.1 hnd).2.1
    have hdisj : ∀ r ∈ seg, ∀ r' ∈ segs.flatten, key r ≠ key r' := fun r hr r' hr' =>
      (List.nodup_append.1 hnd).2.2 _ (List.mem_map_of_mem hr) _ (List.mem_map_of_mem hr')
    rcases Nat.eq_zero_or_pos n with rfl | hn
    · exact .inl rfl
    obtain ⟨out, hout, heq⟩ := h
    rw [List.flatten_cons, List.filter_append, List.take_append, List.map_append] at heq
    rw [collect, if_neg (Nat.ne_of_gt hn)] at hout
    rcases hc : cap n with _ | m
    · simp [hc] at hout
    have hmn := hcap n m hc
    have hgot : ((seg.take m).filterMap shown).length ≤ ((seg.filter live).take n).length := by
      have h1 := List.length_filterMap_le shown ((seg.take m).filter live)
      rw [filterMap_filter_live hlive] at h1
      have h2 : ((seg.take m).filter live).length ≤ (seg.take m).length := List.length_filter_le _ _
      have h3 : ((seg.take m).filter live).length ≤ (seg.filter live).length :=
        ((List.take_sublist m seg).filter live).length_le
      rw [List.length_take] at h2 ⊢
      omega
    simp only [hc] at hout
    obtain ⟨rest, hrest, rfl⟩ := Option.map_eq_some_iff.1 hout
    obtain ⟨hread, htail⟩ := read_of_page hgot (fun y hy r hr hs => by
      obtain ⟨r', hr', hs'⟩ := mem_collect hrest hy
      exact hdisj r (List.mem_of_mem_filter (List.mem_of_mem_take hr)) r' hr' ((hkey r y hs).symm.trans (hkey r' y hs'))) heq
    have hlen := congrArg List.length hread
    simp only [List.length_map, List.length_take] at hlen
    rw [hlen, show n - min n (seg.filter live).length = n - (seg.filter live).length by omega] at hrest
    exact .inr ⟨⟨m, hc, crispAt_of_read hlive hmn hread⟩, ih hnd' ⟨rest, hrest, htail⟩⟩

/-- a scan of live rows only, with each read granted in full, is crisp if the rows it is for are shown -/
theorem crisp_of_taken {n : ℕ} {segs : List (List ρ)} (hcap : ∀ k, 0 < k → k ≤ n → cap k = some k)
    (hlive : ∀ r ∈ segs.flatten, live r = true) (h : ∀ r ∈ segs.flatten.take n, (shown r).isSome) :
    Crisp cap shown live n segs := by
  induction segs generalizing n with
  | nil => trivial
  | cons seg segs ih =>
    rcases Nat.eq_zero_or_pos n with rfl | hn
    · exact .inl rfl
    rw [List.flatten_cons, List.take_append] at h
    have hall : ∀ r ∈ seg, live r = true := fun r hr => hlive r (by simp [hr])
    have hself : seg.filter live = seg := List.filter_eq_self.2 hall
    refine .inr ⟨⟨n, hcap n hn (Nat.le_refl n), ?_, .inr ⟨rfl, fun r hr => hall r (List.mem_of_mem_take hr)⟩⟩, ?_⟩
    · rw [hself]
      exact fun r hr => h r (List.mem_append_left _ hr)
    · rw [hself]
      apply ih
      · exact fun k hk hle => hcap k hk (by omega)
      · exact fun r hr => hlive r (by simp only [List.flatten_cons, List.mem_append]; exact .inr hr)
      · exact fun r hr => h r (List.mem_append_right _ hr)

/-- a scan of shown rows only, with each read granted in full, is crisp -/
theorem crisp_of_shown (hlive : ∀ r y, shown r = some y → live r = true) {n : ℕ} {segs : List (List ρ)}
    (hcap : ∀ k, 0 < k → k ≤ n → cap k = some k) (h : ∀ r ∈ segs.flatten, (shown r).isSome) :
    Crisp cap shown live n segs := by
  refine crisp_of_taken hcap (fun r hr => ?_) fun r hr => h r (List.mem_of_mem_take hr)
  obtain ⟨y, hy⟩ := Option.isSome_iff_exists.1 (h r hr)
  exact hlive r y hy

end Lumiere.Core
