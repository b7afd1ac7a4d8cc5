/-
A table: rows with a key, no key twice. Writes come as the SQL statements that make them: `insert` refuses a key that
is there, `insertIgnore` leaves the row that is there, `upsert` replaces it. An update may not change keys.
-/
import Mathlib.Data.List.Nodup

namespace Lumiere.Core

section Count

variable {α : Type} {l : List α} {p q r : α → Bool}

theorem countP_le_add (h : ∀ a ∈ l, p a = true → q a = true ∨ r a = true) :
    l.countP p ≤ l.countP q + l.countP r := by
  induction l with
  | nil => simp
  | cons a l ih =>
    have hl := ih fun b hb => h b (List.mem_cons_of_mem a hb)
    have ha := h a List.mem_cons_self
    simp only [List.countP_cons]
    cases hp : p a <;> cases hq : q a <;> cases hr : r a <;> simp [hp, hq, hr] at ha ⊢ <;> omega

theorem add_le_countP (hq : ∀ a ∈ l, q a = true → p a = true) (hr : ∀ a ∈ l, r a = true → p a = true)
    (hqr : ∀ a ∈ l, q a = true → r a = false) : l.countP q + l.countP r ≤ l.countP p := by
  induction l with
  | nil => simp
  | cons a l ih =>
    have hl := ih (fun b hb => hq b (List.mem_cons_of_mem a hb)) (fun b hb => hr b (List.mem_cons_of_mem a hb))
      fun b hb => hqr b (List.mem_cons_of_mem a hb)
    have h1 := hq a List.mem_cons_self
    have h2 := hr a List.mem_cons_self
    have h3 := hqr a List.mem_cons_self
    simp only [List.countP_cons]
    cases hpa : p a <;> cases hqa : q a <;> cases hra : r a <;> simp [hpa, hqa, hra] at h1 h2 h3 ⊢ <;> omega

end Count

structure Table {α κ : Type} (key : α → κ) where
  rows : List α
  nodup : (rows.map key).Nodup

namespace Table

variable {α κ : Type} {key : α → κ} {t : Table key} {a b : α}

instance : Membership α (Table key) := ⟨fun t a => a ∈ t.rows⟩

instance [DecidableEq α] (a : α) (t : Table key) : Decidable (a ∈ t) := inferInstanceAs (Decidable (a ∈ t.rows))

theorem mem_rows : a ∈ t.rows ↔ a ∈ t := Iff.rfl

theorem ext_rows {t t' : Table key} (h : t.rows = t'.rows) : t = t' := by
  cases t
  cases t'
  cases h
  rfl

def empty : Table key := ⟨[], List.nodup_nil⟩

@[simp] theorem not_mem_empty : a ∉ (empty : Table key) := List.not_mem_nil

theorem eq_of_key_eq (ha : a ∈ t) (hb : b ∈ t) (h : key a = key b) : a = b :=
  List.inj_on_of_nodup_map t.nodup ha hb h

def select (t : Table key) (p : α → Bool) : List α := t.rows.filter p

@[simp] theorem mem_select {p : α → Bool} : a ∈ t.select p ↔ a ∈ t ∧ p a = true := List.mem_filter

/-- a column is duplicate-free among the selected rows, if it gives their keys back -/
theorem nodup_map_select {β : Type} {p : α → Bool} {f : α → β} (g : β → κ)
    (h : ∀ a ∈ t, p a = true → g (f a) = key a) : ((t.select p).map f).Nodup := by
  have hkeys : ((t.select p).map key).Nodup := t.nodup.sublist (List.filter_sublist.map _)
  refine List.Nodup.of_map g ?_
  rw [List.map_map]
  convert hkeys using 1
  refine List.map_congr_left fun a ha => ?_
  obtain ⟨hmem, hp⟩ := mem_select.1 ha
  exact h a hmem hp

def any (t : Table key) (p : α → Bool) : Bool := t.rows.any p

@[simp] theorem any_eq_true {p : α → Bool} : t.any p = true ↔ ∃ a ∈ t, p a = true := List.any_eq_true

theorem any_eq_false {p : α → Bool} : t.any p = false ↔ ∀ a ∈ t, p a = false := by
  rw [any, List.any_eq_false]
  simp only [Bool.not_eq_true]
  exact Iff.rfl

def find? (t : Table key) (p : α → Bool) : Option α := t.rows.find? p

theorem mem_of_find? {p : α → Bool} (h : t.find? p = some a) : a ∈ t ∧ p a = true :=
  ⟨List.mem_of_find?_eq_some h, List.find?_some h⟩

theorem find?_eq_none {p : α → Bool} : t.find? p = none ↔ ∀ a ∈ t, p a = false := by
  rw [find?, List.find?_eq_none]
  exact forall₂_congr fun _ _ => Bool.not_eq_true _ ▸ Iff.rfl

theorem find?_of_mem {p : α → Bool} (ha : a ∈ t) (hp : p a = true) (hu : ∀ b ∈ t, p b = true → b = a) :
    t.find? p = some a := by
  rcases h : t.find? p with _ | b
  · rw [find?_eq_none.1 h a ha] at hp
    cases hp
  · obtain ⟨hb, hpb⟩ := mem_of_find? h
    rw [hu b hb hpb]

def count (t : Table key) (p : α → Bool) : ℕ := t.rows.countP p

/-- of two rows one has another key -/
theorem exists_ne_of_count [DecidableEq κ] {p : α → Bool} (h : 1 < t.count p) (k : κ) :
    ∃ a ∈ t, p a = true ∧ key a ≠ k := by
  by_contra hnone
  have hsame : ∀ a ∈ t.rows, p a = true → key a = k := fun a ha hp => by
    by_contra hkey
    exact hnone ⟨a, ha, hp, hkey⟩
  have hle : t.rows.countP p ≤ t.rows.countP fun a => key a == k :=
    List.countP_mono_left fun a ha hp => beq_iff_eq.2 (hsame a ha hp)
  have hone : t.rows.countP (fun a => key a == k) ≤ 1 := by
    have hcount := List.nodup_iff_count_le_one.1 t.nodup k
    rw [List.count, List.countP_map] at hcount
    exact hcount
  rw [count] at h
  omega

theorem count_le_one [DecidableEq κ] {p : α → Bool} {k : κ} (h : ∀ a ∈ t, p a = true → key a = k) : t.count p ≤ 1 := by
  by_contra hlt
  obtain ⟨a, ha, hp, hne⟩ := exists_ne_of_count (Nat.lt_of_not_le hlt) k
  exact hne (h a ha hp)

/-! ## Writes -/

def deleteWhere (t : Table key) (p : α → Bool) : Table key where
  rows := t.rows.filter fun a => !p a
  nodup := t.nodup.sublist ((List.filter_sublist (l := t.rows)).map key)

@[simp] theorem mem_deleteWhere {p : α → Bool} : a ∈ t.deleteWhere p ↔ a ∈ t ∧ p a = false := by
  rw [← mem_rows, deleteWhere, List.mem_filter, Bool.not_eq_true']
  exact Iff.rfl

theorem deleteWhere_eq_self {p : α → Bool} : t.deleteWhere p = t ↔ ∀ a ∈ t, p a = false := by
  constructor
  · intro h a ha
    rw [← h, mem_deleteWhere] at ha
    exact ha.2
  · intro h
    refine ext_rows (List.filter_eq_self.2 fun a ha => ?_)
    rw [h a ha]
    rfl

/-- `f` keeps keys -/
def updateWhere (t : Table key) (p : α → Bool) (f : α → α) (hf : ∀ a, key (f a) = key a) : Table key where
  rows := t.rows.map fun a => if p a then f a else a
  nodup := by
    rw [List.map_map]
    have hkey : (key ∘ fun a => if p a then f a else a) = key := by
      funext a
      simp only [Function.comp]
      split_ifs
      · exact hf a
      · rfl
    rw [hkey]
    exact t.nodup

theorem mem_updateWhere {p : α → Bool} {f : α → α} {hf : ∀ a, key (f a) = key a} :
    a ∈ t.updateWhere p f hf ↔ ∃ b ∈ t, (if p b then f b else b) = a := List.mem_map

theorem mem_updateWhere_of_mem {p : α → Bool} {f : α → α} (hf : ∀ a, key (f a) = key a) (ha : a ∈ t) (hp : p a = true) :
    f a ∈ t.updateWhere p f hf :=
  mem_updateWhere.2 ⟨a, ha, if_pos hp⟩

/-- a column that the update does not set -/
theorem map_updateWhere {β : Type} {p : α → Bool} {f : α → α} (hf : ∀ a, key (f a) = key a) {g : α → β}
    (hg : ∀ a, g (f a) = g a) : (t.updateWhere p f hf).rows.map g = t.rows.map g := by
  rw [updateWhere, List.map_map]
  refine List.map_congr_left fun a _ => ?_
  simp only [Function.comp]
  split_ifs
  · exact hg a
  · rfl

theorem count_updateWhere {p q : α → Bool} {f : α → α} (hf : ∀ a, key (f a) = key a) (hq : ∀ a, q (f a) = q a) :
    (t.updateWhere p f hf).count q = t.count q := by
  rw [count, updateWhere, List.countP_map]
  refine List.countP_congr fun a _ => ?_
  simp only [Function.comp]
  split_ifs
  · rw [hq]
  · rfl

section Insert

variable [DecidableEq κ]

def insert? (t : Table key) (a : α) : Option (Table key) :=
  if h : key a ∈ t.rows.map key then none
  else some ⟨t.rows ++ [a], by
    rw [List.map_append, List.nodup_append]
    refine ⟨t.nodup, List.nodup_singleton _, fun k hk k' hk' => ?_⟩
    rw [List.map_singleton, List.mem_singleton] at hk'
    rintro rfl
    exact h (hk' ▸ hk)⟩

theorem rows_insert? {t' : Table key} (h : t.insert? a = some t') : t'.rows = t.rows ++ [a] := by
  rw [insert?] at h
  split_ifs at h
  exact Option.some.inj h ▸ rfl

theorem insert?_eq_some {t' : Table key} (h : t.insert? a = some t') :
    (∀ b ∈ t, key b ≠ key a) ∧ ∀ b, b ∈ t' ↔ b ∈ t ∨ b = a := by
  rw [insert?] at h
  split_ifs at h with hk
  obtain rfl := Option.some.inj h
  refine ⟨fun b hb hkey => hk (List.mem_map.2 ⟨b, hb, hkey⟩), fun b => ?_⟩
  rw [← mem_rows, List.mem_append, List.mem_singleton, mem_rows]

theorem insert?_eq_none (h : t.insert? a = none) : ∃ b ∈ t, key b = key a := by
  rw [insert?] at h
  split_ifs at h with hk
  exact List.mem_map.1 hk

def insertIgnore (t : Table key) (a : α) : Table key := (t.insert? a).getD t

theorem mem_insertIgnore : b ∈ t.insertIgnore a → b ∈ t ∨ b = a := by
  rw [insertIgnore]
  rcases h : t.insert? a with _ | t'
  · exact Or.inl
  · exact ((insert?_eq_some h).2 b).1

theorem subset_insertIgnore (h : b ∈ t) : b ∈ t.insertIgnore a := by
  rw [insertIgnore]
  rcases h' : t.insert? a with _ | t'
  · exact h
  · exact ((insert?_eq_some h').2 b).2 (.inl h)

theorem exists_mem_insertIgnore (t : Table key) (a : α) : ∃ b ∈ t.insertIgnore a, key b = key a := by
  rw [insertIgnore]
  rcases h : t.insert? a with _ | t'
  · exact insert?_eq_none h
  · exact ⟨a, ((insert?_eq_some h).2 a).2 (.inr rfl), rfl⟩

theorem insert?_of_forall_ne (h : ∀ b ∈ t, key b ≠ key a) : t.insert? a = some (t.insertIgnore a) := by
  rw [insertIgnore]
  rcases h' : t.insert? a with _ | t'
  · obtain ⟨b, hb, hkey⟩ := insert?_eq_none h'
    exact absurd hkey (h b hb)
  · rfl

/-- the row takes the place of the row with its key -/
def replace (t : Table key) (a : α) : Table key :=
  t.updateWhere (fun b => key b = key a) (fun b => if key b = key a then a else b) fun b => by
    split_ifs with h
    · exact h.symm
    · rfl

theorem mem_replace : b ∈ t.replace a ↔ b ∈ t ∧ key b ≠ key a ∨ b = a ∧ ∃ c ∈ t, key c = key a := by
  rw [replace, mem_updateWhere]
  constructor
  · rintro ⟨c, hc, rfl⟩
    by_cases hkey : key c = key a
    · rw [if_pos (decide_eq_true hkey), if_pos hkey]
      exact .inr ⟨rfl, c, hc, hkey⟩
    · rw [if_neg (by simp [hkey])]
      exact .inl ⟨hc, hkey⟩
  · rintro (⟨hb, hkey⟩ | ⟨rfl, c, hc, hkey⟩)
    · exact ⟨b, hb, by simp [hkey]⟩
    · exact ⟨c, hc, by simp [hkey]⟩

/-- a row is found by its key -/
theorem find?_key {k : κ} : t.find? (fun b => key b = k) = some a ↔ a ∈ t ∧ key a = k := by
  constructor
  · intro h
    obtain ⟨hmem, hkey⟩ := mem_of_find? h
    exact ⟨hmem, of_decide_eq_true hkey⟩
  · rintro ⟨hmem, rfl⟩
    exact find?_of_mem hmem (by simp) fun b hb hkey => eq_of_key_eq hb hmem (of_decide_eq_true hkey)

theorem find?_replace_of_ne {k : κ} (h : key a ≠ k) :
    (t.replace a).find? (fun b => key b = k) = t.find? fun b => key b = k := by
  refine Option.ext fun b => ?_
  rw [find?_key, find?_key, mem_replace]
  constructor
  · rintro ⟨⟨hb, -⟩ | ⟨rfl, -⟩, hkey⟩
    · exact ⟨hb, hkey⟩
    · exact absurd hkey h
  · rintro ⟨hb, rfl⟩
    exact ⟨.inl ⟨hb, Ne.symm h⟩, rfl⟩

theorem find?_updateWhere {p : α → Bool} {f : α → α} (hf : ∀ a, key (f a) = key a) (k : κ) :
    (t.updateWhere p f hf).find? (fun b => key b = k) =
      (t.find? fun b => key b = k).map fun a => if p a then f a else a := by
  rw [find?, find?, updateWhere, List.find?_map]
  congr 2
  funext a
  simp only [Function.comp]
  split_ifs <;> simp [hf]

/-- `RETURNING` the row of an update that wrote one, by its key -/
theorem mem_of_returning {p : α → Bool} {f : α → α} (hf : ∀ a, key (f a) = key a) {k : κ} {b : α}
    (hp : ∀ a, p a = true → key a = k) (hcount : t.count p ≠ 0)
    (hfind : (t.updateWhere p f hf).find? (fun b => key b = k) = some b) :
    ∃ a ∈ t, p a = true ∧ b = f a ∧ b ∈ t.updateWhere p f hf := by
  obtain ⟨a, ha, hpa⟩ := List.countP_pos_iff.1 (Nat.pos_of_ne_zero hcount)
  refine ⟨a, ha, hpa, ?_, (mem_of_find? hfind).1⟩
  rw [find?_updateWhere, find?_key.2 ⟨ha, hp a hpa⟩, Option.map_some, if_pos hpa] at hfind
  exact (Option.some.inj hfind).symm

theorem find?_deleteWhere {p : α → Bool} (k : κ) :
    (t.deleteWhere p).find? (fun b => key b = k) = (t.find? fun b => key b = k).filter fun a => !p a := by
  refine Option.ext fun b => ?_
  rw [find?_key, mem_deleteWhere, Option.filter_eq_some_iff, find?_key, Bool.not_eq_true', and_right_comm]

/-- an update of the row with a key puts a row in its place -/
theorem updateWhere_eq_replace {k : κ} {f : α → α} {hf : ∀ a, key (f a) = key a}
    (h : t.find? (fun b => key b = k) = some a) : t.updateWhere (fun b => key b = k) f hf = t.replace (f a) := by
  obtain ⟨hmem, rfl⟩ := find?_key.1 h
  refine ext_rows (List.map_congr_left fun b hb => ?_)
  by_cases hkey : key b = key a
  · obtain rfl := eq_of_key_eq hb hmem hkey
    simp [hf]
  · simp [hf, hkey]

/-- `ON CONFLICT DO UPDATE`: `merge old` replaces the row with the key of `a` -/
def upsert (t : Table key) (a : α) (merge : α → α) (hmerge : ∀ b, key (merge b) = key b) : Table key :=
  match t.insert? a with
  | some t' => t'
  | none => t.updateWhere (fun b => key b = key a) merge hmerge

theorem upsert_of_key {merge : α → α} {hmerge : ∀ b, key (merge b) = key b} (h : ∃ b ∈ t, key b = key a) :
    t.upsert a merge hmerge = t.updateWhere (fun b => key b = key a) merge hmerge := by
  rw [upsert]
  rcases h' : t.insert? a with _ | t'
  · rfl
  · obtain ⟨b, hb, hkey⟩ := h
    exact absurd hkey ((insert?_eq_some h').1 b hb)

theorem rows_upsert_of_forall_ne {merge : α → α} {hmerge : ∀ b, key (merge b) = key b} (h : ∀ b ∈ t, key b ≠ key a) :
    (t.upsert a merge hmerge).rows = t.rows ++ [a] := by
  rw [upsert]
  rcases h' : t.insert? a with _ | t'
  · obtain ⟨b, hb, hkey⟩ := insert?_eq_none h'
    exact absurd hkey (h b hb)
  · exact rows_insert? h'

theorem mem_upsert {merge : α → α} {hmerge : ∀ b, key (merge b) = key b} (h : b ∈ t.upsert a merge hmerge) :
    b ∈ t ∨ b = a ∨ ∃ c ∈ t, merge c = b := by
  rw [upsert] at h
  rcases h' : t.insert? a with _ | t'
  · rw [h'] at h
    obtain ⟨c, hc, rfl⟩ := mem_updateWhere.1 h
    split_ifs
    · exact .inr (.inr ⟨c, hc, rfl⟩)
    · exact .inl hc
  · rw [h'] at h
    rcases ((insert?_eq_some h').2 b).1 h with hb | hb
    · exact .inl hb
    · exact .inr (.inl hb)

theorem exists_mem_upsert (t : Table key) (a : α) (merge : α → α) (hmerge : ∀ b, key (merge b) = key b) :
    ∃ b ∈ t.upsert a merge hmerge, key b = key a := by
  rw [upsert]
  rcases h : t.insert? a with _ | t'
  · obtain ⟨c, hc, hkey⟩ := insert?_eq_none h
    refine ⟨merge c, mem_updateWhere.2 ⟨c, hc, ?_⟩, (hmerge c).trans hkey⟩
    rw [if_pos (decide_eq_true hkey)]
  · exact ⟨a, ((insert?_eq_some h).2 a).2 (.inr rfl), rfl⟩

/-- where the merge overwrites every other column, the row is there -/
theorem mem_upsert_self {merge : α → α} (hmerge : ∀ b, key (merge b) = key b)
    (hrow : ∀ b, key b = key a → merge b = a) : a ∈ t.upsert a merge hmerge := by
  rw [upsert]
  rcases h : t.insert? a with _ | t'
  · obtain ⟨c, hc, hkey'⟩ := insert?_eq_none h
    refine mem_updateWhere.2 ⟨c, hc, ?_⟩
    rw [if_pos (decide_eq_true hkey')]
    exact hrow c hkey'
  · exact ((insert?_eq_some h).2 a).2 (.inr rfl)

theorem upsert_eq_self {merge : α → α} (hmerge : ∀ b, key (merge b) = key b)
    (hrow : ∀ b, key b = key a → merge b = a) : t.upsert a merge hmerge = t ↔ a ∈ t := by
  constructor
  · intro h
    have hmem := mem_upsert_self (t := t) hmerge hrow
    rwa [h] at hmem
  · intro ha
    rw [upsert]
    rcases h : t.insert? a with _ | t'
    · refine ext_rows ?_
      conv_rhs => rw [← List.map_id t.rows]
      refine List.map_congr_left fun b hb => ?_
      split_ifs with hkey
      · have hkey' := of_decide_eq_true hkey
        rw [hrow b hkey', eq_of_key_eq hb ha hkey']
        rfl
      · rfl
    · exact absurd rfl ((insert?_eq_some h).1 a ha)

/-- the row with a key after an upsert -/
theorem find?_upsert {merge : α → α} (hmerge : ∀ b, key (merge b) = key b) (k : κ) :
    (t.upsert a merge hmerge).find? (fun b => key b = k) =
      if key a = k then some ((t.find? fun b => key b = k).elim a merge) else t.find? fun b => key b = k := by
  rw [upsert]
  rcases h : t.insert? a with _ | t'
  · refine (find?_updateWhere hmerge k).trans ?_
    rcases hrow : t.find? (fun b => key b = k) with _ | b
    · obtain ⟨c, hc, hkey⟩ := insert?_eq_none h
      rw [if_neg fun hk => ?_, Option.map_none]
      have hnone := find?_eq_none.1 hrow c hc
      rw [hkey, hk] at hnone
      simp at hnone
    · rw [Option.map_some, (find?_key.1 hrow).2]
      by_cases hk : key a = k
      · rw [if_pos hk, if_pos (decide_eq_true hk.symm)]
        rfl
      · rw [if_neg hk, if_neg (by simp [Ne.symm hk])]
  · refine Option.ext fun b => ?_
    rw [find?_key, (insert?_eq_some h).2]
    split_ifs with hk
    · have hfresh : ∀ b ∈ t, key b ≠ key a := (insert?_eq_some h).1
      have hnone : t.find? (fun b => key b = k) = none := find?_eq_none.2 fun b hb =>
        decide_eq_false fun hkb => hfresh b hb (hkb.trans hk.symm)
      rw [hnone, Option.elim_none, Option.some.injEq]
      constructor
      · rintro ⟨hb | rfl, hkb⟩
        · exact absurd (hkb.trans hk.symm) (hfresh b hb)
        · rfl
      · rintro rfl
        exact ⟨.inr rfl, hk⟩
    · rw [find?_key]
      refine and_congr_left fun hkb => or_iff_left ?_
      rintro rfl
      exact hk hkb

end Insert

end Table

end Lumiere.Core
