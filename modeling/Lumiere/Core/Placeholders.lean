/-
An UPDATE whose text is put together at run time. One list of conditionals writes the SET list and counts the
placeholders up, a second one binds the values.

- `Update.Generated`: the two lists are over the same fields, in the same order.
- `Update.Generated.matched`, `Update.Generated.highest`: then the placeholders are those of the values bound.
- `Update.Generated.exec`: and what is written are the fields that are there and no other column.
- `Update.Generated.exec_of_writes`: it succeeds where every field that is there can be stored.
-/
import Mathlib.Data.List.Basic
import Mathlib.Data.List.Forall2
import Mathlib.Data.List.Nodup
import Mathlib.Data.Nat.Notation
import Mathlib.Tactic.Common

namespace Lumiere.Core

variable {κ ν ε : Type}

/-! ## Two lists of conditionals -/

/-- the SET list so far, each column with the index of its placeholder, and the next index -/
structure SetList (κ : Type) where
  sets : List (κ × ℕ)
  paramIdx : ℕ

def SetList.addSet (s : SetList κ) (column : κ) (isSome : Bool) : SetList κ :=
  if isSome then ⟨s.sets ++ [(column, s.paramIdx)], s.paramIdx + 1⟩ else s

def SetList.addSets (s : SetList κ) (fields : List (κ × Bool)) : SetList κ :=
  fields.foldl (fun s f => s.addSet f.1 f.2) s

/-- the SET list of these fields, the first placeholder being `$start` -/
def setList (start : ℕ) (fields : List (κ × Bool)) : List (κ × ℕ) := (SetList.addSets ⟨[], start⟩ fields).sets

/-- `if let Some(v) = value { query = query.bind(v) }`, value by value -/
def bindAll (binds : List ν) (values : List (Option ν)) : List ν :=
  values.foldl (fun binds value => binds ++ value.toList) binds

/-- the fields that are there -/
def present (fields : List (κ × Option ν)) : List (κ × ν) := fields.filterMap fun f => f.2.map fun v => (f.1, v)

theorem mem_present {fields : List (κ × Option ν)} {c : κ} {v : ν} : (c, v) ∈ present fields ↔ (c, some v) ∈ fields := by
  rw [present, List.mem_filterMap]
  constructor
  · rintro ⟨⟨c', value⟩, hmem, hsome⟩
    obtain ⟨v', rfl, heq⟩ := Option.map_eq_some_iff.1 hsome
    obtain ⟨rfl, rfl⟩ := Prod.mk.inj heq
    exact hmem
  · intro hmem
    exact ⟨_, hmem, rfl⟩

theorem addSets_fields (fields : List (κ × Option ν)) (s : SetList κ) :
    (s.addSets (fields.map fun f => (f.1, f.2.isSome))).sets =
      s.sets ++ ((present fields).map Prod.fst).zipIdx s.paramIdx := by
  unfold SetList.addSets
  induction fields generalizing s with
  | nil => simp [present]
  | cons f fields ih =>
    obtain ⟨c, value⟩ := f
    rw [List.map_cons, List.foldl_cons, ih]
    cases value with
    | none => rfl
    | some v => simp [SetList.addSet, present]

theorem bindAll_fields (fields : List (κ × Option ν)) (binds : List ν) :
    bindAll binds (fields.map Prod.snd) = binds ++ (present fields).map Prod.snd := by
  unfold bindAll
  induction fields generalizing binds with
  | nil => simp [present]
  | cons f fields ih =>
    obtain ⟨c, value⟩ := f
    rw [List.map_cons, List.foldl_cons, ih]
    cases value with
    | none => simp [present]
    | some v => simp [present]

theorem nodup_present {fields : List (κ × Option ν)} (h : (fields.map Prod.fst).Nodup) :
    ((present fields).map Prod.fst).Nodup := by
  have hsub : ((present fields).map Prod.fst).Sublist (fields.map Prod.fst) := by
    unfold present
    clear h
    induction fields with
    | nil => exact List.Sublist.slnil
    | cons f fields ih =>
      obtain ⟨c, value⟩ := f
      cases value with
      | none => exact ih.cons c
      | some v => exact ih.cons_cons c
  exact hsub.nodup h

/-! ## The statement -/

/-- `UPDATE … SET c = $n, … WHERE k = $m AND … AND n IS NULL AND …` with the values of its placeholders -/
structure Update (κ ν : Type) where
  sets : List (κ × ℕ)
  keys : List (κ × ℕ)
  nulls : List κ
  binds : List ν

namespace Update

variable (u : Update κ ν)

/-- placeholders count from 1 -/
def arg : ℕ → Option ν
  | 0 => none
  | n + 1 => u.binds[n]?

/-- the highest placeholder -/
def highest : ℕ := ((u.keys ++ u.sets).map Prod.snd).foldr max 0

end Update

/-- what a table makes of an update -/
structure Schema (κ ν ε : Type) where
  /-- a value as the column stores it -/
  assign : κ → ν → Except ε ν
  /-- `=` -/
  eq : ν → ν → Bool
  isNull : ν → Bool
  /-- the trigger on each row that is written -/
  beforeUpdate : (κ → ν) → κ → ν
  /-- the constraints of the rows afterwards -/
  check : List (κ → ν) → Except ε Unit

inductive UpdateError (ε : Type) where
  | parameterCount
  | assignedTwice
  | db (e : ε)
deriving DecidableEq, Repr

section Exec

variable (t : Schema κ ν ε) (u : Update κ ν)

def Update.addresses (row : κ → ν) : Bool :=
  (u.keys.all fun k => (u.arg k.2).any fun v => t.eq (row k.1) v) && u.nulls.all fun c => t.isNull (row c)

/-- the values of the SET list, as they are stored -/
def Update.stored : List (κ × ℕ) → Except (UpdateError ε) (List (κ × ν))
  | [] => .ok []
  | (c, n) :: sets =>
    match u.arg n with
    | none => .error .parameterCount
    | some v =>
      match t.assign c v with
      | .error e => .error (.db e)
      | .ok v =>
        match Update.stored sets with
        | .error e => .error e
        | .ok rest => .ok ((c, v) :: rest)

variable [DecidableEq κ]

def overwrite (stored : List (κ × ν)) (row : κ → ν) (c : κ) : ν := (stored.lookup c).getD (row c)

def Update.exec (rows : List (κ → ν)) : Except (UpdateError ε) (List (κ → ν)) :=
  if u.highest ≠ u.binds.length then .error .parameterCount
  else if ¬ (u.sets.map Prod.fst).Nodup then .error .assignedTwice
  else
    match u.stored t u.sets with
    | .error e => .error e
    | .ok stored =>
      let rows' := rows.map fun row => if u.addresses t row then t.beforeUpdate (overwrite stored row) else row
      match t.check rows' with
      | .error e => .error (.db e)
      | .ok () => .ok rows'

end Exec

/-! ## What it writes -/

/-- the columns of the fields that are there hold their values as these are stored, the others are as they were -/
structure Schema.Writes (t : Schema κ ν ε) (fields : List (κ × Option ν)) (row written : κ → ν) : Prop where
  given : ∀ c v, (c, some v) ∈ fields → t.assign c v = .ok (written c)
  kept : ∀ c, (∀ v, (c, some v) ∉ fields) → written c = row c

/-- both lists of conditionals are over these fields, and the placeholders of these keys come first -/
structure Update.Generated (u : Update κ ν) (where' : List (κ × ν)) (nulls : List κ) (fields : List (κ × Option ν)) :
    Prop where
  columns : (fields.map Prod.fst).Nodup
  sets : u.sets = setList (where'.length + 1) (fields.map fun f => (f.1, f.2.isSome))
  keys : u.keys = (where'.map Prod.fst).zipIdx 1
  nulls : u.nulls = nulls
  binds : u.binds = bindAll (where'.map Prod.snd) (fields.map Prod.snd)

def Schema.addressed (t : Schema κ ν ε) (where' : List (κ × ν)) (nulls : List κ) (row : κ → ν) : Bool :=
  (where'.all fun k => t.eq (row k.1) k.2) && nulls.all fun c => t.isNull (row c)

section Generated

variable {t : Schema κ ν ε} {u : Update κ ν} {where' : List (κ × ν)} {nulls : List κ} {fields : List (κ × Option ν)}

/-- what is written is determined -/
theorem Schema.Writes.unique {row written written' : κ → ν} (h : t.Writes fields row written)
    (h' : t.Writes fields row written') : written = written' := by
  funext c
  by_cases hc : ∃ v, (c, some v) ∈ fields
  · obtain ⟨v, hmem⟩ := hc
    exact Except.ok.inj ((h.given c v hmem).symm.trans (h'.given c v hmem))
  · rw [h.kept c fun v hmem => hc ⟨v, hmem⟩, h'.kept c fun v hmem => hc ⟨v, hmem⟩]

/-- a column before and after, and the field that is for it -/
def Schema.Stores (t : Schema κ ν ε) (c : κ) (field : Option ν) (before after : ν) : Prop :=
  match field with
  | some v => t.assign c v = .ok after
  | none => after = before

/-- field by field, and the columns that no field is for -/
theorem Schema.writes_iff (hcolumns : (fields.map Prod.fst).Nodup) {row written : κ → ν} :
    t.Writes fields row written ↔ (∀ f ∈ fields, t.Stores f.1 f.2 (row f.1) (written f.1)) ∧
      ∀ c, c ∉ fields.map Prod.fst → written c = row c := by
  constructor
  · intro h
    refine ⟨fun ⟨c, field⟩ hmem => ?_, fun c hc => h.kept c fun v hmem => hc (List.mem_map.2 ⟨_, hmem, rfl⟩)⟩
    cases field with
    | some v => exact h.given c v hmem
    | none =>
      refine h.kept c fun v hsome => ?_
      have heq := List.inj_on_of_nodup_map hcolumns hmem hsome rfl
      nomatch heq
  · rintro ⟨hfields, hothers⟩
    refine ⟨fun c v hmem => hfields _ hmem, fun c hnone => ?_⟩
    by_cases hc : c ∈ fields.map Prod.fst
    · obtain ⟨⟨c, field⟩, hmem, rfl⟩ := List.mem_map.1 hc
      cases field with
      | some v => exact absurd hmem (hnone v)
      | none => exact hfields _ hmem
    · exact hothers c hc

theorem Update.Generated.sets_eq (h : u.Generated where' nulls fields) :
    u.sets = ((present fields).map Prod.fst).zipIdx (where'.length + 1) := by
  rw [h.sets, setList, addSets_fields]
  rfl

theorem Update.Generated.binds_eq (h : u.Generated where' nulls fields) :
    u.binds = where'.map Prod.snd ++ (present fields).map Prod.snd := by
  rw [h.binds, bindAll_fields]

/-- the placeholder after `pre` values -/
theorem Update.arg_eq {pre post : List ν} {v : ν} (h : u.binds = pre ++ v :: post) : u.arg (pre.length + 1) = some v := by
  simp [Update.arg, h]

theorem all_keys_eq {row : κ → ν} (l : List (κ × ν)) (pre post : List ν) (h : u.binds = pre ++ (l.map Prod.snd ++ post)) :
    (((l.map Prod.fst).zipIdx (pre.length + 1)).all fun k => (u.arg k.2).any fun v => t.eq (row k.1) v) =
      l.all fun k => t.eq (row k.1) k.2 := by
  induction l generalizing pre with
  | nil => rfl
  | cons k l ih =>
    have hrest := ih (pre ++ [k.2]) (by simpa using h)
    rw [List.length_append, List.length_singleton] at hrest
    rw [List.map_cons, List.zipIdx_cons, List.all_cons, hrest, Update.arg_eq h, List.all_cons, Option.any_some]

theorem Update.Generated.addresses (h : u.Generated where' nulls fields) (row : κ → ν) :
    u.addresses t row = t.addressed where' nulls row := by
  rw [Update.addresses, Schema.addressed, h.keys, h.nulls]
  congr 1
  exact all_keys_eq where' [] _ h.binds_eq

theorem foldr_max_range' (start n : ℕ) : (List.range' (start + 1) n).foldr max 0 = if n = 0 then 0 else start + n := by
  induction n generalizing start with
  | zero => rfl
  | succ n ih =>
    rw [List.range'_succ, List.foldr_cons, ih (start + 1)]
    split <;> simp <;> omega

/-- the highest placeholder is that of the last value -/
theorem Update.Generated.highest (h : u.Generated where' nulls fields) : u.highest = u.binds.length := by
  have hindices : (u.keys ++ u.sets).map Prod.snd = List.range' 1 u.binds.length := by
    rw [h.sets_eq, h.keys, h.binds_eq, List.map_append, List.zipIdx_map_snd, List.zipIdx_map_snd, List.length_append]
    simp only [List.length_map]
    rw [Nat.add_comm where'.length 1, List.range'_append_1]
  rw [Update.highest, hindices, foldr_max_range' 0]
  split <;> omega

/-- the n-th placeholder of the SET list is matched by the n-th value bound, that of its column's field -/
theorem Update.Generated.matched (h : u.Generated where' nulls fields) {n index : ℕ} {c : κ}
    (hset : u.sets[n]? = some (c, index)) :
    index = where'.length + n + 1 ∧ ∃ v, u.arg index = some v ∧ (c, some v) ∈ fields := by
  rw [h.sets_eq, List.getElem?_zipIdx, List.getElem?_map] at hset
  obtain ⟨c', hc', heq⟩ := Option.map_eq_some_iff.1 hset
  obtain ⟨⟨c'', v⟩, hfield, rfl⟩ := Option.map_eq_some_iff.1 hc'
  obtain ⟨rfl, rfl⟩ := Prod.mk.inj heq
  have hindex : where'.length + 1 + n = where'.length + n + 1 := Nat.add_right_comm ..
  refine ⟨hindex, v, ?_, mem_present.1 (List.mem_of_getElem? hfield)⟩
  rw [hindex, Update.arg, h.binds_eq, List.getElem?_append_right (by simp), List.length_map, Nat.add_sub_cancel_left,
    List.getElem?_map, hfield, Option.map_some]

/-- the values of the SET list, which are stored one by one -/
theorem stored_of_ok (l : List (κ × ν)) (pre post : List ν) {s : List (κ × ν)}
    (h : u.binds = pre ++ (l.map Prod.snd ++ post))
    (hs : u.stored t ((l.map Prod.fst).zipIdx (pre.length + 1)) = .ok s) :
    s.map Prod.fst = l.map Prod.fst ∧ ∀ c v, (c, v) ∈ l → ∃ v', t.assign c v = .ok v' ∧ (c, v') ∈ s := by
  induction l generalizing pre s with
  | nil =>
    obtain rfl := Except.ok.inj hs
    exact ⟨rfl, fun _ _ hmem => (List.not_mem_nil hmem).elim⟩
  | cons f l ih =>
    obtain ⟨c, v⟩ := f
    rw [List.map_cons, List.zipIdx_cons, Update.stored, Update.arg_eq h] at hs
    dsimp only at hs
    rcases hv : t.assign c v with e | v'
    · rw [hv] at hs
      nomatch hs
    rcases hrest : u.stored t ((l.map Prod.fst).zipIdx (pre.length + 1 + 1)) with e | rest
    · rw [hv, hrest] at hs
      nomatch hs
    rw [hv, hrest] at hs
    obtain rfl := Except.ok.inj hs
    obtain ⟨hcolumns, hstored⟩ := ih (pre ++ [v]) (by simpa using h) (by simpa using hrest)
    refine ⟨by rw [List.map_cons, List.map_cons, hcolumns], fun c' w hmem => ?_⟩
    rcases List.mem_cons.1 hmem with heq | hmem
    · obtain ⟨rfl, rfl⟩ := Prod.mk.inj heq
      exact ⟨v', hv, List.mem_cons_self⟩
    · obtain ⟨w', hw, hmem'⟩ := hstored c' w hmem
      exact ⟨w', hw, List.mem_cons_of_mem _ hmem'⟩

theorem stored_of_assign (l : List (κ × ν)) (pre post : List ν) (h : u.binds = pre ++ (l.map Prod.snd ++ post))
    (hl : ∀ c v, (c, v) ∈ l → ∃ v', t.assign c v = .ok v') :
    ∃ s, u.stored t ((l.map Prod.fst).zipIdx (pre.length + 1)) = .ok s := by
  induction l generalizing pre with
  | nil => exact ⟨[], rfl⟩
  | cons f l ih =>
    obtain ⟨c, v⟩ := f
    obtain ⟨v', hv⟩ := hl c v List.mem_cons_self
    obtain ⟨rest, hrest⟩ := ih (pre ++ [v]) (by simpa using h) fun c' w hmem => hl c' w (List.mem_cons_of_mem _ hmem)
    rw [List.length_append, List.length_singleton] at hrest
    refine ⟨(c, v') :: rest, ?_⟩
    rw [List.map_cons, List.zipIdx_cons, Update.stored, Update.arg_eq h]
    dsimp only
    rw [hv, hrest]

variable [DecidableEq κ]

theorem lookup_of_mem {s : List (κ × ν)} (hs : (s.map Prod.fst).Nodup) {c : κ} {v : ν} (h : (c, v) ∈ s) :
    s.lookup c = some v := by
  induction s with
  | nil => exact (List.not_mem_nil h).elim
  | cons f s ih =>
    obtain ⟨c', v'⟩ := f
    obtain ⟨hnew, hs⟩ := List.nodup_cons.1 hs
    rcases List.mem_cons.1 h with heq | hmem
    · obtain ⟨rfl, rfl⟩ := Prod.mk.inj heq
      exact List.lookup_cons_self
    · have hne : c ≠ c' := by
        rintro rfl
        exact hnew (List.mem_map.2 ⟨_, hmem, rfl⟩)
      rw [List.lookup_cons, beq_false_of_ne hne]
      exact ih hs hmem

theorem overwrite_of_notMem {s : List (κ × ν)} {c : κ} (h : c ∉ s.map Prod.fst) (row : κ → ν) :
    overwrite s row c = row c := by
  have hnone : s.lookup c = none := by
    rw [List.lookup_eq_none_iff]
    intro f hf
    have hne : c ≠ f.1 := by
      rintro rfl
      exact h (List.mem_map_of_mem hf)
    exact bne_iff_ne.2 hne
  rw [overwrite, hnone, Option.getD_none]

theorem overwrite_writes (hcolumns : (fields.map Prod.fst).Nodup) {s : List (κ × ν)}
    (hs : s.map Prod.fst = (present fields).map Prod.fst)
    (hstored : ∀ c v, (c, v) ∈ present fields → ∃ v', t.assign c v = .ok v' ∧ (c, v') ∈ s) (row : κ → ν) :
    t.Writes fields row (overwrite s row) := by
  have hnodup : (s.map Prod.fst).Nodup := hs ▸ nodup_present hcolumns
  constructor
  · intro c v hmem
    obtain ⟨v', hv, hmem'⟩ := hstored c v (mem_present.2 hmem)
    rw [overwrite, lookup_of_mem hnodup hmem', hv, Option.getD_some]
  · intro c hnone
    refine overwrite_of_notMem (fun hmem => ?_) row
    rw [hs] at hmem
    obtain ⟨⟨c', v⟩, hfield, rfl⟩ := List.mem_map.1 hmem
    exact hnone v (mem_present.1 hfield)

/-- **An update that succeeds writes the fields that are there**, into the rows with these keys, and no other column. -/
theorem Update.Generated.exec (h : u.Generated where' nulls fields) {rows rows' : List (κ → ν)}
    (hexec : u.exec t rows = .ok rows') :
    List.Forall₂ (fun row row' =>
      if t.addressed where' nulls row then ∃ written, t.Writes fields row written ∧ row' = t.beforeUpdate written
      else row' = row) rows rows' := by
  unfold Update.exec at hexec
  split at hexec
  · nomatch hexec
  split at hexec
  · nomatch hexec
  rcases hstored : u.stored t u.sets with e | s
  · rw [hstored] at hexec
    nomatch hexec
  rw [hstored] at hexec
  dsimp only at hexec
  split at hexec
  · nomatch hexec
  obtain rfl := Except.ok.inj hexec
  rw [h.sets_eq, ← List.length_map Prod.snd] at hstored
  obtain ⟨hcolumns, hvalues⟩ := stored_of_ok _ _ [] (by rw [h.binds_eq, List.append_nil]) hstored
  rw [List.forall₂_map_right_iff, List.forall₂_same]
  intro row _
  rw [h.addresses]
  split
  · exact ⟨_, overwrite_writes h.columns hcolumns hvalues row, rfl⟩
  · rfl

/-- **It succeeds where the fields that are there can be stored** and the rows afterwards stand. The rows are those of
some items, `f` is what it writes for each. -/
theorem Update.Generated.exec_of_writes {α : Type} (h : u.Generated where' nulls fields) {cells f : α → κ → ν}
    {items : List α} {rows' : List (κ → ν)} (hstored : ∀ c v, (c, some v) ∈ fields → ∃ v', t.assign c v = .ok v')
    (hwrites : ∀ a, t.Writes fields (cells a) (f a))
    (hrows : rows' = items.map fun a => if t.addressed where' nulls (cells a) then t.beforeUpdate (f a) else cells a)
    (hcheck : t.check rows' = .ok ()) : u.exec t (items.map cells) = .ok rows' := by
  have halign : u.binds = where'.map Prod.snd ++ ((present fields).map Prod.snd ++ []) := by
    rw [h.binds_eq, List.append_nil]
  obtain ⟨s, hs⟩ := stored_of_assign (t := t) _ _ _ halign fun c v hmem => hstored c v (mem_present.1 hmem)
  obtain ⟨hcolumns, hvalues⟩ := stored_of_ok _ _ _ halign hs
  rw [List.length_map, ← h.sets_eq] at hs
  have hnodup : (u.sets.map Prod.fst).Nodup := by
    rw [h.sets_eq, List.zipIdx_map_fst]
    exact nodup_present h.columns
  have hresult : ((items.map cells).map fun row =>
      if u.addresses t row then t.beforeUpdate (overwrite s row) else row) = rows' := by
    rw [hrows, List.map_map]
    refine List.map_congr_left fun a _ => ?_
    rw [Function.comp_apply, h.addresses, (overwrite_writes h.columns hcolumns hvalues (cells a)).unique (hwrites a)]
  unfold Update.exec
  rw [if_neg (not_not.2 h.highest), if_neg (not_not.2 hnodup), hs]
  dsimp only
  rw [hresult, hcheck]

end Generated

end Lumiere.Core
