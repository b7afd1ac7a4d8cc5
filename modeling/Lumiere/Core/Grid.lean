/-
A text split at two separators. Its rows end at one, and the cells of a row at the other; what lies between two cell
separators is a column, with a cell from each row that it runs through.

- `columns_splitOn`: to split at the second separator first gives the columns of the rows.
- `cutColumns`: the columns of the unmarked rows. A marked row gives no cells to them, but its separators cut the column
  into parts.
- `text`: the cells of a column on rows of their own, without what is blank around them; unchanged by blank cells at the
  ends (`text_append_blank`), with the weight of its cells (`weight_text`).
- `filter_text_flatten`: a column of which one part at most is more than blank has that part as its text.
-/
import Lumiere.Core.Words
import Mathlib.Data.List.Forall2

namespace Lumiere.Core.Grid

/-! ## Columns -/

section Columns

variable {β γ δ : Type}

/-- a row in front of columns: the last cell joins the first column, each cell before it is a column alone -/
def pushRow (single : β → γ) (cons : β → γ → γ) : List β → List γ → List γ
  | [], cols => cols
  | [cell], cols => cols.modifyHead (cons cell)
  | cell :: cell' :: cells, cols => single cell :: pushRow single cons (cell' :: cells) cols

/-- the columns of rows of cells -/
def columns : List (List β) → List (List β)
  | [] => [[]]
  | row :: rows => pushRow (fun cell => [cell]) List.cons row (columns rows)

theorem pushRow_ne_nil {single : β → γ} {cons : β → γ → γ} {cols : List γ} (h : cols ≠ []) (row : List β) :
    pushRow single cons row cols ≠ [] := by
  fun_induction pushRow single cons row cols with
  | case1 => exact h
  | case2 cell cols =>
    cases cols with
    | nil => exact absurd rfl h
    | cons col cols => exact List.cons_ne_nil _ _
  | case3 => exact List.cons_ne_nil _ _

theorem columns_ne_nil (rows : List (List β)) : columns rows ≠ [] := by
  induction rows with
  | nil => exact List.cons_ne_nil _ _
  | cons row rows ih => exact pushRow_ne_nil ih row

theorem pushRow_cons {single : β → γ} {cons : β → γ → γ} (cell : β) {cells : List β} (h : cells ≠ []) (cols : List γ) :
    pushRow single cons (cell :: cells) cols = single cell :: pushRow single cons cells cols := by
  cases cells with
  | nil => exact absurd rfl h
  | cons cell' cells => rfl

theorem map_pushRow {single : β → γ} {cons : β → γ → γ} {single' : β → δ} {cons' : β → δ → δ} {f : γ → δ}
    (hsingle : ∀ cell, f (single cell) = single' cell) (hcons : ∀ cell col, f (cons cell col) = cons' cell (f col))
    (row : List β) (cols : List γ) :
    (pushRow single cons row cols).map f = pushRow single' cons' row (cols.map f) := by
  fun_induction pushRow single cons row cols with
  | case1 cols => rfl
  | case2 cell cols =>
    cases cols with
    | nil => rfl
    | cons col cols => exact congrArg (· :: cols.map f) (hcons cell col)
  | case3 cell cell' cells cols ih =>
    rw [List.map_cons, hsingle, ih]
    rfl

/-- the columns have the cells of the rows -/
theorem flatten_columns (rows : List (List β)) : (columns rows).flatten = rows.flatten := by
  have hpush : ∀ row cols, cols ≠ [] →
      (pushRow (fun cell : β => [cell]) List.cons row cols).flatten = row ++ cols.flatten := by
    intro row cols hne
    fun_induction pushRow (fun cell : β => [cell]) List.cons row cols with
    | case1 cols => rfl
    | case2 cell cols =>
      cases cols with
      | nil => exact absurd rfl hne
      | cons col cols => rfl
    | case3 cell cell' cells cols ih => exact congrArg (cell :: ·) (ih hne)
  induction rows with
  | nil => rfl
  | cons row rows ih => exact (hpush row _ (columns_ne_nil rows)).trans (congrArg (row ++ ·) ih)

end Columns

section Exchange

variable {α : Type} [DecidableEq α] {row sep : α}

omit [DecidableEq α] in
theorem pushRow_modifyHead {f : List α → List α} {cells : List (List α)} (h : cells ≠ [])
    (cols : List (List (List α))) :
    pushRow (fun cell => [cell]) List.cons (cells.modifyHead f) cols =
      (pushRow (fun cell => [cell]) List.cons cells cols).modifyHead (List.modifyHead f) := by
  match cells with
  | [] => exact absurd rfl h
  | [cell] =>
    cases cols with
    | nil => rfl
    | cons col cols => rfl
  | cell :: cell' :: cells => rfl

theorem splitOn_cons_self (a : α) (l : List α) : (a :: l).splitOn a = [] :: l.splitOn a := by
  rw [List.splitOn_cons_eq_if_modifyHead, if_pos (beq_self_eq_true a)]

theorem splitOn_cons_of_ne {a : α} (h : a ≠ sep) (l : List α) :
    (a :: l).splitOn sep = (l.splitOn sep).modifyHead (a :: ·) := by
  rw [List.splitOn_cons_eq_if_modifyHead, if_neg (by simpa using h)]

/-- **Both orders of splitting.** -/
theorem columns_splitOn (h : row ≠ sep) (l : List α) :
    columns ((l.splitOn row).map fun r => r.splitOn sep) = (l.splitOn sep).map fun c => c.splitOn row := by
  induction l with
  | nil => rfl
  | cons a l ih =>
    obtain ⟨c, cs, hc⟩ := List.exists_cons_of_ne_nil (List.splitOn_ne_nil sep l)
    obtain ⟨r, rs, hr⟩ := List.exists_cons_of_ne_nil (List.splitOn_ne_nil row l)
    rw [hc, hr, List.map_cons, List.map_cons, columns] at ih
    by_cases hsep : a = sep
    · -- a column ends, empty so far
      subst hsep
      rw [splitOn_cons_self, splitOn_cons_of_ne h.symm, hc, hr, List.modifyHead_cons, List.map_cons, List.map_cons,
        List.map_cons, columns, splitOn_cons_self, pushRow_cons [] (List.splitOn_ne_nil a r), ih]
      rfl
    · by_cases hrow : a = row
      · -- a row ends, and with it a cell of the first column
        subst hrow
        rw [splitOn_cons_self, splitOn_cons_of_ne hsep, hc, hr, List.modifyHead_cons, List.map_cons, List.map_cons,
          List.map_cons, columns, columns, ih, splitOn_cons_self]
        rfl
      · rw [splitOn_cons_of_ne hsep, splitOn_cons_of_ne hrow, hc, hr, List.modifyHead_cons, List.modifyHead_cons,
          List.map_cons, List.map_cons, columns, splitOn_cons_of_ne hsep, splitOn_cons_of_ne hrow,
          pushRow_modifyHead (List.splitOn_ne_nil sep r), ih]
        rfl

end Exchange

/-! ## Marked rows -/

section Cuts

variable {β : Type} {marked : List β → Bool} {keep blank : β → Bool}

def prependPart (cell : β) : List (List β) → List (List β)
  | [] => [[cell]]
  | part :: parts => (cell :: part) :: parts

/-- the columns of the unmarked rows, each in the parts between the cell separators of marked rows -/
def cutColumns (marked : List β → Bool) : List (List β) → List (List (List β))
  | [] => [[[]]]
  | row :: rows =>
    if marked row then (cutColumns marked rows).modifyHead (List.replicate (row.length - 1) [] ++ ·)
    else pushRow (fun cell => [[cell]]) prependPart row (cutColumns marked rows)

theorem flatten_prependPart (cell : β) (parts : List (List β)) :
    (prependPart cell parts).flatten = cell :: parts.flatten := by
  cases parts <;> rfl

/-- **Without the cuts** they are the columns of the unmarked rows. -/
theorem map_flatten_cutColumns (marked : List β → Bool) (rows : List (List β)) :
    (cutColumns marked rows).map List.flatten = columns (rows.filter fun row => !marked row) := by
  induction rows with
  | nil => rfl
  | cons row rows ih =>
    rw [cutColumns]
    split_ifs with hmarked
    · rw [List.filter_cons_of_neg (by simp [hmarked]), ← ih]
      rcases cutColumns marked rows with _ | ⟨parts, cols⟩
      · rfl
      · rw [List.modifyHead_cons, List.map_cons, List.map_cons, List.flatten_append, List.flatten_replicate_nil,
          List.nil_append]
    · rw [List.filter_cons_of_pos (by simp [hmarked]), columns, ← ih]
      exact map_pushRow (fun _ => rfl) flatten_prependPart row _

theorem cutColumns_ne_nil (rows : List (List β)) : cutColumns marked rows ≠ [] := by
  intro h
  have hmap := map_flatten_cutColumns marked rows
  rw [h] at hmap
  exact columns_ne_nil _ hmap.symm

theorem forall_pushRow {γ : Type} {single : β → γ} {cons : β → γ → γ} {P : γ → Prop} (hsingle : ∀ cell, P (single cell))
    (hcons : ∀ cell col, P (cons cell col)) (row : List β) {cols : List γ} (h : ∀ col ∈ cols, P col) :
    ∀ col ∈ pushRow single cons row cols, P col := by
  fun_induction pushRow single cons row cols with
  | case1 cols => exact h
  | case2 cell cols =>
    cases cols with
    | nil => exact h
    | cons col cols =>
      exact List.forall_mem_cons.2 ⟨hcons cell col, (List.forall_mem_cons.1 h).2⟩
  | case3 cell cell' cells cols ih => exact List.forall_mem_cons.2 ⟨hsingle cell, ih h⟩

/-- every column has a part -/
theorem parts_ne_nil (rows : List (List β)) : ∀ parts ∈ cutColumns marked rows, parts ≠ [] := by
  induction rows with
  | nil => exact fun parts h => List.mem_singleton.1 h ▸ List.cons_ne_nil _ _
  | cons row rows ih =>
    rw [cutColumns]
    split_ifs with hmarked
    · rcases hcols : cutColumns marked rows with _ | ⟨parts, cols⟩
      · exact absurd hcols (cutColumns_ne_nil rows)
      · rw [hcols, List.forall_mem_cons] at ih
        exact List.forall_mem_cons.2 ⟨List.append_ne_nil_of_right_ne_nil _ ih.1, ih.2⟩
    · have hprepend : ∀ (cell : β) parts, prependPart cell parts ≠ [] := by
        intro cell parts
        cases parts <;> exact List.cons_ne_nil _ _
      exact forall_pushRow (P := fun parts => parts ≠ []) (fun cell => List.cons_ne_nil _ _) hprepend row ih

/-- all parts one after the other -/
theorem flatten_pushRow (row : List β) {cols : List (List (List β))} (h : ∀ parts ∈ cols, parts ≠ []) :
    (pushRow (fun cell => [[cell]]) prependPart row cols).flatten =
      pushRow (fun cell => [cell]) List.cons row cols.flatten := by
  fun_induction pushRow (fun cell : β => [[cell]]) prependPart row cols with
  | case1 cols => rfl
  | case2 cell cols =>
    rcases cols with _ | ⟨_ | ⟨part, parts⟩, cols⟩
    · rfl
    · exact absurd rfl (h [] List.mem_cons_self)
    · rfl
  | case3 cell cell' cells cols ih => exact congrArg ([cell] :: ·) (ih h)

/-- the column is the part, after blank cells -/
def Padded (blank : β → Bool) (col part : List β) : Prop :=
  ∃ before, (∀ cell ∈ before, blank cell = true) ∧ col = before ++ part

theorem Padded.refl (col : List β) : Padded blank col col := ⟨[], by simp, rfl⟩

/-- the same with the first columns equal -/
def HeadPadded (blank : β → Bool) (cols parts : List (List β)) : Prop :=
  ∃ col cols' parts', cols = col :: cols' ∧ parts = col :: parts' ∧ List.Forall₂ (Padded blank) cols' parts'

theorem HeadPadded.forall₂ {cols parts : List (List β)} (h : HeadPadded blank cols parts) :
    List.Forall₂ (Padded blank) cols parts := by
  obtain ⟨col, cols', parts', rfl, rfl, hrest⟩ := h
  exact .cons (.refl col) hrest

/-- a row of which every cell is kept -/
theorem headPadded_pushRow (row : List β) {cols parts : List (List β)} (h : HeadPadded blank cols parts) :
    HeadPadded blank (pushRow (fun cell => [cell]) List.cons row cols)
      (pushRow (fun cell => [cell]) List.cons row parts) := by
  match row with
  | [] => exact h
  | [cell] =>
    obtain ⟨col, cols', parts', rfl, rfl, hrest⟩ := h
    exact ⟨cell :: col, cols', parts', rfl, rfl, hrest⟩
  | cell :: cell' :: cells => exact ⟨[cell], _, _, rfl, rfl, (headPadded_pushRow (cell' :: cells) h).forall₂⟩

/-- the columns of the cells that are kept -/
def keptColumns (keep : β → Bool) (rows : List (List β)) : List (List β) :=
  (columns rows).map fun col => col.filter keep

def keptCons (keep : β → Bool) (cell : β) (col : List β) : List β := if keep cell then cell :: col else col

theorem keptColumns_cons (keep : β → Bool) (row : List β) (rows : List (List β)) :
    keptColumns keep (row :: rows) =
      pushRow (fun cell => keptCons keep cell []) (keptCons keep) row (keptColumns keep rows) :=
  map_pushRow (fun _ => List.filter_cons) (fun _ _ => List.filter_cons) row _

theorem pushRow_keptCons (row : List β) (h : ∀ cell ∈ row, keep cell = true) (cols : List (List β)) :
    pushRow (fun cell => keptCons keep cell []) (keptCons keep) row cols =
      pushRow (fun cell => [cell]) List.cons row cols := by
  match row with
  | [] => rfl
  | [cell] =>
    have hcons : keptCons keep cell = List.cons cell := funext fun col => if_pos (h cell List.mem_cons_self)
    rw [pushRow, pushRow, hcons]
  | cell :: cell' :: cells =>
    rw [pushRow_cons cell (List.cons_ne_nil _ _), pushRow_cons cell (List.cons_ne_nil _ _),
      pushRow_keptCons (cell' :: cells) fun c hc => h c (List.mem_cons_of_mem _ hc), keptCons,
      if_pos (h cell List.mem_cons_self)]

theorem padded_keptCons {cell : β} (h : keep cell = true → blank cell = true) {col part : List β}
    (hcol : Padded blank col part) : Padded blank (keptCons keep cell col) part := by
  obtain ⟨before, hbefore, rfl⟩ := hcol
  rw [keptCons]
  split_ifs with hkeep
  · exact ⟨cell :: before, List.forall_mem_cons.2 ⟨h hkeep, hbefore⟩, rfl⟩
  · exact ⟨before, hbefore, rfl⟩

/-- a row of which only blank cells are kept cuts -/
theorem forall₂_pushRow_blank {cell : β} {cells : List β} (h : ∀ c ∈ cell :: cells, keep c = true → blank c = true)
    {cols parts : List (List β)} (hcols : List.Forall₂ (Padded blank) cols parts) :
    List.Forall₂ (Padded blank) (pushRow (fun c => keptCons keep c []) (keptCons keep) (cell :: cells) cols)
      (List.replicate cells.length [] ++ parts) := by
  induction cells generalizing cell with
  | nil =>
    cases hcols with
    | nil => exact .nil
    | cons hcol hcols => exact .cons (padded_keptCons (h cell List.mem_cons_self) hcol) hcols
  | cons cell' cells ih =>
    rw [pushRow_cons cell (List.cons_ne_nil _ _)]
    have hrest := ih fun c hc => h c (List.mem_cons_of_mem _ hc)
    exact .cons (padded_keptCons (h cell List.mem_cons_self) (.refl [])) hrest

/-- **The columns of the kept cells are the parts**, up to blank cells before them, if unmarked rows are kept whole and
only blank cells are kept of the marked ones, but not the first. -/
theorem headPadded_keptColumns {rows : List (List β)} (hne : ∀ row ∈ rows, row ≠ [])
    (hunmarked : ∀ row ∈ rows, marked row = false → ∀ cell ∈ row, keep cell = true)
    (hfirst : ∀ row ∈ rows, marked row = true → ∀ cell ∈ row.head?, keep cell = false)
    (hmarked : ∀ row ∈ rows, marked row = true → ∀ cell ∈ row, keep cell = true → blank cell = true) :
    HeadPadded blank (keptColumns keep rows) (cutColumns marked rows).flatten := by
  induction rows with
  | nil => exact ⟨[], [], [], rfl, rfl, .nil⟩
  | cons row rows ih =>
    rw [List.forall_mem_cons] at hne hunmarked hfirst hmarked
    have hrest := ih hne.2 hunmarked.2 hfirst.2 hmarked.2
    rw [keptColumns_cons, cutColumns]
    cases hrow : marked row with
    | false =>
      rw [pushRow_keptCons row (hunmarked.1 hrow), if_neg Bool.false_ne_true, flatten_pushRow row (parts_ne_nil rows)]
      exact headPadded_pushRow row hrest
    | true =>
      have hcut : ((cutColumns marked rows).modifyHead (List.replicate (row.length - 1) [] ++ ·)).flatten =
          List.replicate (row.length - 1) [] ++ (cutColumns marked rows).flatten := by
        rcases hcols : cutColumns marked rows with _ | ⟨parts, cols⟩
        · exact absurd hcols (cutColumns_ne_nil rows)
        · rw [List.modifyHead_cons, List.flatten_cons, List.flatten_cons, List.append_assoc]
      rw [if_pos rfl, hcut]
      match row with
      | [] => exact absurd rfl hne.1
      | [cell] =>
        have hdropped : keptCons keep cell = id := funext fun col => if_neg (by simp [hfirst.1 hrow cell rfl])
        rw [pushRow, hdropped, List.modifyHead_id]
        exact hrest
      | cell :: cell' :: cells =>
        have hdropped : keptCons keep cell [] = [] := if_neg (by simp [hfirst.1 hrow cell rfl])
        rw [pushRow_cons cell (List.cons_ne_nil _ _), hdropped]
        refine ⟨[], _, _, rfl, rfl, forall₂_pushRow_blank (fun c hc => ?_) hrest.forall₂⟩
        exact hmarked.1 hrow c (List.mem_cons_of_mem _ hc)

end Cuts

/-! ## The text of a column -/

section Text

variable {α : Type} {p : α → Bool} {row : α} {l b : List α} {col col' : List (List α)}

/-- how many elements are not blank -/
def weight (p : α → Bool) (l : List α) : ℕ := l.countP fun a => !p a

/-- the cells on rows of their own, stripped -/
def text (p : α → Bool) (row : α) (col : List (List α)) : List α := strip p (joined row col)

theorem weight_append (l l' : List α) : weight p (l ++ l') = weight p l + weight p l' := List.countP_append

theorem weight_eq_zero : weight p l = 0 ↔ ∀ a ∈ l, p a = true := by
  simp [weight, List.countP_eq_zero]

theorem weight_dropWhile (l : List α) : weight p (l.dropWhile p) = weight p l := by
  induction l with
  | nil => rfl
  | cons a l ih =>
    by_cases ha : p a = true
    · rw [List.dropWhile_cons_of_pos ha, ih, weight, weight, List.countP_cons_of_neg (by simp [ha])]
    · rw [List.dropWhile_cons_of_neg ha]

theorem weight_reverse (l : List α) : weight p l.reverse = weight p l := List.countP_reverse

theorem weight_strip (l : List α) : weight p (strip p l) = weight p l := by
  rw [strip, weight_reverse, weight_dropWhile, weight_reverse, weight_dropWhile]

theorem strip_append_left (hb : ∀ a ∈ b, p a = true) (l : List α) : strip p (b ++ l) = strip p l := by
  rw [strip, List.dropWhile_append_of_pos hb]
  rfl

theorem strip_append_right (hb : ∀ a ∈ b, p a = true) (l : List α) : strip p (l ++ b) = strip p l := by
  by_cases hl : ∀ a ∈ l, p a = true
  · rw [strip_append_left hl, ← List.append_nil l, strip_append_left hl, ← List.append_nil b, strip_append_left hb]
  · have hdrop : (l ++ b).dropWhile p = l.dropWhile p ++ b := by
      rw [List.dropWhile_append, if_neg]
      rw [List.isEmpty_iff, List.dropWhile_eq_nil_iff]
      exact hl
    rw [strip, hdrop, List.reverse_append, List.dropWhile_append_of_pos fun a ha => hb a (List.mem_reverse.1 ha)]
    rfl

theorem strip_eq_nil : strip p l = [] ↔ ∀ a ∈ l, p a = true := by
  rw [← weight_eq_zero]
  constructor
  · intro h
    rw [← weight_strip, h]
    rfl
  · intro h
    rw [← List.append_nil l, strip_append_left (weight_eq_zero.1 h)]
    rfl

theorem joined_append (hcol : col ≠ []) (hcol' : col' ≠ []) :
    joined row (col ++ col') = joined row col ++ row :: joined row col' := by
  induction col with
  | nil => exact absurd rfl hcol
  | cons cell col ih =>
    by_cases h : col = []
    · subst h
      rw [joined_singleton]
      exact joined_cons cell hcol'
    · rw [List.cons_append, joined_cons cell (List.append_ne_nil_of_left_ne_nil h _), ih h, joined_cons cell h,
        List.append_assoc, List.cons_append]

/-- every cell is blank -/
def Blank (p : α → Bool) (col : List (List α)) : Prop := ∀ cell ∈ col, ∀ a ∈ cell, p a = true

theorem joined_blank (hrow : p row = true) (h : Blank p col) : ∀ a ∈ joined row col, p a = true := by
  intro a ha
  rcases mem_joined ha with rfl | ⟨cell, hcell, ha⟩
  · exact hrow
  · exact h cell hcell a ha

/-- blank cells before a column do not show -/
theorem text_append_left (hrow : p row = true) (h : Blank p col) (col' : List (List α)) :
    text p row (col ++ col') = text p row col' := by
  by_cases hcol : col = []
  · rw [hcol, List.nil_append]
  · by_cases hcol' : col' = []
    · rw [hcol', List.append_nil, text, text, strip_eq_nil.2 (joined_blank hrow h)]
      rfl
    · rw [text, joined_append hcol hcol', strip_append_left (joined_blank hrow h), ← List.singleton_append,
        strip_append_left (by simpa using hrow)]
      rfl

/-- nor behind it -/
theorem text_append_right (hrow : p row = true) (h : Blank p col') (col : List (List α)) :
    text p row (col ++ col') = text p row col := by
  by_cases hcol' : col' = []
  · rw [hcol', List.append_nil]
  · by_cases hcol : col = []
    · rw [hcol, List.nil_append, text, text, strip_eq_nil.2 (joined_blank hrow h)]
      rfl
    · rw [text, joined_append hcol hcol', strip_append_right]
      · rfl
      · exact List.forall_mem_cons.2 ⟨hrow, joined_blank hrow h⟩

theorem weight_joined (hrow : p row = true) (col : List (List α)) :
    weight p (joined row col) = weight p col.flatten := by
  induction col with
  | nil => rfl
  | cons cell col ih =>
    by_cases h : col = []
    · subst h
      rw [joined_singleton, List.flatten_cons, List.flatten_nil, List.append_nil]
    · have hsep : weight p (row :: joined row col) = weight p (joined row col) :=
        List.countP_cons_of_neg (by simp [hrow])
      rw [joined_cons cell h, weight_append, hsep, ih, List.flatten_cons, weight_append]

/-- **The text has the weight of the cells.** -/
theorem weight_text (hrow : p row = true) (col : List (List α)) : weight p (text p row col) = weight p col.flatten := by
  rw [text, weight_strip, weight_joined hrow]

theorem text_eq_nil (hrow : p row = true) : text p row col = [] ↔ Blank p col := by
  constructor
  · intro h
    have hzero : weight p col.flatten = 0 := by
      rw [← weight_text hrow, h]
      rfl
    exact fun cell hcell a ha => weight_eq_zero.1 hzero a (List.mem_flatten.2 ⟨cell, hcell, ha⟩)
  · intro h
    exact strip_eq_nil.2 (joined_blank hrow h)

/-- what the marked rows add to the weight -/
theorem weight_keptColumns {marked : List (List α) → Bool} {keep : List α → Bool} {rows : List (List (List α))}
    (hunmarked : ∀ row ∈ rows, marked row = false → ∀ cell ∈ row, keep cell = true) :
    weight p (keptColumns keep rows).flatten.flatten =
      weight p (columns (rows.filter fun row => !marked row)).flatten.flatten +
        weight p ((rows.filter marked).flatten.filter keep).flatten := by
  rw [keptColumns, ← List.filter_flatten, flatten_columns, flatten_columns]
  induction rows with
  | nil => rfl
  | cons row rows ih =>
    rw [List.forall_mem_cons] at hunmarked
    rw [List.flatten_cons, List.filter_append, List.flatten_append, weight_append, ih hunmarked.2]
    cases hrow : marked row with
    | false =>
      rw [List.filter_eq_self.2 (hunmarked.1 hrow), List.filter_cons_of_pos (by simp [hrow]),
        List.filter_cons_of_neg (by simp [hrow]), List.flatten_cons, List.flatten_append, weight_append]
      omega
    | true =>
      rw [List.filter_cons_of_neg (by simp [hrow]), List.filter_cons_of_pos hrow, List.flatten_cons,
        List.filter_append, List.flatten_append, weight_append]
      omega

/-! ## The texts of columns -/

/-- those that are not empty -/
def texts (p : α → Bool) (row : α) (cols : List (List (List α))) : List (List α) :=
  (cols.map (text p row)).filter fun t => !t.isEmpty

/-- more than blank -/
def hasText (p : α → Bool) (col : List (List α)) : Bool := col.any fun cell => cell.any fun a => !p a

theorem hasText_eq_false : hasText p col = false ↔ Blank p col := by
  simp [hasText, Blank]

theorem texts_append (cols cols' : List (List (List α))) :
    texts p row (cols ++ cols') = texts p row cols ++ texts p row cols' := by
  rw [texts, List.map_append, List.filter_append]
  rfl

theorem texts_cons (hrow : p row = true) (col : List (List α)) (cols : List (List (List α))) :
    texts p row (col :: cols) = (if hasText p col then [text p row col] else []) ++ texts p row cols := by
  rw [← List.singleton_append, texts_append]
  refine congrArg (· ++ texts p row cols) ?_
  cases htext : hasText p col with
  | false =>
    have hnil := (text_eq_nil hrow).2 (hasText_eq_false.1 htext)
    simp [texts, hnil]
  | true =>
    have hne : text p row col ≠ [] := fun h => by
      rw [hasText_eq_false.2 ((text_eq_nil hrow).1 h)] at htext
      cases htext
    simp [texts, hne]

theorem length_texts (hrow : p row = true) (cols : List (List (List α))) :
    (texts p row cols).length = cols.countP (hasText p) := by
  induction cols with
  | nil => rfl
  | cons col cols ih =>
    rw [texts_cons hrow, List.length_append, ih, List.countP_cons, Nat.add_comm]
    split_ifs <;> rfl

theorem weight_texts (hrow : p row = true) (cols : List (List (List α))) :
    weight p (texts p row cols).flatten = weight p cols.flatten.flatten := by
  induction cols with
  | nil => rfl
  | cons col cols ih =>
    rw [texts_cons hrow, List.flatten_append, weight_append, ih, List.flatten_cons, List.flatten_append, weight_append]
    refine congrArg (· + _) ?_
    split_ifs with htext
    · rw [List.flatten_singleton, weight_text hrow]
    · rw [Bool.not_eq_true, hasText_eq_false] at htext
      rw [← weight_text hrow col, (text_eq_nil hrow).2 htext]
      rfl

/-- padding does not show -/
theorem texts_of_padded (hrow : p row = true) {cols parts : List (List (List α))}
    (h : List.Forall₂ (Padded fun cell => cell.all p) cols parts) : texts p row cols = texts p row parts := by
  have hmap : cols.map (text p row) = parts.map (text p row) := by
    induction h with
    | nil => rfl
    | cons hcol _ ih =>
      obtain ⟨before, hbefore, rfl⟩ := hcol
      have hblank : Blank p before := fun cell hcell => List.all_eq_true.1 (hbefore cell hcell)
      rw [List.map_cons, List.map_cons, ih, text_append_left hrow hblank]
  rw [texts, hmap]
  rfl

theorem hasText_flatten (parts : List (List (List α))) : hasText p parts.flatten = parts.any (hasText p) := by
  rw [hasText, List.any_flatten]
  rfl

/-- **A column of which one part at most is more than blank has that part as its text.** -/
theorem texts_flatten_parts (hrow : p row = true) {parts : List (List (List α))} (h : parts.countP (hasText p) ≤ 1) :
    texts p row parts = texts p row [parts.flatten] := by
  induction parts with
  | nil =>
    rw [texts_cons hrow]
    rfl
  | cons part parts ih =>
    rw [texts_cons hrow part]
    cases htext : hasText p part with
    | false =>
      rw [List.countP_cons_of_neg (by simp [htext])] at h
      have hsame := text_append_left hrow (hasText_eq_false.1 htext) parts.flatten
      rw [if_neg Bool.false_ne_true, List.nil_append, ih h, List.flatten_cons, texts, texts, List.map_singleton,
        List.map_singleton, hsame]
    | true =>
      rw [List.countP_cons_of_pos htext] at h
      have hrest : ∀ part ∈ parts, hasText p part = false := by
        simpa using List.countP_eq_zero.1 (Nat.le_zero.1 (Nat.le_of_succ_le_succ h))
      have hblank : hasText p parts.flatten = false := by
        rw [hasText_flatten, List.any_eq_false]
        simpa using hrest
      have hnil : texts p row parts = [] := by
        rw [← List.length_eq_zero_iff, length_texts hrow, List.countP_eq_zero]
        simpa using hrest
      have hcol : hasText p (part ++ parts.flatten) = true := by
        rw [hasText, List.any_append, ← hasText, htext]
        rfl
      rw [if_pos rfl, hnil, List.flatten_cons, texts_cons hrow, if_pos hcol,
        text_append_right hrow (hasText_eq_false.1 hblank)]
      rfl

/-- **Cut columns have the texts of the columns**, if no column has text on both sides of a cut. -/
theorem texts_flatten (hrow : p row = true) {cols : List (List (List (List α)))}
    (h : ∀ parts ∈ cols, parts.countP (hasText p) ≤ 1) :
    texts p row cols.flatten = texts p row (cols.map List.flatten) := by
  induction cols with
  | nil => rfl
  | cons parts cols ih =>
    rw [List.forall_mem_cons] at h
    rw [List.flatten_cons, texts_append, texts_flatten_parts hrow h.1, ih h.2, List.map_cons, ← texts_append]
    rfl

/-- otherwise there are more of them -/
theorem length_texts_flatten (hrow : p row = true) (cols : List (List (List (List α)))) :
    (texts p row (cols.map List.flatten)).length ≤ (texts p row cols.flatten).length ∧
      ((texts p row cols.flatten).length ≤ (texts p row (cols.map List.flatten)).length →
        ∀ parts ∈ cols, parts.countP (hasText p) ≤ 1) := by
  simp only [length_texts hrow]
  induction cols with
  | nil => exact ⟨le_rfl, fun _ _ h => by cases h⟩
  | cons parts cols ih =>
    rw [List.flatten_cons, List.countP_append, List.map_cons, List.countP_cons, List.forall_mem_cons, hasText_flatten]
    split_ifs with hany
    · obtain ⟨part, hpart, htext⟩ := List.any_eq_true.1 hany
      have hpos : 0 < parts.countP (hasText p) := List.countP_pos_iff.2 ⟨part, hpart, htext⟩
      exact ⟨by omega, fun hle => ⟨by omega, ih.2 (by omega)⟩⟩
    · have hzero : parts.countP (hasText p) = 0 := List.countP_eq_zero.2 fun part hpart htext =>
        hany (List.any_eq_true.2 ⟨part, hpart, htext⟩)
      exact ⟨by omega, fun hle => ⟨by omega, ih.2 (by omega)⟩⟩

end Text

end Lumiere.Core.Grid
