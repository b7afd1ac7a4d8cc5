/-
Words of a list: the maximal runs of elements that are not separators.

- `words_append_cons`, `words_intercalate`: splitting a concatenation, and words that have been joined.
- `flatten_words`: the words hold exactly the elements that are not separators.
- `squeeze`: a loop that writes one separator for each run. `strip_squeeze`: without those at the ends, what it writes
  is the words, joined.
-/
import Mathlib.Data.List.Chain
import Mathlib.Data.List.DropRight

namespace Lumiere.Core

variable {α : Type} {p : α → Bool} {sep a : α} {l xs ys w : List α} {ws : List (List α)}

/-! ## Words -/

def words (p : α → Bool) (l : List α) : List (List α) := (l.splitOnP p).filter fun w => !w.isEmpty

/-- not empty, and without separators -/
def IsWord (p : α → Bool) (w : List α) : Prop := w ≠ [] ∧ ∀ a ∈ w, p a = false

@[simp] theorem words_nil : words p [] = [] := rfl

theorem words_append_cons (xs ys : List α) (hsep : p sep = true) :
    words p (xs ++ sep :: ys) = words p xs ++ words p ys := by
  rw [words, List.splitOnP_append_cons xs ys hsep, List.filter_append]
  rfl

theorem words_cons_sep (hsep : p sep = true) : words p (sep :: l) = words p l := words_append_cons [] l hsep

theorem words_of_isWord (h : IsWord p w) : words p w = [w] := by
  rw [words, List.splitOnP_eq_singleton h.2]
  exact List.filter_cons_of_pos (by simp [h.1])

theorem words_isWord_append_sep (h : IsWord p w) (hsep : p sep = true) :
    words p (w ++ sep :: l) = w :: words p l := by
  rw [words_append_cons w l hsep, words_of_isWord h]
  rfl

theorem not_sep_of_mem_splitOnP (h : w ∈ l.splitOnP p) (ha : a ∈ w) : p a = false := by
  induction l generalizing w with
  | nil =>
    rw [List.splitOnP_nil, List.mem_singleton] at h
    rw [h] at ha
    cases ha
  | cons b l ih =>
    rw [List.splitOnP_cons_eq_if_modifyHead] at h
    split_ifs at h with hb
    · rcases List.mem_cons.1 h with rfl | h
      · cases ha
      · exact ih h ha
    · obtain ⟨w', rest, hsplit⟩ := List.exists_cons_of_ne_nil (List.splitOnP_ne_nil p l)
      rw [hsplit, List.modifyHead_cons] at h
      rw [hsplit] at ih
      rcases List.mem_cons.1 h with rfl | h
      · rcases List.mem_cons.1 ha with rfl | ha
        · simpa using hb
        · exact ih List.mem_cons_self ha
      · exact ih (List.mem_cons_of_mem _ h) ha

theorem isWord_of_mem (h : w ∈ words p l) : IsWord p w := by
  obtain ⟨hmem, hne⟩ := List.mem_filter.1 h
  exact ⟨by simpa using hne, fun a ha => not_sep_of_mem_splitOnP hmem ha⟩

theorem flatten_splitOnP (p : α → Bool) (l : List α) : (l.splitOnP p).flatten = l.filter fun a => !p a := by
  induction l with
  | nil => rfl
  | cons a l ih =>
    rw [List.splitOnP_cons_eq_if_modifyHead]
    obtain ⟨w, rest, hsplit⟩ := List.exists_cons_of_ne_nil (List.splitOnP_ne_nil p l)
    rw [hsplit] at ih
    split_ifs with ha
    · rw [hsplit, List.flatten_cons, List.nil_append, ih, List.filter_cons_of_neg (by simp [ha])]
    · rw [hsplit, List.modifyHead_cons, List.filter_cons_of_pos (by simpa using ha), ← ih]
      rfl

theorem flatten_filter_nonempty (ws : List (List α)) : (ws.filter fun w => !w.isEmpty).flatten = ws.flatten := by
  induction ws with
  | nil => rfl
  | cons w ws ih =>
    cases w with
    | nil => exact ih
    | cons a w => exact congrArg (fun l => (a :: w) ++ l) ih

/-- **The words hold exactly the elements that are not separators.** -/
theorem flatten_words (p : α → Bool) (l : List α) : (words p l).flatten = l.filter fun a => !p a := by
  rw [words, flatten_filter_nonempty, flatten_splitOnP]

/-- **Induction along the words.** A list is empty, starts with a separator, is a word, or starts with a word and a
separator. -/
theorem induction_words {motive : List α → Prop} (nil : motive [])
    (sep : ∀ a l, p a = true → motive l → motive (a :: l)) (word : ∀ w, IsWord p w → motive w)
    (wordSep : ∀ w a l, IsWord p w → p a = true → motive l → motive (w ++ a :: l)) (l : List α) : motive l := by
  induction hn : l.length using Nat.strong_induction_on generalizing l with
  | _ n ih =>
    subst hn
    cases l with
    | nil => exact nil
    | cons b l =>
      by_cases hb : p b = true
      · exact sep b l hb (ih l.length (by simp) l rfl)
      · -- the first word is what comes before the first separator
        have hword : IsWord p ((b :: l).takeWhile fun a => !p a) := by
          refine ⟨?_, fun a ha => by simpa using List.mem_takeWhile_imp ha⟩
          rw [List.takeWhile_cons_of_pos (by simpa using hb)]
          exact List.cons_ne_nil _ _
        have hsplit := List.takeWhile_append_dropWhile (p := fun a => !p a) (l := b :: l)
        cases hrest : (b :: l).dropWhile fun a => !p a with
        | nil =>
          rw [hrest, List.append_nil] at hsplit
          exact hsplit ▸ word _ hword
        | cons a rest =>
          have ha : p a = true := by
            have h := List.head?_dropWhile_not (fun a => !p a) (b :: l)
            rw [hrest] at h
            simpa using h
          rw [hrest] at hsplit
          rw [← hsplit]
          refine wordSep _ a rest hword ha (ih rest.length ?_ rest rfl)
          rw [← hsplit, List.length_append, List.length_cons]
          omega

/-! ## Joined words -/

/-- the words with one separator between two of them -/
abbrev joined (sep : α) (ws : List (List α)) : List α := [sep].intercalate ws

@[simp] theorem joined_nil : joined sep [] = [] := rfl

@[simp] theorem joined_singleton : joined sep [w] = w := List.intercalate_singleton

theorem joined_cons (w : List α) (h : ws ≠ []) : joined sep (w :: ws) = w ++ sep :: joined sep ws := by
  rw [joined, List.intercalate_cons_of_ne_nil h, List.append_assoc]
  rfl

theorem words_joined (hsep : p sep = true) (h : ∀ w ∈ ws, IsWord p w) : words p (joined sep ws) = ws := by
  induction ws with
  | nil => rfl
  | cons w ws ih =>
    have hw := h w List.mem_cons_self
    have hws := ih fun w hw => h w (List.mem_cons_of_mem _ hw)
    cases ws with
    | nil => rw [joined_singleton, words_of_isWord hw]
    | cons w' ws => rw [joined_cons w (List.cons_ne_nil _ _), words_isWord_append_sep hw hsep, hws]

theorem mem_joined (h : a ∈ joined sep ws) : a = sep ∨ ∃ w ∈ ws, a ∈ w := by
  induction ws with
  | nil => cases h
  | cons w ws ih =>
    cases ws with
    | nil =>
      rw [joined_singleton] at h
      exact .inr ⟨w, List.mem_cons_self, h⟩
    | cons w' ws =>
      rw [joined_cons w (List.cons_ne_nil _ _), List.mem_append, List.mem_cons] at h
      rcases h with h | rfl | h
      · exact .inr ⟨w, List.mem_cons_self, h⟩
      · exact .inl rfl
      · exact (ih h).imp_right fun ⟨w, hw, ha⟩ => ⟨w, List.mem_cons_of_mem _ hw, ha⟩

/-- joined words begin with an element of the first -/
theorem head?_joined (w : List α) (ws : List (List α)) (hw : w ≠ []) :
    (joined sep (w :: ws)).head? = w.head? := by
  cases ws with
  | nil => rw [joined_singleton]
  | cons w' ws => rw [joined_cons w (List.cons_ne_nil _ _), List.head?_append_of_ne_nil w hw]

theorem joined_ne_nil (w : List α) (ws : List (List α)) (hw : w ≠ []) : joined sep (w :: ws) ≠ [] := by
  intro h
  have hhead : (joined sep (w :: ws)).head? = w.head? := head?_joined w ws hw
  rw [h, List.head?_nil] at hhead
  exact hw (List.head?_eq_none_iff.1 hhead.symm)

/-- joined words begin with no separator -/
theorem not_sep_of_head?_joined (h : ∀ w ∈ ws, IsWord p w) (ha : (joined sep ws).head? = some a) : p a = false := by
  cases ws with
  | nil => cases ha
  | cons w ws =>
    have hw := h w List.mem_cons_self
    rw [head?_joined w ws hw.1] at ha
    exact hw.2 a (List.mem_of_head? ha)

/-- nor do they end with one -/
theorem not_sep_of_getLast?_joined (h : ∀ w ∈ ws, IsWord p w) (ha : (joined sep ws).getLast? = some a) :
    p a = false := by
  induction ws with
  | nil => cases ha
  | cons w ws ih =>
    cases ws with
    | nil =>
      rw [joined_singleton] at ha
      exact (h w List.mem_cons_self).2 a (List.mem_of_getLast? ha)
    | cons w' ws =>
      have hws : ∀ w ∈ w' :: ws, IsWord p w := fun w hw => h w (List.mem_cons_of_mem _ hw)
      have hne : joined sep (w' :: ws) ≠ [] := joined_ne_nil w' ws (hws w' List.mem_cons_self).1
      rw [joined_cons w (List.cons_ne_nil _ _), List.getLast?_append_of_ne_nil _ (List.cons_ne_nil _ _),
        List.getLast?_cons_of_ne_nil hne] at ha
      exact ih hws ha

/-- and no two separators in them are adjacent -/
theorem isChain_joined (sep : α) (h : ∀ w ∈ ws, IsWord p w) :
    (joined sep ws).IsChain fun a b => p a = false ∨ p b = false := by
  have hword : ∀ w, IsWord p w → w.IsChain fun a b => p a = false ∨ p b = false := fun w hw =>
    (List.pairwise_of_forall_mem_list fun a ha b _ => .inl (hw.2 a ha)).isChain
  induction ws with
  | nil => exact .nil
  | cons w ws ih =>
    have hw := h w List.mem_cons_self
    have hws : ∀ w ∈ ws, IsWord p w := fun w hw => h w (List.mem_cons_of_mem _ hw)
    by_cases hne : ws = []
    · rw [hne, joined_singleton]
      exact hword w hw
    · rw [joined_cons w hne, List.isChain_append, List.isChain_cons]
      refine ⟨hword w hw, ⟨fun b hb => .inr (not_sep_of_head?_joined hws hb), ih hws⟩, fun a ha b _ => ?_⟩
      exact .inl (hw.2 a (List.mem_of_getLast? ha))

/-! ## Squeezing -/

/-- without the separators at both ends -/
def strip (p : α → Bool) (l : List α) : List α := ((l.dropWhile p).reverse.dropWhile p).reverse

/-- one element of the loop: the output so far, and whether it was extended by a separator last -/
def squeezeStep (p : α → Bool) (sep : α) (st : List α × Bool) (a : α) : List α × Bool :=
  if p a then if st.2 then st else (st.1 ++ [sep], true) else (st.1 ++ [a], false)

def squeeze (p : α → Bool) (sep : α) (l : List α) : List α := (l.foldl (squeezeStep p sep) ([], false)).1

theorem dropWhile_of_head (h : ∀ a, l.head? = some a → p a = false) : l.dropWhile p = l := by
  cases l with
  | nil => rfl
  | cons a l => exact List.dropWhile_cons_of_neg (by simp [h a rfl])

/-- what has no separator at its ends is left by `strip`, which removes one before and one after -/
theorem strip_of_ends (hsep : p sep = true) (hhead : ∀ a, l.head? = some a → p a = false)
    (hlast : ∀ a, l.getLast? = some a → p a = false) {before after : List α} (hb : before = [] ∨ before = [sep])
    (ha : after = [] ∨ after = [sep]) (hnil : l = [] → after = []) : strip p (before ++ (l ++ after)) = l := by
  have hdrop : (before ++ (l ++ after)).dropWhile p = l ++ after := by
    have hrest : (l ++ after).dropWhile p = l ++ after := by
      apply dropWhile_of_head
      cases l with
      | nil => simp [hnil rfl]
      | cons a l => exact hhead
    rcases hb with rfl | rfl
    · exact hrest
    · rw [List.singleton_append, List.dropWhile_cons_of_pos hsep, hrest]
  have hback : l.reverse.dropWhile p = l.reverse := dropWhile_of_head fun a h => hlast a (by rwa [List.head?_reverse] at h)
  rw [strip, hdrop, List.reverse_append]
  rcases ha with rfl | rfl
  · rw [List.reverse_nil, List.nil_append, hback, List.reverse_reverse]
  · rw [List.reverse_singleton, List.singleton_append, List.dropWhile_cons_of_pos hsep, hback, List.reverse_reverse]

theorem foldl_squeeze_word (hw : IsWord p w) (st : List α × Bool) :
    w.foldl (squeezeStep p sep) st = (st.1 ++ w, false) := by
  obtain ⟨hne, hall⟩ := hw
  induction w generalizing st with
  | nil => exact absurd rfl hne
  | cons a w ih =>
    have hstep : squeezeStep p sep st a = (st.1 ++ [a], false) := if_neg (by simp [hall a List.mem_cons_self])
    rw [List.foldl_cons, hstep]
    by_cases hw : w = []
    · rw [hw, List.foldl_nil]
    · rw [ih _ hw fun b hb => hall b (List.mem_cons_of_mem _ hb), List.append_assoc, List.singleton_append]

/-- **The loop writes the joined words**, after a separator with at most one separator more. -/
theorem foldl_squeeze (sep : α) (l out : List α) : ∃ after, (after = [] ∨ after = [sep]) ∧
    (words p l = [] → after = []) ∧
    (l.foldl (squeezeStep p sep) (out, true)).1 = out ++ (joined sep (words p l) ++ after) := by
  induction l using induction_words (p := p) generalizing out with
  | nil => exact ⟨[], .inl rfl, fun _ => rfl, by simp⟩
  | sep a l ha ih =>
    obtain ⟨after, hafter, hnil, hfold⟩ := ih out
    have hstep : squeezeStep p sep (out, true) a = (out, true) := by rw [squeezeStep, if_pos ha, if_pos rfl]
    exact ⟨after, hafter, by rwa [words_cons_sep ha], by rw [List.foldl_cons, hstep, words_cons_sep ha, hfold]⟩
  | word w hw =>
    refine ⟨[], .inl rfl, fun _ => rfl, ?_⟩
    rw [foldl_squeeze_word hw, words_of_isWord hw, joined_singleton, List.append_nil]
  | wordSep w a l hw ha ih =>
    obtain ⟨after, hafter, hnil, hfold⟩ := ih (out ++ w ++ [sep])
    have hstep : squeezeStep p sep (out ++ w, false) a = (out ++ w ++ [sep], true) := by
      rw [squeezeStep, if_pos ha, if_neg (by simp)]
    rw [List.foldl_append, foldl_squeeze_word hw, List.foldl_cons, hstep, hfold, words_isWord_append_sep hw ha]
    by_cases hws : words p l = []
    · refine ⟨[sep], .inr rfl, fun h => absurd h (List.cons_ne_nil _ _), ?_⟩
      rw [hws, hnil hws, joined_nil, joined_singleton]
      simp only [List.append_assoc, List.append_nil]
    · refine ⟨after, hafter, fun h => absurd h (List.cons_ne_nil _ _), ?_⟩
      rw [joined_cons w hws]
      simp only [List.append_assoc, List.cons_append, List.nil_append]

theorem squeeze_eq (sep : α) (l : List α) : ∃ before after, (before = [] ∨ before = [sep]) ∧
    (after = [] ∨ after = [sep]) ∧ (words p l = [] → after = []) ∧
    squeeze p sep l = before ++ (joined sep (words p l) ++ after) := by
  cases l with
  | nil => exact ⟨[], [], .inl rfl, .inl rfl, fun _ => rfl, rfl⟩
  | cons a l =>
    by_cases ha : p a = true
    · have hstep : squeezeStep p sep ([], false) a = ([sep], true) := by
        rw [squeezeStep, if_pos ha, if_neg (by simp), List.nil_append]
      obtain ⟨after, hafter, hnil, hfold⟩ := foldl_squeeze (p := p) sep l [sep]
      rw [squeeze, List.foldl_cons, hstep, hfold, words_cons_sep ha]
      exact ⟨[sep], after, .inr rfl, hafter, hnil, rfl⟩
    · have hstep : squeezeStep p sep ([], false) a = squeezeStep p sep ([], true) a := by
        simp [squeezeStep, ha]
      obtain ⟨after, hafter, hnil, hfold⟩ := foldl_squeeze (p := p) sep (a :: l) []
      rw [squeeze, List.foldl_cons, hstep, ← List.foldl_cons, hfold]
      exact ⟨[], after, .inl rfl, hafter, hnil, rfl⟩

/-- **Squeezed and stripped, a list is its words, joined.** -/
theorem strip_squeeze (hsep : p sep = true) (l : List α) : strip p (squeeze p sep l) = joined sep (words p l) := by
  have hwords : ∀ w ∈ words p l, IsWord p w := fun w hw => isWord_of_mem hw
  obtain ⟨before, after, hbefore, hafter, hnil, hsqueeze⟩ := squeeze_eq (p := p) sep l
  rw [hsqueeze]
  refine strip_of_ends hsep (fun a ha => not_sep_of_head?_joined hwords ha)
    (fun a ha => not_sep_of_getLast?_joined hwords ha) hbefore hafter fun hjoined => hnil ?_
  cases hl : words p l with
  | nil => rfl
  | cons w ws =>
    rw [hl] at hjoined hwords
    exact absurd hjoined (joined_ne_nil w ws (hwords w List.mem_cons_self).1)

end Lumiere.Core
