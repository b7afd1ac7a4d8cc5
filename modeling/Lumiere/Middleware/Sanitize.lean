/-
Text as users give it (middleware/sanitize.rs): control characters and bidirectional overrides are removed, runs of
whitespace become one space.

- `collapseWhitespace_eq`: the loop of `collapse_whitespace` and its `trim` leave the words, joined by single spaces.
- `normalizeDisplayName_normal_form`: display names have a normal form, that depends on their words only.
-/
import Lumiere.Core.Str
import Lumiere.Core.Words

namespace Lumiere.Middleware.Sanitize

open Lumiere.Core

/-! ## The functions -/

/-- `char::is_control`: the general category Cc -/
def isControl (c : Char) : Bool := c.toNat < 32 || (127 ≤ c.toNat && c.toNat < 160)

def isBidiOverride (c : Char) : Bool :=
  (0x202A ≤ c.toNat && c.toNat ≤ 0x202E) || (0x2066 ≤ c.toNat && c.toNat ≤ 0x2069) || c.toNat = 0x200E ||
    c.toNat = 0x200F

def sanitizeString (input : String) : String :=
  String.ofList (input.toList.filter fun c =>
    (!isControl c || c == '\n' || c == '\r' || c == '\t') && !isBidiOverride c)

/-- the body of the loop: `result` and `last_was_space` -/
def collapseStep : List Char × Bool → Char → List Char × Bool
  | (result, lastWasSpace), c =>
    if Str.isWhitespace c then
      if !lastWasSpace then (result ++ [' '], true) else (result, lastWasSpace)
    else (result ++ [c], false)

def collapseWhitespace (input : String) : String :=
  Str.trim (String.ofList (input.toList.foldl collapseStep ([], false)).1)

def normalizeDisplayName (input : String) : String := collapseWhitespace (sanitizeString input)

example : normalizeDisplayName " \u200ehe\x07l\x07lo \t\n world " = "hello world" := by decide

/-! ## Words -/

/-- `str::split_whitespace` -/
def splitWhitespace (s : String) : List (List Char) := words Str.isWhitespace s.toList

theorem collapseStep_eq : collapseStep = squeezeStep Str.isWhitespace ' ' := by
  funext ⟨result, lastWasSpace⟩ c
  cases lastWasSpace <;> rfl

/-- **What the loop and the trim leave** is the words, joined by single spaces. -/
theorem collapseWhitespace_eq (input : String) :
    (collapseWhitespace input).toList = joined ' ' (splitWhitespace input) := by
  rw [collapseWhitespace, collapseStep_eq, Str.trim, String.toList_ofList, String.toList_ofList]
  exact strip_squeeze (by decide) input.toList

theorem normalizeDisplayName_eq (input : String) :
    (normalizeDisplayName input).toList = joined ' ' (splitWhitespace (sanitizeString input)) :=
  collapseWhitespace_eq _

theorem isWord_of_mem_splitWhitespace {s : String} {w : List Char} (h : w ∈ splitWhitespace s) :
    IsWord Str.isWhitespace w :=
  isWord_of_mem h

/-- a display name has the words of the text it comes from -/
theorem splitWhitespace_normalizeDisplayName (input : String) :
    splitWhitespace (normalizeDisplayName input) = splitWhitespace (sanitizeString input) := by
  rw [splitWhitespace, normalizeDisplayName_eq]
  exact words_joined (by decide) fun w hw => isWord_of_mem_splitWhitespace hw

theorem mem_of_mem_splitWhitespace {s : String} {w : List Char} {c : Char} (hw : w ∈ splitWhitespace s) (hc : c ∈ w) :
    c ∈ s.toList := by
  have h : c ∈ (splitWhitespace s).flatten := List.mem_flatten.2 ⟨w, hw, hc⟩
  rw [splitWhitespace, flatten_words] at h
  exact List.mem_of_mem_filter h

/-! ## The normal form -/

/-- the whitespace that `sanitize_string` keeps is removed with the words' ends -/
theorem clean_of_mem_sanitizeString {input : String} {c : Char} (h : c ∈ (sanitizeString input).toList)
    (hspace : Str.isWhitespace c = false) : isControl c = false ∧ isBidiOverride c = false := by
  rw [sanitizeString, String.toList_ofList, List.mem_filter] at h
  have hnl : c ≠ '\n' := fun hc => absurd hspace (hc ▸ by decide)
  have hcr : c ≠ '\r' := fun hc => absurd hspace (hc ▸ by decide)
  have htab : c ≠ '\t' := fun hc => absurd hspace (hc ▸ by decide)
  simpa [hnl, hcr, htab] using h.2

/-- the form of a display name -/
structure NormalForm (name : String) : Prop where
  chars : ∀ c ∈ name.toList, isControl c = false ∧ isBidiOverride c = false ∧ (Str.isWhitespace c = true → c = ' ')
  single : ∀ before after, name.toList ≠ before ++ ' ' :: ' ' :: after
  head : name.toList.head? ≠ some ' '
  last : name.toList.getLast? ≠ some ' '

theorem normalForm_normalizeDisplayName (input : String) : NormalForm (normalizeDisplayName input) := by
  have hwords : ∀ w ∈ splitWhitespace (sanitizeString input), IsWord Str.isWhitespace w := fun w hw =>
    isWord_of_mem_splitWhitespace hw
  constructor
  · intro c hc
    rw [normalizeDisplayName_eq] at hc
    rcases mem_joined hc with rfl | ⟨w, hw, hcw⟩
    · decide
    · have hspace := (hwords w hw).2 c hcw
      obtain ⟨hcontrol, hbidi⟩ := clean_of_mem_sanitizeString (mem_of_mem_splitWhitespace hw hcw) hspace
      exact ⟨hcontrol, hbidi, fun h => absurd h (by simp [hspace])⟩
  · intro before after heq
    have hchain := isChain_joined ' ' hwords
    rw [← normalizeDisplayName_eq, heq, List.isChain_append_cons_cons] at hchain
    exact absurd hchain.2.1 (by decide)
  · intro hhead
    rw [normalizeDisplayName_eq] at hhead
    exact absurd (not_sep_of_head?_joined hwords hhead) (by decide)
  · intro hlast
    rw [normalizeDisplayName_eq] at hlast
    exact absurd (not_sep_of_getLast?_joined hwords hlast) (by decide)

/-- sanitizing removes nothing from a display name -/
theorem sanitizeString_of_normalForm {name : String} (h : NormalForm name) : sanitizeString name = name := by
  have hkeep : ∀ c ∈ name.toList,
      ((!isControl c || c == '\n' || c == '\r' || c == '\t') && !isBidiOverride c) = true := by
    intro c hc
    obtain ⟨hcontrol, hbidi, -⟩ := h.chars c hc
    simp [hcontrol, hbidi]
  rw [sanitizeString, List.filter_eq_self.2 hkeep, String.ofList_toList]

/-- same words, same display name -/
theorem normalizeDisplayName_of_words {a b : String}
    (h : splitWhitespace (sanitizeString a) = splitWhitespace (sanitizeString b)) :
    normalizeDisplayName a = normalizeDisplayName b := by
  apply String.toList_inj.1
  rw [normalizeDisplayName_eq, normalizeDisplayName_eq, h]

theorem normalizeDisplayName_idempotent (input : String) :
    normalizeDisplayName (normalizeDisplayName input) = normalizeDisplayName input := by
  apply normalizeDisplayName_of_words
  rw [sanitizeString_of_normalForm (normalForm_normalizeDisplayName input), splitWhitespace_normalizeDisplayName]

theorem filter_normalizeDisplayName (input : String) :
    ((normalizeDisplayName input).toList.filter fun c => !Str.isWhitespace c) =
      input.toList.filter fun c => !Str.isWhitespace c && !isControl c && !isBidiOverride c := by
  calc ((normalizeDisplayName input).toList.filter fun c => !Str.isWhitespace c)
      = (splitWhitespace (normalizeDisplayName input)).flatten := (flatten_words _ _).symm
    _ = (splitWhitespace (sanitizeString input)).flatten := by rw [splitWhitespace_normalizeDisplayName]
    _ = (sanitizeString input).toList.filter fun c => !Str.isWhitespace c := flatten_words _ _
    _ = input.toList.filter fun c => !Str.isWhitespace c && !isControl c && !isBidiOverride c := by
      rw [sanitizeString, String.toList_ofList, List.filter_filter]
      apply List.filter_congr
      intro c _
      cases hspace : Str.isWhitespace c with
      | true => rfl
      | false =>
        have hnl : (c == '\n') = false := beq_false_of_ne fun hc => absurd hspace (hc ▸ by decide)
        have hcr : (c == '\r') = false := beq_false_of_ne fun hc => absurd hspace (hc ▸ by decide)
        have htab : (c == '\t') = false := beq_false_of_ne fun hc => absurd hspace (hc ▸ by decide)
        simp only [hnl, hcr, htab, Bool.or_false, Bool.not_false, Bool.true_and]

/-- **Display names have a normal form.** Normalizing twice is normalizing once; the result has no control and no
bidirectional character, and no whitespace but single spaces between words; it keeps every other character, in order; and
it is determined by the words of the sanitized text. -/
theorem normalizeDisplayName_normal_form :
    (∀ input, normalizeDisplayName (normalizeDisplayName input) = normalizeDisplayName input) ∧
    (∀ input, NormalForm (normalizeDisplayName input)) ∧
    (∀ input, ((normalizeDisplayName input).toList.filter fun c => !Str.isWhitespace c) =
      input.toList.filter fun c => !Str.isWhitespace c && !isControl c && !isBidiOverride c) ∧
    ∀ a b, splitWhitespace (sanitizeString a) = splitWhitespace (sanitizeString b) →
      normalizeDisplayName a = normalizeDisplayName b :=
  ⟨normalizeDisplayName_idempotent, normalForm_normalizeDisplayName, filter_normalizeDisplayName,
    fun _ _ => normalizeDisplayName_of_words⟩

theorem normalizeDisplayName_normal_form_spaces :
    splitWhitespace (sanitizeString "a\tb ") = splitWhitespace (sanitizeString " a\n b") ∧
    normalizeDisplayName "a\tb " = normalizeDisplayName " a\n b" :=
  have h : splitWhitespace (sanitizeString "a\tb ") = splitWhitespace (sanitizeString " a\n b") := by decide
  ⟨h, normalizeDisplayName_normal_form.2.2.2 _ _ h⟩

end Lumiere.Middleware.Sanitize
