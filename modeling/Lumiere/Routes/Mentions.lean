/-
The grammar of mentions: `parse_mentions` over every text (routes/messages.rs).

- `captures_eq_iter`: the model tries every position; the regular expression goes on behind each match. Both find the same.
- `appear_parseMentions`: the ids are the numbers of all tokens, in order of appearance.
- `parseMentions_grammar`: and a token between two texts adds its own id to theirs.
-/
import Mathlib.Data.List.TakeWhile
import Lumiere.Core.Matches
import Lumiere.Routes.MessageWrites

namespace Lumiere.Routes

open Lumiere.Core

/-! ## Tokens -/

/-- `{opener}{digits}>` -/
def mentionToken (opener ds : List Char) : List Char := opener ++ ds ++ ['>']

def IsNumber (ds : List Char) : Prop := ds ≠ [] ∧ ∀ d ∈ ds, isDigit d = true

theorem isNumber_of_digits {ds : List Char} {n : ℕ} (h : Str.digits ds = some n) : IsNumber ds := by
  unfold Str.digits at h
  split at h
  · cases h
  · rename_i cs hne
    split_ifs at h with hall
    exact ⟨hne, List.all_eq_true.1 hall⟩

theorem digits_of_isNumber {ds : List Char} (h : IsNumber ds) : ∃ n, Str.digits ds = some n := by
  unfold Str.digits
  split
  · exact absurd rfl h.1
  · have hall : ds.all (fun c => '0' ≤ c && c ≤ '9') = true := List.all_eq_true.2 h.2
    exact ⟨_, if_pos hall⟩

/-- the number of a token is read without a sign -/
theorem parseI64_ofList {ds : List Char} {n : ℕ} (h : Str.digits ds = some n) :
    Str.parseI64 (String.ofList ds) = if n ≤ 9223372036854775807 then some (n : ℤ) else none := by
  obtain ⟨hne, hall⟩ := isNumber_of_digits h
  unfold Str.parseI64
  rw [String.toList_ofList]
  split
  · exact absurd (hall '-' List.mem_cons_self) (by decide)
  · exact absurd (hall '+' List.mem_cons_self) (by decide)
  · rw [h, Option.bind_some]

theorem parseI64_ofList_eq_some_iff {ds : List Char} {n : ℕ} (h : Str.digits ds = some n) (id : ℤ) :
    Str.parseI64 (String.ofList ds) = some id ↔ id = n ∧ n ≤ 9223372036854775807 := by
  rw [parseI64_ofList h]
  split_ifs with hn
  · simp [hn, eq_comm]
  · simp [hn]

/-- the digits end where the token does -/
theorem takeWhile_token {ds cs rest : List Char} (hds : IsNumber ds) (hcs : cs = ds ++ '>' :: rest) :
    cs.takeWhile isDigit = ds ∧ (cs.drop ds.length).head? = some '>' := by
  have hend : ('>' :: rest).takeWhile isDigit = [] := List.takeWhile_cons_of_neg (by decide)
  subst hcs
  rw [List.takeWhile_append_of_pos hds.2, hend, List.append_nil, List.drop_left]
  exact ⟨rfl, rfl⟩

theorem capture_eq_some_iff {opener cs : List Char} {s : String} :
    capture opener cs = some s ↔ ∃ ds, s = String.ofList ds ∧ IsNumber ds ∧ mentionToken opener ds <+: cs := by
  unfold capture mentionToken
  constructor
  · intro h
    split_ifs at h with hopener
    obtain ⟨rest, rfl⟩ := List.isPrefixOf_iff_prefix.1 hopener
    rw [List.drop_left] at h
    dsimp only at h
    split_ifs at h with hclose
    obtain ⟨hne, hhead⟩ := hclose
    refine ⟨rest.takeWhile isDigit, (Option.some.inj h).symm, ⟨hne, fun d hd => List.mem_takeWhile_imp hd⟩, ?_⟩
    obtain ⟨after, hafter⟩ := List.head?_eq_some_iff.1 hhead
    refine ⟨after, ?_⟩
    have hrest : rest.takeWhile isDigit ++ rest.drop (rest.takeWhile isDigit).length = rest :=
      List.prefix_iff_eq_append.1 (List.takeWhile_prefix _)
    rw [hafter] at hrest
    rw [List.append_assoc, List.append_assoc, List.singleton_append, hrest]
  · rintro ⟨ds, rfl, hds, after, rfl⟩
    rw [List.append_assoc, List.append_assoc, List.singleton_append]
    obtain ⟨htake, hhead⟩ := takeWhile_token hds (rfl : ds ++ '>' :: after = ds ++ '>' :: after)
    rw [if_pos (List.isPrefixOf_iff_prefix.2 (List.prefix_append _ _)), List.drop_left]
    dsimp only
    rw [htake, if_pos ⟨hds.1, hhead⟩]

/-! ## The search -/

/-- with the length of the match -/
def captureMatch (opener cs : List Char) : Option (String × ℕ) :=
  (capture opener cs).map fun s => (s, (mentionToken opener s.toList).length)

/-- `Regex::captures_iter` with `{opener}(\d+)>` -/
def capturesIter (opener content : String) : List String := matchesIter (captureMatch opener.toList) 0 content.toList

theorem captureMatch_fst (opener cs : List Char) : (captureMatch opener cs).map Prod.fst = capture opener cs := by
  rw [captureMatch]
  cases capture opener cs with
  | none => rfl
  | some s => rfl

theorem captures_eq_matchesAll (opener content : String) :
    captures opener content = matchesAll (captureMatch opener.toList) content.toList := by
  rw [captures, matchesAll, List.map_filterMap]
  simp only [captureMatch_fst]

theorem captureMatch_eq_some_iff {opener cs : List Char} {s : String} {len : ℕ} :
    captureMatch opener cs = some (s, len) ↔ ∃ ds, s = String.ofList ds ∧ IsNumber ds ∧
      mentionToken opener ds <+: cs ∧ len = (mentionToken opener ds).length := by
  rw [captureMatch, Option.map_eq_some_iff]
  constructor
  · rintro ⟨s', hs', heq⟩
    obtain ⟨rfl, rfl⟩ := Prod.mk.inj heq
    obtain ⟨ds, rfl, hds, hpre⟩ := capture_eq_some_iff.1 hs'
    exact ⟨ds, rfl, hds, hpre, by rw [String.toList_ofList]⟩
  · rintro ⟨ds, rfl, hds, hpre, rfl⟩
    exact ⟨_, capture_eq_some_iff.2 ⟨ds, rfl, hds, hpre⟩, by rw [String.toList_ofList]⟩

theorem not_mark_of_isNumber {ds : List Char} (h : IsNumber ds) : '<' ∉ ds := fun hmem => absurd (h.2 _ hmem) (by decide)

/-- a token begins with its only `<` -/
theorem marked_captureMatch {opener : List Char} (h : '<' ∉ opener) : Marked '<' (captureMatch ('<' :: opener)) where
  head := by
    intro l s len hmatch
    obtain ⟨ds, -, -, ⟨rest, rfl⟩, -⟩ := captureMatch_eq_some_iff.1 hmatch
    rfl
  inside := by
    intro l s len hmatch
    obtain ⟨ds, -, hds, hpre, rfl⟩ := captureMatch_eq_some_iff.1 hmatch
    rw [← List.prefix_iff_eq_take.1 hpre, mentionToken, List.cons_append, List.cons_append, List.tail_cons]
    have hds' := not_mark_of_isNumber hds
    simp [h, hds']
  length := by
    intro l s len hmatch
    obtain ⟨ds, -, -, hpre, rfl⟩ := captureMatch_eq_some_iff.1 hmatch
    exact hpre.length_le
  extent := by
    intro l l' s len hmatch htake
    obtain ⟨ds, hs, hds, hpre, rfl⟩ := captureMatch_eq_some_iff.1 hmatch
    refine captureMatch_eq_some_iff.2 ⟨ds, hs, hds, ?_, rfl⟩
    rw [List.prefix_iff_eq_take, htake]
    exact List.prefix_iff_eq_take.1 hpre

theorem marked_user : Marked '<' (captureMatch "<@".toList) := marked_captureMatch (show '<' ∉ ['@'] by decide)

theorem marked_role : Marked '<' (captureMatch "<@&".toList) := marked_captureMatch (show '<' ∉ ['@', '&'] by decide)

/-- **The scan of the regular expression** finds what trying every position does. -/
theorem captures_eq_iter (content : String) :
    captures "<@" content = capturesIter "<@" content ∧ captures "<@&" content = capturesIter "<@&" content := by
  rw [captures_eq_matchesAll, captures_eq_matchesAll]
  exact ⟨(matchesIter_eq marked_user 0 (by simp)).symm, (matchesIter_eq marked_role 0 (by simp)).symm⟩

/-- no text starts with a token of both kinds -/
theorem not_both_tokens {ds es cs : List Char} (hds : IsNumber ds) (huser : mentionToken "<@".toList ds <+: cs)
    (hrole : mentionToken "<@&".toList es <+: cs) : False := by
  obtain ⟨hne, hall⟩ := hds
  obtain ⟨d, ds, rfl⟩ := List.exists_cons_of_ne_nil hne
  obtain ⟨rest, rfl⟩ := huser
  obtain ⟨rest', heq⟩ := hrole
  have hamp : '&' = d := by
    have h := congrArg (fun l => l[2]?) heq
    simpa [mentionToken] using h
  exact absurd (hall d List.mem_cons_self) (hamp ▸ by decide)

/-! ## In order of appearance -/

/-- at position `i` stands a token of the number `id`, at most `i64::MAX` -/
def MentionAt (opener content : String) (i : ℕ) (id : ℤ) : Prop :=
  ∃ ds n, Str.digits ds = some n ∧ n ≤ 9223372036854775807 ∧ id = n ∧
    mentionToken opener.toList ds <+: content.toList.drop i

/-- these are the numbers of all tokens, by position -/
def Appear (opener content : String) (ids : List ℤ) : Prop :=
  ∃ found : List (ℕ × ℤ), found.Pairwise (fun a b => a.1 < b.1) ∧
    (∀ i id, (i, id) ∈ found ↔ MentionAt opener content i id) ∧ ids = found.map Prod.snd

/-- what is read at one position -/
def mentionId (opener cs : List Char) : Option ℤ := (capture opener cs).bind Str.parseI64

theorem mentionId_eq_some_iff {opener cs : List Char} {id : ℤ} :
    mentionId opener cs = some id ↔ ∃ ds n, Str.digits ds = some n ∧ n ≤ 9223372036854775807 ∧ id = n ∧
      mentionToken opener ds <+: cs := by
  rw [mentionId, Option.bind_eq_some_iff]
  constructor
  · rintro ⟨s, hs, hid⟩
    obtain ⟨ds, rfl, hds, hpre⟩ := capture_eq_some_iff.1 hs
    obtain ⟨n, hn⟩ := digits_of_isNumber hds
    obtain ⟨rfl, hle⟩ := (parseI64_ofList_eq_some_iff hn id).1 hid
    exact ⟨ds, n, hn, hle, rfl, hpre⟩
  · rintro ⟨ds, n, hn, hle, hid, hpre⟩
    exact ⟨String.ofList ds, capture_eq_some_iff.2 ⟨ds, rfl, isNumber_of_digits hn, hpre⟩,
      (parseI64_ofList_eq_some_iff hn id).2 ⟨hid, hle⟩⟩

theorem appear_captures (opener content : String) :
    Appear opener content ((captures opener content).filterMap Str.parseI64) := by
  let found := (List.range (content.toList.length + 1)).filterMap fun i =>
    (mentionId opener.toList (content.toList.drop i)).map fun id => (i, id)
  refine ⟨found, ?_, fun i id => ?_, ?_⟩
  · refine List.pairwise_filterMap.2 (List.pairwise_lt_range.imp fun hlt a ha b hb => ?_)
    obtain ⟨-, -, rfl⟩ := Option.map_eq_some_iff.1 ha
    obtain ⟨-, -, rfl⟩ := Option.map_eq_some_iff.1 hb
    exact hlt
  · have hmem : (i, id) ∈ found ↔ i < content.toList.length + 1 ∧
        mentionId opener.toList (content.toList.drop i) = some id := by
      simp only [found, List.mem_filterMap, List.mem_range, Option.map_eq_some_iff, Prod.mk.injEq]
      constructor
      · rintro ⟨i', hi', id', hid, rfl, rfl⟩
        exact ⟨hi', hid⟩
      · rintro ⟨hi, hid⟩
        exact ⟨i, hi, id, hid, rfl, rfl⟩
    rw [hmem, mentionId_eq_some_iff]
    refine ⟨fun h => h.2, fun h => ⟨?_, h⟩⟩
    -- nothing stands behind the end
    obtain ⟨ds, -, -, -, -, hpre⟩ := h
    have hlen := hpre.length_le
    rw [mentionToken, List.length_append, List.length_append, List.length_drop, List.length_singleton] at hlen
    omega
  · rw [captures, List.filterMap_filterMap, filterMap_tails, List.map_filterMap]
    apply List.filterMap_congr
    intro i _
    rw [Option.map_map]
    exact (Option.map_id_fun ▸ rfl : mentionId opener.toList (content.toList.drop i) =
      (mentionId opener.toList (content.toList.drop i)).map id)

/-! ## Tokens between texts -/

/-- the text of a token -/
def mentionText (opener : String) (n : ℕ) : String := opener ++ toString n ++ ">"

theorem toList_mentionText (opener : String) (n : ℕ) :
    (mentionText opener n).toList = mentionToken opener.toList (Nat.toDigits 10 n) := by
  rw [mentionText, String.toList_append, String.toList_append, mentionToken]
  exact congrArg (fun ds => opener.toList ++ ds ++ ['>']) Nat.toList_repr

theorem isNumber_toDigits (n : ℕ) : IsNumber (Nat.toDigits 10 n) := isNumber_of_digits (Str.digits_toDigits n)

/-- a text that begins with its only `<` adds what is found at its front -/
theorem captures_between {opener a token b : String} {t : List Char} (hm : Marked '<' (captureMatch opener.toList))
    (htoken : token.toList = '<' :: t) (ht : '<' ∉ t) :
    captures opener (a ++ token ++ b) =
      captures opener a ++ (capture opener.toList (token.toList ++ b.toList)).toList ++ captures opener b := by
  rw [captures_eq_matchesAll, captures_eq_matchesAll, captures_eq_matchesAll, String.toList_append, String.toList_append,
    htoken, List.append_assoc, List.cons_append, matchesAll_append hm, matchesAll_cons, captureMatch_fst,
    matchesAll_append_of_not_mem hm ht, List.append_assoc]

theorem not_mark_of_toList_mentionText {opener : String} {o : List Char} {n : ℕ} (ho : opener.toList = '<' :: o)
    (hmark : '<' ∉ o) : ∃ t, (mentionText opener n).toList = '<' :: t ∧ '<' ∉ t := by
  refine ⟨o ++ Nat.toDigits 10 n ++ ['>'], ?_, ?_⟩
  · rw [toList_mentionText, mentionToken, ho, List.cons_append, List.cons_append]
  · have hdigits := not_mark_of_isNumber (isNumber_toDigits n)
    simp [hmark, hdigits]

theorem capture_mentionText (opener : String) (n : ℕ) (b : List Char) :
    capture opener.toList ((mentionText opener n).toList ++ b) = some (String.ofList (Nat.toDigits 10 n)) :=
  capture_eq_some_iff.2 ⟨_, rfl, isNumber_toDigits n, by rw [toList_mentionText]; exact List.prefix_append _ _⟩

theorem mentionId_mentionText {n : ℕ} (h : n ≤ 9223372036854775807) :
    Str.parseI64 (String.ofList (Nat.toDigits 10 n)) = some (n : ℤ) := by
  rw [parseI64_ofList (Str.digits_toDigits n), if_pos h]

/-- the ids that one of the two patterns finds -/
def mentionIds (opener content : String) : List ℤ := (captures opener content).filterMap Str.parseI64

theorem mentionIds_own {opener a b : String} {o : List Char} {n : ℕ} (ho : opener.toList = '<' :: o) (hmark : '<' ∉ o)
    (h : n ≤ 9223372036854775807) :
    mentionIds opener (a ++ mentionText opener n ++ b) = mentionIds opener a ++ (n : ℤ) :: mentionIds opener b := by
  have hm : Marked '<' (captureMatch opener.toList) := ho ▸ marked_captureMatch hmark
  obtain ⟨t, htoken, ht⟩ := not_mark_of_toList_mentionText (n := n) ho hmark
  rw [mentionIds, captures_between hm htoken ht, capture_mentionText, List.filterMap_append, List.filterMap_append,
    Option.toList_some, List.filterMap_cons_some (mentionId_mentionText h), List.append_assoc]
  rfl

theorem mentionIds_other {opener other a b : String} (o o' : List Char) {n : ℕ} (ho : opener.toList = '<' :: o)
    (ho' : other.toList = '<' :: o') (hmark : '<' ∉ o) (hmark' : '<' ∉ o')
    (hother : capture opener.toList ((mentionText other n).toList ++ b.toList) = none) :
    mentionIds opener (a ++ mentionText other n ++ b) = mentionIds opener a ++ mentionIds opener b := by
  have hm : Marked '<' (captureMatch opener.toList) := ho ▸ marked_captureMatch hmark
  obtain ⟨t, htoken, ht⟩ := not_mark_of_toList_mentionText (n := n) ho' hmark'
  rw [mentionIds, captures_between hm htoken ht, hother, Option.toList_none, List.append_nil, List.filterMap_append]
  rfl

theorem capture_role_of_user (n : ℕ) (b : List Char) :
    capture "<@&".toList ((mentionText "<@" n).toList ++ b) = none := by
  cases h : capture "<@&".toList ((mentionText "<@" n).toList ++ b) with
  | none => rfl
  | some s =>
    obtain ⟨ds, -, -, hrole⟩ := capture_eq_some_iff.1 h
    have huser : mentionToken "<@".toList (Nat.toDigits 10 n) <+: (mentionText "<@" n).toList ++ b := by
      rw [toList_mentionText]
      exact List.prefix_append _ _
    exact (not_both_tokens (isNumber_toDigits n) huser hrole).elim

theorem capture_user_of_role (n : ℕ) (b : List Char) :
    capture "<@".toList ((mentionText "<@&" n).toList ++ b) = none := by
  cases h : capture "<@".toList ((mentionText "<@&" n).toList ++ b) with
  | none => rfl
  | some s =>
    obtain ⟨ds, -, hds, huser⟩ := capture_eq_some_iff.1 h
    have hrole : mentionToken "<@&".toList (Nat.toDigits 10 n) <+: (mentionText "<@&" n).toList ++ b := by
      rw [toList_mentionText]
      exact List.prefix_append _ _
    exact (not_both_tokens hds huser hrole).elim

/-! ## The grammar -/

/-- **What `parse_mentions` reads.** The ids are the numbers up to `i64::MAX` of all tokens of their kind, in order of
appearance, as the scan of the regular expression finds them; no position holds tokens of both kinds; and a token between
two texts adds its number to the ids of its kind, and nothing to the others. -/
theorem parseMentions_grammar :
    (∀ content, (parseMentions content).1 = (capturesIter "<@" content).filterMap Str.parseI64 ∧
      (parseMentions content).2.1 = (capturesIter "<@&" content).filterMap Str.parseI64 ∧
      Appear "<@" content (parseMentions content).1 ∧ Appear "<@&" content (parseMentions content).2.1) ∧
    (∀ content i n m, ¬ (MentionAt "<@" content i n ∧ MentionAt "<@&" content i m)) ∧
    ∀ a b, ∀ n ≤ 9223372036854775807,
      ((parseMentions (a ++ mentionText "<@" n ++ b)).1 = (parseMentions a).1 ++ (n : ℤ) :: (parseMentions b).1 ∧
        (parseMentions (a ++ mentionText "<@" n ++ b)).2.1 = (parseMentions a).2.1 ++ (parseMentions b).2.1) ∧
      (parseMentions (a ++ mentionText "<@&" n ++ b)).1 = (parseMentions a).1 ++ (parseMentions b).1 ∧
        (parseMentions (a ++ mentionText "<@&" n ++ b)).2.1 =
          (parseMentions a).2.1 ++ (n : ℤ) :: (parseMentions b).2.1 := by
  refine ⟨fun content => ?_, fun content i n m => ?_, fun a b n hn => ⟨⟨?_, ?_⟩, ?_, ?_⟩⟩
  · obtain ⟨huser, hrole⟩ := captures_eq_iter content
    rw [← huser, ← hrole]
    exact ⟨rfl, rfl, appear_captures "<@" content, appear_captures "<@&" content⟩
  · rintro ⟨⟨ds, k, hk, -, -, huser⟩, es, l, -, -, -, hrole⟩
    exact not_both_tokens (isNumber_of_digits hk) huser hrole
  · exact mentionIds_own (o := ['@']) rfl (by decide) hn
  · exact mentionIds_other ['@', '&'] ['@'] rfl rfl (by decide) (by decide) (capture_role_of_user n _)
  · exact mentionIds_other ['@'] ['@', '&'] rfl rfl (by decide) (by decide) (capture_user_of_role n _)
  · exact mentionIds_own (o := ['@', '&']) rfl (by decide) hn

theorem parseMentions_grammar_adjacent :
    3 ≤ 9223372036854775807 ∧ (parseMentions ("<@1" ++ mentionText "<@" 3 ++ "<@&2>>")).1 = [3] :=
  ⟨by decide, ((parseMentions_grammar.2.2 "<@1" "<@&2>>" 3 (by decide)).1.1).trans (by decide)⟩

end Lumiere.Routes
