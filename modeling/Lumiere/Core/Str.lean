/-
The methods of Rust's `str` that the code calls. A string is its list of Unicode scalar values, so `chars().count()`
is `String.length`; positions are bytes of its UTF-8 encoding.
-/
import Mathlib.Data.Nat.Notation
import Mathlib.Data.Int.Notation

namespace Lumiere.Core.Str

/-- the Unicode property White_Space -/
def isWhitespace (c : Char) : Bool :=
  let n := c.toNat
  (9 ≤ n && n ≤ 13) || n = 32 || n = 133 || n = 160 || n = 5760 || (8192 ≤ n && n ≤ 8202) || n = 8232 || n = 8233 ||
    n = 8239 || n = 8287 || n = 12288

def trim (s : String) : String :=
  String.ofList ((s.toList.dropWhile isWhitespace).reverse.dropWhile isWhitespace).reverse

def trimStart (s : String) : String := String.ofList (s.toList.dropWhile isWhitespace)

def startsWith (pattern s : String) : Bool := pattern.toList.isPrefixOf s.toList

def stripPrefix (pattern s : String) : Option String :=
  if startsWith pattern s then some (String.ofList (s.toList.drop pattern.length)) else none

/-- `s.split(c)` -/
def split (c : Char) (s : String) : List String := (s.toList.splitOn c).map String.ofList

/-- each `\r\n` as `\n` -/
def lineFeeds : List Char → List Char
  | '\r' :: '\n' :: cs => '\n' :: lineFeeds cs
  | c :: cs => c :: lineFeeds cs
  | [] => []

/-- `str::lines`: no line begins behind the last line feed -/
def lines (s : String) : List String :=
  let parts := (lineFeeds s.toList).splitOn '\n'
  (if parts.getLast? = some [] then parts.dropLast else parts).map String.ofList

theorem startsWith_append (p s : String) : startsWith p (p ++ s) = true := by
  rw [startsWith, List.isPrefixOf_iff_prefix, String.toList_append]
  exact List.prefix_append _ _

theorem stripPrefix_append (p s : String) : stripPrefix p (p ++ s) = some s := by
  rw [stripPrefix, if_pos (startsWith_append p s), String.toList_append, List.drop_left' String.length_toList,
    String.ofList_toList]

/-- the value of a non-empty list of ASCII digits -/
def digits : List Char → Option ℕ
  | [] => none
  | cs => if cs.all fun c => '0' ≤ c && c ≤ '9' then some (cs.foldl (fun n c => 10 * n + (c.toNat - 48)) 0) else none

/-- `str::parse::<i64>`: an optional sign, then digits, in range -/
def parseI64 (s : String) : Option ℤ :=
  match s.toList with
  | '-' :: ds => (digits ds).bind fun n => if n ≤ 9223372036854775808 then some (-(n : ℤ)) else none
  | '+' :: ds => (digits ds).bind fun n => if n ≤ 9223372036854775807 then some (n : ℤ) else none
  | ds => (digits ds).bind fun n => if n ≤ 9223372036854775807 then some (n : ℤ) else none

theorem parseI64_range {s : String} {n : ℤ} (h : parseI64 s = some n) :
    -9223372036854775808 ≤ n ∧ n ≤ 9223372036854775807 := by
  unfold parseI64 at h
  split at h
  all_goals
    obtain ⟨m, -, hm⟩ := Option.bind_eq_some_iff.1 h
    split at hm
    · obtain rfl := Option.some.inj hm
      omega
    · nomatch hm

/-- `str::parse::<u64>`: an optional `+`, then digits, in range -/
def parseU64 (s : String) : Option ℕ :=
  match s.toList with
  | '+' :: ds => (digits ds).bind fun n => if n < 18446744073709551616 then some n else none
  | ds => (digits ds).bind fun n => if n < 18446744073709551616 then some n else none

/-- the digits of a number are read back -/
theorem digits_toDigits (n : ℕ) : digits (Nat.toDigits 10 n) = some n := by
  have hdigit : ∀ c ∈ Nat.toDigits 10 n, ('0' ≤ c && c ≤ '9') = true := by
    intro c hc
    have h : c.isDigit = true := Nat.isDigit_of_mem_toDigits (by decide) (by decide) hc
    simpa [Char.isDigit, Char.le_def] using h
  have hall := List.all_eq_true.2 hdigit
  have hvalue : (Nat.toDigits 10 n).foldl (fun n c => 10 * n + (c.toNat - 48)) 0 = n := Nat.ofDigitChars_ten_toDigits
  unfold digits
  split
  · rename_i heq
    exact absurd heq Nat.toDigits_ne_nil
  · rw [if_pos hall, hvalue]

theorem parseU64_toString {n : ℕ} (h : n < 18446744073709551616) : parseU64 (toString n) = some n := by
  have hlist : (toString n).toList = Nat.toDigits 10 n := Nat.toList_repr
  unfold parseU64
  rw [hlist]
  split
  · rename_i ds heq
    have hplus : '+' ∈ Nat.toDigits 10 n := heq ▸ List.mem_cons_self
    exact absurd (Nat.isDigit_of_mem_toDigits (by decide) (by decide) hplus) (by decide)
  · rw [digits_toDigits, Option.bind_some, if_pos h]

example : parseI64 "-12" = some (-12) ∧ parseI64 "+" = none ∧ parseI64 "9223372036854775808" = none := by decide

example : trim "\t a b\n" = "a b" := by decide

example : lines "a\r\n\nb\r" = ["a", "", "b\r"] ∧ lines "a\n" = ["a"] ∧ lines "" = [] := by decide

example : split '.' "a..b" = ["a", "", "b"] ∧ stripPrefix "a." "a.b" = some "b" := by decide

/-- `split_at_checked` on the characters -/
def splitChars : ℕ → List Char → Option (List Char × List Char)
  | 0, cs => some ([], cs)
  | _ + 1, [] => none
  | n + 1, c :: cs =>
    if c.utf8Size ≤ n + 1 then (splitChars (n + 1 - c.utf8Size) cs).map fun p => (c :: p.1, p.2) else none

/-- `str::split_at_checked`: the text before and from a byte, if a character begins there or the text ends -/
def splitAtByte (n : ℕ) (s : String) : Option (String × String) :=
  (splitChars n s.toList).map fun p => (String.ofList p.1, String.ofList p.2)

theorem utf8ByteSize_ofList_cons (c : Char) (cs : List Char) :
    (String.ofList (c :: cs)).utf8ByteSize = c.utf8Size + (String.ofList cs).utf8ByteSize := by
  rw [← List.singleton_append, String.ofList_append, String.utf8ByteSize_append]
  exact congrArg (· + _) String.utf8ByteSize_singleton

theorem append_of_splitChars {n : ℕ} {cs a b : List Char} (h : splitChars n cs = some (a, b)) :
    a ++ b = cs ∧ (String.ofList a).utf8ByteSize = n := by
  fun_induction splitChars n cs generalizing a with
  | case1 cs =>
    obtain ⟨rfl, rfl⟩ := Prod.mk.inj (Option.some.inj h)
    exact ⟨rfl, rfl⟩
  | case2 n => nomatch h
  | case3 n c cs hle ih =>
    obtain ⟨⟨x, y⟩, hxy, heq⟩ := Option.map_eq_some_iff.1 h
    obtain ⟨rfl, rfl⟩ := Prod.mk.inj heq
    obtain ⟨happend, hsize⟩ := ih hxy
    refine ⟨congrArg (c :: ·) happend, ?_⟩
    rw [utf8ByteSize_ofList_cons, hsize]
    omega
  | case4 n c cs hlt => nomatch h

theorem splitChars_append (a b : List Char) : splitChars (String.ofList a).utf8ByteSize (a ++ b) = some (a, b) := by
  induction a with
  | nil =>
    have hzero : (String.ofList []).utf8ByteSize = 0 := rfl
    rw [hzero, splitChars, List.nil_append]
  | cons c a ih =>
    obtain ⟨n, hn⟩ : ∃ n, c.utf8Size + (String.ofList a).utf8ByteSize = n + 1 :=
      ⟨_, (Nat.succ_pred_eq_of_pos (Nat.add_pos_left c.utf8Size_pos _)).symm⟩
    have hrest : n + 1 - c.utf8Size = (String.ofList a).utf8ByteSize := by omega
    rw [utf8ByteSize_ofList_cons, hn, List.cons_append, splitChars, if_pos (by omega), hrest, ih]
    rfl

theorem splitAtByte_eq_some {n : ℕ} {s a b : String} :
    splitAtByte n s = some (a, b) ↔ a ++ b = s ∧ a.utf8ByteSize = n := by
  rw [splitAtByte, Option.map_eq_some_iff]
  constructor
  · rintro ⟨⟨x, y⟩, hxy, heq⟩
    obtain ⟨rfl, rfl⟩ := Prod.mk.inj heq
    obtain ⟨happend, hsize⟩ := append_of_splitChars hxy
    exact ⟨by rw [← String.ofList_append, happend, String.ofList_toList], hsize⟩
  · rintro ⟨rfl, rfl⟩
    have hsplit := splitChars_append a.toList b.toList
    rw [String.ofList_toList, ← String.toList_append] at hsplit
    exact ⟨_, hsplit, Prod.ext String.ofList_toList String.ofList_toList⟩

example : splitAtByte 3 "abc€" = some ("abc", "€") ∧ splitAtByte 4 "abc€" = none := by decide

end Lumiere.Core.Str
