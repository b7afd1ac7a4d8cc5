/-
The names of uploaded files and the keys of their objects (`lumiere-media/src/service.rs`). A key is a path below one of
four prefixes; the name at its end comes from the client.

- `sanitizeFilename_safe`, `sanitizeFilename_of_safe`: what a name is made into, and what is left as it is.
- `sanitizeFilename_append`: only what follows the last separator counts.
- `split_attachmentKey`: the four parts of a key. `attachmentKey_ids`: a key tells the channel and the attachment.
-/
import Lumiere.Core.Words
import Lumiere.Media.Validation
import Lumiere.Models.Snowflake

namespace Lumiere.Media

open Lumiere.Core Lumiere.Models

/-! ## Names -/

def isSeparator (c : Char) : Bool := c = '/' || c = '\\'

/-- the characters that are replaced -/
def dangerous : List Char := ['/', '\\', '\x00', ':', '*', '?', '\x22', '<', '>', '|']

def replaceDangerous (c : Char) : Char := if c ∈ dangerous then '_' else c

/-- `name.rsplit(['/', '\\']).next()` -/
def baseName (name : List Char) : List Char := ((name.splitOnP isSeparator).getLast?).getD "file".toList

def sanitizeFilename (name : String) : String :=
  let sanitized := String.ofList ((baseName name.toList).map replaceDangerous)
  if sanitized.isEmpty || sanitized = "." || sanitized = ".." then "file" else sanitized

/-- neither empty nor a step in a path, and without dangerous characters -/
structure SafeName (name : String) : Prop where
  nonempty : name ≠ ""
  chars : ∀ c ∈ name.toList, c ∉ dangerous
  here : name ≠ "."
  parent : name ≠ ".."

theorem replaceDangerous_not_mem (c : Char) : replaceDangerous c ∉ dangerous := by
  unfold replaceDangerous
  split_ifs with h
  · decide
  · exact h

theorem replaceDangerous_of_not_mem {c : Char} (h : c ∉ dangerous) : replaceDangerous c = c := if_neg h

/-- the name that takes the place of one that cannot be used -/
theorem file_safe : SafeName "file" := by
  have hchars : ("file".toList.all fun c => !dangerous.contains c) = true := by decide
  refine ⟨by decide, fun c hc => ?_, by decide, by decide⟩
  simpa using List.all_eq_true.1 hchars c hc

theorem sanitizeFilename_safe (name : String) : SafeName (sanitizeFilename name) := by
  unfold sanitizeFilename
  dsimp only
  split_ifs with h
  · exact file_safe
  · simp only [Bool.or_eq_true, decide_eq_true_eq, not_or, String.isEmpty_iff] at h
    refine ⟨h.1.1, fun c hc => ?_, h.1.2, h.2⟩
    rw [String.toList_ofList] at hc
    obtain ⟨c', -, rfl⟩ := List.mem_map.1 hc
    exact replaceDangerous_not_mem c'

theorem not_isSeparator_of_not_mem {c : Char} (h : c ∉ dangerous) : isSeparator c = false := by
  rw [isSeparator, Bool.or_eq_false_iff, decide_eq_false_iff_not, decide_eq_false_iff_not]
  constructor <;> rintro rfl <;> exact h (by decide)

/-- a safe name is left as it is -/
theorem sanitizeFilename_of_safe {name : String} (h : SafeName name) : sanitizeFilename name = name := by
  have hbase : baseName name.toList = name.toList := by
    rw [baseName, List.splitOnP_eq_singleton fun c hc => not_isSeparator_of_not_mem (h.chars c hc)]
    rfl
  have hmap : name.toList.map replaceDangerous = name.toList :=
    (List.map_congr_left fun c hc => replaceDangerous_of_not_mem (h.chars c hc)).trans (List.map_id _)
  unfold sanitizeFilename
  rw [hbase, hmap, String.ofList_toList]
  refine if_neg ?_
  simp only [Bool.or_eq_true, decide_eq_true_eq, not_or, String.isEmpty_iff]
  exact ⟨⟨h.nonempty, h.here⟩, h.parent⟩

theorem baseName_append {sep : Char} (hsep : isSeparator sep = true) (path name : List Char) :
    baseName (path ++ sep :: name) = baseName name := by
  rw [baseName, baseName, List.splitOnP_append_cons path name hsep,
    List.getLast?_append_of_ne_nil _ (List.splitOnP_ne_nil _ _)]

/-- what comes before a separator does not count -/
theorem sanitizeFilename_append {sep : Char} (hsep : isSeparator sep = true) (path name : String) :
    sanitizeFilename (path ++ String.singleton sep ++ name) = sanitizeFilename name := by
  have hlist : (path ++ String.singleton sep ++ name).toList = path.toList ++ sep :: name.toList := by
    simp
  unfold sanitizeFilename
  rw [hlist, baseName_append hsep]

/-! ## Keys -/

/-- `format!("attachments/{}/{}/{}", ..)`, of both ways to upload -/
def attachmentKey (channelId attachmentId : Snowflake) (filename : String) : String :=
  "attachments/" ++ toString channelId.value ++ "/" ++ toString attachmentId.value ++ "/" ++ sanitizeFilename filename

def allowedKeyPrefixes : List String := ["avatars/", "attachments/", "icons/", "emojis/"]

def validateKeyPrefix (key : String) : Except MediaError Unit :=
  if allowedKeyPrefixes.any fun allowed => Str.startsWith allowed key then .ok ()
  else .error (.invalidContentType ("object key '" ++ key ++ "' does not start with an allowed prefix (" ++
    debugList allowedKeyPrefixes ++ ")"))

/-- a piece before a separator, and the rest -/
theorem split_append {c : Char} {piece : String} (h : c ∉ piece.toList) (rest : String) :
    Str.split c (piece ++ String.singleton c ++ rest) = piece :: Str.split c rest := by
  have hlist : (piece ++ String.singleton c ++ rest).toList = piece.toList ++ c :: rest.toList := by
    simp
  rw [Str.split, Str.split, hlist, List.splitOn_append_cons_self_of_not_mem h, List.map_cons, String.ofList_toList]

theorem split_eq_singleton {c : Char} {s : String} (h : c ∉ s.toList) : Str.split c s = [s] := by
  rw [Str.split, List.splitOn_eq_singleton h, List.map_singleton, String.ofList_toList]

theorem slash_not_mem_toString (v : UInt64) : '/' ∉ (toString v).toList := by
  intro h
  have hdigits : (toString v).toList = Nat.toDigits 10 v.toNat := Nat.toList_repr
  rw [hdigits] at h
  exact absurd (Nat.isDigit_of_mem_toDigits (by decide) (by decide) h) (by decide)

theorem split_attachmentKey (channelId attachmentId : Snowflake) (filename : String) :
    Str.split '/' (attachmentKey channelId attachmentId filename) =
      ["attachments", toString channelId.value, toString attachmentId.value, sanitizeFilename filename] := by
  have hname : '/' ∉ (sanitizeFilename filename).toList := fun h =>
    (sanitizeFilename_safe filename).chars '/' h (by decide)
  have hkey : attachmentKey channelId attachmentId filename = "attachments" ++ String.singleton '/' ++
      (toString channelId.value ++ String.singleton '/' ++
        (toString attachmentId.value ++ String.singleton '/' ++ sanitizeFilename filename)) := by
    apply String.toList_inj.1
    simp [attachmentKey]
  rw [hkey, split_append (by decide), split_append (slash_not_mem_toString _), split_append (slash_not_mem_toString _),
    split_eq_singleton hname]

/-- the ids are read back from a key -/
theorem attachmentKey_ids {c a c' a' : Snowflake} {filename filename' : String}
    (h : attachmentKey c a filename = attachmentKey c' a' filename') : c = c' ∧ a = a' := by
  have hsplit := congrArg (Str.split '/') h
  rw [split_attachmentKey, split_attachmentKey] at hsplit
  simp only [List.cons.injEq, true_and, and_true] at hsplit
  exact ⟨toString_value_inj.1 hsplit.1, toString_value_inj.1 hsplit.2.1⟩

theorem validateKeyPrefix_attachmentKey (c a : Snowflake) (filename : String) :
    validateKeyPrefix (attachmentKey c a filename) = .ok () := by
  refine if_pos (List.any_eq_true.2 ⟨"attachments/", by decide, ?_⟩)
  have hkey : attachmentKey c a filename = "attachments/" ++
      (toString c.value ++ "/" ++ toString a.value ++ "/" ++ sanitizeFilename filename) := by
    simp only [attachmentKey, String.append_assoc]
  rw [hkey]
  exact Str.startsWith_append _ _

example : sanitizeFilename "..\\up/a:b?.txt" = "a_b_.txt" ∧ sanitizeFilename "dir/.." = "file" := by decide

end Lumiere.Media
