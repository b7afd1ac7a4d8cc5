/-
What may be uploaded (`lumiere-media/src/validation.rs`, `error.rs`): content types, sizes for each account tier, and the
first bytes of a file. A file is the list of its bytes.

- `validateAttachment_eq_ok`: what the check of a whole file lets through.
-/
import Mathlib.Data.Nat.Notation
import Mathlib.Tactic.SplitIfs

namespace Lumiere.Media

inductive MediaError where
  | upload (message : String)
  | presignUrl (message : String)
  | fileTooLarge (size max : ℕ)
  | invalidContentType (message : String)
deriving DecidableEq, Repr

def MediaError.display : MediaError → String
  | .upload message => "Upload failed: " ++ message
  | .presignUrl message => "Presign URL failed: " ++ message
  | .fileTooLarge size max =>
    "File too large: " ++ toString size ++ " bytes exceeds maximum " ++ toString max ++ " bytes"
  | .invalidContentType message => "Invalid content type: " ++ message

/-- 25 MB -/
def maxFileSizeFree : ℕ := 25 * 1024 * 1024

/-- 50 MB -/
def maxFileSizePremium : ℕ := 50 * 1024 * 1024

inductive AccountTier where
  | free
  | premium
deriving DecidableEq, Repr

def AccountTier.maxAttachmentSize : AccountTier → ℕ
  | .free => maxFileSizeFree
  | .premium => maxFileSizePremium

def attachmentContentTypes : List String :=
  ["image/png", "image/jpeg", "image/webp", "image/gif", "video/mp4", "video/webm", "audio/mpeg", "audio/ogg",
   "audio/wav", "application/pdf", "text/plain", "application/zip", "application/x-tar", "application/gzip"]

/-- the `Debug` text of a list of strings -/
def debugList (xs : List String) : String := "[" ++ ", ".intercalate (xs.map fun x => "\"" ++ x ++ "\"") ++ "]"

namespace FileValidation

def validateAttachmentContentType (contentType : String) : Except MediaError Unit :=
  if contentType ∉ attachmentContentTypes then
    .error (.invalidContentType ("'" ++ contentType ++ "' is not an allowed attachment type. Allowed: " ++
      debugList attachmentContentTypes))
  else .ok ()

def validateAttachment (data : List UInt8) (contentType : String) (tier : AccountTier) : Except MediaError Unit :=
  let max := tier.maxAttachmentSize
  if max < data.length then .error (.fileTooLarge data.length max)
  else if contentType ∉ attachmentContentTypes then
    .error (.invalidContentType ("'" ++ contentType ++ "' is not an allowed attachment type. Allowed: " ++
      debugList attachmentContentTypes))
  else .ok ()

end FileValidation

/-- whether the first bytes are those of the claimed type; types without known ones always match -/
def magicBytesMatch (data : List UInt8) (claimedContentType : String) : Bool :=
  match claimedContentType with
  | "image/png" => 4 ≤ data.length && data.take 4 = [0x89, 0x50, 0x4E, 0x47]
  | "image/jpeg" => 3 ≤ data.length && data.take 3 = [0xFF, 0xD8, 0xFF]
  | "image/gif" => 3 ≤ data.length && data.take 3 = [0x47, 0x49, 0x46]
  | "image/webp" =>
    12 ≤ data.length && data.take 4 = [0x52, 0x49, 0x46, 0x46] && (data.drop 8).take 4 = [0x57, 0x45, 0x42, 0x50]
  | "application/pdf" => 4 ≤ data.length && data.take 4 = [0x25, 0x50, 0x44, 0x46]
  | _ => true

def validateContentMagicBytes (data : List UInt8) (claimedContentType : String) : Except MediaError Unit :=
  if !magicBytesMatch data claimedContentType then
    .error (.invalidContentType ("file content does not match claimed content type '" ++ claimedContentType ++ "'"))
  else .ok ()

/-! ## What passes -/

variable {data : List UInt8} {contentType : String} {tier : AccountTier} {u : Unit}

theorem validateAttachmentContentType_eq_ok :
    FileValidation.validateAttachmentContentType contentType = .ok u ↔ contentType ∈ attachmentContentTypes := by
  unfold FileValidation.validateAttachmentContentType
  split_ifs with h
  · simp [h]
  · simpa using h

theorem validateAttachment_eq_ok :
    FileValidation.validateAttachment data contentType tier = .ok u ↔
      data.length ≤ tier.maxAttachmentSize ∧ contentType ∈ attachmentContentTypes := by
  unfold FileValidation.validateAttachment
  dsimp only
  split_ifs with hsize htype
  · simp [Nat.not_le.2 hsize]
  · simp [Nat.not_lt.1 hsize, htype]
  · simp [htype]

theorem validateContentMagicBytes_eq_ok :
    validateContentMagicBytes data contentType = .ok u ↔ magicBytesMatch data contentType = true := by
  unfold validateContentMagicBytes
  split_ifs with h <;> simp_all

end Lumiere.Media
