/-
The S3 client and the two ways to upload an attachment (`lumiere-media/src/lib.rs`, `service.rs`). rust-s3 is a
parameter: how a PUT ends, and the URL that it presigns. A PUT that is answered below 300 has stored the object; one
that is not answered may have. A source of bytes is what its reads give.

- `uploadAttachment`: the file is measured. `uploadAttachmentStream`: a number given beside the source is compared.
- `attachment_keys`: the names and the keys of attachments.
- `upload_limits_iff`: the limit of the tier holds for whole files, and for a source exactly if it is as short as that.
- `long_source`: a source that is longer than it was said to be.
-/
import Lumiere.Media.ObjectKeys

namespace Lumiere.Media

open Lumiere.Core Lumiere.Models

/-! ## S3 -/

structure Object where
  data : List UInt8
  contentType : String
deriving DecidableEq, Repr

/-- the bucket -/
abbrev Objects := String → Option Object

def Objects.set (objects : Objects) (key : String) (o : Object) : Objects :=
  fun k => if k = key then some o else objects k

/-- how a PUT ends -/
inductive PutOutcome where
  | status (code : ℕ)
  | error (message : String) (stored : Bool)
deriving DecidableEq, Repr

/-- the reads of a source; no bytes are its end -/
abbrev Reader := List (Except String (List UInt8))

def Reader.readToEnd : Reader → Except String (List UInt8)
  | [] => .ok []
  | .error e :: _ => .error e
  | .ok [] :: _ => .ok []
  | .ok (b :: chunk) :: reads => (readToEnd reads).map fun bytes => b :: chunk ++ bytes

/-- a PUT, its answer checked -/
def putObject (put : PutOutcome) (objects : Objects) (key : String) (o : Object) (failed : String) :
    Except MediaError Unit × Objects :=
  match put with
  | .error message stored => (.error (.upload message), if stored then objects.set key o else objects)
  | .status code =>
    if 300 ≤ code then (.error (.upload (failed ++ toString code)), objects) else (.ok (), objects.set key o)

namespace S3Client

def upload (put : PutOutcome) (objects : Objects) (key : String) (data : List UInt8) (contentType : String) :
    Except MediaError Unit × Objects :=
  putObject put objects key ⟨data, contentType⟩ "S3 upload failed with status "

/-- the source is read to its end, and the bytes are counted -/
def uploadStream (put : PutOutcome) (objects : Objects) (key contentType : String) (reader : Reader) :
    Except MediaError ℕ × Objects :=
  match reader.readToEnd with
  | .error e => (.error (.upload e), objects)
  | .ok data =>
    let response := putObject put objects key ⟨data, contentType⟩ "S3 streaming upload failed with status "
    (response.1.map fun _ => data.length, response.2)

end S3Client

/-! ## Attachments -/

namespace MediaService

def uploadAttachment (put : PutOutcome) (objects : Objects) (channelId attachmentId : Snowflake) (filename : String)
    (data : List UInt8) (contentType : String) (tier : AccountTier) : Except MediaError String × Objects :=
  match FileValidation.validateAttachment data contentType tier with
  | .error e => (.error e, objects)
  | .ok () =>
    let key := attachmentKey channelId attachmentId filename
    let uploaded := S3Client.upload put objects key data contentType
    (uploaded.1.map fun _ => key, uploaded.2)

def uploadAttachmentStream (put : PutOutcome) (objects : Objects) (channelId attachmentId : Snowflake)
    (filename contentType : String) (contentLength : ℕ) (tier : AccountTier) (reader : Reader) :
    Except MediaError (String × ℕ) × Objects :=
  match FileValidation.validateAttachmentContentType contentType with
  | .error e => (.error e, objects)
  | .ok () =>
    let max := tier.maxAttachmentSize
    if max < contentLength then (.error (.fileTooLarge contentLength max), objects)
    else
      let key := attachmentKey channelId attachmentId filename
      let uploaded := S3Client.uploadStream put objects key contentType reader
      (uploaded.1.map fun n => (key, n), uploaded.2)

/-- the expiry is clamped to 60..604800 seconds -/
def getPresignedUrl (presign : String → ℕ → Except String String) (key : String) (expirySecs : ℕ) :
    Except MediaError String := do
  validateKeyPrefix key
  match presign key (max 60 (min expirySecs 604800)) with
  | .ok url => .ok url
  | .error e => .error (.presignUrl e)

def getDownloadUrl (presign : String → ℕ → Except String String) (key : String) (expirySecs : ℕ) :
    Except MediaError String := getPresignedUrl presign key expirySecs

end MediaService

open MediaService

/-! ## What is stored -/

variable {put : PutOutcome} {objects objects' : Objects} {key filename contentType : String} {data : List UInt8}
  {tier : AccountTier} {reader : Reader} {contentLength n : ℕ} {c a : Snowflake}

@[simp] theorem Objects.set_self (o : Object) : objects.set key o key = some o := if_pos rfl

theorem Objects.set_of_ne {k : String} (h : k ≠ key) (o : Object) : objects.set key o k = objects k := if_neg h

theorem putObject_of_ne {k : String} (h : k ≠ key) (o : Object) (failed : String) :
    (putObject put objects key o failed).2 k = objects k := by
  unfold putObject
  cases put with
  | error message stored => cases stored <;> simp [Objects.set_of_ne h]
  | status code =>
    dsimp only
    split_ifs
    · rfl
    · exact Objects.set_of_ne h o

/-- a PUT that succeeds was answered below 300 -/
theorem putObject_eq_ok {α : Type} {o : Object} {failed : String} {f : Unit → α} {b : α} :
    ((putObject put objects key o failed).1.map f, (putObject put objects key o failed).2) = (.ok b, objects') ↔
      f () = b ∧ (∃ code < 300, put = .status code) ∧ objects' = objects.set key o := by
  unfold putObject
  cases put with
  | error message stored => simp [Except.map]
  | status code =>
    dsimp only
    split_ifs with h
    · simp [Except.map, h]
    · simp [Except.map, Nat.not_le.1 h, eq_comm]

theorem uploadStream_eq_ok : S3Client.uploadStream put objects key contentType reader = (.ok n, objects') ↔
    ∃ data, reader.readToEnd = .ok data ∧ data.length = n ∧ (∃ code < 300, put = .status code) ∧
      objects' = objects.set key ⟨data, contentType⟩ := by
  unfold S3Client.uploadStream
  rcases reader.readToEnd with e | data
  · simp
  · simp only [putObject_eq_ok, Except.ok.injEq, exists_eq_left']

/-- what a whole file leaves in the bucket -/
theorem uploadAttachment_eq_ok :
    uploadAttachment put objects c a filename data contentType tier = (.ok key, objects') ↔
      (data.length ≤ tier.maxAttachmentSize ∧ contentType ∈ attachmentContentTypes) ∧ attachmentKey c a filename = key ∧
      (∃ code < 300, put = .status code) ∧
      objects' = objects.set (attachmentKey c a filename) ⟨data, contentType⟩ := by
  unfold uploadAttachment
  rcases hvalid : FileValidation.validateAttachment data contentType tier with e | u
  · have hnot : ¬ (data.length ≤ tier.maxAttachmentSize ∧ contentType ∈ attachmentContentTypes) := fun h =>
      nomatch hvalid.symm.trans ((validateAttachment_eq_ok (u := ())).2 h)
    simp [hnot]
  · have hok := validateAttachment_eq_ok.1 hvalid
    simp only [S3Client.upload, putObject_eq_ok, hok, and_self, true_and]

/-- what a source leaves in the bucket -/
theorem uploadAttachmentStream_eq_ok :
    uploadAttachmentStream put objects c a filename contentType contentLength tier reader = (.ok (key, n), objects') ↔
      (contentType ∈ attachmentContentTypes ∧ contentLength ≤ tier.maxAttachmentSize) ∧
      attachmentKey c a filename = key ∧
      S3Client.uploadStream put objects (attachmentKey c a filename) contentType reader = (.ok n, objects') := by
  unfold uploadAttachmentStream
  rcases hvalid : FileValidation.validateAttachmentContentType contentType with e | u
  · have hnot : contentType ∉ attachmentContentTypes := fun h =>
      nomatch hvalid.symm.trans ((validateAttachmentContentType_eq_ok (u := ())).2 h)
    simp [hnot]
  · have hok := validateAttachmentContentType_eq_ok.1 hvalid
    dsimp only
    split_ifs with hlength
    · simp [Nat.not_le.2 hlength]
    · rcases S3Client.uploadStream put objects (attachmentKey c a filename) contentType reader with ⟨e | n', s⟩
      · simp [Except.map]
      · simp [Except.map, hok, Nat.not_lt.1 hlength, and_assoc]

/-! ## Keys -/

theorem uploadAttachment_of_ne {k : String} (h : k ≠ attachmentKey c a filename) :
    (uploadAttachment put objects c a filename data contentType tier).2 k = objects k := by
  unfold uploadAttachment
  rcases FileValidation.validateAttachment data contentType tier with e | u
  · rfl
  · exact putObject_of_ne h _ _

theorem uploadAttachmentStream_of_ne {k : String} (h : k ≠ attachmentKey c a filename) :
    (uploadAttachmentStream put objects c a filename contentType contentLength tier reader).2 k = objects k := by
  unfold uploadAttachmentStream
  rcases FileValidation.validateAttachmentContentType contentType with e | u
  · rfl
  · dsimp only
    split_ifs
    · rfl
    · dsimp only [S3Client.uploadStream]
      rcases reader.readToEnd with e | data
      · rfl
      · exact putObject_of_ne h _ _

/-- **Attachment keys cannot be escaped or confused.** A sanitised name is safe, is left as it is, and does not depend
on what comes before a separator. Both uploads store below one key, and return it; it has four parts, an allowed prefix,
and its ids are those of no other attachment. -/
theorem attachment_keys (c a c' a' : Snowflake) (filename filename' path : String) :
    SafeName (sanitizeFilename filename) ∧
    sanitizeFilename (sanitizeFilename filename) = sanitizeFilename filename ∧
    (sanitizeFilename (path ++ "/" ++ filename) = sanitizeFilename filename ∧
      sanitizeFilename (path ++ "\\" ++ filename) = sanitizeFilename filename) ∧
    Str.split '/' (attachmentKey c a filename) =
      ["attachments", toString c.value, toString a.value, sanitizeFilename filename] ∧
    validateKeyPrefix (attachmentKey c a filename) = .ok () ∧
    ((c, a) ≠ (c', a') → attachmentKey c a filename ≠ attachmentKey c' a' filename') ∧
    (∀ put objects data contentType tier,
      (∀ key, (uploadAttachment put objects c a filename data contentType tier).1 = .ok key →
        key = attachmentKey c a filename) ∧
      ∀ k ≠ attachmentKey c a filename,
        (uploadAttachment put objects c a filename data contentType tier).2 k = objects k) ∧
    ∀ put objects contentType contentLength tier reader,
      (∀ key n,
        (uploadAttachmentStream put objects c a filename contentType contentLength tier reader).1 = .ok (key, n) →
          key = attachmentKey c a filename) ∧
      ∀ k ≠ attachmentKey c a filename,
        (uploadAttachmentStream put objects c a filename contentType contentLength tier reader).2 k = objects k := by
  have hsafe := sanitizeFilename_safe filename
  refine ⟨hsafe, sanitizeFilename_of_safe hsafe, ⟨?_, ?_⟩, split_attachmentKey c a filename,
    validateKeyPrefix_attachmentKey c a filename, fun hne heq => ?_, ?_, ?_⟩
  · have hslash : isSeparator '/' = true := by decide
    exact sanitizeFilename_append hslash path filename
  · have hbackslash : isSeparator '\\' = true := by decide
    exact sanitizeFilename_append hbackslash path filename
  · obtain ⟨rfl, rfl⟩ := attachmentKey_ids heq
    exact hne rfl
  · intro put objects data contentType tier
    refine ⟨fun key hkey => ?_, fun k hk => uploadAttachment_of_ne hk⟩
    exact (uploadAttachment_eq_ok.1 (Prod.ext hkey rfl)).2.1.symm
  · intro put objects contentType contentLength tier reader
    refine ⟨fun key n hkey => ?_, fun k hk => uploadAttachmentStream_of_ne hk⟩
    exact (uploadAttachmentStream_eq_ok.1 (Prod.ext hkey rfl)).2.1.symm

/-! ## Limits -/

/-- the object at the key is one that the tier may upload -/
def Limited (tier : AccountTier) (objects : Objects) (key : String) : Prop :=
  ∃ o, objects key = some o ∧ o.contentType ∈ attachmentContentTypes ∧ o.data.length ≤ tier.maxAttachmentSize

/-- **When the limits hold.** A whole file that is stored is always within them. What is stored from a source is within
them exactly if the request is refused, or the source ends within the limit of the tier. -/
theorem upload_limits_iff (tier : AccountTier) (c a : Snowflake) (filename contentType : String) (contentLength : ℕ)
    (reader : Reader) (objects : Objects) :
    (∀ put data key objects', uploadAttachment put objects c a filename data contentType tier = (.ok key, objects') →
      Limited tier objects' key) ∧
    ((∀ put key n objects', uploadAttachmentStream put objects c a filename contentType contentLength tier reader =
        (.ok (key, n), objects') → Limited tier objects' key) ↔
      contentType ∉ attachmentContentTypes ∨ tier.maxAttachmentSize < contentLength ∨
        ∀ data, reader.readToEnd = .ok data → data.length ≤ tier.maxAttachmentSize) := by
  refine ⟨fun put data key objects' h => ?_, fun h => ?_, fun h put key n objects' hupload => ?_⟩
  · obtain ⟨⟨hlength, htype⟩, rfl, -, rfl⟩ := uploadAttachment_eq_ok.1 h
    exact ⟨_, Objects.set_self _, htype, hlength⟩
  · by_contra hlong
    simp only [not_or, not_not, not_lt, not_forall, not_le] at hlong
    obtain ⟨htype, hlength, data, hread, hdata⟩ := hlong
    -- the request goes through, and the PUT may be answered with 200
    have hstream : S3Client.uploadStream (.status 200) objects (attachmentKey c a filename) contentType reader =
        (.ok data.length, objects.set (attachmentKey c a filename) ⟨data, contentType⟩) :=
      uploadStream_eq_ok.2 ⟨data, hread, rfl, ⟨200, by decide, rfl⟩, rfl⟩
    obtain ⟨o, ho, -, hsize⟩ := h (.status 200) _ data.length _
      (uploadAttachmentStream_eq_ok.2 ⟨⟨htype, hlength⟩, rfl, hstream⟩)
    rw [Objects.set_self] at ho
    obtain rfl := Option.some.inj ho
    exact absurd hsize (Nat.not_le.2 hdata)
  · obtain ⟨⟨htype, hlength⟩, rfl, hstream⟩ := uploadAttachmentStream_eq_ok.1 hupload
    obtain ⟨data, hread, -, -, rfl⟩ := uploadStream_eq_ok.1 hstream
    rcases h with hrefused | hrefused | hdata
    · exact absurd htype hrefused
    · exact absurd hlength (Nat.not_le.2 hrefused)
    · exact ⟨_, Objects.set_self _, htype, hdata data hread⟩

/-- a source of so many bytes, in one read -/
def zeros (n : ℕ) : Reader := [.ok (List.replicate n 0)]

theorem readToEnd_zeros (n : ℕ) : (zeros n).readToEnd = .ok (List.replicate n 0) := by
  cases n with
  | zero => rfl
  | succ n => simp [zeros, Reader.readToEnd, List.replicate_succ, Except.map]

theorem uploadStream_zeros (n : ℕ) : S3Client.uploadStream (.status 200) objects key contentType (zeros n) =
    (.ok n, objects.set key ⟨List.replicate n 0, contentType⟩) :=
  uploadStream_eq_ok.2 ⟨_, readToEnd_zeros n, List.length_replicate, ⟨200, by decide, rfl⟩, rfl⟩

/-- **A source is stored however long it is**, if it was said to be empty. -/
theorem long_source :
    ∃ objects', uploadAttachmentStream (.status 200) (fun _ => none) ⟨1⟩ ⟨2⟩ "notes.txt" "text/plain" 0 .free
        (zeros (maxFileSizeFree + 1)) = (.ok ("attachments/1/2/notes.txt", maxFileSizeFree + 1), objects') ∧
      ¬ Limited .free objects' "attachments/1/2/notes.txt" := by
  have hkey : attachmentKey ⟨1⟩ ⟨2⟩ "notes.txt" = "attachments/1/2/notes.txt" := by decide
  refine ⟨_, uploadAttachmentStream_eq_ok.2 ⟨⟨by decide, Nat.zero_le _⟩, hkey, uploadStream_zeros _⟩, ?_⟩
  rintro ⟨o, ho, -, hsize⟩
  rw [hkey, Objects.set_self] at ho
  obtain rfl := Option.some.inj ho
  rw [List.length_replicate] at hsize
  exact absurd hsize (Nat.not_succ_le_self _)

end Lumiere.Media
