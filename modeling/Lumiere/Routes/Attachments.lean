/-
Upload and download of attachments (`lumiere-server/src/routes/attachments.rs`). An upload is checked, stored in the
bucket, recorded in PostgreSQL and answered with a presigned URL; a download finds the record and redirects to the
object. The multipart parser is a parameter: what it finds in the body.

Both statements name the columns `s3_key` and `uploaded_by`; the migration calls them `object_key` and `uploader_id`.

- `Reaches`: the request passes every check before the object is stored.
- `Served`: what is uploaded can be downloaded, and a refused upload leaves no object.
- `served_iff`: this holds exactly for the requests that are refused in time.
- `downloadAttachment_eq_error`: no attachment can be downloaded at all.
- `orphan`: an upload that leaves an object behind an error.
-/
import Lumiere.Db.Attachments
import Lumiere.Media.Service
import Lumiere.Routes.ChannelAccess

namespace Lumiere.Routes

open Lumiere.Core Lumiere.Core.Prog Lumiere.Models Lumiere.Db Lumiere.Media

/-- what the two handlers read and write -/
structure Storage where
  pg : Postgres
  /-- the column `premium_type` of the users -/
  premiumType : ℤ → ℤ
  attachments : Attachments
  objects : Objects

/-- a part of a multipart body; reading its bytes may fail -/
structure Field where
  fileName : Option String
  contentType : Option String
  bytes : Except String (List UInt8)
deriving DecidableEq, Repr

/-- `multipart.next_field()` -/
abbrev Form := Except String (Option Field)

/-- a file that has passed the checks of the handler -/
structure Upload where
  filename : String
  contentType : String
  data : List UInt8
  tier : AccountTier
deriving DecidableEq, Repr

structure AttachmentResponse where
  id : Snowflake
  filename : String
  contentType : String
  size : ℤ
  url : String
deriving DecidableEq, Repr

structure Redirect where
  location : String
  cacheControl : String
  contentDisposition : String
deriving DecidableEq, Repr

def Field.filename (f : Field) : String := f.fileName.getD "file"

def Field.type (f : Field) : String := f.contentType.getD "application/octet-stream"

def Storage.tier (s : Storage) (userId : ℤ) : AccountTier :=
  match (((s.pg.users.find? fun u => u.id = userId).map fun u => s.premiumType u.id).getD 0) with
  | 0 => .free
  | _ => .premium

/-! ## Upload -/

/-- `server_id`, decoded as an `i64` -/
def channelServer? (s : Storage) (channelId : ℤ) : Except AppError (Option ℤ) :=
  match s.pg.channels.find? fun c => c.id = channelId with
  | none => .ok none
  | some c =>
    match c.serverId with
    | some serverId => .ok (some serverId)
    | none => .error (.internal "error occurred while decoding column 0: unexpected null; try decoding as an `Option`")

/-- `require_permissions`, which only reads -/
def permitted (s : Storage) (serverId userId : ℤ) (required : Permissions) : Except AppError Unit :=
  ((requirePermissions serverId userId required).run statement s.pg).1

def orError {α : Type} (e : AppError) : Option α → Except AppError α
  | some a => .ok a
  | none => .error e

/-- the file of the form -/
def nextField : Form → Except AppError Field
  | .ok (some field) => .ok field
  | .ok none => .error (.badRequest "No file field in multipart body")
  | .error e => .error (.badRequest ("Invalid multipart: " ++ e))

/-- the handler up to the upload -/
def acceptUpload (s : Storage) (auth channelId : ℤ) (form : Form) : Except AppError Upload := do
  let row ← channelServer? s channelId
  let serverId ← orError (.notFound "Channel not found") row
  permitted s serverId auth .attachFiles
  let field ← nextField form
  (FileValidation.validateAttachmentContentType field.type).mapError fun e => .badRequest e.display
  let data ← field.bytes.mapError fun e => .badRequest ("Failed to read file: " ++ e)
  refuseIf data.isEmpty (.badRequest "File is empty")
  (validateContentMagicBytes data field.type).mapError fun e => .badRequest e.display
  pure ⟨field.filename, field.type, data, s.tier auth⟩

def uploadError : MediaError → AppError
  | .fileTooLarge size max => .badRequest (MediaError.fileTooLarge size max).display
  | .invalidContentType message => .badRequest message
  | other => .internal other.display

def insertColumns : List String :=
  ["id", "channel_id", "message_id", "filename", "content_type", "size", "s3_key", "uploaded_by"]

section Handlers

variable (put : PutOutcome) (presign : String → ℕ → Except String String)

/-- the handler from the upload on -/
def storeUpload (s : Storage) (auth : ℤ) (channelId attachmentId : Snowflake) (now : DateTime) (f : Upload) :
    Except AppError AttachmentResponse × Storage :=
  let uploaded :=
    MediaService.uploadAttachment put s.objects channelId attachmentId f.filename f.data f.contentType f.tier
  let s := { s with objects := uploaded.2 }
  match uploaded.1 with
  | .error e => (.error (uploadError e), s)
  | .ok key =>
    let values := [.int attachmentId.toI64, .int channelId.toI64, .null, .text f.filename, .text f.contentType,
      .int f.data.length, .text key, .int auth]
    match insertAttachment s.pg.users s.attachments insertColumns values now with
    | .error e => (.error (.internal e.display), s)
    | .ok attachments =>
      let s := { s with attachments }
      match MediaService.getPresignedUrl presign key 3600 with
      | .error e => (.error (.internal e.display), s)
      | .ok url => (.ok ⟨attachmentId, f.filename, f.contentType, f.data.length, url⟩, s)

/-- `attachmentId` is what `next_id` gives -/
def uploadAttachment (s : Storage) (auth : ℤ) (channelId : Snowflake) (form : Form) (attachmentId : Snowflake)
    (now : DateTime) : Except AppError AttachmentResponse × Storage :=
  match acceptUpload s auth channelId.toI64 form with
  | .error e => (.error e, s)
  | .ok f => storeUpload put presign s auth channelId attachmentId now f

/-! ## Download -/

def isInlineSafe (contentType : String) : Bool :=
  contentType ∈ ["image/png", "image/jpeg", "image/webp", "image/gif", "video/mp4", "video/webm", "audio/mpeg",
    "audio/ogg", "audio/wav", "text/plain"]

/-- quotes become apostrophes, line breaks are dropped -/
def headerFilename (filename : String) : String :=
  String.ofList ((filename.toList.map fun c => if c = '\x22' then '\x27' else c).filter fun c => c ≠ '\n' && c ≠ '\r')

/-- the characters that a header value may have -/
def validHeader (value : String) : Bool := value.toList.all fun c => (32 ≤ c.toNat && c.toNat ≠ 127) || c = '\t'

/-- `Response::builder()`; its `unwrap` panics on a header that is not valid -/
def redirect (url filename contentType : String) : Option Redirect :=
  let disposition := (if isInlineSafe contentType then "inline; filename=\"" else "attachment; filename=\"") ++
    headerFilename filename ++ "\""
  if validHeader url && validHeader disposition then some ⟨url, "public, max-age=3600", disposition⟩ else none

structure AttachmentRecord where
  channelId : ℤ
  filename : String
  contentType : String
  size : ℤ
  s3Key : String
deriving DecidableEq, Repr

/-- a row of the SELECT, decoded -/
def AttachmentRecord.ofCells : List Cell → Except AppError AttachmentRecord
  | [.int channelId, .text filename, .text contentType, .int size, .text s3Key] =>
    .ok ⟨channelId, filename, contentType, size, s3Key⟩
  | _ => .error (.internal "error occurred while decoding")

def selectColumns : List String := ["channel_id", "filename", "content_type", "size", "s3_key"]

/-- a member of the channel's server, or a recipient if there is no such channel -/
def checkViewer (s : Storage) (auth channelId : ℤ) : Except AppError Unit := do
  match ← channelServer? s channelId with
  | some serverId => permitted s serverId auth .viewChannel
  | none =>
    refuseIf (!s.pg.dmRecipients.any fun r => r.channelId = channelId && r.userId = auth) (.forbidden "Access denied")

/-- the answer is `none` if the handler panics -/
def downloadAttachment (s : Storage) (auth : ℤ) (attachmentId : Snowflake) : Except AppError (Option Redirect) := do
  let row ← (selectAttachment s.attachments selectColumns attachmentId.toI64).mapError fun e => .internal e.display
  let cells ← orError (.notFound "Attachment not found") row
  let record ← AttachmentRecord.ofCells cells
  checkViewer s auth record.channelId
  let url ← (MediaService.getDownloadUrl presign record.s3Key 3600).mapError fun e => .internal e.display
  pure (redirect url record.filename record.contentType)

end Handlers

/-! ## The checks before the upload -/

variable {s s' : Storage} {auth : ℤ} {form : Form} {f : Upload} {put : PutOutcome}
  {presign : String → ℕ → Except String String} {channelId attachmentId : Snowflake} {now : DateTime}

/-- the request passes every check before the object is stored -/
structure Reaches (s : Storage) (auth channelId : ℤ) (form : Form) (field : Field) (data : List UInt8) : Prop where
  permission : ∃ serverId, InServer s.pg channelId serverId ∧ s.pg.hasMember serverId auth = true ∧
    Permissions.attachFiles ⊆ s.pg.userPermissions serverId auth
  form : form = .ok (some field)
  type : field.type ∈ attachmentContentTypes
  bytes : field.bytes = .ok data
  nonempty : data ≠ []
  magic : magicBytesMatch data field.type = true
  size : data.length ≤ (s.tier auth).maxAttachmentSize

theorem channelServer?_eq_some {channelId serverId : ℤ} :
    channelServer? s channelId = .ok (some serverId) ↔ InServer s.pg channelId serverId := by
  unfold channelServer? InServer
  constructor
  · intro h
    split at h
    · cases h
    · rename_i c hc
      obtain ⟨hmem, hid⟩ := Table.find?_key.1 hc
      split at h
      · rename_i hserver
        cases h
        exact ⟨c, hmem, hid, hserver⟩
      · cases h
  · rintro ⟨c, hmem, hid, hserver⟩
    rw [Table.find?_key.2 ⟨hmem, hid⟩]
    dsimp only
    rw [hserver]

theorem permitted_eq_ok {serverId userId : ℤ} {required : Permissions} {u : Unit} :
    permitted s serverId userId required = .ok u ↔
      s.pg.hasMember serverId userId = true ∧ required ⊆ s.pg.userPermissions serverId userId := by
  have hreads : ((requirePermissions serverId userId required).run statement s.pg).2 = s.pg :=
    run_readOnly readOnly_requirePermissions s.pg
  have hok : (requirePermissions serverId userId required).run statement s.pg = (.ok (), s.pg) ↔ _ :=
    requirePermissions_eq_ok
  rw [Prod.ext_iff, and_iff_left hreads] at hok
  rw [permitted, hok, and_iff_left rfl]

theorem orError_eq_ok {α : Type} {e : AppError} {o : Option α} {a : α} : orError e o = .ok a ↔ o = some a := by
  cases o <;> simp [orError]

theorem nextField_eq_ok {field : Field} : nextField form = .ok field ↔ form = .ok (some field) := by
  rcases form with e | (_ | field') <;> simp [nextField]

/-- what the handler hands to the upload -/
theorem acceptUpload_eq_ok {channelId : ℤ} : acceptUpload s auth channelId form = .ok f ↔
    ∃ field data serverId, (InServer s.pg channelId serverId ∧ s.pg.hasMember serverId auth = true ∧
      Permissions.attachFiles ⊆ s.pg.userPermissions serverId auth) ∧ form = .ok (some field) ∧
      field.type ∈ attachmentContentTypes ∧ field.bytes = .ok data ∧ data ≠ [] ∧ magicBytesMatch data field.type = true ∧
      f = ⟨field.filename, field.type, data, s.tier auth⟩ := by
  simp only [acceptUpload, bind_eq_ok, orError_eq_ok, permitted_eq_ok, nextField_eq_ok, mapError_eq_ok, refuseIf_eq_ok,
    validateAttachmentContentType_eq_ok, validateContentMagicBytes_eq_ok, pure_eq_ok]
  constructor
  · rintro ⟨_, hserver, serverId, rfl, -, hpermitted, field, hform, -, htype, data, hbytes, -, hempty, -, hmagic, rfl⟩
    exact ⟨field, data, serverId, ⟨channelServer?_eq_some.1 hserver, hpermitted⟩, hform, htype, hbytes,
      by simpa using hempty, hmagic, rfl⟩
  · rintro ⟨field, data, serverId, ⟨hserver, hpermitted⟩, hform, htype, hbytes, hempty, hmagic, rfl⟩
    exact ⟨_, channelServer?_eq_some.2 hserver, serverId, rfl, (), hpermitted, field, hform, (), htype, data, hbytes, (),
      by simpa using hempty, (), hmagic, rfl⟩

/-! ## What is left behind -/

/-- what is uploaded can be downloaded, and an upload that fails leaves the bucket as it was -/
structure Served (put : PutOutcome) (presign : String → ℕ → Except String String) (s : Storage) (auth : ℤ)
    (channelId : Snowflake) (form : Form) (attachmentId : Snowflake) (now : DateTime) : Prop where
  downloadable : ∀ field data, Reaches s auth channelId.toI64 form field data → field.filename.length ≤ 255 →
    ∃ response s' key, uploadAttachment put presign s auth channelId form attachmentId now = (.ok response, s') ∧
      response.id = attachmentId ∧ s'.objects key = some ⟨data, field.type⟩ ∧
      ∀ member serverId, InServer s'.pg channelId.toI64 serverId → s'.pg.hasMember serverId member = true →
        Permissions.viewChannel ⊆ s'.pg.userPermissions serverId member →
          ∃ r, downloadAttachment presign s' member response.id = .ok (some r) ∧ presign key 3600 = .ok r.location
  clean : ∀ e s', uploadAttachment put presign s auth channelId form attachmentId now = (.error e, s') →
    s'.objects = s.objects

/-- the row of an upload is never written -/
theorem insertAttachment_refused (users : Table User.id) (t : Attachments) (values : List Cell) (now : DateTime) :
    ∃ e, insertAttachment users t insertColumns values now = .error e :=
  insertAttachment_undefined (show "s3_key" ∈ insertColumns by decide) (by decide)

/-- **No attachment can be downloaded.** -/
theorem downloadAttachment_eq_error (presign : String → ℕ → Except String String) (s : Storage) (auth : ℤ)
    (attachmentId : Snowflake) :
    ∃ message, downloadAttachment presign s auth attachmentId = .error (.internal message) := by
  obtain ⟨e, he⟩ : ∃ e, selectAttachment s.attachments selectColumns attachmentId.toI64 = .error e :=
    selectAttachment_undefined (show "s3_key" ∈ selectColumns by decide) (by decide)
  exact ⟨e.display, by rw [downloadAttachment, he]; rfl⟩

/-- an upload that reaches the bucket fails after it -/
theorem uploadAttachment_of_reaches {field : Field} {data : List UInt8} (hput : ∃ code < 300, put = .status code)
    (presign : String → ℕ → Except String String) (attachmentId : Snowflake) (now : DateTime)
    (h : Reaches s auth channelId.toI64 form field data) :
    ∃ message, uploadAttachment put presign s auth channelId form attachmentId now = (.error (.internal message),
      { s with objects := s.objects.set (attachmentKey channelId attachmentId field.filename) ⟨data, field.type⟩ }) := by
  obtain ⟨serverId, hpermission⟩ := h.permission
  have haccept : acceptUpload s auth channelId.toI64 form = .ok ⟨field.filename, field.type, data, s.tier auth⟩ :=
    acceptUpload_eq_ok.2 ⟨field, data, serverId, hpermission, h.form, h.type, h.bytes, h.nonempty, h.magic, rfl⟩
  have hupload : MediaService.uploadAttachment put s.objects channelId attachmentId field.filename data field.type
      (s.tier auth) = (.ok (attachmentKey channelId attachmentId field.filename),
        s.objects.set (attachmentKey channelId attachmentId field.filename) ⟨data, field.type⟩) :=
    uploadAttachment_eq_ok.2 ⟨⟨h.size, h.type⟩, rfl, hput, rfl⟩
  rw [uploadAttachment, haccept]
  dsimp only
  rw [storeUpload]
  dsimp only
  rw [hupload]
  dsimp only
  obtain ⟨e, he⟩ := insertAttachment_refused s.pg.users s.attachments
    [.int attachmentId.toI64, .int channelId.toI64, .null, .text field.filename, .text field.type, .int data.length,
      .text (attachmentKey channelId attachmentId field.filename), .int auth] now
  rw [he]
  exact ⟨e.display, rfl⟩

/-- an upload that is refused before leaves everything as it was -/
theorem uploadAttachment_of_not_reaches (put : PutOutcome) (presign : String → ℕ → Except String String)
    (attachmentId : Snowflake) (now : DateTime) (h : ¬ ∃ field data, Reaches s auth channelId.toI64 form field data) :
    (uploadAttachment put presign s auth channelId form attachmentId now).2 = s := by
  rw [uploadAttachment]
  rcases haccept : acceptUpload s auth channelId.toI64 form with e | f
  · rfl
  · obtain ⟨field, data, serverId, hpermission, hform, htype, hbytes, hnonempty, hmagic, rfl⟩ :=
      acceptUpload_eq_ok.1 haccept
    have hsize : (s.tier auth).maxAttachmentSize < data.length := by
      by_contra hsize
      exact h ⟨field, data, ⟨serverId, hpermission⟩, hform, htype, hbytes, hnonempty, hmagic, not_lt.1 hsize⟩
    simp only [storeUpload, MediaService.uploadAttachment, FileValidation.validateAttachment, if_pos hsize]

/-- **Uploads are served exactly if they never reach the bucket**: the row of an object that was stored is not
written. -/
theorem served_iff (hput : ∃ code < 300, put = .status code)
    (hfresh : ∀ filename, s.objects (attachmentKey channelId attachmentId filename) = none) :
    Served put presign s auth channelId form attachmentId now ↔
      ¬ ∃ field data, Reaches s auth channelId.toI64 form field data := by
  constructor
  · rintro h ⟨field, data, hreaches⟩
    obtain ⟨message, hupload⟩ := uploadAttachment_of_reaches hput presign attachmentId now hreaches
    have hclean := congrFun (h.clean _ _ hupload) (attachmentKey channelId attachmentId field.filename)
    rw [hfresh] at hclean
    exact nomatch (Objects.set_self _).symm.trans hclean
  · intro h
    refine ⟨fun field data hreaches => absurd ⟨field, data, hreaches⟩ h, fun e s' hupload => ?_⟩
    have hsame := uploadAttachment_of_not_reaches put presign attachmentId now h
    rw [hupload] at hsame
    rw [show s' = s from hsame]

/-! ## A file of two bytes -/

/-- server 100 of user 1, with the text channel 101 -/
def oneServer : Storage where
  pg := ((createServer 1 ⟨"first", none, none⟩ 100 101 102 ⟨0⟩).run statement
    (noServers onlyAda)).2
  premiumType := fun _ => 0
  attachments := .empty
  objects := fun _ => none

/-- rust-s3 with a bucket at "s3:" -/
def presigned (key : String) (_ : ℕ) : Except String String := .ok ("s3:" ++ key)

def textFile (data : List UInt8) : Form := .ok (some ⟨some "notes.txt", some "text/plain", .ok data⟩)

/-- the two bytes as a picture, which they do not begin as -/
def pngFile (data : List UInt8) : Form := .ok (some ⟨some "notes.png", some "image/png", .ok data⟩)

/-- a byte more than an account of the first tier may upload -/
def largeFile : List UInt8 := List.replicate (maxFileSizeFree + 1) 104

/-- what is empty, begins otherwise than its type or is too large is refused in time -/
theorem served_iff_refused :
    Served (.status 200) presigned oneServer 1 ⟨101⟩ (textFile []) ⟨7⟩ ⟨0⟩ ∧
      Served (.status 200) presigned oneServer 1 ⟨101⟩ (pngFile [104, 105]) ⟨7⟩ ⟨0⟩ ∧
      Served (.status 200) presigned oneServer 1 ⟨101⟩ (textFile largeFile) ⟨7⟩ ⟨0⟩ := by
  refine ⟨(served_iff ⟨200, by decide, rfl⟩ fun _ => rfl).2 ?_, (served_iff ⟨200, by decide, rfl⟩ fun _ => rfl).2 ?_,
    (served_iff ⟨200, by decide, rfl⟩ fun _ => rfl).2 ?_⟩
  · rintro ⟨field, data, h⟩
    obtain rfl := Option.some.inj (Except.ok.inj h.form)
    exact h.nonempty (Except.ok.inj h.bytes).symm
  · rintro ⟨field, data, h⟩
    obtain rfl := Option.some.inj (Except.ok.inj h.form)
    obtain rfl := Except.ok.inj h.bytes
    exact absurd h.magic (by decide)
  · rintro ⟨field, data, h⟩
    obtain rfl := Option.some.inj (Except.ok.inj h.form)
    obtain rfl := Except.ok.inj h.bytes
    have hsize : largeFile.length ≤ maxFileSizeFree := h.size
    rw [largeFile, List.length_replicate] at hsize
    omega

def uploadOfTwoBytes : Except AppError AttachmentResponse × Storage :=
  uploadAttachment (.status 200) presigned oneServer 1 ⟨101⟩ (textFile [104, 105]) ⟨7⟩ ⟨0⟩

/-- **An upload is stored and then refused.** -/
theorem orphan :
    uploadOfTwoBytes.1 = .error (.internal
      "error returned from database: column \"s3_key\" of relation \"attachments\" does not exist") ∧
    uploadOfTwoBytes.2.objects "attachments/101/7/notes.txt" = some ⟨[104, 105], "text/plain"⟩ ∧
    ¬ Served (.status 200) presigned oneServer 1 ⟨101⟩ (textFile [104, 105]) ⟨7⟩ ⟨0⟩ := by
  have herror : uploadOfTwoBytes.1 = .error (.internal
      "error returned from database: column \"s3_key\" of relation \"attachments\" does not exist") := by decide
  have hstored : uploadOfTwoBytes.2.objects "attachments/101/7/notes.txt" = some ⟨[104, 105], "text/plain"⟩ := by
    decide
  refine ⟨herror, hstored, fun h => ?_⟩
  have hclean : uploadOfTwoBytes.2.objects = oneServer.objects := h.clean _ uploadOfTwoBytes.2 (Prod.ext herror rfl)
  exact nomatch hstored.symm.trans (congrFun hclean _)

end Lumiere.Routes
