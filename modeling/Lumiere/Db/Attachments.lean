/-
The table `attachments` (`migrations/postgres/20260329000001_initial.sql`), which statements address by the names of its
columns. A statement that names a column the table does not have is refused as a whole.

- `insertAttachment_undefined`, `selectAttachment_undefined`: a statement with an unknown column fails on every table.
-/
import Lumiere.Db.Columns

namespace Lumiere.Db

open Lumiere.Core Lumiere.Models

structure AttachmentRow where
  id : ℤ
  channelId : ℤ
  messageId : Option ℤ
  uploaderId : ℤ
  filename : String
  contentType : String
  size : ℤ
  width : Option ℤ
  height : Option ℤ
  objectKey : String
  createdAt : DateTime
deriving DecidableEq, Repr

def attachmentsColumns : List String :=
  ["id", "channel_id", "message_id", "uploader_id", "filename", "content_type", "size", "width", "height", "object_key",
   "created_at"]

def AttachmentRow.cells (r : AttachmentRow) : Row
  | "id" => .int r.id
  | "channel_id" => .int r.channelId
  | "message_id" => .nullable .int r.messageId
  | "uploader_id" => .int r.uploaderId
  | "filename" => .text r.filename
  | "content_type" => .text r.contentType
  | "size" => .int r.size
  | "width" => .nullable .int r.width
  | "height" => .nullable .int r.height
  | "object_key" => .text r.objectKey
  | "created_at" => .time r.createdAt
  | _ => .null

inductive StatementError where
  /-- an INSERT names the relation as well -/
  | undefinedColumn (column : String) (relation : Option String)
  | notNull (column : String)
  | datatypeMismatch (column : String)
  | db (e : DbError)
deriving DecidableEq, Repr

def StatementError.display : StatementError → String
  | .undefinedColumn column none => "error returned from database: column \"" ++ column ++ "\" does not exist"
  | .undefinedColumn column (some relation) => "error returned from database: column \"" ++ column ++
      "\" of relation \"" ++ relation ++ "\" does not exist"
  | .notNull column => "error returned from database: null value in column \"" ++ column ++
      "\" of relation \"attachments\" violates not-null constraint"
  | .datatypeMismatch column => "error returned from database: column \"" ++ column ++ "\" is of another type"
  | .db e => e.display

/-- the names are looked up before anything else -/
def checkColumns (relation : Option String) (columns : List String) : Except StatementError Unit :=
  match columns.find? fun column => column ∉ attachmentsColumns with
  | some column => .error (.undefinedColumn column relation)
  | none => .ok ()

/-- a BIGINT NOT NULL column -/
def bigint (given : Row) (column : String) : Except StatementError ℤ :=
  match given column with
  | .int n => .ok n
  | .null => .error (.notNull column)
  | _ => .error (.datatypeMismatch column)

/-- an integer column that may be null -/
def bigint? (given : Row) (column : String) : Except StatementError (Option ℤ) :=
  match given column with
  | .int n => .ok (some n)
  | .null => .ok none
  | _ => .error (.datatypeMismatch column)

/-- a VARCHAR(n) NOT NULL column -/
def varcharColumn (n : ℕ) (given : Row) (column : String) : Except StatementError String :=
  match given column with
  | .text s => (varchar n s).mapError .db
  | .null => .error (.notNull column)
  | _ => .error (.datatypeMismatch column)

/-- the cells of an INSERT by their columns, null where none is given -/
def givenCells (columns : List String) (values : List Cell) : Row := fun column =>
  ((columns.zip values).find? fun c => c.1 = column).elim .null Prod.snd

abbrev Attachments := Table AttachmentRow.id

/-- `INSERT INTO attachments (columns) VALUES (values)`; `created_at` is now() by default -/
def insertAttachment (users : Table User.id) (t : Attachments) (columns : List String) (values : List Cell)
    (now : DateTime) : Except StatementError Attachments := do
  checkColumns (some "attachments") columns
  let given := givenCells columns values
  let row : AttachmentRow :=
    { id := ← bigint given "id", channelId := ← bigint given "channel_id", messageId := ← bigint? given "message_id",
      uploaderId := ← bigint given "uploader_id", filename := ← varcharColumn 255 given "filename",
      contentType := ← varcharColumn 100 given "content_type", size := ← bigint given "size",
      width := ← bigint? given "width", height := ← bigint? given "height",
      objectKey := ← varcharColumn 512 given "object_key", createdAt := now }
  (requires (.foreignKey "attachments" "attachments_uploader_id_fkey")
    (users.any fun u => u.id = row.uploaderId)).mapError .db
  (unique "attachments_pkey" t row).mapError .db

/-- `SELECT columns FROM attachments WHERE id = $1` -/
def selectAttachment (t : Attachments) (columns : List String) (id : ℤ) :
    Except StatementError (Option (List Cell)) := do
  checkColumns none columns
  pure ((t.find? fun r => r.id = id).map fun r => columns.map r.cells)

/-! ## Unknown columns -/

variable {users : Table User.id} {t : Attachments} {relation : Option String} {columns : List String}
  {values : List Cell} {now : DateTime} {id : ℤ}

theorem checkColumns_eq_ok {u : Unit} :
    checkColumns relation columns = .ok u ↔ ∀ column ∈ columns, column ∈ attachmentsColumns := by
  unfold checkColumns
  rcases h : columns.find? fun column => column ∉ attachmentsColumns with _ | column
  · simpa using h
  · have hcolumn := List.find?_some h
    have hmem := List.mem_of_find?_eq_some h
    simp only [reduceCtorEq, false_iff, not_forall]
    exact ⟨column, hmem, by simpa using hcolumn⟩

theorem checkColumns_undefined (relation : Option String) {column : String} (hmem : column ∈ columns)
    (h : column ∉ attachmentsColumns) :
    ∃ e, checkColumns relation columns = .error e := by
  rcases hcheck : checkColumns relation columns with e | u
  · exact ⟨e, rfl⟩
  · exact absurd (checkColumns_eq_ok.1 hcheck column hmem) h

theorem insertAttachment_undefined {column : String} (hmem : column ∈ columns) (h : column ∉ attachmentsColumns) :
    ∃ e, insertAttachment users t columns values now = .error e := by
  obtain ⟨e, he⟩ := checkColumns_undefined (some "attachments") hmem h
  exact ⟨e, by rw [insertAttachment, he]; rfl⟩

theorem selectAttachment_undefined {column : String} (hmem : column ∈ columns) (h : column ∉ attachmentsColumns) :
    ∃ e, selectAttachment t columns id = .error e := by
  obtain ⟨e, he⟩ := checkColumns_undefined none hmem h
  exact ⟨e, by rw [selectAttachment, he]; rfl⟩

end Lumiere.Db
