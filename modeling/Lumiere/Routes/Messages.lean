/-
Reading the messages of a channel (`lumiere-server/src/routes/messages.rs`).

`query_messages` walks the buckets of one of three modes and asks each for as many rows as the page still lacks. The
`LIMIT` is the cast of that number to `i32`. Deleted rows, and rows in which a column of `MsgRow` is null, are dropped
from what a bucket returned.
-/
import Lumiere.Db.Messages
import Lumiere.Models.Error

namespace Lumiere.Routes

open Lumiere.Models Lumiere.Db

structure MsgRow where
  id : ℤ
  channelId : ℤ
  authorId : ℤ
  content : Option String
  type : ℤ
  flags : ℤ
  editedAt : Option ℤ
  pinned : Bool
  mentionEveryone : Bool
  mentions : Option String
  mentionRoles : Option String
  embeds : Option String
  attachments : Option String
  referenceId : Option ℤ
  deleted : Bool
deriving DecidableEq, Repr

/-- the typed row, `none` where a column that is not optional is null -/
def MsgRow.ofRow (channelId : ℤ) (r : MessageRow) : Option MsgRow := do
  return {
    id := r.messageId
    channelId := channelId
    authorId := ← r.authorId
    content := r.content
    type := ← r.type
    flags := ← r.flags
    editedAt := r.editedAt
    pinned := ← r.pinned
    mentionEveryone := ← r.mentionEveryone
    mentions := r.mentions
    mentionRoles := r.mentionRoles
    embeds := r.embeds
    attachments := r.attachments
    referenceId := r.referenceId
    deleted := ← r.deleted }

/-- the row `extract_msg_rows` makes of a stored one, if any -/
def shown (channelId : ℤ) (r : MessageRow) : Option MsgRow :=
  (MsgRow.ofRow channelId r).filter fun m => !m.deleted

def extractMsgRows (channelId : ℤ) (rows : List MessageRow) : List MsgRow := rows.filterMap (shown channelId)

def scyllaErr (e : ScyllaError) : AppError := .internal ("ScyllaDB error: " ++ e.display)

/-- the loop over the buckets; `read b remaining` is the query of bucket `b` -/
def scanBuckets (channelId : ℤ) (limit : ℕ) (read : ℤ → ℤ → Except ScyllaError (List MessageRow)) :
    List ℤ → List MsgRow → Except AppError (List MsgRow)
  | [], results => .ok results
  | b :: buckets, results =>
    if limit ≤ results.length then .ok results
    else
      let remaining := toI32 ((limit - results.length : ℕ) : ℤ)
      match read b remaining with
      | .error e => .error (scyllaErr e)
      | .ok rows => scanBuckets channelId limit read buckets (results ++ extractMsgRows channelId rows)

/-- `now` is the clock that `current_bucket` reads -/
def queryMessages (s : Messages) (now : DateTime) (channelId : ℤ) (before after : Option ℤ) (limit : ℕ) :
    Except AppError (List MsgRow) :=
  match before with
  | some beforeId =>
    let snowflake := Snowflake.ofI64 beforeId
    let startBucket := bucketFromSnowflake snowflake
    let minBucket := max (startBucket - 20) 0
    let buckets := bucketsBefore snowflake minBucket
    scanBuckets channelId limit (fun b remaining => s.getMessagesBefore channelId b beforeId remaining) buckets []
  | none =>
    match after with
    | some afterId =>
      let snowflake := Snowflake.ofI64 afterId
      let startBucket := bucketFromSnowflake snowflake
      let endBucket := bucketFromDatetime now
      scanBuckets channelId limit (fun b remaining => s.getMessagesAfter channelId b afterId remaining)
        (inclusive startBucket endBucket) []
    | none =>
      let current := bucketFromDatetime now
      let minBucket := max (current - 20) 0
      scanBuckets channelId limit (fun b remaining => s.getMessagesLatest channelId b remaining)
        (inclusive minBucket current).reverse []

end Lumiere.Routes
