/-
The search indexer (`workers/search_indexer.rs`). It pulls the events of the MESSAGES stream and keeps a Meilisearch index
of the messages: a new message is added, a deleted one is removed. Meilisearch's own errors are only logged; a payload
that is not JSON ends with an error and is not acknowledged.

- `processMessage`: the effect of one event on the index.
- `contains_iff`: a message is in the index at the end exactly if an event adds it and none after that removes it.
- `stayOut_iff`: deleted messages stay out exactly if no event that adds one is processed after the last that removes it.
- `added_again`: a new message that is delivered again after it has been deleted.
-/
import Lumiere.Core.Json
import Lumiere.Core.Run
import Lumiere.Core.Table
import Lumiere.Models.Snowflake

namespace Lumiere.Workers.SearchIndexer

open Lumiere.Core Lumiere.Models

/-! ## The index -/

structure MessageDocument where
  /-- primary key -/
  id : String
  channelId : String
  serverId : String
  authorId : String
  content : String
  /-- seconds -/
  timestamp : ℤ
deriving DecidableEq, Repr

def MessageDocument.new (id channelId serverId authorId : Snowflake) (content : String) (createdAt : DateTime) :
    MessageDocument where
  id := toString id.value
  channelId := toString channelId.value
  serverId := toString serverId.value
  authorId := toString authorId.value
  content
  timestamp := createdAt.timestamp

abbrev SearchIndex := Table MessageDocument.id

/-- `add_documents`: the document replaces the one with its id -/
def indexMessage (doc : MessageDocument) (search : SearchIndex) : SearchIndex :=
  search.upsert doc (fun d => if d.id = doc.id then doc else d) fun d => by
    split_ifs with h
    · exact h.symm
    · rfl

/-- `delete_document` -/
def deleteMessage (messageId : Snowflake) (search : SearchIndex) : SearchIndex :=
  search.deleteWhere fun d => d.id = toString messageId.value

/-! ## One event -/

/-- the document of a `MESSAGE_CREATE` event; `none` if it is passed over -/
def document (event : Value) : Option MessageDocument := do
  let message ← event.get? "message"
  let content ← (message.field "content").asStr
  if content.isEmpty then none
  else
    let idVal ← (message.field "id").asId
    let channelId := (event.field "channel_id").asI64.getD 0
    let serverId := (event.field "server_id").asI64.getD 0
    let authorId := (message.field "author_id").asId.getD 0
    let snowflake := Snowflake.ofI64 idVal
    some (.new snowflake (.ofI64 channelId) (.ofI64 serverId) (.ofI64 authorId) content snowflake.createdAt)

/-- `as_i64().unwrap_or(0)`, and nothing for 0 -/
def deleteValue (search : SearchIndex) (idVal : Value) : SearchIndex :=
  let mid := idVal.asI64.getD 0
  if mid ≠ 0 then deleteMessage (.ofI64 mid) search else search

def eventType (event : Value) : String := (event.field "type").asStr.getD ""

/-- `none` is the error of a payload that is not JSON -/
def processMessage (payload : Option Value) (search : SearchIndex) : Option SearchIndex :=
  payload.map fun event =>
    if eventType event = "MESSAGE_CREATE" then (document event).elim search fun doc => indexMessage doc search
    -- the document stays as it is
    else if eventType event = "MESSAGE_UPDATE" then search
    else if eventType event = "MESSAGE_DELETE" then deleteValue search (event.field "message_id")
    else if eventType event = "MESSAGE_DELETE_BULK" then
      ((event.field "ids").asArray.getD []).foldl deleteValue search
    else search

/-! ## What is claimed, and of which deliveries -/

variable (stream : ℕ → Option Value)

/-- the event at a position is processed, for the first time or again -/
def process (search : SearchIndex) (n : ℕ) : SearchIndex := (processMessage (stream n) search).getD search

def contains (search : SearchIndex) (messageId : Snowflake) : Bool :=
  (search.find? fun d => d.id = toString messageId.value).isSome

/-- the message that an event is to add: one with text -/
def added (event : Value) : Option Snowflake :=
  if eventType event = "MESSAGE_CREATE" then
    (event.get? "message").bind fun message =>
      if (message.field "content").asStr.any fun content => !content.isEmpty then
        (message.field "id").asId.map Snowflake.ofI64
      else none
  else none

/-- what stands for the ids in an event about deletions -/
def deletedValues (event : Value) : List Value :=
  if eventType event = "MESSAGE_DELETE" then [event.field "message_id"]
  else if eventType event = "MESSAGE_DELETE_BULK" then (event.field "ids").asArray.getD []
  else []

/-- the messages that are deleted, each a number or the text of one -/
def deleted (event : Value) : List Snowflake := (deletedValues event).filterMap fun v => v.asId.map .ofI64

/-- those given as a number other than 0 -/
def removed (event : Value) : List Snowflake :=
  (deletedValues event).filterMap fun v => (v.asI64.filter (· ≠ 0)).map .ofI64

/-- some event of a message that is deleted has been processed -/
def Deleted (deliveries : List ℕ) (messageId : Snowflake) : Prop :=
  ∃ n ∈ deliveries, ∃ event ∈ stream n, messageId ∈ deleted event

/-- no deleted message is in the index -/
def StayOut (deliveries : List ℕ) (search : SearchIndex) : Prop :=
  ∀ messageId, Deleted stream deliveries messageId → contains search messageId = false

/-- an event that adds a deleted message is followed by one that removes it -/
def RemovedAfter (deliveries : List ℕ) : Prop :=
  ∀ messageId, Deleted stream deliveries messageId → ∀ earlier n later, deliveries = earlier ++ n :: later →
    (∃ event ∈ stream n, added event = some messageId) → ∃ m ∈ later, ∃ event ∈ stream m, messageId ∈ removed event

/-! ## Documents and ids -/

/-- a document has the id of the message -/
theorem map_id_document (event : Value) (h : eventType event = "MESSAGE_CREATE") :
    (document event).map MessageDocument.id = (added event).map fun id => toString id.value := by
  unfold document added
  rw [if_pos h]
  rcases event.get? "message" with _ | message
  · rfl
  rcases hcontent : (message.field "content").asStr with _ | content
  · simp [hcontent]
  by_cases hempty : content = ""
  · simp [hcontent, hempty]
  · rcases hid : (message.field "id").asId with _ | id
    · simp [hcontent, hid]
    · simp [hcontent, hid, hempty, MessageDocument.new]

theorem contains_indexMessage (doc : MessageDocument) (search : SearchIndex) (id : Snowflake) :
    contains (indexMessage doc search) id = true ↔ doc.id = toString id.value ∨ contains search id = true := by
  rw [contains, indexMessage, Table.find?_upsert]
  split_ifs with h
  · simp [h]
  · simp [h, contains]

theorem contains_deleteMessage (messageId : Snowflake) (search : SearchIndex) (id : Snowflake) :
    contains (deleteMessage messageId search) id = true ↔ contains search id = true ∧ id ≠ messageId := by
  simp only [contains, Option.isSome_iff_exists, Table.find?_key, deleteMessage, Table.mem_deleteWhere,
    decide_eq_false_iff_not]
  constructor
  · rintro ⟨d, ⟨hd, hne⟩, hid⟩
    refine ⟨⟨d, hd, hid⟩, ?_⟩
    rintro rfl
    exact hne hid
  · rintro ⟨⟨d, hd, hid⟩, hne⟩
    exact ⟨d, ⟨hd, fun h => hne (toString_value_inj.1 (hid.symm.trans h))⟩, hid⟩

theorem contains_deleteValue (search : SearchIndex) (v : Value) (id : Snowflake) :
    contains (deleteValue search v) id = true ↔
      contains search id = true ∧ (v.asI64.filter (· ≠ 0)).map Snowflake.ofI64 ≠ some id := by
  unfold deleteValue
  rcases hv : v.asI64 with _ | mid
  · simp
  · by_cases hmid : mid = 0
    · simp [hmid]
    · have hfilter : (some mid).filter (fun n => decide (n ≠ 0)) = some mid :=
        Option.filter_some_pos (decide_eq_true hmid)
      rw [Option.getD_some, if_pos hmid, contains_deleteMessage, hfilter, Option.map_some, ne_comm]
      simp

/-- the loop over the ids -/
theorem contains_foldl_deleteValue (vs : List Value) (search : SearchIndex) (id : Snowflake) :
    contains (vs.foldl deleteValue search) id = true ↔ contains search id = true ∧
      id ∉ vs.filterMap fun v => (v.asI64.filter (· ≠ 0)).map .ofI64 := by
  induction vs generalizing search with
  | nil => simp
  | cons v vs ih =>
    rw [List.foldl_cons, ih, contains_deleteValue, and_assoc]
    refine and_congr_right fun _ => ?_
    simp only [List.mem_filterMap, List.mem_cons, exists_eq_or_imp, not_or]

/-! ## One event, and a run -/

/-- the two kinds of deletions are one -/
theorem processMessage_some (event : Value) (search : SearchIndex) :
    processMessage (some event) search =
      if eventType event = "MESSAGE_CREATE" then some ((document event).elim search fun doc => indexMessage doc search)
      else some ((deletedValues event).foldl deleteValue search) := by
  unfold processMessage deletedValues
  rw [Option.map_some]
  split_ifs with hcreate hupdate hdelete hbulk
  · rfl
  · rw [hupdate] at hdelete
    exact absurd hdelete (by decide)
  · rw [hupdate] at hbulk
    exact absurd hbulk (by decide)
  all_goals rfl

theorem contains_process (search : SearchIndex) (n : ℕ) (id : Snowflake) :
    contains (process stream search n) id = true ↔ (∃ event ∈ stream n, added event = some id) ∨
      contains search id = true ∧ ¬ ∃ event ∈ stream n, id ∈ removed event := by
  unfold process
  rcases stream n with _ | event
  · simp [processMessage]
  rw [processMessage_some]
  by_cases hcreate : eventType event = "MESSAGE_CREATE"
  · have hremoved : removed event = [] := by simp [removed, deletedValues, hcreate]
    have hid := map_id_document event hcreate
    rw [if_pos hcreate, Option.getD_some]
    rcases hdoc : document event with _ | doc
    · rw [hdoc, Option.map_none, eq_comm, Option.map_eq_none_iff] at hid
      simp [hid, hremoved]
    · rw [hdoc, Option.map_some, eq_comm, Option.map_eq_some_iff] at hid
      obtain ⟨messageId, hadded, hid⟩ := hid
      simp [hadded, hremoved, contains_indexMessage, ← hid, toString_value_inj]
  · have hadded : added event = none := by rw [added, if_neg hcreate]
    rw [if_neg hcreate, Option.getD_some, contains_foldl_deleteValue]
    simp [hadded, removed]

/-- **The last event about a message decides.** It is in the index exactly if an event adds it and none after that
removes it. -/
theorem contains_iff (deliveries : List ℕ) (id : Snowflake) :
    contains (run (process stream) .empty deliveries) id = true ↔ ∃ earlier n later, deliveries = earlier ++ n :: later ∧
      (∃ event ∈ stream n, added event = some id) ∧ ∀ m ∈ later, ¬ ∃ event ∈ stream m, id ∈ removed event := by
  have hempty : ¬ contains .empty id = true := Bool.false_ne_true
  exact run_last_iff (Q := fun search => contains search id = true)
    (fun search n => contains_process stream search n id) hempty deliveries

/-- **Deleted messages stay out of the index exactly if they are removed after they were added.** Events are processed
in any order, each any number of times. -/
theorem stayOut_iff (deliveries : List ℕ) :
    StayOut stream deliveries (run (process stream) .empty deliveries) ↔ RemovedAfter stream deliveries := by
  refine forall₂_congr fun id _ => ?_
  rw [Bool.eq_false_iff, ne_eq, contains_iff]
  constructor
  · intro hnot earlier n later hdeliveries hadded
    by_contra hnone
    exact hnot ⟨earlier, n, later, hdeliveries, hadded, fun m hm hremoved => hnone ⟨m, hm, hremoved⟩⟩
  · rintro hafter ⟨earlier, n, later, hdeliveries, hadded, hnone⟩
    obtain ⟨m, hm, hremoved⟩ := hafter earlier n later hdeliveries hadded
    exact hnone m hm hremoved

/-- message 7 is written in channel 101 of server 100, and deleted -/
def written : List Value := [
  .object [("type", .string "MESSAGE_CREATE"), ("channel_id", .int 101), ("server_id", .int 100),
    ("message", .object [("id", .string "7"), ("author_id", .string "1"), ("content", .string "hello")])],
  .object [("type", .string "MESSAGE_DELETE"), ("channel_id", .int 101), ("message_id", .int 7)]]

/-- the acknowledgement of the first event is lost, and it comes again after the second -/
def addedAgain : List ℕ := [0, 1, 0]

theorem added_again : (∀ n < written.length, n ∈ addedAgain) ∧
    ¬ StayOut (written[·]?) addedAgain (run (process (written[·]?)) .empty addedAgain) := by
  refine ⟨by decide, fun h => ?_⟩
  have hdeleted : Deleted (written[·]?) addedAgain (.ofI64 7) := ⟨1, by decide, written[1], rfl, by decide⟩
  exact absurd (h _ hdeleted) (by decide)

end Lumiere.Workers.SearchIndexer
