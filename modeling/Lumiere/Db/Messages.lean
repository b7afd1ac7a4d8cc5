/-
The message table (`migrations/scylla/001_initial.cql`) with its prepared reads (`lumiere-db/src/lib.rs`) and the write
that all its prepared writes are cases of.

A partition is the rows of one channel and bucket, kept in clustering order: newest id first, no id twice. Every column
outside the key may be null. `reactions` and `reference_channel_id` are in no read and are left out.
-/
import Lumiere.Models.Bucket

namespace Lumiere.Db

structure MessageRow where
  messageId : ℤ
  authorId : Option ℤ
  content : Option String
  type : Option ℤ
  flags : Option ℤ
  editedAt : Option ℤ
  pinned : Option Bool
  mentionEveryone : Option Bool
  mentions : Option String
  mentionRoles : Option String
  embeds : Option String
  attachments : Option String
  referenceId : Option ℤ
  deleted : Option Bool
deriving DecidableEq, Repr

structure Messages where
  partition : ℤ → ℤ → List MessageRow
  sorted : ∀ c b, (partition c b).Pairwise fun x y => y.messageId < x.messageId

/-- an error of the driver, as displayed -/
structure ScyllaError where
  display : String
deriving DecidableEq, Repr

/-- `LIMIT ?`, refused unless positive -/
def limited (limit : ℤ) (rows : List MessageRow) : Except ScyllaError (List MessageRow) :=
  if 0 < limit then .ok (rows.take limit.toNat) else .error ⟨"LIMIT must be strictly positive"⟩

namespace Messages

variable (s : Messages) (channelId bucket : ℤ)

def getMessagesBefore (before limit : ℤ) : Except ScyllaError (List MessageRow) :=
  limited limit ((s.partition channelId bucket).filter fun r => r.messageId < before)

def getMessagesAfter (after limit : ℤ) : Except ScyllaError (List MessageRow) :=
  limited limit ((s.partition channelId bucket).reverse.filter fun r => after < r.messageId)

def getMessagesLatest (limit : ℤ) : Except ScyllaError (List MessageRow) :=
  limited limit (s.partition channelId bucket)

/-- the row of one message -/
def find? (messageId : ℤ) : Option MessageRow := (s.partition channelId bucket).find? fun r => r.messageId = messageId

end Messages

/-! ## Writes -/

/-- a row of which only the key is set -/
def MessageRow.blank (messageId : ℤ) : MessageRow :=
  { messageId, authorId := none, content := none, type := none, flags := none, editedAt := none, pinned := none,
    mentionEveryone := none, mentions := none, mentionRoles := none, embeds := none, attachments := none,
    referenceId := none, deleted := none }

/-- an INSERT or UPDATE sets columns of a row and makes the row if there is none -/
def upsertRow (messageId : ℤ) (f : MessageRow → MessageRow) : List MessageRow → List MessageRow
  | [] => [f (.blank messageId)]
  | r :: rs =>
    if r.messageId = messageId then f r :: rs
    else if r.messageId < messageId then f (.blank messageId) :: r :: rs
    else r :: upsertRow messageId f rs

section Upsert

variable {messageId : ℤ} {f : MessageRow → MessageRow} (hf : ∀ r, (f r).messageId = r.messageId)

include hf

theorem id_of_mem_upsertRow {rows : List MessageRow} {x : MessageRow} (hx : x ∈ upsertRow messageId f rows) :
    x.messageId = messageId ∨ x ∈ rows := by
  induction rows with
  | nil =>
    obtain rfl := List.mem_singleton.1 hx
    exact .inl (hf _)
  | cons r rs ih =>
    rw [upsertRow] at hx
    split_ifs at hx with heq hlt
    · rcases List.mem_cons.1 hx with rfl | hx
      · exact .inl ((hf r).trans heq)
      · exact .inr (List.mem_cons_of_mem r hx)
    · rcases List.mem_cons.1 hx with rfl | hx
      · exact .inl (hf _)
      · exact .inr hx
    · rcases List.mem_cons.1 hx with rfl | hx
      · exact .inr List.mem_cons_self
      · exact (ih hx).imp_right (List.mem_cons_of_mem r)

theorem upsertRow_sorted {rows : List MessageRow} (h : rows.Pairwise fun x y => y.messageId < x.messageId) :
    (upsertRow messageId f rows).Pairwise fun x y => y.messageId < x.messageId := by
  induction rows with
  | nil => exact List.pairwise_singleton _ _
  | cons r rs ih =>
    obtain ⟨hr, hrs⟩ := List.pairwise_cons.1 h
    rw [upsertRow]
    split_ifs with heq hlt
    · refine List.pairwise_cons.2 ⟨fun x hx => ?_, hrs⟩
      rw [hf]
      exact hr x hx
    · refine List.pairwise_cons.2 ⟨fun x hx => ?_, h⟩
      rw [hf]
      rcases List.mem_cons.1 hx with rfl | hx
      · exact hlt
      · exact (hr x hx).trans hlt
    · refine List.pairwise_cons.2 ⟨fun x hx => ?_, ih hrs⟩
      rcases id_of_mem_upsertRow hf hx with hid | hx
      · omega
      · exact hr x hx

/-- the row that was written is found, made from the row that was there or from a blank one -/
theorem find?_upsertRow {rows : List MessageRow} (h : rows.Pairwise fun x y => y.messageId < x.messageId) (id : ℤ) :
    (upsertRow messageId f rows).find? (fun r => r.messageId = id) =
      if id = messageId then some (f ((rows.find? fun r => r.messageId = messageId).getD (.blank messageId)))
      else rows.find? fun r => r.messageId = id := by
  have hblank : (f (.blank messageId)).messageId = messageId := hf _
  induction rows with
  | nil =>
    by_cases hid : id = messageId
    · simp [upsertRow, hblank, hid]
    · simp [upsertRow, hblank, hid, Ne.symm hid]
  | cons r rs ih =>
    obtain ⟨hr, hrs⟩ := List.pairwise_cons.1 h
    rw [upsertRow]
    by_cases heq : r.messageId = messageId
    · have hrow := (hf r).trans heq
      rw [if_pos heq]
      by_cases hid : id = messageId
      · simp [hid, heq, hrow]
      · simp [hid, heq, hrow, Ne.symm hid]
    rw [if_neg heq]
    by_cases hlt : r.messageId < messageId
    · -- all rows from here on are older
      have hnone : (r :: rs).find? (fun x => decide (x.messageId = messageId)) = none := by
        rw [List.find?_eq_none]
        intro x hx
        rcases List.mem_cons.1 hx with rfl | hx
        · simpa using heq
        · have hx := hr x hx
          simp only [decide_eq_true_eq]
          omega
      rw [if_pos hlt, hnone]
      by_cases hid : id = messageId
      · simp [hid, hblank]
      · rw [if_neg hid, List.find?_cons_of_neg (by simpa [hblank] using Ne.symm hid)]
    · rw [if_neg hlt, List.find?_cons, ih hrs]
      by_cases hid : id = messageId
      · simp [hid, heq]
      · rw [if_neg hid, if_neg hid, List.find?_cons]

end Upsert

/-- `f` keeps the key -/
def Messages.upsert (s : Messages) (channelId bucket messageId : ℤ) (f : MessageRow → MessageRow)
    (hf : ∀ r, (f r).messageId = r.messageId) : Messages where
  partition c b := if c = channelId ∧ b = bucket then upsertRow messageId f (s.partition c b) else s.partition c b
  sorted c b := by
    split_ifs
    · exact upsertRow_sorted hf (s.sorted c b)
    · exact s.sorted c b

/-- a write shows at its own key only -/
theorem Messages.find?_upsert {s : Messages} {channelId bucket messageId : ℤ} {f : MessageRow → MessageRow}
    (hf : ∀ r, (f r).messageId = r.messageId) (c b id : ℤ) :
    (s.upsert channelId bucket messageId f hf).find? c b id =
      if c = channelId ∧ b = bucket ∧ id = messageId then
        some (f ((s.find? channelId bucket messageId).getD (.blank messageId)))
      else s.find? c b id := by
  rw [find?, upsert]
  by_cases hplace : c = channelId ∧ b = bucket
  · obtain ⟨rfl, rfl⟩ := hplace
    simp only [true_and, if_true]
    exact find?_upsertRow hf (s.sorted c b) id
  · have hkey : ¬ (c = channelId ∧ b = bucket ∧ id = messageId) := fun h => hplace ⟨h.1, h.2.1⟩
    simp only [if_neg hplace, if_neg hkey]
    rfl

/-- each row of the channel sits in the bucket of its id -/
def Messages.Placed (s : Messages) (channelId : ℤ) : Prop :=
  ∀ b, ∀ r ∈ s.partition channelId b, b = Models.bucketOfId r.messageId

end Lumiere.Db
