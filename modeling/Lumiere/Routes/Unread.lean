/-
Unread counters from end to end: the read-state worker counts in PostgreSQL, `ack_message` and `get_unread`
(`routes/typing.rs`) use the table of the same name in ScyllaDB.

- `ackMessage`, `getUnread`: the two handlers; `getUnread` reads the first 1000 rows of the user by channel.
- `Expected`: what the events and the acknowledgements of a run amount to.
- `Reported`: the count is that of the mentions since the last acknowledgement, and the last message is covered.
- `reported_iff`: this holds exactly if nothing has been mentioned since, and the last message was acknowledged.
- `unreported`: a mention that no reader sees.
-/
import Lumiere.Routes.ChannelAccess
import Lumiere.Workers.ReadState

namespace Lumiere.Routes

open Lumiere.Core Lumiere.Core.Prog Lumiere.Models Lumiere.Db Lumiere.Workers

/-! ## The stores -/

/-- `read_states` in ScyllaDB -/
structure ReadRow where
  userId : ℤ
  channelId : ℤ
  lastMessageId : ℤ
  mentionCount : ℤ
  updatedAt : ℤ
deriving DecidableEq, Repr

abbrev ReadRows := Table fun r : ReadRow => (r.userId, r.channelId)

/-- a `MESSAGE_ACK` on the subject of the user -/
structure AckEvent where
  userId : ℤ
  channelId : ℤ
  messageId : ℤ
deriving DecidableEq, Repr

structure Inbox where
  /-- PostgreSQL, as the worker sees it -/
  worker : ReadDb
  rows : ReadRows
  published : List AckEvent

inductive InboxWrite where
  | sql (w : Sql)
  /-- `INSERT INTO read_states (...) VALUES (?, ?, ?, 0, ?)` -/
  | upsertReadState (userId channelId messageId updatedAt : ℤ)
  | publish (e : AckEvent)
deriving DecidableEq, Repr

def setReadRow (t : ReadRows) (userId channelId messageId updatedAt : ℤ) : ReadRows :=
  t.upsert ⟨userId, channelId, messageId, 0, updatedAt⟩
    (fun r => { r with lastMessageId := messageId, mentionCount := 0, updatedAt }) fun _ => rfl

def InboxWrite.exec : InboxWrite → Inbox → Except AppError (ℕ × Inbox)
  | .sql w, s => (statement w s.worker.pg).map fun r => (r.1, { s with worker := { s.worker with pg := r.2 } })
  | .upsertReadState userId channelId messageId updatedAt, s =>
    .ok (0, { s with rows := setReadRow s.rows userId channelId messageId updatedAt })
  | .publish e, s => .ok (0, { s with published := s.published ++ [e] })

/-! ## The handlers -/

def ackMessage (auth channelId messageId : ℤ) (now : DateTime) : Prog Inbox InboxWrite AppError Unit := do
  let _ ← (checkChannelPermission channelId auth .viewChannel).lift (fun s => s.worker.pg) InboxWrite.sql
  execute (.upsertReadState auth channelId messageId now.millis)
  execute (.publish ⟨auth, channelId, messageId⟩)

structure UnreadInfo where
  channelId : ℤ
  lastMessageId : Option ℤ
  mentionCount : ℤ
deriving DecidableEq, Repr

/-- `SELECT ... FROM read_states WHERE user_id = ? LIMIT 1000`, in the order of the channels -/
def readRows (t : ReadRows) (userId : ℤ) : List ReadRow :=
  ((t.select fun r => r.userId = userId).insertionSort fun a b => a.channelId ≤ b.channelId).take 1000

def getUnread (s : Inbox) (auth : ℤ) : List UnreadInfo :=
  (readRows s.rows auth).map fun r => ⟨r.channelId, some r.lastMessageId, r.mentionCount⟩

/-! ## Events and acknowledgements -/

inductive InboxOp where
  /-- an event that the worker processes completely -/
  | event (order : Order) (payload : Value)
  | ack (auth channelId messageId : ℤ) (now : DateTime)

def inboxStep (s : Inbox) : InboxOp → Inbox
  | .event order payload => { s with worker := ((processMessage order none (some payload)).run Upsert.exec s.worker).2 }
  | .ack auth channelId messageId now => ((ackMessage auth channelId messageId now).run InboxWrite.exec s).2

def noReads (pg : Postgres) : Inbox := ⟨⟨pg, .empty⟩, .empty, []⟩

/-- what has happened to a user in a channel: the last acknowledgement, the mentions since and the last message -/
structure Expected where
  acked : Option ℤ
  mentions : ℕ
  processed : Option ℤ
deriving DecidableEq, Repr

def Expected.next (pg : Postgres) (userId channelId : ℤ) (x : Expected) : InboxOp → Expected
  | .event _ payload =>
    match notice pg userId channelId (some payload) with
    | some r => { x with
        mentions := x.mentions + if r.mentions userId then 1 else 0
        processed := some r.messageId }
    | none => x
  | .ack auth channel messageId _ =>
    if (auth = userId ∧ channel = channelId) ∧ (checkChannelPermission channel auth .viewChannel).succeeds statement pg then
      { x with acked := some messageId, mentions := 0 }
    else x

def expected (pg : Postgres) (userId channelId : ℤ) (ops : List InboxOp) : Expected :=
  Core.run (Expected.next pg userId channelId) ⟨none, 0, none⟩ ops

/-- what `get_unread` says of a channel -/
def unread (s : Inbox) (userId channelId : ℤ) : Option UnreadInfo :=
  (getUnread s userId).find? fun info => info.channelId = channelId

structure Reported (userId channelId : ℤ) (x : Expected) (s : Inbox) : Prop where
  count : ((unread s userId channelId).map UnreadInfo.mentionCount).getD 0 = x.mentions
  last : ∀ m ∈ x.processed, ∃ info ∈ unread s userId channelId, ∃ last ∈ info.lastMessageId, m ≤ last

/-! ## The rows that are read -/

theorem find?_take {α : Type} {f : α → ℤ} {l : List α} (h : l.Pairwise fun a b => f a < f b) (c : ℤ) (k : ℕ) :
    (l.take k).find? (fun a => f a = c) =
      (l.find? fun a => f a = c).filter fun _ => l.countP (fun a => f a < c) < k := by
  induction l generalizing k with
  | nil => simp
  | cons a l ih =>
    obtain ⟨hlt, hl⟩ := List.pairwise_cons.1 h
    cases k with
    | zero => simp
    | succ k =>
      rw [List.take_succ_cons, List.find?_cons, List.find?_cons]
      by_cases ha : f a = c
      · have hzero : l.countP (fun b => f b < c) = 0 :=
          List.countP_eq_zero.2 fun b hb => by simpa [← ha] using (hlt b hb).le
        have hcount : (a :: l).countP (fun b => f b < c) = 0 := by
          rw [List.countP_cons, hzero]
          simp [ha]
        rw [hcount, decide_eq_true ha]
        rfl
      · simp only [decide_eq_false ha, ih hl]
        rcases lt_or_gt_of_ne ha with hless | hmore
        · simp [hless]
        · have hnone : l.find? (fun b => decide (f b = c)) = none :=
            List.find?_eq_none.2 fun b hb => by simpa using (hmore.trans (hlt b hb)).ne'
          rw [hnone]
          rfl

variable {t : ReadRows} {userId channelId : ℤ}

def readRow? (t : ReadRows) (userId channelId : ℤ) : Option ReadRow :=
  t.find? fun r => (r.userId, r.channelId) = (userId, channelId)

/-- the rows of the user in channels with smaller ids -/
def earlier (t : ReadRows) (userId channelId : ℤ) : ℕ := t.count fun r => r.userId = userId && r.channelId < channelId

/-- the order of the rows of one user -/
def ByChannel (a b : ReadRow) : Prop := a.channelId ≤ b.channelId

instance : DecidableRel ByChannel := fun a b => inferInstanceAs (Decidable (a.channelId ≤ b.channelId))

instance : Std.Total ByChannel := ⟨fun a b => le_total a.channelId b.channelId⟩

instance : IsTrans ReadRow ByChannel := ⟨fun _ _ _ => le_trans⟩

theorem nodup_select (t : ReadRows) (userId : ℤ) :
    ((t.select fun r => r.userId = userId).map ReadRow.channelId).Nodup :=
  Table.nodup_map_select (fun c => (userId, c)) fun r _ hr => by rw [← of_decide_eq_true hr]

theorem pairwise_rows (t : ReadRows) (userId : ℤ) :
    ((t.select fun r => r.userId = userId).insertionSort fun a b => a.channelId ≤ b.channelId).Pairwise
      fun a b => a.channelId < b.channelId := by
  have hle := List.pairwise_insertionSort ByChannel (t.select fun r => r.userId = userId)
  have hne := ((List.perm_insertionSort ByChannel (t.select fun r => r.userId = userId)).map
    ReadRow.channelId).nodup_iff.2 (nodup_select t userId)
  exact (hle.and (List.pairwise_map.1 hne)).imp fun h => lt_of_le_of_ne h.1 h.2

/-- **A row is read if fewer than 1000 rows of the user come before it.** -/
theorem unread_eq (s : Inbox) (userId channelId : ℤ) : unread s userId channelId =
    ((readRow? s.rows userId channelId).filter fun _ => earlier s.rows userId channelId < 1000).map fun r =>
      ⟨r.channelId, some r.lastMessageId, r.mentionCount⟩ := by
  have hperm := List.perm_insertionSort ByChannel (s.rows.select fun r => r.userId = userId)
  have hcount : (((s.rows.select fun r => r.userId = userId).insertionSort ByChannel).countP fun r =>
      r.channelId < channelId) = earlier s.rows userId channelId := by
    rw [hperm.countP_eq, Table.select, List.countP_filter, earlier, Table.count]
    exact List.countP_congr fun r _ => by simp [and_comm]
  have hfind : (((s.rows.select fun r => r.userId = userId).insertionSort ByChannel).find? fun r =>
      r.channelId = channelId) = readRow? s.rows userId channelId := by
    rcases hrow : readRow? s.rows userId channelId with _ | r
    · refine List.find?_eq_none.2 fun r hr => ?_
      obtain ⟨hmem, huser⟩ := Table.mem_select.1 (hperm.mem_iff.1 hr)
      have hkey := Table.find?_eq_none.1 hrow r hmem
      simp only [of_decide_eq_true huser, Prod.mk.injEq, true_and] at hkey
      simpa using hkey
    · obtain ⟨hmem, hkey⟩ := Table.find?_key.1 hrow
      obtain ⟨huser, hchannel⟩ := Prod.mk.inj hkey
      have hr : r ∈ (s.rows.select fun r => r.userId = userId).insertionSort ByChannel :=
        hperm.mem_iff.2 (Table.mem_select.2 ⟨hmem, decide_eq_true huser⟩)
      obtain ⟨r', hr'⟩ := Option.isSome_iff_exists.1
        (List.find?_isSome (p := fun r : ReadRow => decide (r.channelId = channelId)).2
        ⟨r, hr, decide_eq_true hchannel⟩)
      obtain ⟨hmem', huser'⟩ := Table.mem_select.1 (hperm.mem_iff.1 (List.mem_of_find?_eq_some hr'))
      have hchannel' : decide (r'.channelId = channelId) = true :=
        List.find?_some (p := fun r : ReadRow => decide (r.channelId = channelId)) hr'
      rw [hr', Table.eq_of_key_eq hmem' hmem]
      rw [of_decide_eq_true huser', of_decide_eq_true hchannel', huser, hchannel]
  unfold unread getUnread readRows
  rw [List.find?_map]
  refine congrArg (Option.map _) ((find?_take (pairwise_rows s.rows userId) channelId 1000).trans ?_)
  exact (congrArg (fun n => Option.filter (fun _ => decide (n < 1000)) _) hcount).trans (congrArg _ hfind)

/-! ## Runs -/

variable {pg : Postgres} {x : Expected} {s : Inbox} {o : InboxOp}

/-- the worker has not been here -/
structure Agrees (pg : Postgres) (userId channelId : ℤ) (x : Expected) (s : Inbox) : Prop where
  fixed : s.worker.pg = pg
  row : (readRow? s.rows userId channelId).map (fun r => (r.channelId, r.lastMessageId, r.mentionCount)) =
    x.acked.map fun a => (channelId, a, 0)

theorem readRow?_setReadRow (t : ReadRows) (auth channel messageId updatedAt : ℤ) :
    readRow? (setReadRow t auth channel messageId updatedAt) userId channelId =
      if (auth, channel) = (userId, channelId) then
        some ((readRow? t userId channelId).elim ⟨auth, channel, messageId, 0, updatedAt⟩ fun r =>
          { r with lastMessageId := messageId, mentionCount := 0, updatedAt })
      else readRow? t userId channelId :=
  Table.find?_upsert _ _

theorem run_onInbox {α : Type} (h : Handler α) (s : Inbox) :
    (h.lift (fun s : Inbox => s.worker.pg) InboxWrite.sql).run InboxWrite.exec s =
      ((h.run statement s.worker.pg).1, { s with worker := { s.worker with pg := (h.run statement s.worker.pg).2 } }) :=
  run_lift (u := fun s pg => { s with worker := { s.worker with pg } }) (fun _ _ => rfl) (fun _ => rfl)
    (fun _ _ _ => rfl) (fun _ _ => rfl) h s

/-- what an acknowledgement does: its row is set if the permission is there -/
theorem ack_rows (s : Inbox) (auth channel messageId : ℤ) (now : DateTime) :
    (inboxStep s (.ack auth channel messageId now)).worker = s.worker ∧
      (inboxStep s (.ack auth channel messageId now)).rows =
        if (checkChannelPermission channel auth .viewChannel).succeeds statement s.worker.pg then
          setReadRow s.rows auth channel messageId now.millis
        else s.rows := by
  rw [inboxStep, ackMessage, run_bind, run_onInbox, run_readOnly readOnly_checkChannelPermission, Prog.succeeds]
  rcases ((checkChannelPermission channel auth .viewChannel).run statement s.worker.pg).1 with e | sid <;> exact ⟨rfl, rfl⟩

theorem agrees_next (h : Agrees pg userId channelId x s) (o : InboxOp) :
    Agrees pg userId channelId (x.next pg userId channelId o) (inboxStep s o) := by
  cases o with
  | event order payload =>
    obtain ⟨res, hrun, -⟩ := run_program (fun _ => some payload) ⟨0, order, none⟩ s.worker
    have hworker : (inboxStep s (.event order payload)).worker.pg = s.worker.pg := by
      rw [inboxStep, show processMessage order none (some payload) =
        (⟨0, order, none⟩ : Attempt).program (fun _ => some payload) from rfl, hrun]
    refine ⟨hworker.trans h.fixed, h.row.trans ?_⟩
    rw [Expected.next]
    cases notice pg userId channelId (some payload) <;> rfl
  | ack auth channel messageId now =>
    obtain ⟨hworker, hrows⟩ := ack_rows s auth channel messageId now
    refine ⟨(congrArg ReadDb.pg hworker).trans h.fixed, ?_⟩
    rw [hrows, h.fixed, Expected.next]
    by_cases hok : (checkChannelPermission channel auth .viewChannel).succeeds statement pg = true
    · rw [if_pos hok, readRow?_setReadRow]
      by_cases hkey : auth = userId ∧ channel = channelId
      · obtain ⟨rfl, rfl⟩ := hkey
        rw [if_pos rfl, if_pos ⟨⟨rfl, rfl⟩, hok⟩]
        rcases hrow : readRow? s.rows auth channel with _ | r
        · rfl
        · rw [← (Prod.mk.inj (Table.find?_key.1 hrow).2).2]
          rfl
      · rw [if_neg fun hk => hkey (Prod.mk.inj hk), if_neg fun hk => hkey hk.1]
        exact h.row
    · rw [if_neg hok, if_neg fun hk => hok hk.2]
      exact h.row

/-- **What the worker counts reaches a reader exactly if there is nothing to report.** After any events and
acknowledgements, the count and the last message are right if and only if no mention came after the last acknowledgement,
and the last message is covered by one whose row is among the first 1000. -/
theorem reported_iff (pg : Postgres) (userId channelId : ℤ) (ops : List InboxOp) :
    Reported userId channelId (expected pg userId channelId ops) (Core.run inboxStep (noReads pg) ops) ↔
      (expected pg userId channelId ops).mentions = 0 ∧
        ∀ m ∈ (expected pg userId channelId ops).processed, ∃ a ∈ (expected pg userId channelId ops).acked, m ≤ a ∧
          earlier (Core.run inboxStep (noReads pg) ops).rows userId channelId < 1000 := by
  have hagrees : ∀ (ops : List InboxOp) x s, Agrees pg userId channelId x s →
      Agrees pg userId channelId (Core.run (Expected.next pg userId channelId) x ops) (Core.run inboxStep s ops) := by
    intro ops
    induction ops with
    | nil => exact fun x s h => h
    | cons o ops ih => exact fun x s h => ih _ _ (agrees_next h o)
  have hrow := (hagrees ops ⟨none, 0, none⟩ (noReads pg) ⟨rfl, rfl⟩).row
  rw [← expected] at hrow
  generalize expected pg userId channelId ops = x at hrow ⊢
  generalize Core.run inboxStep (noReads pg) ops = s at hrow ⊢
  have hunread : (unread s userId channelId).map (fun info => (info.lastMessageId, info.mentionCount)) =
      (x.acked.filter fun _ => earlier s.rows userId channelId < 1000).map fun a => (some a, 0) := by
    rw [unread_eq]
    generalize readRow? s.rows userId channelId = row at hrow ⊢
    generalize x.acked = acked at hrow ⊢
    rcases row with _ | r <;> rcases acked with _ | a <;>
      simp only [Option.map_none, Option.map_some, reduceCtorEq, Option.some.injEq, Prod.mk.injEq] at hrow
    · rfl
    · obtain ⟨-, rfl, hzero⟩ := hrow
      rw [Option.filter_some, Option.filter_some]
      split_ifs
      · rw [Option.map_some, Option.map_some, Option.map_some, hzero]
      · rfl
  have hcount : ((unread s userId channelId).map UnreadInfo.mentionCount).getD 0 = 0 := by
    rcases hinfo : unread s userId channelId with _ | info
    · rfl
    · rw [hinfo, Option.map_some] at hunread
      obtain ⟨a, -, ha⟩ := Option.map_eq_some_iff.1 hunread.symm
      exact (Prod.mk.inj ha).2.symm
  have hlast : ∀ m, (∃ info ∈ unread s userId channelId, ∃ last ∈ info.lastMessageId, m ≤ last) ↔
      ∃ a ∈ x.acked, m ≤ a ∧ earlier s.rows userId channelId < 1000 := by
    intro m
    constructor
    · rintro ⟨info, hinfo, last, hl, hle⟩
      rw [hinfo, Option.map_some] at hunread
      obtain ⟨a, hacked, ha⟩ := Option.map_eq_some_iff.1 hunread.symm
      obtain ⟨hacked, hfirst⟩ := Option.filter_eq_some_iff.1 hacked
      obtain rfl : a = last := Option.some.inj ((Prod.mk.inj ha).1.trans hl)
      exact ⟨a, hacked, hle, of_decide_eq_true hfirst⟩
    · rintro ⟨a, hacked, hle, hfirst⟩
      rw [hacked, Option.filter_some, if_pos (decide_eq_true hfirst), Option.map_some] at hunread
      obtain ⟨info, hinfo, hl⟩ := Option.map_eq_some_iff.1 hunread
      exact ⟨info, hinfo, a, (Prod.mk.inj hl).1, hle⟩
  constructor
  · rintro ⟨hmentions, hprocessed⟩
    exact ⟨by exact_mod_cast (hcount.symm.trans hmentions).symm, fun m hm => (hlast m).1 (hprocessed m hm)⟩
  · rintro ⟨hmentions, hprocessed⟩
    exact ⟨hcount.trans (by rw [hmentions]; rfl), fun m hm => (hlast m).2 (hprocessed m hm)⟩

/-- user 1 writes to everyone, and the worker counts the mention of user 2 -/
theorem unreported :
    (expected pair 2 101 [.event asStored shout]).mentions = 1 ∧
      getUnread (Core.run inboxStep (noReads pair) [.event asStored shout]) 2 = [] ∧
      ¬ Reported 2 101 (expected pair 2 101 [.event asStored shout])
        (Core.run inboxStep (noReads pair) [.event asStored shout]) := by
  refine ⟨by decide, by decide, fun h => ?_⟩
  exact absurd h.count (by decide)

end Lumiere.Routes
