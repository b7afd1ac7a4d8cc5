/-
Pins (`routes/messages.rs`). A pin is kept twice: as a row of `pins`, which `pin_message` counts and `get_pins` starts
from, and as a flag of the message. A deletion leaves both as they are.

- `getPins`: the pins of a channel, grouped by the bucket of their ids.
- `PinsOk`: the rows are the undeleted messages with the flag, there are at most 50, `get_pins` returns these messages,
  and a message that is pinned already or finds fewer than 50 can be pinned.
- `PinsKept`: no pinned message is deleted, and no 50th is pinned. `pinsOk_iff`: over whole runs the first holds exactly
  if every statement satisfies the second.
- `deleted_pin`: a message is pinned and deleted.
-/
import Lumiere.Routes.MessageRequests

namespace Lumiere.Routes

open Lumiere.Core Lumiere.Core.Prog Lumiere.Models Lumiere.Db

/-! ## get_pins -/

/-- `by_bucket.entry(b).or_default().push(id)` -/
def pushEntry (b id : ℤ) : List (ℤ × List ℤ) → List (ℤ × List ℤ)
  | [] => [(b, [id])]
  | (b', ids) :: rest => if b' = b then (b', ids ++ [id]) :: rest else (b', ids) :: pushEntry b id rest

def byBucket (pinIds : List ℤ) : List (ℤ × List ℤ) :=
  pinIds.foldl (fun groups id => pushEntry (bucketFromSnowflake (.ofI64 id)) id groups) []

/-- a `HashMap` is iterated in no particular order -/
structure Iteration where
  order : List (ℤ × List ℤ) → List (ℤ × List ℤ)
  perm : ∀ groups, (order groups).Perm groups

/-- `SELECT message_id FROM pins WHERE channel_id = ?` -/
def pinIds (c : Chat) (channelId : ℤ) : List ℤ := (c.pins.select fun p => p.channelId = channelId).map Pin.messageId

def pinnedMessages (it : Iteration) (c : Chat) (channelId : ℤ) : List MsgRow :=
  (it.order (byBucket (pinIds c channelId))).flatMap fun (b, ids) =>
    ids.flatMap fun id => extractMsgRows channelId (c.message? ⟨channelId, b, id⟩).toList

def getPins (it : Iteration) (auth channelId : ℤ) : Route (List MsgRow) := do
  let _ ← onPg (checkChannelPermission channelId auth .viewChannel)
  select fun w => pinnedMessages it w.chat channelId

/-! ## What is claimed, and of which statements -/

def Pinned (channelId id : ℤ) (c : Chat) : Prop := ∃ p ∈ c.pins.rows, p.channelId = channelId ∧ p.messageId = id

instance (channelId id : ℤ) (c : Chat) : Decidable (Pinned channelId id c) :=
  inferInstanceAs (Decidable (∃ p ∈ c.pins.rows, p.channelId = channelId ∧ p.messageId = id))

/-- a message that is not deleted, as `extract_msg_rows` takes it -/
def Live (channelId id : ℤ) (c : Chat) : Prop :=
  ∃ b r m, c.message? ⟨channelId, b, id⟩ = some r ∧ shown channelId r = some m

/-- a message that is not deleted and has `pinned = true` -/
def LivePinned (channelId id : ℤ) (c : Chat) : Prop :=
  ∃ b r m, c.message? ⟨channelId, b, id⟩ = some r ∧ shown channelId r = some m ∧ m.pinned = true

structure PinsOk (it : Iteration) (channelId : ℤ) (w : World) : Prop where
  rows : ∀ id, Pinned channelId id w.chat ↔ LivePinned channelId id w.chat
  limit : (w.chat.pins.count fun p => p.channelId = channelId) ≤ 50
  shown : ∀ auth, (checkChannelPermission channelId auth .viewChannel).succeeds statement w.pg = true →
    ∃ messages, (getPins it auth channelId).run Effect.exec w = (.ok messages, w) ∧
      (messages.map MsgRow.id).Nodup ∧ ∀ id, id ∈ messages.map MsgRow.id ↔ LivePinned channelId id w.chat
  room : ∀ auth id now, (checkChannelPermission channelId auth .manageMessages).succeeds statement w.pg = true →
    Live channelId id w.chat →
    (LivePinned channelId id w.chat ∨ (pinnedMessages it w.chat channelId).length < 50) →
    (pinMessage auth channelId id now).succeeds Effect.exec w = true

/-- no pinned message of the channel is deleted, and no 50th one is pinned -/
def PinsKept (channelId : ℤ) : Effect → World → Prop
  | .cql (.softDelete key), w => key.channelId = channelId → ¬ Pinned channelId key.messageId w.chat
  | .cql (.insertPin row), w => row.channelId = channelId →
    Pinned channelId row.messageId w.chat ∨ (w.chat.pins.count fun p => p.channelId = channelId) + 1 < 50
  | _, _ => True

/-- every statement that the request executes -/
def KeepsPins (hash : String → String) (channelId : ℤ) (w : World) (r : MessageRequest) : Prop :=
  (r.handle hash).AllSteps Effect.exec (PinsKept channelId) w

/-- the id that a request draws for a new message -/
def MessageRequest.newId? : MessageRequest → Option ℤ
  | .sendMessage _ _ _ messageId _ | .executeWebhook _ _ _ messageId => some messageId.toI64
  | _ => none

variable {it : Iteration} {channelId id : ℤ} {c : Chat} {w w' : World} {e : Effect} {n : ℕ} {used : List ℤ}

/-! ## Grouping -/

/-- what the groups hold -/
def entries (groups : List (ℤ × List ℤ)) : List (ℤ × ℤ) := groups.flatMap fun g => g.2.map fun id => (g.1, id)

theorem entries_pushEntry (b id : ℤ) (groups : List (ℤ × List ℤ)) :
    (entries (pushEntry b id groups)).Perm ((b, id) :: entries groups) := by
  induction groups with
  | nil => exact List.Perm.refl _
  | cons g rest ih =>
    obtain ⟨b', ids⟩ := g
    rw [pushEntry]
    split_ifs with hb
    · subst hb
      simp only [entries, List.flatMap_cons, List.map_append, List.map_cons, List.map_nil, List.append_assoc,
        List.singleton_append]
      exact List.perm_middle
    · simp only [entries, List.flatMap_cons] at ih ⊢
      exact (ih.append_left _).trans List.perm_middle

theorem entries_byBucket (ids : List ℤ) :
    (entries (byBucket ids)).Perm (ids.map fun id => (bucketFromSnowflake (.ofI64 id), id)) := by
  have hfold : ∀ groups, (entries (ids.foldl (fun g id => pushEntry (bucketFromSnowflake (.ofI64 id)) id g) groups)).Perm
      ((ids.map fun id => (bucketFromSnowflake (.ofI64 id), id)) ++ entries groups) := by
    induction ids with
    | nil => exact fun groups => List.Perm.refl _
    | cons id ids ih =>
      intro groups
      refine (ih _).trans (((entries_pushEntry _ id groups).append_left _).trans ?_)
      exact List.perm_middle
  have h := hfold []
  rwa [show entries [] = [] from rfl, List.append_nil] at h

theorem extractMsgRows_toList (channelId : ℤ) (r : Option MessageRow) :
    extractMsgRows channelId r.toList = (r.bind (shown channelId)).toList := by
  rcases r with _ | r
  · rfl
  · rw [extractMsgRows, Option.toList_some, List.filterMap_cons, List.filterMap_nil, Option.bind_some]
    rcases shown channelId r with _ | m <;> rfl

/-- **Grouping by bucket loses nothing.** The messages are those of the pin ids, each at its key. -/
theorem pinnedMessages_perm (it : Iteration) (c : Chat) (channelId : ℤ) :
    (pinnedMessages it c channelId).Perm
      ((pinIds c channelId).filterMap fun id => (c.message? (messageKey channelId id)).bind (shown channelId)) := by
  let read (e : ℤ × ℤ) : Option MsgRow := (c.message? ⟨channelId, e.1, e.2⟩).bind (shown channelId)
  have hread : ∀ groups : List (ℤ × List ℤ), (groups.flatMap fun g =>
      g.2.flatMap fun id => extractMsgRows channelId (c.message? ⟨channelId, g.1, id⟩).toList) =
      (entries groups).filterMap read := by
    intro groups
    have hgroup : ∀ g : ℤ × List ℤ,
        (g.2.flatMap fun id => extractMsgRows channelId (c.message? ⟨channelId, g.1, id⟩).toList) =
          (g.2.map fun id => (g.1, id)).filterMap read := fun g => by
      rw [List.filterMap_map, List.filterMap_eq_flatMap_toList]
      exact List.flatMap_congr fun id _ => extractMsgRows_toList channelId _
    rw [entries, List.filterMap_flatMap]
    exact List.flatMap_congr fun g _ => hgroup g
  have horder : (entries (it.order (byBucket (pinIds c channelId)))).Perm (entries (byBucket (pinIds c channelId))) :=
    (it.perm _).flatMap_right _
  have hids := List.Perm.filterMap read (horder.trans (entries_byBucket (pinIds c channelId)))
  have hmessages : pinnedMessages it c channelId = (entries (it.order (byBucket (pinIds c channelId)))).filterMap read :=
    hread (it.order (byBucket (pinIds c channelId)))
  have hkeys : ((pinIds c channelId).map fun id => (bucketFromSnowflake (.ofI64 id), id)).filterMap read =
      (pinIds c channelId).filterMap fun id => (c.message? (messageKey channelId id)).bind (shown channelId) := by
    rw [List.filterMap_map]
    exact List.filterMap_congr fun id _ => by simp only [Function.comp, read, messageKey]
  rw [hmessages, ← hkeys]
  exact hids

/-! ## What keeps the two in step -/

/-- the columns that reads need are there -/
def Complete (r : MessageRow) : Prop :=
  r.authorId.isSome ∧ r.type.isSome ∧ r.flags.isSome ∧ r.pinned.isSome ∧ r.mentionEveryone.isSome

/-- not deleted, and with the flag -/
def Flagged (r : MessageRow) : Prop := r.deleted = some false ∧ r.pinned = some true

/-- the ids that have been drawn so far are in `used` -/
structure InStep (channelId : ℤ) (used : List ℤ) (c : Chat) : Prop where
  agree : ∀ id, Pinned channelId id c ↔ Flagged (c.row (messageKey channelId id))
  room : (c.pins.count fun p => p.channelId = channelId) < 50
  /-- rows are stored in the bucket of their id -/
  placed : ∀ key r, c.message? key = some r → key = messageKey key.channelId key.messageId
  complete : ∀ key, (c.row key).deleted = some false → Complete (c.row key)
  drawn : ∀ key, (c.row key).deleted = some false → key.messageId ∈ used

theorem columns_of_shown {r : MessageRow} {m : MsgRow} (h : shown channelId r = some m) :
    m.id = r.messageId ∧ r.deleted = some false ∧ r.pinned = some m.pinned := by
  obtain ⟨hm, hlive⟩ := Option.filter_eq_some_iff.1 h
  simp only [MsgRow.ofRow, Option.bind_eq_bind, Option.bind_eq_some_iff, Option.pure_def, Option.some.injEq] at hm
  obtain ⟨_, -, _, -, _, -, pinned, hpinned, _, -, deleted, hdeleted, rfl⟩ := hm
  simp only [Bool.not_eq_true'] at hlive
  exact ⟨rfl, hdeleted.trans (congrArg some hlive), hpinned⟩

theorem exists_shown_of_complete {r : MessageRow} (hr : Complete r) (h : r.deleted = some false) :
    ∃ m, shown channelId r = some m := by
  obtain ⟨⟨authorId, h₁⟩, ⟨type, h₂⟩, ⟨flags, h₃⟩, ⟨pinned, h₄⟩, ⟨mentionEveryone, h₅⟩⟩ :
      (∃ a, r.authorId = some a) ∧ (∃ a, r.type = some a) ∧ (∃ a, r.flags = some a) ∧ (∃ a, r.pinned = some a) ∧
        ∃ a, r.mentionEveryone = some a := by
    simpa only [Complete, Option.isSome_iff_exists] using hr
  have hrow : ∃ m, MsgRow.ofRow channelId r = some m ∧ m.deleted = false := by
    rw [MsgRow.ofRow, h₁, h₂, h₃, h₄, h₅, h]
    exact ⟨_, rfl, rfl⟩
  obtain ⟨m, hm, hlive⟩ := hrow
  exact ⟨m, Option.filter_eq_some_iff.2 ⟨hm, by simp [hlive]⟩⟩

theorem find_messageId {key : MessageKey} {r : MessageRow} (h : c.message? key = some r) :
    r.messageId = key.messageId := by
  rw [Chat.message?, Messages.find?] at h
  simpa using List.find?_some h

/-- a row that says whether it is deleted is not blank -/
theorem message?_of_deleted {key : MessageKey} (h : (c.row key).deleted = some false) : c.message? key = some (c.row key) := by
  rcases hrow : c.message? key with _ | r
  · rw [Chat.row_of_none hrow] at h
    cases h
  · rw [Chat.row_of_some hrow]

namespace InStep

variable (hc : InStep channelId used c)
include hc

theorem exists_shown_of_complete {id : ℤ} (h : (c.row (messageKey channelId id)).deleted = some false) :
    ∃ m, shown channelId (c.row (messageKey channelId id)) = some m ∧ m.id = id := by
  obtain ⟨m, hm⟩ : ∃ m, shown channelId _ = some m := Routes.exists_shown_of_complete (hc.complete _ h) h
  exact ⟨m, hm, (columns_of_shown hm).1.trans (find_messageId (message?_of_deleted h))⟩

theorem live_iff : Live channelId id c ↔ (c.row (messageKey channelId id)).deleted = some false := by
  constructor
  · rintro ⟨b, r, m, hr, hm⟩
    rw [hc.placed _ r hr] at hr
    rw [Chat.row_of_some hr]
    exact (columns_of_shown hm).2.1
  · intro h
    obtain ⟨m, hm, -⟩ := hc.exists_shown_of_complete h
    exact ⟨_, _, m, message?_of_deleted h, hm⟩

theorem livePinned_iff : LivePinned channelId id c ↔ Flagged (c.row (messageKey channelId id)) := by
  constructor
  · rintro ⟨b, r, m, hr, hm, hpinned⟩
    rw [hc.placed _ r hr] at hr
    rw [Chat.row_of_some hr]
    obtain ⟨-, hdeleted, hflag⟩ := columns_of_shown hm
    exact ⟨hdeleted, hflag.trans (congrArg some hpinned)⟩
  · rintro ⟨hdeleted, hflag⟩
    obtain ⟨m, hm, -⟩ := hc.exists_shown_of_complete hdeleted
    refine ⟨_, _, m, message?_of_deleted hdeleted, hm, ?_⟩
    exact Option.some.inj ((columns_of_shown hm).2.2.symm.trans hflag)

end InStep

theorem mem_pinIds : id ∈ pinIds c channelId ↔ Pinned channelId id c := by
  simp only [pinIds, List.mem_map, Table.mem_select, decide_eq_true_eq, Pinned, and_assoc]
  exact Iff.rfl

theorem nodup_pinIds : (pinIds c channelId).Nodup :=
  Table.nodup_map_select (fun id => (channelId, id)) fun p _ hp => by rw [← of_decide_eq_true hp]

/-- the messages of `get_pins` are those of the rows -/
theorem InStep.ids_perm (hc : InStep channelId used c) (it : Iteration) :
    ((pinnedMessages it c channelId).map MsgRow.id).Perm (pinIds c channelId) := by
  refine ((pinnedMessages_perm it c channelId).map _).trans (List.Perm.of_eq ?_)
  have hread : ∀ id ∈ pinIds c channelId, ∃ m,
      ((c.message? (messageKey channelId id)).bind (shown channelId)) = some m ∧ m.id = id := by
    intro id hid
    have hdeleted := ((hc.agree id).1 (mem_pinIds.1 hid)).1
    rw [message?_of_deleted hdeleted]
    exact hc.exists_shown_of_complete hdeleted
  generalize pinIds c channelId = ids at hread ⊢
  induction ids with
  | nil => rfl
  | cons id ids ih =>
    obtain ⟨m, hm, hid⟩ := hread id List.mem_cons_self
    rw [List.filterMap_cons, hm, List.map_cons, hid, ih fun i hi => hread i (List.mem_cons_of_mem id hi)]

/-- `pin_message` of a message that is there, in a channel with room -/
theorem pinMessage_succeeds {auth : ℤ} {now : DateTime}
    (hauth : (checkChannelPermission channelId auth .manageMessages).succeeds statement w.pg = true)
    (hroom : (w.chat.pins.count fun p => p.channelId = channelId) < 50)
    (hlive : (w.chat.row (messageKey channelId id)).deleted = some false) :
    (pinMessage auth channelId id now).succeeds Effect.exec w = true := by
  obtain ⟨sid, pg, hcheck⟩ := succeeds_iff.1 hauth
  have hrun : (onPg (checkChannelPermission channelId auth .manageMessages)).run Effect.exec w = (.ok sid, w) := by
    rw [run_onPg_readOnly readOnly_checkChannelPermission, hcheck]
  have hthere : ((w.chat.message? (messageKey channelId id)).bind MessageRow.deleted).any (fun d => !d) = true := by
    rw [message?_of_deleted hlive, Option.bind_some, hlive]
    rfl
  rw [succeeds_iff, pinMessage, run_bind_of_ok hrun, run_bind_of_ok (run_select _),
    run_bind_of_ok ((failIf_eq_ok (u := ())).2 ⟨not_le.2 hroom, rfl⟩), run_bind_of_ok (run_select _),
    run_bind_of_ok ((failIf_eq_ok (u := ())).2 ⟨by simp [hthere], rfl⟩)]
  exact ⟨(), _, rfl⟩

/-- **In step, everything that is claimed holds.** -/
theorem InStep.pinsOk (hc : InStep channelId used w.chat) (it : Iteration) : PinsOk it channelId w := by
  have hrows : ∀ id, Pinned channelId id w.chat ↔ LivePinned channelId id w.chat := fun id =>
    (hc.agree id).trans hc.livePinned_iff.symm
  refine ⟨hrows, hc.room.le, fun auth hauth => ?_, fun auth id now hauth hlive _ => ?_⟩
  · obtain ⟨sid, pg, hcheck⟩ := succeeds_iff.1 hauth
    have hids := hc.ids_perm it
    have hrun : (onPg (checkChannelPermission channelId auth .viewChannel)).run Effect.exec w = (.ok sid, w) := by
      rw [run_onPg_readOnly readOnly_checkChannelPermission, hcheck]
    refine ⟨pinnedMessages it w.chat channelId, ?_, hids.nodup_iff.2 nodup_pinIds, fun id => ?_⟩
    · rw [getPins, run_bind_of_ok hrun]
      rfl
    · rw [hids.mem_iff, mem_pinIds, hrows]
  · exact pinMessage_succeeds hauth hc.room (hc.live_iff.1 hlive)

/-! ## Statements -/

theorem messageKey_inj {c₁ c₂ id₁ id₂ : ℤ} : messageKey c₁ id₁ = messageKey c₂ id₂ ↔ c₁ = c₂ ∧ id₁ = id₂ := by
  constructor
  · intro h
    exact ⟨congrArg MessageKey.channelId h, congrArg MessageKey.messageId h⟩
  · rintro ⟨rfl, rfl⟩
    rfl

theorem newKey_eq (channelId : ℤ) (messageId : Snowflake) :
    newKey channelId messageId = messageKey channelId messageId.toI64 := by
  rw [newKey, messageKey, Snowflake.ofI64_toI64]

theorem pins_apply {q : Cql} {key : MessageKey} (hq : q.target? = some key) : (q.apply c).pins = c.pins := by
  cases q <;> first | rfl | cases hq

/-- the columns that reads need stay there -/
theorem complete_columns {q : Cql} {r : MessageRow} (hr : r.deleted = some false → Complete r)
    (h : (q.columns r).deleted = some false) : Complete (q.columns r) := by
  cases q with
  | insertMessage key row => exact ⟨rfl, rfl, rfl, rfl, rfl⟩
  | insertWebhookMessage key authorId content => exact ⟨rfl, rfl, rfl, rfl, rfl⟩
  | updateContent content editedAt key => exact hr h
  | updateEmbeds embeds editedAt key => exact hr h
  | softDelete key => cases h
  | setPinned key =>
    obtain ⟨h₁, h₂, h₃, -, h₅⟩ := hr h
    exact ⟨h₁, h₂, h₃, rfl, h₅⟩
  | unsetPinned key =>
    obtain ⟨h₁, h₂, h₃, -, h₅⟩ := hr h
    exact ⟨h₁, h₂, h₃, rfl, h₅⟩
  | _ => exact hr h

/-- a statement on one message that does not change whether it is a pinned one -/
theorem InStep.set (hc : InStep channelId used c) {q : Cql} {key : MessageKey} (htarget : q.target? = some key)
    (hkey : key = messageKey key.channelId key.messageId)
    (hflag : key.channelId = channelId → (Flagged (q.columns (c.row key)) ↔ Flagged (c.row key)))
    (hdrawn : (q.columns (c.row key)).deleted = some false → key.messageId ∈ used) : InStep channelId used (q.apply c) := by
  have hrow : ∀ k, (q.apply c).row k = if key = k then q.columns (c.row k) else c.row k := fun k => by
    rw [Cql.row_apply, htarget]
    simp only [Option.some.injEq]
  refine ⟨fun id => ?_, ?_, fun k r hr => ?_, fun k hk => ?_, fun k hk => ?_⟩
  · rw [Pinned, pins_apply htarget, hrow]
    split_ifs with hid
    · subst hid
      exact (hc.agree id).trans (hflag rfl).symm
    · exact hc.agree id
  · rw [pins_apply htarget]
    exact hc.room
  · rw [Cql.message?_apply, htarget] at hr
    by_cases hk : key = k
    · rw [← hk]
      exact hkey
    · rw [if_neg fun h => hk (Option.some.inj h)] at hr
      exact hc.placed k r hr
  · rw [hrow] at hk ⊢
    split_ifs at hk ⊢
    · exact complete_columns (hc.complete k) hk
    · exact hc.complete k hk
  · rw [hrow] at hk
    split_ifs at hk with hkk
    · subst hkk
      exact hdrawn hk
    · exact hc.drawn k hk

/-- the statements that leave rows of pins alone, each where it keeps the two in step -/
def PinSafe (channelId : ℤ) (used : List ℤ) : Effect → Chat → Prop
  | .cql (.insertMessage key _), c | .cql (.insertWebhookMessage key _ _), c =>
    key = messageKey key.channelId key.messageId ∧ key.messageId ∈ used ∧
      (key.channelId = channelId → ¬ Pinned channelId key.messageId c)
  | .cql (.softDelete key), c =>
    key = messageKey key.channelId key.messageId ∧ (key.channelId = channelId → ¬ Pinned channelId key.messageId c)
  | .cql (.updateContent _ _ key), _ | .cql (.updateEmbeds _ _ key), _ => key = messageKey key.channelId key.messageId
  | .cql _, _ => False
  | _, _ => True

theorem InStep.exec (hc : InStep channelId used w.chat) (he : PinSafe channelId used e w.chat)
    (h : e.exec w = .ok (n, w')) : InStep channelId used w'.chat := by
  have hnot : ∀ key : MessageKey, key = messageKey key.channelId key.messageId → key.channelId = channelId →
      ¬ Pinned channelId key.messageId w.chat → ¬ Flagged (w.chat.row key) := by
    intro key hkey hchannel hpin hflag
    rw [hkey, hchannel] at hflag
    exact hpin ((hc.agree _).2 hflag)
  by_cases hcql : ∃ q, e = .cql q
  · obtain ⟨q, rfl⟩ := hcql
    rw [exec_cql h]
    cases q with
    | insertMessage key row =>
      obtain ⟨hkey, hused, hpin⟩ := he
      refine hc.set rfl hkey (fun hchannel => ⟨fun hflag => ?_, fun hflag => ?_⟩) fun _ => hused
      · cases hflag.2
      · exact absurd hflag (hnot key hkey hchannel (hpin hchannel))
    | insertWebhookMessage key authorId content =>
      obtain ⟨hkey, hused, hpin⟩ := he
      refine hc.set rfl hkey (fun hchannel => ⟨fun hflag => ?_, fun hflag => ?_⟩) fun _ => hused
      · cases hflag.2
      · exact absurd hflag (hnot key hkey hchannel (hpin hchannel))
    | softDelete key =>
      obtain ⟨hkey, hpin⟩ := he
      refine hc.set rfl hkey (fun hchannel => ⟨fun hflag => ?_, fun hflag => ?_⟩) fun hdeleted => ?_
      · cases hflag.1
      · exact absurd hflag (hnot key hkey hchannel (hpin hchannel))
      · cases hdeleted
    | updateContent content editedAt key => exact hc.set rfl he (fun _ => Iff.rfl) (hc.drawn key)
    | updateEmbeds embeds editedAt key => exact hc.set rfl he (fun _ => Iff.rfl) (hc.drawn key)
    | _ => exact he.elim
  · rw [exec_chat (not_exists.1 hcql) h]
    exact hc

/-! ## Rows of pins -/

def samePin (row : Pin) (p : Pin) : Bool := p.channelId = row.channelId && p.messageId = row.messageId

theorem rows_insertPin (row : Pin) (c : Chat) :
    ((Cql.insertPin row).apply c).pins.rows = (c.pins.rows.filter fun p => !samePin row p) ++ [row] := by
  refine Table.rows_insert? (Table.insert?_of_forall_ne fun p hp hkey => ?_)
  have hsame := (Table.mem_deleteWhere.1 hp).2
  obtain ⟨h₁, h₂⟩ := Prod.mk.inj hkey
  simp [h₁, h₂] at hsame

theorem pinned_insertPin {row : Pin} :
    Pinned channelId id ((Cql.insertPin row).apply c) ↔
      Pinned channelId id c ∨ row.channelId = channelId ∧ row.messageId = id := by
  rw [Pinned, rows_insertPin]
  simp only [List.mem_append, List.mem_filter, List.mem_singleton, samePin]
  constructor
  · rintro ⟨p, ⟨hp, -⟩ | rfl, hpin⟩
    · exact .inl ⟨p, hp, hpin⟩
    · exact .inr hpin
  · rintro (⟨p, hp, hchannel, hid⟩ | hpin)
    · by_cases hrow : row.channelId = channelId ∧ row.messageId = id
      · exact ⟨row, .inr rfl, hrow⟩
      · refine ⟨p, .inl ⟨hp, ?_⟩, hchannel, hid⟩
        have hne : ¬ (channelId = row.channelId ∧ id = row.messageId) := fun h => hrow ⟨h.1.symm, h.2.symm⟩
        simpa [hchannel, hid, imp_iff_not_or] using hne
    · exact ⟨row, .inr rfl, hpin⟩

/-- the row that `insert_pin` replaces, if any -/
theorem countP_samePin (row : Pin) (c : Chat) (channelId : ℤ) :
    ((c.pins.rows.filter (samePin row)).countP fun p => p.channelId = channelId) =
      if row.channelId = channelId ∧ Pinned channelId row.messageId c then 1 else 0 := by
  rw [List.countP_filter]
  by_cases hchannel : row.channelId = channelId
  · subst hchannel
    have hsame : (c.pins.rows.countP fun p => decide (p.channelId = row.channelId) && samePin row p) =
        c.pins.count (samePin row) := by
      refine List.countP_congr fun p _ => ?_
      simp only [samePin, Bool.and_eq_true, decide_eq_true_eq]
      exact ⟨fun h => h.2, fun h => ⟨h.1, h⟩⟩
    have hone : c.pins.count (samePin row) ≤ 1 := by
      refine Table.count_le_one (k := (row.channelId, row.messageId)) fun p _ hp => ?_
      simp only [samePin, Bool.and_eq_true, decide_eq_true_eq] at hp
      exact Prod.ext hp.1 hp.2
    have hpinned : Pinned row.channelId row.messageId c ↔ 0 < c.pins.count (samePin row) := by
      rw [Table.count, List.countP_pos_iff]
      simp only [samePin, Bool.and_eq_true, decide_eq_true_eq]
      exact Iff.rfl
    rw [hsame]
    simp only [hpinned, true_and]
    split_ifs <;> omega
  · rw [if_neg fun h => hchannel h.1, List.countP_eq_zero]
    intro p _ hp
    simp only [samePin, Bool.and_eq_true, decide_eq_true_eq] at hp
    exact hchannel (hp.2.1.symm.trans hp.1)

/-- a new pin counts once -/
theorem count_insertPin (row : Pin) (c : Chat) (channelId : ℤ) :
    (((Cql.insertPin row).apply c).pins.count fun p => p.channelId = channelId) =
      (c.pins.count fun p => p.channelId = channelId) +
        if row.channelId = channelId ∧ ¬ Pinned channelId row.messageId c then 1 else 0 := by
  have hsplit := List.countP_eq_countP_filter_add c.pins.rows (fun p => decide (p.channelId = channelId)) (samePin row)
  rw [countP_samePin] at hsplit
  rw [Table.count, rows_insertPin, List.countP_append, List.countP_singleton, Table.count, hsplit]
  by_cases hchannel : row.channelId = channelId
  · by_cases hpin : Pinned channelId row.messageId c <;> simp [hchannel, hpin, Nat.add_comm]
  · simp [hchannel]

theorem pinned_deletePin {channel messageId : ℤ} :
    Pinned channelId id ((Cql.deletePin channel messageId).apply c) ↔
      Pinned channelId id c ∧ ¬ (channel = channelId ∧ messageId = id) := by
  show (∃ p ∈ (c.pins.rows.filter fun p => !(p.channelId = channel && p.messageId = messageId)), _) ↔ _
  simp only [List.mem_filter, Bool.not_eq_true', Bool.and_eq_false_iff, decide_eq_false_iff_not]
  constructor
  · rintro ⟨p, ⟨hp, hne⟩, rfl, rfl⟩
    refine ⟨⟨p, hp, rfl, rfl⟩, ?_⟩
    rintro ⟨rfl, rfl⟩
    exact hne.elim (fun h => h rfl) fun h => h rfl
  · rintro ⟨⟨p, hp, rfl, rfl⟩, hne⟩
    exact ⟨p, ⟨hp, not_and_or.1 fun h => hne ⟨h.1.symm, h.2.symm⟩⟩, rfl, rfl⟩

theorem count_deletePin_le (channel messageId : ℤ) (c : Chat) (channelId : ℤ) :
    (((Cql.deletePin channel messageId).apply c).pins.count fun p => p.channelId = channelId) ≤
      c.pins.count fun p => p.channelId = channelId :=
  List.Sublist.countP_le List.filter_sublist

/-! ## Pinning -/

/-- the flag of one message is set, and rows of pins change with it -/
theorem InStep.flag (hc : InStep channelId used c) {c' : Chat} (b : Bool) (channel messageId : ℤ)
    (hmessage : ∀ k, c'.message? k =
      if messageKey channel messageId = k then some { c.row k with pinned := some b } else c.message? k)
    (hagree : ∀ id, Pinned channelId id c' ↔
      if messageKey channel messageId = messageKey channelId id then
        (c.row (messageKey channelId id)).deleted = some false ∧ b = true
      else Pinned channelId id c)
    (hroom : (c'.pins.count fun p => p.channelId = channelId) < 50) : InStep channelId used c' := by
  have hrow : ∀ k, c'.row k =
      if messageKey channel messageId = k then { c.row k with pinned := some b } else c.row k := fun k => by
    rw [Chat.row, hmessage]
    split_ifs <;> rfl
  refine ⟨fun id => ?_, hroom, fun k r hr => ?_, fun k hk => ?_, fun k hk => ?_⟩
  · rw [hagree, hrow]
    split_ifs with hkey
    · simp [Flagged]
    · exact hc.agree id
  · rw [hmessage] at hr
    split_ifs at hr with hkey
    · rw [← hkey]
      rfl
    · exact hc.placed k r hr
  · rw [hrow] at hk ⊢
    split_ifs at hk ⊢
    · obtain ⟨h₁, h₂, h₃, -, h₅⟩ := hc.complete k hk
      exact ⟨h₁, h₂, h₃, rfl, h₅⟩
    · exact hc.complete k hk
  · rw [hrow] at hk
    split_ifs at hk
    · exact hc.drawn k hk
    · exact hc.drawn k hk

/-- what `pin_message` leaves behind -/
theorem InStep.pin (hc : InStep channelId used c) {channel messageId userId now : ℤ}
    (hlive : (c.row (messageKey channel messageId)).deleted = some false)
    (hroom : channel = channelId →
      Pinned channelId messageId c ∨ (c.pins.count fun p => p.channelId = channelId) + 1 < 50) :
    InStep channelId used ((Cql.insertPin ⟨channel, messageId, userId, now⟩).apply
      ((Cql.setPinned (messageKey channel messageId)).apply c)) := by
  refine hc.flag true channel messageId (fun k => ?_) (fun id => pinned_insertPin.trans ?_) ?_
  · have h := Cql.message?_apply (.setPinned (messageKey channel messageId)) c k
    simp only [Cql.target?, Option.some.injEq] at h
    exact h
  · split_ifs with hkey
    · obtain ⟨rfl, rfl⟩ := messageKey_inj.1 hkey
      exact ⟨fun _ => ⟨hlive, rfl⟩, fun _ => .inr ⟨rfl, rfl⟩⟩
    · exact or_iff_left fun h => hkey (messageKey_inj.2 h)
  · refine lt_of_eq_of_lt (count_insertPin _ _ channelId) ?_
    have hcount := hc.room
    split_ifs with hnew
    · exact (hroom hnew.1).resolve_left hnew.2
    · exact hcount

/-- what `unpin_message` leaves behind -/
theorem InStep.unpin (hc : InStep channelId used c) {channel messageId : ℤ} :
    InStep channelId used ((Cql.deletePin channel messageId).apply
      ((Cql.unsetPinned (messageKey channel messageId)).apply c)) := by
  refine hc.flag false channel messageId (fun k => ?_) (fun id => pinned_deletePin.trans ?_)
    ((count_deletePin_le channel messageId _ channelId).trans_lt hc.room)
  · have h := Cql.message?_apply (.unsetPinned (messageKey channel messageId)) c k
    simp only [Cql.target?, Option.some.injEq] at h
    exact h
  · split_ifs with hkey
    · obtain ⟨rfl, rfl⟩ := messageKey_inj.1 hkey
      exact ⟨fun h => absurd ⟨rfl, rfl⟩ h.2, fun h => nomatch h.2⟩
    · exact and_iff_left fun h => hkey (messageKey_inj.2 h)

/-! ## Requests -/

variable {hash : String → String} {r : MessageRequest} {used' : List ℤ}

theorem InStep.mono (hc : InStep channelId used c) (h : used ⊆ used') : InStep channelId used' c :=
  { hc with drawn := fun key hk => h (hc.drawn key hk) }

theorem pins_exec (he : PinSafe channelId used e w.chat) (h : e.exec w = .ok (n, w')) : w'.chat.pins = w.chat.pins := by
  by_cases hcql : ∃ q, e = .cql q
  · obtain ⟨q, rfl⟩ := hcql
    rw [exec_cql h]
    cases q <;> first | exact pins_apply rfl | exact he.elim
  · rw [exec_chat (not_exists.1 hcql) h]

/-- the requests that write rows of pins -/
def MessageRequest.pins : MessageRequest → Bool
  | .pinMessage .. | .unpinMessage .. => true
  | _ => false

theorem MessageRequest.Writes.pinSafe (h : r.Writes e) (hr : r.pins = false) (hkept : PinsKept channelId e w)
    (hnew : ∀ id ∈ r.newId?, id ∈ used ∧ ¬ Pinned channelId id w.chat) : PinSafe channelId used e w.chat := by
  have hpublish : e.Publishes → PinSafe channelId used e w.chat := fun h => by cases e <;> trivial
  cases r with
  | sendMessage auth channel body messageId now =>
    obtain ⟨hused, hpin⟩ := hnew _ rfl
    cases h with
    | insert mentionEveryone short =>
      rw [newKey_eq]
      exact ⟨rfl, hused, fun _ => hpin⟩
    | last => trivial
    | slowmode userId seconds now => trivial
    | publish e h => exact hpublish h
  | executeWebhook webhookId token content messageId =>
    obtain ⟨hused, hpin⟩ := hnew _ rfl
    cases h with
    | insert channel content short =>
      rw [newKey_eq]
      exact ⟨rfl, hused, fun _ => hpin⟩
    | publish e h => exact hpublish h
  | editMessage auth channel messageId body now =>
    rcases h with ⟨content, rfl⟩ | ⟨embeds, rfl⟩ | h
    · exact rfl
    · exact rfl
    · exact hpublish h
  | deleteMessage auth channel messageId =>
    rcases h with rfl | h
    · exact ⟨rfl, hkept⟩
    · exact hpublish h
  | bulkDelete auth channel messages failed =>
    rcases h with ⟨id, -, rfl⟩ | h
    · exact ⟨rfl, hkept⟩
    · exact hpublish h
  | pinMessage auth channel messageId now => cases hr
  | unpinMessage auth channel messageId => cases hr

/-- the two writes of `pin_message` and its event -/
def pinWrites (auth channelId messageId : ℤ) (now : DateTime) : Route Unit := do
  execute (.cql (.setPinned (messageKey channelId messageId)))
  execute (.cql (.insertPin ⟨channelId, messageId, auth, now.millis⟩))
  execute (.publish ⟨channelMessages channelId, .channelPinsUpdate channelId⟩)

theorem pinMessage_eq {auth messageId : ℤ} {now : DateTime} :
    pinMessage auth channelId messageId now = (do
      let _ ← onPg (checkChannelPermission channelId auth .manageMessages)
      let count ← select fun w => w.chat.pins.count fun p => p.channelId = channelId
      failIf (50 ≤ count) (.badRequest "Channel has reached max pins (50)")
      let live ← select fun w =>
        ((w.chat.message? (messageKey channelId messageId)).bind MessageRow.deleted).any fun deleted => !deleted
      failIf (!live) (.notFound "Message not found")
      pinWrites auth channelId messageId now) := rfl

theorem deleted_of_live {key : MessageKey}
    (h : ¬ (!((c.message? key).bind MessageRow.deleted).any fun deleted => !deleted) = true) :
    (c.row key).deleted = some false := by
  rcases hrow : c.message? key with _ | r
  · simp [hrow] at h
  · rw [Chat.row_of_some hrow]
    simp only [hrow, Option.bind_some, Bool.not_eq_true', Bool.not_eq_false, Option.any_eq_true] at h
    obtain ⟨d, hd, hfalse⟩ := h
    rw [hd]
    simpa using hfalse

/-- `pin_message` is refused, or its checks pass and it writes -/
theorem pinMessage_cases (auth channelId messageId : ℤ) (now : DateTime) (w : World) :
    Alike Effect.exec w (pinMessage auth channelId messageId now) (pure () : Route Unit) ∨
      ((checkChannelPermission channelId auth .manageMessages).succeeds statement w.pg = true ∧
        (w.chat.pins.count fun p => p.channelId = channelId) < 50 ∧
        (w.chat.row (messageKey channelId messageId)).deleted = some false) ∧
      Alike Effect.exec w (pinMessage auth channelId messageId now) (pinWrites auth channelId messageId now) := by
  rw [pinMessage_eq]
  refine alike_bind_of_readOnly readOnly_check fun sid hcheck => ?_
  refine alike_bind_of_readOnly (issues_select _) fun count hcount => ?_
  refine alike_bind_of_readOnly (issues_failIf _ _) fun _ hroom => ?_
  refine alike_bind_of_readOnly (issues_select _) fun live hlive => ?_
  refine alike_bind_of_readOnly (issues_failIf _ _) fun _ hthere => ?_
  obtain rfl := Except.ok.inj (Prod.mk.inj hcount).1
  obtain rfl := Except.ok.inj (Prod.mk.inj hlive).1
  refine .inr ⟨⟨?_, not_le.1 (failIf_eq_ok.1 hroom).1, deleted_of_live (failIf_eq_ok.1 hthere).1⟩, rfl, fun _ => Iff.rfl⟩
  rw [← succeeds_onPg]
  exact succeeds_of_run hcheck

/-- the second statement of `pinWrites` is the one in question -/
theorem pinWrites_steps {auth channel messageId : ℤ} {now : DateTime} :
    (pinWrites auth channel messageId now).AllSteps Effect.exec (PinsKept channelId) w ↔
      (channel = channelId → Pinned channelId messageId w.chat ∨
        (w.chat.pins.count fun p => p.channelId = channelId) + 1 < 50) := by
  rw [pinWrites, allSteps_bind]
  constructor
  · intro h
    exact allSteps_execute_iff.1 (allSteps_bind.1 (h.2 () _ rfl)).1 _ rfl
  · intro h
    refine ⟨allSteps_execute trivial, fun _ w₁ h₁ => ?_⟩
    obtain rfl := (Prod.mk.inj h₁).2
    exact allSteps_bind.2 ⟨allSteps_execute h, fun _ _ _ => allSteps_execute trivial⟩

/-- **A request whose statements are allowed leaves the two in step.** -/
theorem inStep_step (hc : InStep channelId used w.chat) (hfresh : ∀ id ∈ r.newId?, id ∉ used)
    (hr : KeepsPins hash channelId w r) :
    InStep channelId (used ++ r.newId?.toList) (messageStep hash w r).chat := by
  cases hpins : r.pins with
  | false =>
    have hnot : ∀ id ∈ r.newId?, ¬ Pinned channelId id w.chat := fun id hid hpin =>
      hfresh id hid (hc.drawn _ ((hc.agree id).1 hpin).1)
    refine (allSteps_inv (I := fun w' => InStep channelId (used ++ r.newId?.toList) w'.chat ∧ w'.chat.pins = w.chat.pins)
      ?_ ((allSteps_handle hash r w).and hr) ⟨hc.mono (List.subset_append_left _ _), rfl⟩).1
    rintro e w₁ n w₂ ⟨hwrite, hkept⟩ ⟨hc₁, hpins₁⟩ hexec
    have hsafe : PinSafe channelId (used ++ r.newId?.toList) e w₁.chat := by
      refine hwrite.pinSafe hpins hkept fun id hid => ⟨?_, ?_⟩
      · exact List.mem_append_right _ (Option.mem_toList.2 hid)
      · rw [Pinned, hpins₁]
        exact hnot id hid
    exact ⟨hc₁.exec hsafe hexec, (pins_exec hsafe hexec).trans hpins₁⟩
  | true =>
    cases r with
    | pinMessage auth channel messageId now =>
      rw [show used ++ (MessageRequest.pinMessage auth channel messageId now).newId?.toList = used from
        List.append_nil used]
      rcases pinMessage_cases auth channel messageId now w with hsame | ⟨⟨-, -, hlive⟩, hsame⟩
      · rw [messageStep, MessageRequest.handle, hsame.state]
        exact hc
      · rw [messageStep, MessageRequest.handle, hsame.state]
        exact hc.pin hlive (pinWrites_steps.1 ((hsame.steps _).1 hr))
    | unpinMessage auth channel messageId =>
      rw [show used ++ (MessageRequest.unpinMessage auth channel messageId).newId?.toList = used from
        List.append_nil used]
      exact run_bind_of_readOnly (I := fun w : World => InStep channelId used w.chat) readOnly_check hc fun _ _ => hc.unpin
    | _ => cases hpins

/-! ## A statement that is not allowed shows in the outcome -/

/-- no message with a row of pins is deleted -/
def PinsLive (channelId : ℤ) (w : World) : Prop :=
  ∀ id, Pinned channelId id w.chat → (w.chat.row (messageKey channelId id)).deleted ≠ some true

/-- rows are stored in the bucket of their id -/
def InBuckets (c : Chat) : Prop := ∀ key r, c.message? key = some r → key = messageKey key.channelId key.messageId

theorem pinsLive_of_pinsOk (hbuckets : InBuckets w.chat) (h : PinsOk it channelId w) : PinsLive channelId w := by
  intro id hpin hdeleted
  obtain ⟨b, r, m, hr, hm, -⟩ := (h.rows id).1 hpin
  rw [hbuckets _ r hr] at hr
  rw [Chat.row_of_some hr, (columns_of_shown hm).2.1] at hdeleted
  cases hdeleted

section SoftDelete

variable {s s' : World} {channel messageId : ℤ}
  (h : (Effect.cql (.softDelete (messageKey channel messageId))).exec s = .ok (n, s'))
include h

theorem softDelete_inBuckets (hs : InBuckets s.chat) : InBuckets s'.chat := by
  intro k r hr
  rw [exec_cql h, Cql.message?_apply] at hr
  simp only [Cql.target?, Option.some.injEq] at hr
  split_ifs at hr with hkey
  · rw [← hkey]
    rfl
  · exact hs k r hr

theorem softDelete_shows (hs' : PinsLive channelId s') :
    PinsKept channelId (.cql (.softDelete (messageKey channel messageId))) s ∧ PinsLive channelId s := by
  have hrow : ∀ k, (s'.chat.row k).deleted =
      if messageKey channel messageId = k then some true else (s.chat.row k).deleted := fun k => by
    rw [exec_cql h, Cql.row_apply]
    simp only [Cql.target?, Option.some.injEq]
    split_ifs <;> rfl
  have hpins : ∀ id, Pinned channelId id s.chat → Pinned channelId id s'.chat := fun id hpin => by
    rw [exec_cql h, Pinned, pins_apply rfl]
    exact hpin
  refine ⟨fun hchannel hpin => ?_, fun id hpin hdeleted => ?_⟩
  · obtain rfl : channel = channelId := hchannel
    exact hs' messageId (hpins _ hpin) ((hrow _).trans (if_pos rfl))
  · refine hs' id (hpins _ hpin) ((hrow _).trans ?_)
    split_ifs
    · rfl
    · exact hdeleted

end SoftDelete

/-- the two deletions: nothing but soft deletes -/
theorem keepsPins_of_deletes {α : Type} {p : Route α}
    (hp : p.Issues fun e => (∃ channel id, e = .cql (.softDelete (messageKey channel id))) ∨ e.Publishes)
    (hw : InBuckets w.chat) (h : PinsOk it channelId (p.run Effect.exec w).2) :
    p.AllSteps Effect.exec (PinsKept channelId) w := by
  have hbuckets : InBuckets (p.run Effect.exec w).2.chat := by
    refine issues_run (I := fun w : World => InBuckets w.chat) (fun e s n s' he hs hexec => ?_) hp hw
    rcases he with ⟨channel, id, rfl⟩ | he
    · exact softDelete_inBuckets hexec hs
    · rw [exec_chat he.ne_cql hexec]
      exact hs
  refine shows_of_back (I := PinsLive channelId) (hp.mono fun e he s n s' hexec hs' => ?_) w (pinsLive_of_pinsOk hbuckets h)
  rcases he with ⟨channel, id, rfl⟩ | he
  · exact softDelete_shows hexec hs'
  · rw [PinsLive, exec_chat he.ne_cql hexec] at hs'
    refine ⟨?_, hs'⟩
    cases e <;> trivial

/-- with 50 rows nothing can be pinned, not even what is pinned -/
theorem count_of_succeeds {auth messageId : ℤ} {now : DateTime}
    (h : (pinMessage auth channelId messageId now).succeeds Effect.exec w = true) :
    (w.chat.pins.count fun p => p.channelId = channelId) < 50 := by
  rw [pinMessage_eq] at h
  obtain ⟨u, w', h⟩ := succeeds_iff.1 h
  obtain ⟨sid, w₁, hcheck, hrest⟩ := (Prog.run_bind_eq_ok).1 h
  obtain rfl : w₁ = w := readOnly_check.eq_of_run hcheck
  obtain ⟨count, w₂, hselect, hrest⟩ := (Prog.run_bind_eq_ok).1 hrest
  obtain ⟨v, w₃, hroom, -⟩ := (Prog.run_bind_eq_ok).1 hrest
  have hcount : _ = count := Except.ok.inj (Prod.mk.inj hselect).1
  rw [← hcount] at hroom
  exact not_le.1 (failIf_eq_ok.1 hroom).1

theorem keepsPins_of_step (hc : InStep channelId used w.chat) (h : PinsOk it channelId (messageStep hash w r)) :
    KeepsPins hash channelId w r := by
  have hwrites := allSteps_handle hash r w
  cases r with
  | sendMessage auth channel body messageId now =>
    refine hwrites.mono fun e t he => ?_
    cases he with
    | publish e he => cases e <;> trivial
    | _ => trivial
  | executeWebhook webhookId token content messageId =>
    refine hwrites.mono fun e t he => ?_
    cases he with
    | publish e he => cases e <;> trivial
    | _ => trivial
  | editMessage auth channel messageId body now =>
    refine hwrites.mono fun e t he => ?_
    rcases he with ⟨content, rfl⟩ | ⟨embeds, rfl⟩ | he
    · trivial
    · trivial
    · cases e <;> trivial
  | deleteMessage auth channel messageId =>
    exact keepsPins_of_deletes (issues_deleteMessage.mono fun e he => he.imp_left fun h => ⟨_, _, h⟩) hc.placed h
  | bulkDelete auth channel messages failed =>
    exact keepsPins_of_deletes (issues_bulkDelete.mono fun e he => he.imp_left fun ⟨id, _, h⟩ => ⟨_, _, h⟩) hc.placed h
  | unpinMessage auth channel messageId =>
    refine hwrites.mono fun e t he => ?_
    rcases he with rfl | rfl | he
    · trivial
    · trivial
    · cases e <;> trivial
  | pinMessage auth channel messageId now =>
    rcases pinMessage_cases auth channel messageId now w with hsame | ⟨⟨hauth, -, -⟩, hsame⟩
    · exact (hsame.steps _).2 (allSteps_pure _)
    refine (hsame.steps _).2 (pinWrites_steps.2 ?_)
    rintro rfl
    rw [messageStep, MessageRequest.handle, hsame.state] at h
    by_contra hnew
    rw [not_or] at hnew
    -- the 50th pin: its message is pinned, and cannot be pinned again
    have hpin : Pinned channel messageId ((pinWrites auth channel messageId now).run Effect.exec w).2.chat :=
      pinned_insertPin.2 (.inr ⟨rfl, rfl⟩)
    have hlive := (h.rows messageId).1 hpin
    have hcount : (w.chat.pins.count fun p => p.channelId = channel) + 1 < 50 := by
      have hroom := count_of_succeeds (h.room auth messageId now hauth
        (hlive.imp fun b ⟨r, m, hr, hm, _⟩ => ⟨r, m, hr, hm⟩) (.inl hlive))
      refine lt_of_eq_of_lt (Eq.symm ?_) hroom
      refine (count_insertPin _ _ channel).trans ?_
      rw [if_pos ⟨rfl, hnew.1⟩]
      rfl
    exact hnew.2 hcount

/-! ## Runs -/

theorem inStep_noMessages (channelId : ℤ) (w : World) : InStep channelId [] (noMessages w).chat := by
  have hblank : ∀ key, ((noMessages w).chat.row key).deleted = none := fun key => by
    rw [Chat.row_of_none (message?_noMessages w key)]
    rfl
  have hnot : ∀ key, ((noMessages w).chat.row key).deleted ≠ some false := fun key h => by
    rw [hblank key] at h
    cases h
  refine ⟨fun id => ⟨?_, fun h => absurd h.1 (hnot _)⟩, Nat.zero_lt_succ 49, fun key r hr => ?_, fun key h => absurd h (hnot key),
    fun key h => absurd h (hnot key)⟩
  · rintro ⟨p, hp, -⟩
    cases hp
  · rw [message?_noMessages] at hr
    cases hr

variable {rs : List MessageRequest}

theorem newIds_cons (used : List ℤ) (r : MessageRequest) (rs : List MessageRequest) :
    used ++ (r :: rs).filterMap MessageRequest.newId? =
      used ++ r.newId?.toList ++ rs.filterMap MessageRequest.newId? := by
  rw [List.append_assoc]
  cases hr : r.newId? <;> simp [hr]

theorem not_mem_of_fresh (hfresh : (used ++ (r :: rs).filterMap MessageRequest.newId?).Nodup) :
    ∀ id ∈ r.newId?, id ∉ used := by
  intro id hid hused
  rw [newIds_cons] at hfresh
  exact List.disjoint_of_nodup_append (List.nodup_append.1 hfresh).1 hused (Option.mem_toList.2 hid)

theorem pinsOk_of_every (hc : InStep channelId used w.chat)
    (hfresh : (used ++ rs.filterMap MessageRequest.newId?).Nodup)
    (hrs : Every (messageStep hash) (KeepsPins hash channelId) w rs) (it : Iteration) :
    PinsOk it channelId (Core.run (messageStep hash) w rs) := by
  induction rs generalizing w used with
  | nil => exact hc.pinsOk it
  | cons r rs ih =>
    have hnext := inStep_step hc (not_mem_of_fresh hfresh) hrs.1
    rw [newIds_cons] at hfresh
    exact ih hnext hfresh hrs.2

theorem every_of_pinsOk (hc : InStep channelId used w.chat)
    (hfresh : (used ++ rs.filterMap MessageRequest.newId?).Nodup)
    (h : ∀ l, l <+: rs → PinsOk it channelId (Core.run (messageStep hash) w l)) :
    Every (messageStep hash) (KeepsPins hash channelId) w rs := by
  induction rs generalizing w used with
  | nil => trivial
  | cons r rs ih =>
    have hkept : KeepsPins hash channelId w r := keepsPins_of_step hc (h [r] ⟨rs, rfl⟩)
    have hnext := inStep_step hc (not_mem_of_fresh hfresh) hkept
    rw [newIds_cons] at hfresh
    exact ⟨hkept, ih hnext hfresh fun l hl => h (r :: l) ((List.prefix_cons_inj r).2 hl)⟩

/-- **Pins stay in order as long as no pinned message is deleted and no 50th one is pinned.** New messages have ids of
their own. -/
theorem pinsOk_iff (it : Iteration) (hash : String → String) (channelId : ℤ) (w : World) (rs : List MessageRequest)
    (h : (rs.filterMap MessageRequest.newId?).Nodup) :
    (∀ l, l <+: rs → PinsOk it channelId (Core.run (messageStep hash) (noMessages w) l)) ↔
      Every (messageStep hash) (KeepsPins hash channelId) (noMessages w) rs := by
  refine ⟨every_of_pinsOk (inStep_noMessages channelId w) h, fun hrs l hl => ?_⟩
  refine pinsOk_of_every (inStep_noMessages channelId w) ?_ (hrs.of_prefix hl) it
  exact h.sublist (hl.sublist.filterMap _)

def inOrder : Iteration := ⟨fun groups => groups, fun _ => .refl _⟩

/-- user 1 says hello in channel 101, pins it and deletes it -/
def pinTrace : List MessageRequest :=
  [.sendMessage 1 101 hello ⟨7⟩ ⟨10⟩, .pinMessage 1 101 7 ⟨20⟩, .deleteMessage 1 101 7]

theorem pinsOk_iff_pinTrace : (pinTrace.filterMap MessageRequest.newId?).Nodup ∧
    ((∀ l, l <+: pinTrace → PinsOk inOrder 101 (Core.run (messageStep fun s => s) (noMessages joined) l)) ↔
      Every (messageStep fun s => s) (KeepsPins (fun s => s) 101) (noMessages joined) pinTrace) :=
  ⟨by decide, pinsOk_iff inOrder (fun s => s) 101 joined pinTrace (by decide)⟩

def deletedPin : World := Core.run (messageStep fun s => s) (noMessages joined) pinTrace

/-- the row stays, and `get_pins` does not find the message -/
theorem deleted_pin : ¬ PinsOk inOrder 101 deletedPin := by
  intro h
  have hpin : Pinned 101 7 deletedPin.chat := by decide
  obtain ⟨messages, hrun, -, hids⟩ := h.shown 1 (by decide)
  have hread : ((getPins inOrder 1 101).run Effect.exec deletedPin).1 = .ok [] := by decide
  have hmem := (hids 7).2 ((h.rows 7).1 hpin)
  rw [hrun] at hread
  rw [Except.ok.inj hread] at hmem
  cases hmem

end Lumiere.Routes
