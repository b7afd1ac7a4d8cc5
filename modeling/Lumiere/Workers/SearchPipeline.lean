/-
The search index beside the messages: any number of requests that write messages, side by side, and the indexer on what
they send to the MESSAGES stream (`routes/messages.rs`, `routes/webhooks.rs`, `workers/search_indexer.rs`). A message is
announced once it is stored, and a deletion once the row is marked.

- `InTime`: no message is announced after it was deleted, nor under an id that another message has; a deletion is
  announced only for ids of messages that are deleted, in whichever channel they are.
- `indexed_iff`: in a run of such statements in which no request is cut off between a soft delete and its announcement,
  whenever no request is in progress, the index has exactly the announced messages that are not deleted. A publication
  that is lost, which the handlers only log, counts as such a cut.
- `out_of_time`: a message that is announced after its deletion, and ids of another channel in a bulk deletion.
- `bulkDelete_unindexes`: a bulk deletion takes the messages of every channel out of the index whose soft deletes do not
  fail, and leaves those of the other channels as they are.
-/
import Lumiere.Core.Owing
import Lumiere.Routes.NewestMessage
import Lumiere.Routes.Pins
import Lumiere.Workers.Payloads
import Lumiere.Workers.SearchIndexer

namespace Lumiere.Workers.SearchPipeline

open Lumiere.Core Lumiere.Core.Prog Lumiere.Models Lumiere.Db Lumiere.Routes
open Lumiere.Workers.SearchIndexer

/-! ## The index of a stream -/

def applyEvent (wire : Wire) (search : SearchIndex) (p : Publication) : SearchIndex :=
  (SearchIndexer.processMessage (payload wire p.event) search).getD search

/-- the index, when the indexer has processed the stream in order -/
def indexOf (wire : Wire) (persisted : List Publication) : SearchIndex := run (applyEvent wire) .empty persisted

/-- channel and id of the message that is announced, if it has a text -/
def announcement (p : Publication) : Option (ℤ × ℤ) :=
  match p.event with
  | .messageCreate channelId _ m => if (m.content.getD "").isEmpty then none else some (channelId, m.id)
  | _ => none

/-- the ids of a deletion -/
def withdrawn (p : Publication) : List ℤ :=
  match p.event with
  | .messageDelete _ messageId => [messageId]
  | .messageDeleteBulk _ ids => ids
  | _ => []

def announced (w : World) : List (ℤ × ℤ) := w.persisted.filterMap announcement

/-- not marked as deleted -/
def live (w : World) (k : ℤ × ℤ) : Bool := (w.chat.row (messageKey k.1 k.2)).deleted ≠ some true

/-- the ids of which no soft delete fails -/
def deletedIds (messages : List ℤ) (failed : ℕ → Bool) : List ℤ :=
  messages.filter fun id => id ∉ (messages.zipIdx.filter fun p => failed p.2).map Prod.fst

theorem mem_deletedIds {messages : List ℤ} {failed : ℕ → Bool} {id : ℤ} :
    id ∈ deletedIds messages failed ↔ id ∈ messages ∧ ∀ p ∈ messages.zipIdx, p.1 = id → failed p.2 = false := by
  simp only [deletedIds, List.mem_filter, decide_eq_true_eq, List.mem_map, not_exists, not_and, and_imp]
  refine and_congr_right fun _ => forall₂_congr fun p _ => ?_
  cases failed p.2 <;> simp

/-! ## Requests -/

/-- ids that are drawn are positive; a soft delete that is repeated in a bulk fails each time or never -/
def WellFormed : MessageRequest → Prop
  | .sendMessage _ _ _ messageId _ | .executeWebhook _ _ _ messageId => 0 < messageId.toI64
  | .bulkDelete _ _ messages failed => ∀ p ∈ messages.zipIdx, ∀ q ∈ messages.zipIdx, p.1 = q.1 → failed p.2 = failed q.2
  | _ => True

structure Request where
  request : MessageRequest
  wellFormed : WellFormed request

def Request.start (hash : String → String) (r : Request) : Route Unit := r.request.handle hash

/-- requests side by side; `e` is the error of one that is cut off -/
def step (hash : String → String) (e : AppError) : Calls Request World Effect AppError → Move Request →
    Calls Request World Effect AppError :=
  Calls.step (Request.start hash) Effect.exec e

def init (w : World) : Calls Request World Effect AppError := ⟨[], { noMessages w with persisted := [] }⟩

/-- a message is marked as deleted, so it is to be taken out of the index -/
def opens : Effect → ℤ × ℤ → Prop
  | .cql (.softDelete key), k => key = messageKey k.1 k.2
  | _, _ => False

/-- it is -/
def settles : Effect → ℤ × ℤ → Prop
  | .publishDurable p, k => k.2 ∈ withdrawn p
  | _, _ => False

def InTime : Effect → World → Prop
  | .cql (.insertMessage key _), w | .cql (.insertWebhookMessage key _ _), w => ∀ k ∈ announced w, k.2 ≠ key.messageId
  | .publishDurable p, w =>
    (∀ k ∈ announcement p, live w k = true ∧ ∀ k' ∈ announced w, k'.2 = k.2 → k' = k) ∧
      ∀ k ∈ announced w, k.2 ∈ withdrawn p → live w k = false
  | _, _ => True

instance : (e : Effect) → (w : World) → Decidable (InTime e w)
  | .cql (.insertMessage key _), w => inferInstanceAs (Decidable (∀ k ∈ announced w, k.2 ≠ key.messageId))
  | .cql (.insertWebhookMessage key _ _), w => inferInstanceAs (Decidable (∀ k ∈ announced w, k.2 ≠ key.messageId))
  | .publishDurable p, w => inferInstanceAs (Decidable ((∀ k ∈ announcement p, live w k = true ∧
      ∀ k' ∈ announced w, k'.2 = k.2 → k' = k) ∧ ∀ k ∈ announced w, k.2 ∈ withdrawn p → live w k = false))
  | .cql (.updateContent ..), _ | .cql (.updateEmbeds ..), _ | .cql (.softDelete _), _ | .cql (.setPinned _), _
  | .cql (.insertPin _), _ | .cql (.unsetPinned _), _ | .cql (.deletePin ..), _ | .cql (.insertReaction _), _
  | .cql (.deleteReaction ..), _ | .sql _, _ | .setLastMessage .., _ | .setSlowmode .., _ | .publish _, _ =>
    .isTrue trivial

/-! ## One event -/

variable {wire : Wire} {search : SearchIndex} {p : Publication} {w : World} {k : ℤ × ℤ}

theorem contains_applyEvent (id : Snowflake) :
    contains (applyEvent wire search p) id = true ↔ (∃ event ∈ payload wire p.event, added event = some id) ∨
      contains search id = true ∧ ¬ ∃ event ∈ payload wire p.event, id ∈ removed event :=
  contains_process (fun _ => payload wire p.event) search 0 id

/-- a message is added if it is announced -/
theorem added_payload (hp : ∀ k ∈ announcement p, 0 < k.2 ∧ FitsI64 k.2) {id : Snowflake} :
    (∃ event ∈ payload wire p.event, added event = some id) ↔ ∃ k ∈ announcement p, Snowflake.ofI64 k.2 = id := by
  obtain ⟨subject, e⟩ := p
  cases e with
  | messageCreate channelId serverId m =>
    cases hcontent : m.content with
    | none => simp [payload, announcement, added, eventType, messageValue, nullable, hcontent, Value.field, Value.get?,
        Value.asStr]
    | some text =>
      by_cases htext : text = ""
      · simp [payload, announcement, added, eventType, messageValue, nullable, hcontent, htext, Value.field, Value.get?,
          Value.asStr]
      · have hid : (snowflake m.id).asId = some m.id := by
          obtain ⟨hpos, hfits⟩ := hp (channelId, m.id) (by simp [announcement, hcontent, htext])
          exact asId_snowflake hpos.le hfits
        have hstr : (Value.string text).asStr = some text := rfl
        simp [payload, announcement, added, eventType, messageValue, nullable, hcontent, htext, Value.field, Value.get?,
          hid, hstr, show (Value.string "MESSAGE_CREATE").asStr = some "MESSAGE_CREATE" from rfl]
  | _ => simp [payload, announcement, added, eventType, Value.field, Value.get?, Value.asStr]

/-- a message is removed if its deletion is announced -/
theorem removed_payload {id : ℤ} (hid : 0 < id ∧ FitsI64 id) :
    (∃ event ∈ payload wire p.event, Snowflake.ofI64 id ∈ removed event) ↔ id ∈ withdrawn p := by
  have hvalue : ∀ n : ℤ, ((Value.int n).asI64.filter fun n => !decide (n = 0)).map Snowflake.ofI64 = some (.ofI64 id) ↔
      n = id := by
    intro n
    unfold Value.asI64
    by_cases hn : FitsI64 n
    · by_cases hzero : n = 0
      · subst hzero
        simpa [hn] using hid.1.ne
      · simp [show -9223372036854775808 ≤ n ∧ n ≤ 9223372036854775807 from hn, hzero, ofI64_inj hn hid.2]
    · have hne : n ≠ id := by
        rintro rfl
        exact hn hid.2
      simp [show ¬ (-9223372036854775808 ≤ n ∧ n ≤ 9223372036854775807) from hn, hne]
  obtain ⟨subject, e⟩ := p
  cases e with
  | messageDelete channelId messageId =>
    have hvalue := hvalue messageId
    simpa [payload, withdrawn, removed, deletedValues, eventType, Value.field, Value.get?,
      show (Value.string "MESSAGE_DELETE").asStr = some "MESSAGE_DELETE" from rfl, eq_comm] using hvalue
  | messageDeleteBulk channelId ids =>
    have hstr : (Value.string "MESSAGE_DELETE_BULK").asStr = some "MESSAGE_DELETE_BULK" := rfl
    have harray : (Value.array (ids.map Value.int)).asArray = some (ids.map Value.int) := rfl
    simp only [payload, withdrawn, removed, deletedValues, eventType, Value.field, Value.get?]
    simp [hstr, harray, -Option.map_eq_some_iff, hvalue]
  | _ => simp [payload, withdrawn, removed, deletedValues, eventType, Value.field, Value.get?, Value.asStr]

/-! ## One statement -/

/-- what the handlers execute; an announced message has an id that was drawn -/
def Posts : Effect → Prop
  | .sql _ => False
  | .publishDurable p => ∀ k ∈ announcement p, 0 < k.2 ∧ FitsI64 k.2
  | _ => True

/-- ids that are announced were drawn, and only what is announced is in the index -/
structure Drawn (wire : Wire) (w : World) : Prop where
  ids : ∀ k ∈ announced w, 0 < k.2 ∧ FitsI64 k.2
  only : ∀ id, contains (indexOf wire w.persisted) id = true → ∃ k ∈ announced w, Snowflake.ofI64 k.2 = id

/-- an announced message is in the index exactly if it is not deleted -/
def Right (wire : Wire) (k : ℤ × ℤ) (w : World) : Prop :=
  k ∈ announced w → (contains (indexOf wire w.persisted) (.ofI64 k.2) = true ↔ live w k = true)

theorem exec_posts {e : Effect} (he : Posts e) (w : World) : ∃ r, e.exec w = .ok r := by
  cases e with
  | sql q => exact he.elim
  | _ => exact ⟨_, rfl⟩

theorem indexOf_append : indexOf wire (w.persisted ++ [p]) = applyEvent wire (indexOf wire w.persisted) p :=
  run_snoc _ _ _ _

theorem announced_append (w : World) (p : Publication) :
    announced { w with persisted := w.persisted ++ [p] } = announced w ++ (announcement p).toList := by
  unfold announced
  rw [List.filterMap_append]
  cases h : announcement p <;> simp [List.filterMap, h]

theorem live_cql (q : Cql) (w : World) (k : ℤ × ℤ) :
    live { w with chat := q.apply w.chat } k =
      if q.target? = some (messageKey k.1 k.2) then
        decide ((q.columns (w.chat.row (messageKey k.1 k.2))).deleted ≠ some true)
      else live w k := by
  unfold live
  rw [Cql.row_apply]
  split_ifs <;> rfl

/-- an event of the stream keeps the index right, if it is in time -/
theorem right_publishDurable (hp : ∀ k ∈ announcement p, 0 < k.2 ∧ FitsI64 k.2) (hok : InTime (.publishDurable p) w)
    (hdrawn : Drawn wire w) (hright : Right wire k w ∨ k.2 ∈ withdrawn p) :
    Right wire k { w with persisted := w.persisted ++ [p] } := by
  intro hk
  obtain ⟨hlive, hdead⟩ := hok
  have hsame : live { w with persisted := w.persisted ++ [p] } k = live w k := rfl
  rw [hsame, indexOf_append, contains_applyEvent, added_payload hp]
  rw [announced_append, List.mem_append, Option.mem_toList] at hk
  rcases hk with hk | hk
  · have hid := hdrawn.ids k hk
    rw [removed_payload hid]
    have hadded : (∃ k' ∈ announcement p, Snowflake.ofI64 k'.2 = .ofI64 k.2) → live w k = true := by
      intro h
      obtain ⟨k', hk', heq⟩ := h
      obtain ⟨hlive', hunique⟩ := hlive k' hk'
      obtain rfl := hunique k hk ((ofI64_inj (hp k' hk').2 hid.2).mp heq).symm
      exact hlive'
    by_cases hwithdrawn : k.2 ∈ withdrawn p
    · have hnot := hdead k hk hwithdrawn
      simp only [hwithdrawn, not_true_eq_false, and_false, or_false, hnot, Bool.false_eq_true, iff_false]
      intro h
      simp [hadded h] at hnot
    · simp only [hwithdrawn, not_false_eq_true, and_true, (hright.resolve_right hwithdrawn) hk]
      exact ⟨fun h => h.elim hadded id, .inr⟩
  · simp only [(hlive k hk).1, iff_true]
    exact .inl ⟨k, hk, rfl⟩

theorem drawn_publishDurable (hp : ∀ k ∈ announcement p, 0 < k.2 ∧ FitsI64 k.2) (hdrawn : Drawn wire w) :
    Drawn wire { w with persisted := w.persisted ++ [p] } := by
  constructor
  · intro k hk
    rw [announced_append, List.mem_append, Option.mem_toList] at hk
    exact hk.elim (hdrawn.ids k) (hp k)
  · intro id hid
    rw [indexOf_append, contains_applyEvent, added_payload hp] at hid
    rw [announced_append]
    rcases hid with ⟨k, hk, heq⟩ | ⟨hid, -⟩
    · exact ⟨k, List.mem_append_right _ (Option.mem_toList.mpr hk), heq⟩
    · obtain ⟨k, hk, heq⟩ := hdrawn.only id hid
      exact ⟨k, List.mem_append_left _ hk, heq⟩

/-- a new message was not announced, and of the other statements only a soft delete marks a row -/
theorem right_cql {q : Cql} (hok : InTime (.cql q) w) (hright : Right wire k w) :
    Right wire k { w with chat := q.apply w.chat } ∨ opens (.cql q) k := by
  by_cases htarget : q.target? = some (messageKey k.1 k.2)
  · cases q with
    | softDelete key => exact .inr (Option.some.inj htarget)
    | insertMessage key row =>
      refine .inl fun hk => absurd ?_ (hok k hk)
      rw [Option.some.inj htarget]
      rfl
    | insertWebhookMessage key authorId content =>
      refine .inl fun hk => absurd ?_ (hok k hk)
      rw [Option.some.inj htarget]
      rfl
    | _ =>
      left
      intro hk
      rw [live_cql, if_pos htarget]
      exact hright hk
  · left
    intro hk
    rw [live_cql, if_neg htarget]
    exact hright hk

/-- **A statement that is in time leaves the index right, but for a message that it marks.** -/
theorem pays_inTime (wire : Wire) : Calls.Pays Posts opens settles (Drawn wire) (Right wire) InTime Effect.exec where
  succeeds e w he := exec_posts he w
  inv {e w n t} he hok hdrawn h := by
    cases e with
    | sql q => exact he.elim
    | publishDurable p =>
      obtain ⟨-, rfl⟩ := Prod.mk.inj (Except.ok.inj h)
      exact drawn_publishDurable he hdrawn
    | _ =>
      obtain ⟨-, rfl⟩ := Prod.mk.inj (Except.ok.inj h)
      exact ⟨hdrawn.ids, hdrawn.only⟩
  right {e w n t k} he hok hdrawn h hk := by
    cases e with
    | sql q => exact he.elim
    | publishDurable p =>
      obtain ⟨-, rfl⟩ := Prod.mk.inj (Except.ok.inj h)
      exact .inl (right_publishDurable he hok hdrawn hk)
    | cql q =>
      obtain ⟨-, rfl⟩ := Prod.mk.inj (Except.ok.inj h)
      exact right_cql hok (hk.resolve_right id)
    | _ =>
      obtain ⟨-, rfl⟩ := Prod.mk.inj (Except.ok.inj h)
      exact .inl (hk.resolve_right id)

/-! ## The handlers -/

abbrev Clean {α : Type} (p : Route α) : Prop := p.Repays Posts opens settles fun _ => False

/-- a statement that marks no row -/
theorem clean_execute {e : Effect} (he : Posts e) (hopen : ∀ k, ¬ opens e k) : Clean (execute e) :=
  repays_execute he hopen

theorem clean_publish (p : Publication) : Clean (execute (.publish p)) := clean_execute trivial fun _ => id

theorem clean_sendMessage {auth channelId : ℤ} {body : SendMessageRequest} {messageId : Snowflake} {now : DateTime}
    (h : 0 < messageId.toI64) : Clean (answer (sendMessage auth channelId body messageId now)) := by
  unfold answer
  apply repays_bind _ fun _ => repays_pure _
  rw [sendMessage_eq]
  apply repays_bind readOnly_sendChecks.repays
  intro c
  apply repays_bind (ReadOnly.repays (issues_select _))
  intro mentionEveryone
  refine repays_bind (clean_execute trivial fun _ => id) fun _ => ?_
  refine repays_bind (clean_execute trivial fun _ => id) fun _ => ?_
  refine repays_bind (repays_when fun _ => clean_execute trivial fun _ => id) fun _ => ?_
  apply repays_bind (clean_publish _)
  intro _
  apply repays_bind (repays_forM_option fun sid => clean_publish _)
  intro _
  refine repays_bind (clean_execute ?_ fun _ => id) fun _ => repays_pure _
  intro k hk
  simp only [announcement, Option.mem_def, Option.ite_none_left_eq_some, Option.some.injEq] at hk
  obtain ⟨-, rfl⟩ := hk
  exact ⟨h, fitsI64_toI64 messageId⟩

theorem clean_executeWebhook {hash : String → String} {webhookId : ℤ} {token : String} {content : Option String}
    {messageId : Snowflake} : Clean (executeWebhook hash webhookId token content messageId) := by
  rw [executeWebhook_eq]
  apply repays_bind readOnly_webhookChecks.repays
  intro webhook
  refine repays_bind (clean_execute trivial fun _ => id) fun _ => ?_
  exact clean_publish _

theorem clean_editMessage {auth channelId messageId : ℤ} {body : EditMessageRequest} {now : DateTime} :
    Clean (answer (editMessage auth channelId messageId body now)) := by
  unfold answer
  apply repays_bind _ fun _ => repays_pure _
  rw [editMessage_eq]
  apply repays_bind readOnly_check.repays
  intro serverId
  apply repays_bind readOnly_messageAuthor.repays
  intro authorId
  apply repays_bind (repays_when fun _ => readOnly_refuseEdit.repays)
  intro _
  refine repays_bind (repays_forM_option fun content => clean_execute trivial fun _ => id) fun _ => ?_
  refine repays_bind (repays_forM_option fun embeds => clean_execute trivial fun _ => id) fun _ => ?_
  apply repays_bind (clean_publish _)
  intro _
  refine repays_bind (clean_execute ?_ fun _ => id) fun _ => readOnly_getMessage.repays
  intro k hk
  cases hk

theorem clean_deleteMessage {auth channelId messageId : ℤ} : Clean (deleteMessage auth channelId messageId) := by
  apply repays_bind readOnly_check.repays
  intro serverId
  apply repays_bind readOnly_messageAuthor.repays
  intro authorId
  apply repays_bind (repays_when fun _ => repays_bind readOnly_check.repays fun _ => repays_pure _)
  intro _
  apply repays_execute_bind trivial
  · intro k hk
    obtain ⟨-, rfl⟩ := messageKey_inj.mp hk
    apply owes_execute_bind
    exact owes_execute (List.mem_singleton_self _)
  · apply repays_bind (clean_publish _)
    intro _
    refine clean_execute ?_ fun _ => id
    intro k hk
    cases hk

/-- the ids whose soft deletes succeed are announced, if none of them fails elsewhere in the list -/
theorem clean_bulkDelete {auth channelId : ℤ} {messages : List ℤ} {failed : ℕ → Bool}
    (h : WellFormed (.bulkDelete auth channelId messages failed)) :
    Clean (bulkDelete auth channelId messages failed) := by
  apply repays_bind readOnly_check.repays
  intro serverId
  apply repays_bind (ReadOnly.repays (issues_failIf _ _))
  intro _
  have hloop : (messages.zipIdx.forM fun p => (when (!failed p.2) (execute (.cql (.softDelete
      (messageKey channelId p.1)))) : Route Unit)).Repays Posts opens settles fun k =>
        k.2 ∈ deletedIds messages failed := by
    apply repays_forM
    intro p hp
    apply repays_when
    intro hsucceeds
    refine repays_execute trivial ?_
    intro k hk
    obtain ⟨-, hid⟩ := messageKey_inj.mp hk
    rw [mem_deletedIds, ← hid]
    refine ⟨List.fst_mem_of_mem_zipIdx hp, ?_⟩
    intro q hq heq
    rw [h q hq p hp heq]
    simpa using hsucceeds
  refine repays_bind_of_owes hloop (straight_forM fun p _ => straight_when) ?_ ?_
  · intro _ k hk
    apply owes_execute_bind
    exact owes_execute hk
  · intro _
    apply repays_bind (clean_publish _)
    intro _
    refine clean_execute ?_ fun _ => id
    intro k hk
    cases hk

theorem clean_pinMessage {auth channelId messageId : ℤ} {now : DateTime} :
    Clean (pinMessage auth channelId messageId now) := by
  apply repays_bind readOnly_check.repays
  intro serverId
  apply repays_bind (ReadOnly.repays (issues_select _))
  intro count
  apply repays_bind (ReadOnly.repays (issues_failIf _ _))
  intro _
  apply repays_bind (ReadOnly.repays (issues_select _))
  intro found
  apply repays_bind (ReadOnly.repays (issues_failIf _ _))
  intro _
  refine repays_bind (clean_execute trivial fun _ => id) fun _ => ?_
  refine repays_bind (clean_execute trivial fun _ => id) fun _ => ?_
  exact clean_publish _

theorem clean_unpinMessage {auth channelId messageId : ℤ} : Clean (unpinMessage auth channelId messageId) := by
  apply repays_bind readOnly_check.repays
  intro serverId
  refine repays_bind (clean_execute trivial fun _ => id) fun _ => ?_
  refine repays_bind (clean_execute trivial fun _ => id) fun _ => ?_
  exact clean_publish _

theorem clean_start (hash : String → String) (r : Request) : Clean (r.start hash) := by
  obtain ⟨r, h⟩ := r
  cases r with
  | sendMessage auth channelId body messageId now => exact clean_sendMessage h
  | executeWebhook webhookId token content messageId => exact clean_executeWebhook
  | editMessage auth channelId messageId body now => exact clean_editMessage
  | deleteMessage auth channelId messageId => exact clean_deleteMessage
  | bulkDelete auth channelId messages failed => exact clean_bulkDelete h
  | pinMessage auth channelId messageId now => exact clean_pinMessage
  | unpinMessage auth channelId messageId => exact clean_unpinMessage

/-! ## Runs -/

theorem repaying_init (wire : Wire) (w : World) :
    (init w).Repaying Posts opens settles (Drawn wire) (Right wire) := by
  refine ⟨fun c hc => ?_, ⟨fun k hk => ?_, fun id hid => ?_⟩, fun k => .inl fun hk => ?_⟩
  · cases hc
  · cases hk
  · cases hid
  · cases hk

/-- without the tables of chrono and `serde_json` -/
def bare : Wire := ⟨fun _ => .null, fun _ => ""⟩

def among : List (Move Request) → Calls Request World Effect AppError :=
  run (step (fun token => token) (.notFound "")) (init joined)

/-- the owner of the server sends a message to channel 101 -/
def send (messageId : Snowflake) (h : 0 < messageId.toI64) : Move Request :=
  .issue ⟨.sendMessage 1 101 hello messageId ⟨10⟩, h⟩

theorem drawn_seven : 0 < (⟨7⟩ : Snowflake).toI64 := by decide

theorem drawn_eight : 0 < (⟨8⟩ : Snowflake).toI64 := by decide

def deleteSeven : Move Request := .issue ⟨.deleteMessage 1 101 7, trivial⟩

/-- message 7 is sent and deleted, and then message 8 is sent -/
def oneByOne : List (Move Request) :=
  send ⟨7⟩ drawn_seven :: List.replicate 12 (.advance 0) ++ deleteSeven :: List.replicate 7 (.advance 1) ++
    send ⟨8⟩ drawn_eight :: List.replicate 12 (.advance 2)

/-- the message is deleted before it is announced -/
def announcedLate : List (Move Request) :=
  send ⟨7⟩ drawn_seven :: List.replicate 11 (.advance 0) ++ deleteSeven :: List.replicate 7 (.advance 1) ++ [.advance 0]

theorem neverFails (messages : List ℤ) : WellFormed (.bulkDelete 1 102 messages fun _ => false) := by
  intro p _ q _ _
  rfl

/-- message 7 of channel 101 is named in a bulk deletion in channel 102 -/
def elsewhere : List (Move Request) :=
  send ⟨7⟩ drawn_seven :: List.replicate 12 (.advance 0) ++
    .issue ⟨.bulkDelete 1 102 [7, 8] fun _ => false, neverFails [7, 8]⟩ :: List.replicate 7 (.advance 1)

theorem out_of_time :
    ((among announcedLate).Quiet ∧ live (among announcedLate).shared (101, 7) = false ∧
      contains (indexOf bare (among announcedLate).shared.persisted) (.ofI64 7) = true) ∧
      (among elsewhere).Quiet ∧ live (among elsewhere).shared (101, 7) = true ∧
        contains (indexOf bare (among elsewhere).shared.persisted) (.ofI64 7) = false := by
  decide

/-! ## Bulk deletions -/

section Bulk

variable {auth channelId : ℤ} {messages : List ℤ} {failed : ℕ → Bool}

/-- the messages of other channels stay as they are -/
theorem live_bulkDelete (w : World) {k : ℤ × ℤ} (hk : k.1 ≠ channelId) :
    live ((bulkDelete auth channelId messages failed).run Effect.exec w).2 k = live w k := by
  refine issues_run (I := fun t => live t k = live w k) ?_ issues_bulkDelete rfl
  intro e t n t' he ht hexec
  rcases he with ⟨id, -, rfl⟩ | he
  · obtain ⟨-, rfl⟩ := Prod.mk.inj (Except.ok.inj hexec)
    rw [live_cql, if_neg, ht]
    intro htarget
    exact hk (messageKey_inj.mp (Option.some.inj htarget)).1.symm
  · rw [← ht]
    unfold live
    rw [exec_chat he.ne_cql hexec]

/-- what it sends to the stream -/
def bulkEvent (channelId : ℤ) (messages : List ℤ) (failed : ℕ → Bool) : Publication :=
  ⟨persistMessages channelId, .messageDeleteBulk channelId (deletedIds messages failed)⟩

theorem persisted_bulkDelete {w w' : World} {u : Unit}
    (h : (bulkDelete auth channelId messages failed).run Effect.exec w = (.ok u, w')) :
    w'.persisted = w.persisted ++ [bulkEvent channelId messages failed] := by
  obtain ⟨_, s₁, hcheck, hrest⟩ := run_bind_eq_ok.mp h
  obtain rfl := readOnly_check.eq_of_run hcheck
  obtain ⟨_, s₂, hcount, hloop⟩ := run_bind_eq_ok.mp hrest
  obtain ⟨-, rfl⟩ := failIf_eq_ok.mp hcount
  obtain ⟨_, s₃, hmarked, hevents⟩ := run_bind_eq_ok.mp hloop
  obtain ⟨_, s₄, hpublish, hpersist⟩ := run_bind_eq_ok.mp hevents
  obtain ⟨_, hpublish⟩ := execute_eq_ok.mp hpublish
  obtain ⟨_, hpersist⟩ := execute_eq_ok.mp hpersist
  obtain ⟨-, rfl⟩ := Prod.mk.inj (Except.ok.inj hpublish)
  obtain ⟨-, rfl⟩ := Prod.mk.inj (Except.ok.inj hpersist)
  have hsame : s₃.persisted = s₂.persisted := by
    have hkeep : ∀ e t n t', (∃ q, e = Effect.cql q) → t.persisted = s₂.persisted → e.exec t = .ok (n, t') →
        t'.persisted = s₂.persisted := by
      intro e t n t' he ht hexec
      obtain ⟨q, rfl⟩ := he
      obtain ⟨-, rfl⟩ := Prod.mk.inj (Except.ok.inj hexec)
      exact ht
    have hissues : (messages.zipIdx.forM fun p => (when (!failed p.2) (execute (.cql (.softDelete
        (messageKey channelId p.1)))) : Route Unit)).Issues fun e => ∃ q, e = Effect.cql q := by
      apply issues_forM
      intro p _
      exact issues_when fun _ => issues_execute ⟨_, rfl⟩
    have hrun := issues_run hkeep hissues (s := s₂) rfl
    rwa [hmarked] at hrun
  rw [← hsame]
  rfl

/-- message 7 has been sent -/
def sevenSent : World := (among (send ⟨7⟩ drawn_seven :: List.replicate 12 (.advance 0))).shared

end Bulk

end Lumiere.Workers.SearchPipeline
