/-
The flags that `bulk_delete` and `unpin_message` set (`lumiere-server/src/routes/messages.rs`). Neither looks whether a
message with the id is stored, and a CQL UPDATE of a key that is not there inserts it.

- `run_softDeletes`: the rows after the loop of `bulk_delete`.
- `bulkDelete_flags_iff`, `unpinMessage_flags_iff`: the keys stay the same exactly if every id that is written to has a
  row. `flags_iff`: the two together.
- `row_made`: an id that was never sent.
-/
import Lumiere.Routes.RefusedEdits

namespace Lumiere.Routes

open Lumiere.Core Lumiere.Core.Prog Lumiere.Models Lumiere.Db

variable {w : World} {auth channelId messageId : ℤ} {c c' : Chat}

/-- the keys are as before, and the rows too, but for the flag of those with an id of the list in the channel -/
structure FlagsOnly (channelId : ℤ) (ids : List ℤ) (flag : MessageRow → MessageRow) (c c' : Chat) : Prop where
  keys : ∀ k, (c'.message? k).isSome = (c.message? k).isSome
  rows : ∀ k r, c.message? k = some r →
    c'.message? k = some r ∨ k.channelId = channelId ∧ k.messageId ∈ ids ∧ c'.message? k = some (flag r)

theorem FlagsOnly.refl {ids : List ℤ} {flag : MessageRow → MessageRow} : FlagsOnly channelId ids flag c c :=
  ⟨fun _ => rfl, fun _ _ h => .inl h⟩

/-- the flag has been set in the rows of the keys, made where there was none -/
structure FlagSet (keys : MessageKey → Prop) (flag : MessageRow → MessageRow) (c c' : Chat) : Prop where
  written : ∀ k, keys k → c'.message? k = some (flag (c.row k))
  others : ∀ k, ¬ keys k → c'.message? k = c.message? k

theorem flagsOnly_iff {keys : MessageKey → Prop} {ids : List ℤ} {flag : MessageRow → MessageRow}
    (h : FlagSet keys flag c c') (hkeys : ∀ k, keys k → k.channelId = channelId ∧ k.messageId ∈ ids) :
    FlagsOnly channelId ids flag c c' ↔ ∀ k, keys k → (c.message? k).isSome = true := by
  constructor
  · intro hflags k hk
    rw [← hflags.keys, h.written k hk]
    rfl
  · intro hthere
    refine ⟨fun k => ?_, fun k r hr => ?_⟩
    · by_cases hk : keys k
      · rw [h.written k hk, hthere k hk]
        rfl
      · rw [h.others k hk]
    · by_cases hk : keys k
      · obtain ⟨hchannel, hid⟩ := hkeys k hk
        refine .inr ⟨hchannel, hid, ?_⟩
        rw [h.written k hk, Chat.row_of_some hr]
      · exact .inl ((h.others k hk).trans hr)

theorem flagSet_apply {q : Cql} {key : MessageKey} {flag : MessageRow → MessageRow} (htarget : q.target? = some key)
    (hcolumns : ∀ r, q.columns r = flag r) (c : Chat) : FlagSet (fun k => k = key) flag c (q.apply c) where
  written k hk := by rw [Cql.message?_apply, if_pos (hk ▸ htarget), hcolumns]
  others k hk := by
    rw [Cql.message?_apply, if_neg]
    rw [htarget]
    exact fun h => hk (Option.some.inj h).symm

/-- a flag that is set twice is set -/
theorem FlagSet.trans {K K' : MessageKey → Prop} {flag : MessageRow → MessageRow} {c₁ : Chat}
    (hflag : ∀ r, flag (flag r) = flag r) (h : FlagSet K flag c c₁) (h' : FlagSet K' flag c₁ c') :
    FlagSet (fun k => K k ∨ K' k) flag c c' where
  written k hk := by
    by_cases hk' : K' k
    · rw [h'.written k hk', Chat.row]
      by_cases hkey : K k
      · rw [h.written k hkey, Option.getD_some, hflag]
      · rw [h.others k hkey, Chat.row]
    · rw [h'.others k hk', h.written k (hk.resolve_right hk')]
  others k hk := by
    rw [not_or] at hk
    rw [h'.others k hk.2, h.others k hk.1]

theorem FlagSet.congr {K K' : MessageKey → Prop} {flag : MessageRow → MessageRow} (h : FlagSet K flag c c')
    (hkeys : ∀ k, K' k ↔ K k) : FlagSet K' flag c c' :=
  ⟨fun k hk => h.written k ((hkeys k).1 hk), fun k hk => h.others k fun hK => hk ((hkeys k).2 hK)⟩

/-! ## `bulk_delete` -/

def markDeleted (r : MessageRow) : MessageRow := { r with deleted := some true }

theorem flagSet_softDelete {key : MessageKey} (c : Chat) :
    FlagSet (fun k => k = key) markDeleted c ((Cql.softDelete key).apply c) :=
  @flagSet_apply (.softDelete key) key markDeleted rfl (fun _ => rfl) c

/-- the keys that the loop writes -/
def Deletes (channelId : ℤ) (failed : ℕ → Bool) (entries : List (ℤ × ℕ)) (k : MessageKey) : Prop :=
  ∃ p ∈ entries, failed p.2 = false ∧ k = messageKey channelId p.1

theorem deletes_cons {failed : ℕ → Bool} {entry : ℤ × ℕ} {entries : List (ℤ × ℕ)} (k : MessageKey) :
    Deletes channelId failed (entry :: entries) k ↔
      (failed entry.2 = false ∧ k = messageKey channelId entry.1) ∨ Deletes channelId failed entries k := by
  simp [Deletes]

/-- the loop of `bulk_delete` -/
def softDeletes (channelId : ℤ) (failed : ℕ → Bool) (entries : List (ℤ × ℕ)) : Route PUnit :=
  entries.forM fun (id, i) => when (!failed i) (execute (.cql (.softDelete (messageKey channelId id))))

theorem run_softDeletes (channelId : ℤ) (failed : ℕ → Bool) (entries : List (ℤ × ℕ)) (w : World) :
    ∃ c, (softDeletes channelId failed entries).run Effect.exec w = (.ok (), { w with chat := c }) ∧
      FlagSet (Deletes channelId failed entries) markDeleted w.chat c := by
  induction entries generalizing w with
  | nil => exact ⟨w.chat, rfl, ⟨fun k ⟨_, h, _⟩ => absurd h List.not_mem_nil, fun _ _ => rfl⟩⟩
  | cons entry entries ih =>
    obtain ⟨id, i⟩ := entry
    rcases hfailed : failed i with _ | _
    · have hfirst : (when (!failed i) (execute (.cql (.softDelete (messageKey channelId id)))) : Route PUnit).run
          Effect.exec w = (.ok (), { w with chat := (Cql.softDelete (messageKey channelId id)).apply w.chat }) := by
        rw [hfailed]
        rfl
      obtain ⟨c, hrest, hset⟩ := ih { w with chat := (Cql.softDelete (messageKey channelId id)).apply w.chat }
      have hkey : FlagSet (fun k => k = messageKey channelId id) markDeleted w.chat
          ((Cql.softDelete (messageKey channelId id)).apply w.chat) := flagSet_softDelete w.chat
      have htwice : ∀ r, markDeleted (markDeleted r) = markDeleted r := fun _ => rfl
      refine ⟨c, (run_bind_of_ok hfirst).trans hrest, (hkey.trans htwice hset).congr fun k => ?_⟩
      rw [deletes_cons, hfailed, and_iff_right rfl]
    · have hfirst : (when (!failed i) (execute (.cql (.softDelete (messageKey channelId id)))) : Route PUnit).run
          Effect.exec w = (.ok (), w) := by
        rw [hfailed]
        rfl
      obtain ⟨c, hrest, hset⟩ := ih w
      refine ⟨c, (run_bind_of_ok hfirst).trans hrest, hset.congr fun k => ?_⟩
      rw [deletes_cons, hfailed]
      simp

/-- the actor may delete messages in bulk in the channel -/
structure MayBulkDelete (pg : Postgres) (auth channelId : ℤ) (messages : List ℤ) : Prop where
  access : ∃ serverId, MayAccess pg channelId auth .manageMessages serverId
  length : 2 ≤ messages.length ∧ messages.length ≤ 100

/-- every id whose soft delete gets through has a row -/
def AllStored (c : Chat) (channelId : ℤ) (messages : List ℤ) (failed : ℕ → Bool) : Prop :=
  ∀ p ∈ messages.zipIdx, failed p.2 = false → (c.message? (messageKey channelId p.1)).isSome = true

/-- the channel check alone, which does not care in which server the channel is -/
theorem mayAccess_iff {perm : Permissions} :
    (∃ serverId, (onPg (checkChannelPermission channelId auth perm)).run Effect.exec w = (.ok serverId, w)) ↔
      ∃ serverId, MayAccess w.pg channelId auth perm serverId := by
  simp only [run_onPg_ok readOnly_checkChannelPermission, checkChannelPermission_iff, and_true]

/-- a handler that checks the channel and then writes whatever it likes -/
theorem ends_channelCheck {perm : Permissions} {p : Route Unit} {P : World → Prop} (hP : P w) :
    (do let _ ← onPg (checkChannelPermission channelId auth perm); p : Route Unit).Ends Effect.exec w
        (fun _ => P) (fun _ => P) ↔
      ((∃ serverId, MayAccess w.pg channelId auth perm serverId) →
        p.Ends Effect.exec w (fun _ => P) fun _ => P) := by
  rw [ends_checked readOnly_check fun _ => hP, ← mayAccess_iff, forall_exists_index]

/-- the events of `bulk_delete` -/
def announceDeletes (channelId : ℤ) (messages : List ℤ) (failed : ℕ → Bool) : Route Unit := do
  let errors := (messages.zipIdx.filter fun p => failed p.2).map Prod.fst
  let deletedIds := messages.filter fun id => id ∉ errors
  execute (.publish ⟨channelMessages channelId, .messageDeleteBulk channelId deletedIds⟩)
  execute (.publishDurable ⟨persistMessages channelId, .messageDeleteBulk channelId deletedIds⟩)

theorem bulkDelete_eq {messages : List ℤ} {failed : ℕ → Bool} : bulkDelete auth channelId messages failed = (do
    let _ ← onPg (checkChannelPermission channelId auth .manageMessages)
    failIf (messages.length < 2 || 100 < messages.length) (.badRequest "Must provide 2-100 message IDs")
    softDeletes channelId failed messages.zipIdx
    announceDeletes channelId messages failed) := rfl

theorem bulkDelete_flags_iff (w : World) (auth channelId : ℤ) (messages : List ℤ) (failed : ℕ → Bool) :
    FlagsOnly channelId messages markDeleted w.chat
        ((bulkDelete auth channelId messages failed).run Effect.exec w).2.chat ↔
      (MayBulkDelete w.pg auth channelId messages → AllStored w.chat channelId messages failed) := by
  obtain ⟨c, hrun, hset⟩ := run_softDeletes channelId failed messages.zipIdx w
  have hkeys : ∀ k, Deletes channelId failed messages.zipIdx k → k.channelId = channelId ∧ k.messageId ∈ messages := by
    intro k ⟨p, hp, _, hk⟩
    subst hk
    exact ⟨rfl, List.fst_mem_of_mem_zipIdx hp⟩
  have hstored : (∀ k, Deletes channelId failed messages.zipIdx k → (w.chat.message? k).isSome = true) ↔
      AllStored w.chat channelId messages failed := by
    constructor
    · intro h p hp hok
      exact h _ ⟨p, hp, hok, rfl⟩
    · intro h k ⟨p, hp, hok, hk⟩
      rw [hk]
      exact h p hp hok
  have hrest : (announceDeletes channelId messages failed).Ends Effect.exec { w with chat := c }
      (fun _ w' => FlagsOnly channelId messages markDeleted w.chat w'.chat)
      (fun _ w' => FlagsOnly channelId messages markDeleted w.chat w'.chat) ↔
        AllStored w.chat channelId messages failed := by
    rw [← hstored, ← flagsOnly_iff hset hkeys]
    exact Iff.rfl
  rw [← ends_state (P := fun w' : World => FlagsOnly channelId messages markDeleted w.chat w'.chat), bulkDelete_eq,
    ends_channelCheck FlagsOnly.refl, ends_bind, ends_failIf, and_iff_right fun _ => FlagsOnly.refl, ends_bind,
    ends_of_ok hrun, hrest]
  have hlength : (¬ (messages.length < 2 || 100 < messages.length) = true) ↔
      2 ≤ messages.length ∧ messages.length ≤ 100 := by
    simp only [Bool.or_eq_true, decide_eq_true_eq]
    omega
  rw [hlength]
  constructor
  · intro h hallowed
    exact h hallowed.access hallowed.length
  · intro h haccess hlength
    exact h ⟨haccess, hlength⟩

/-! ## `unpin_message` -/

def markUnpinned (r : MessageRow) : MessageRow := { r with pinned := some false }

theorem flagSet_unsetPinned {key : MessageKey} (c : Chat) :
    FlagSet (fun k => k = key) markUnpinned c ((Cql.unsetPinned key).apply c) :=
  @flagSet_apply (.unsetPinned key) key markUnpinned rfl (fun _ => rfl) c

/-- what `unpin_message` does after its check -/
def unpinWrites (channelId messageId : ℤ) : Route Unit := do
  execute (.cql (.unsetPinned (messageKey channelId messageId)))
  execute (.cql (.deletePin channelId messageId))
  execute (.publish ⟨channelMessages channelId, .channelPinsUpdate channelId⟩)

theorem unpinMessage_eq : unpinMessage auth channelId messageId = (do
    let _ ← onPg (checkChannelPermission channelId auth .manageMessages)
    unpinWrites channelId messageId) := rfl

theorem run_unpinWrites (w : World) (channelId messageId : ℤ) :
    ∃ w', (unpinWrites channelId messageId).run Effect.exec w = (.ok (), w') ∧
      FlagSet (fun k => k = messageKey channelId messageId) markUnpinned w.chat w'.chat :=
  ⟨_, rfl, (flagSet_unsetPinned w.chat).written, (flagSet_unsetPinned w.chat).others⟩

theorem unpinMessage_flags_iff (w : World) (auth channelId messageId : ℤ) :
    FlagsOnly channelId [messageId] markUnpinned w.chat
        ((unpinMessage auth channelId messageId).run Effect.exec w).2.chat ↔
      ((∃ serverId, MayAccess w.pg channelId auth .manageMessages serverId) →
        (w.chat.message? (messageKey channelId messageId)).isSome = true) := by
  obtain ⟨w', hrun, hset⟩ := run_unpinWrites w channelId messageId
  have hkeys : ∀ k, k = messageKey channelId messageId → k.channelId = channelId ∧ k.messageId ∈ [messageId] := by
    intro k hk
    subst hk
    exact ⟨rfl, List.mem_singleton_self _⟩
  rw [← ends_state (P := fun w' : World => FlagsOnly channelId [messageId] markUnpinned w.chat w'.chat),
    unpinMessage_eq, ends_channelCheck FlagsOnly.refl, ends_of_ok hrun, flagsOnly_iff hset hkeys, forall_eq]

/-- **`bulk_delete` and `unpin_message` make no rows exactly if every id they write to has one.** -/
theorem flags_iff (w : World) (auth channelId messageId : ℤ) (messages : List ℤ) (failed : ℕ → Bool) :
    (FlagsOnly channelId messages markDeleted w.chat
        ((bulkDelete auth channelId messages failed).run Effect.exec w).2.chat ↔
      (MayBulkDelete w.pg auth channelId messages → AllStored w.chat channelId messages failed)) ∧
    (FlagsOnly channelId [messageId] markUnpinned w.chat
        ((unpinMessage auth channelId messageId).run Effect.exec w).2.chat ↔
      ((∃ serverId, MayAccess w.pg channelId auth .manageMessages serverId) →
        (w.chat.message? (messageKey channelId messageId)).isSome = true)) :=
  ⟨bulkDelete_flags_iff w auth channelId messages failed, unpinMessage_flags_iff w auth channelId messageId⟩

/-- **The owner unpins an id that was never sent, and deletes two of them, and there are rows.** -/
theorem row_made :
    joined.chat.message? (messageKey 101 4194304) = none ∧
    (((unpinMessage 1 101 4194304).run Effect.exec joined).2.chat.message? (messageKey 101 4194304)).isSome = true ∧
    (((bulkDelete 1 101 [4194304, 8388608] fun _ => false).run Effect.exec joined).2.chat.message?
      (messageKey 101 4194304)).isSome = true := by
  decide

end Lumiere.Routes
