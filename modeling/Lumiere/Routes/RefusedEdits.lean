/-
What a refused `edit_message` leaves behind (`lumiere-server/src/routes/messages.rs`). The author is looked up in any
row, deleted or not, and SEND_MESSAGES is asked for; the message is read again at the end as `get_message` does, which
asks for READ_MESSAGE_HISTORY and hides deleted rows. By then the columns are written and the events are out.

- `checkChannelPermission_iff`, `editChecks_iff`: what the checks ask for.
- `run_editWrites`: the writes and publications, none of which is refused.
- `editMessage_unchanged_iff`: a refused edit changes nothing exactly if whoever may edit the message may read it too.
- `edited_and_refused`: the author of a deleted message.
-/
import Lumiere.Core.Outcome
import Lumiere.Routes.MessageRequests

namespace Lumiere.Routes

open Lumiere.Core Lumiere.Core.Prog Lumiere.Models Lumiere.Db

variable {w w' : World} {pg : Postgres} {auth userId channelId messageId : ℤ} {perm : Permissions}
  {serverId : Option ℤ} {body : EditMessageRequest} {now : DateTime}

/-! ## The checks -/

/-- the channel is there, in the server or a direct message, and the user has the permission or takes part in it -/
def MayAccess (pg : Postgres) (channelId userId : ℤ) (perm : Permissions) (serverId : Option ℤ) : Prop :=
  (∃ c ∈ pg.channels, c.id = channelId ∧ c.serverId = serverId) ∧
    match serverId with
    | some sid => pg.hasMember sid userId = true ∧ perm ⊆ pg.userPermissions sid userId
    | none => (pg.dmRecipients.any fun r => r.channelId = channelId && r.userId = userId) = true

theorem getChannelServer_iff : (getChannelServer channelId).run statement pg = (.ok serverId, pg) ↔
    ∃ c ∈ pg.channels, c.id = channelId ∧ c.serverId = serverId := by
  simp only [getChannelServer, run_bind_eq_ok, run_select, orFail_eq_ok, run_pure, Prod.mk.injEq, Except.ok.injEq]
  constructor
  · rintro ⟨_, _, ⟨rfl, rfl⟩, c, _, ⟨hfind, rfl⟩, hserver, -⟩
    obtain ⟨hc, hid⟩ := Table.find?_key.1 hfind
    exact ⟨c, hc, hid, hserver⟩
  · rintro ⟨c, hc, hid, hserver⟩
    exact ⟨_, pg, ⟨rfl, rfl⟩, c, pg, ⟨Table.find?_key.2 ⟨hc, hid⟩, rfl⟩, hserver, rfl⟩

theorem checkChannelPermission_iff :
    (checkChannelPermission channelId userId perm).run statement pg = (.ok serverId, pg) ↔
      MayAccess pg channelId userId perm serverId := by
  unfold checkChannelPermission MayAccess
  rw [run_bind_eq_ok]
  constructor
  · rintro ⟨sid, pg', hserver, hcheck⟩
    obtain rfl := readOnly_getChannelServer.eq_of_run hserver
    rcases sid with _ | sid
    · simp only [run_bind_eq_ok, run_select, failIf_eq_ok, run_pure, Prod.mk.injEq, Except.ok.injEq] at hcheck
      obtain ⟨_, _, ⟨rfl, rfl⟩, _, _, ⟨hrecipient, rfl⟩, rfl, -⟩ := hcheck
      refine ⟨getChannelServer_iff.1 hserver, ?_⟩
      simpa using hrecipient
    · obtain ⟨_, pg₁, hperms, hrest⟩ := run_bind_eq_ok.1 hcheck
      obtain ⟨hmember, hperms, rfl⟩ := requirePermissions_eq_ok.1 hperms
      obtain ⟨heq, -⟩ := Prod.mk.inj hrest
      obtain rfl := Except.ok.inj heq
      exact ⟨getChannelServer_iff.1 hserver, hmember, hperms⟩
  · rintro ⟨hserver, hallowed⟩
    refine ⟨serverId, pg, getChannelServer_iff.2 hserver, ?_⟩
    rcases serverId with _ | sid
    · rw [run_bind_of_ok (run_select _), run_bind, run_failIf, if_neg (by simpa using hallowed)]
      rfl
    · rw [run_bind_of_ok (requirePermissions_eq_ok.2 ⟨hallowed.1, hallowed.2, rfl⟩)]
      rfl

/-- the actor may edit the message: it wrote it, or asks for no change and may manage messages -/
structure MayEditMessage (w : World) (auth channelId messageId : ℤ) (body : EditMessageRequest)
    (serverId : Option ℤ) : Prop where
  access : MayAccess w.pg channelId auth .sendMessages serverId
  author : ∃ r a, w.chat.message? (messageKey channelId messageId) = some r ∧ r.authorId = some a ∧
    (a = auth ∨ (body.content.isSome || body.embeds.isSome) = false ∧ ∃ sid, serverId = some sid ∧
      w.pg.hasMember sid auth = true ∧ .manageMessages ⊆ w.pg.userPermissions sid auth)

/-- everything `edit_message` checks before its first write -/
def editChecks (auth channelId messageId : ℤ) (body : EditMessageRequest) : Route Unit := do
  let serverId ← onPg (checkChannelPermission channelId auth .sendMessages)
  let authorId ← messageAuthor channelId messageId
  when (authorId ≠ auth) (refuseEdit auth serverId body)

theorem readOnly_editChecks : (editChecks auth channelId messageId body).ReadOnly :=
  issues_bind readOnly_check fun _ => issues_bind readOnly_messageAuthor fun _ =>
    issues_when fun _ => readOnly_refuseEdit

theorem run_onPg_ok {α : Type} {h : Handler α} (hr : h.ReadOnly) {a : α} :
    (onPg h).run Effect.exec w = (.ok a, w') ↔ h.run statement w.pg = (.ok a, w.pg) ∧ w' = w := by
  rw [run_onPg_readOnly hr, Prod.mk.injEq, eq_comm (a := w)]
  refine and_congr_left fun _ => ?_
  constructor
  · exact fun h' => Prod.ext h' (run_readOnly hr w.pg)
  · exact fun h' => by rw [h']

theorem messageAuthor_iff {a : ℤ} : (messageAuthor channelId messageId).run Effect.exec w = (.ok a, w) ↔
    ∃ r, w.chat.message? (messageKey channelId messageId) = some r ∧ r.authorId = some a := by
  simp only [messageAuthor, run_bind_eq_ok, run_select, orFail_eq_ok, Prod.mk.injEq, Except.ok.injEq]
  constructor
  · rintro ⟨_, _, ⟨rfl, rfl⟩, r, _, ⟨hrow, rfl⟩, hauthor, -⟩
    exact ⟨r, hrow, hauthor⟩
  · rintro ⟨r, hrow, hauthor⟩
    exact ⟨_, w, ⟨rfl, rfl⟩, r, w, ⟨hrow, rfl⟩, hauthor, rfl⟩

theorem refuseEdit_iff {u : Unit} : (refuseEdit auth serverId body).run Effect.exec w = (.ok u, w) ↔
    (body.content.isSome || body.embeds.isSome) = false ∧ ∃ sid, serverId = some sid ∧
      w.pg.hasMember sid auth = true ∧ .manageMessages ⊆ w.pg.userPermissions sid auth := by
  unfold refuseEdit
  rw [run_bind_eq_ok]
  simp only [failIf_eq_ok, Bool.not_eq_true]
  constructor
  · rintro ⟨_, _, ⟨hnone, rfl⟩, hrest⟩
    rcases serverId with _ | sid
    · cases hrest
    · obtain ⟨hmember, hperms, -⟩ := requirePermissions_eq_ok.1 ((run_onPg_ok readOnly_requirePermissions).1 hrest).1
      exact ⟨hnone, sid, rfl, hmember, hperms⟩
  · rintro ⟨hnone, sid, rfl, hmember, hperms⟩
    exact ⟨(), w, ⟨hnone, rfl⟩, (run_onPg_ok readOnly_requirePermissions).2
      ⟨requirePermissions_eq_ok.2 ⟨hmember, hperms, rfl⟩, rfl⟩⟩

theorem editChecks_iff : (editChecks auth channelId messageId body).succeeds Effect.exec w = true ↔
    ∃ serverId, MayEditMessage w auth channelId messageId body serverId := by
  rw [succeeds_iff]
  constructor
  · rintro ⟨_, w', hrun⟩
    rw [editChecks, run_bind_eq_ok] at hrun
    obtain ⟨serverId, w₁, haccess, hrun⟩ := hrun
    obtain ⟨haccess, rfl⟩ := (run_onPg_ok readOnly_checkChannelPermission).1 haccess
    rw [run_bind_eq_ok] at hrun
    obtain ⟨a, w₂, hauthor, hrun⟩ := hrun
    obtain rfl := readOnly_messageAuthor.eq_of_run hauthor
    obtain ⟨r, hrow, ha⟩ := messageAuthor_iff.1 hauthor
    refine ⟨serverId, checkChannelPermission_iff.1 haccess, r, a, hrow, ha, ?_⟩
    by_cases hself : a = auth
    · exact .inl hself
    · rw [when, if_pos hself] at hrun
      obtain rfl := readOnly_refuseEdit.eq_of_run hrun
      exact .inr (refuseEdit_iff.1 hrun)
  · rintro ⟨serverId, haccess, r, a, hrow, ha, hallowed⟩
    have haccess := (run_onPg_ok readOnly_checkChannelPermission).2 ⟨checkChannelPermission_iff.2 haccess, rfl⟩
    rw [editChecks, run_bind_of_ok haccess, run_bind_of_ok (messageAuthor_iff.2 ⟨r, hrow, ha⟩), when]
    by_cases hself : a = auth
    · rw [if_neg (not_not.2 hself)]
      exact ⟨(), w, rfl⟩
    · rw [if_pos hself]
      exact ⟨(), w, refuseEdit_iff.2 (hallowed.resolve_left hself)⟩

/-! ## The writes -/

/-- what `edit_message` does after its checks and before it reads the message again -/
def editWrites (channelId messageId : ℤ) (body : EditMessageRequest) (now : DateTime) : Route Unit := do
  body.content.forM fun content => execute (.cql (.updateContent content now.millis (messageKey channelId messageId)))
  body.embeds.forM fun embeds =>
    execute (.cql (.updateEmbeds embeds.text now.millis (messageKey channelId messageId)))
  execute (.publish ⟨channelMessages channelId, .messageUpdate channelId messageId⟩)
  execute (.publishDurable ⟨persistMessages channelId, .messageUpdate channelId messageId⟩)

theorem editMessage_checked : editMessage auth channelId messageId body now = (do
    editChecks auth channelId messageId body
    editWrites channelId messageId body now
    getMessage auth channelId messageId) := by
  simp only [editMessage, editChecks, editWrites, bind_bind]

/-- a statement that may be missing -/
theorem run_cqlOption {α : Type} (o : Option α) (q : α → Cql) (w : World) :
    (o.forM fun x => execute (.cql (q x)) : Route PUnit).run Effect.exec w =
      (.ok (), { w with chat := o.elim w.chat fun x => (q x).apply w.chat }) := by
  cases o <;> rfl

/-- the columns that decide whether a row is shown are not edited -/
theorem isSome_shown {r r' : MessageRow} (hauthor : r'.authorId = r.authorId) (htype : r'.type = r.type)
    (hflags : r'.flags = r.flags) (hpinned : r'.pinned = r.pinned) (hmention : r'.mentionEveryone = r.mentionEveryone)
    (hdeleted : r'.deleted = r.deleted) : (shown channelId r').isSome = (shown channelId r).isSome := by
  unfold shown MsgRow.ofRow
  rw [hauthor, htype, hflags, hpinned, hmention, hdeleted]
  cases r.authorId <;> cases r.type <;> cases r.flags <;> cases r.pinned <;> cases r.mentionEveryone <;> try rfl
  rcases r.deleted with _ | _ | _ <;> rfl

/-- one optional statement on the message -/
theorem isShown_option {α : Type} {o : Option α} {q : α → Cql} {c : Chat}
    (htarget : ∀ x, (q x).target? = some (messageKey channelId messageId)) (hcolumns : ∀ x r,
      (shown channelId ((q x).columns r)).isSome = (shown channelId r).isSome)
    {r : MessageRow} (hrow : c.message? (messageKey channelId messageId) = some r) :
    ∃ r', (o.elim c fun x => (q x).apply c).message? (messageKey channelId messageId) = some r' ∧
      (shown channelId r').isSome = (shown channelId r).isSome := by
  rcases o with _ | x
  · exact ⟨r, hrow, rfl⟩
  · refine ⟨(q x).columns r, ?_, hcolumns x r⟩
    rw [Option.elim, Cql.message?_apply, if_pos (htarget x), Chat.row_of_some hrow]

/-- the state that the writes leave -/
def edited (w : World) (channelId messageId : ℤ) (body : EditMessageRequest) (now : DateTime) : World :=
  let key := messageKey channelId messageId
  let chat := body.content.elim w.chat fun content => (Cql.updateContent content now.millis key).apply w.chat
  { w with
    chat := body.embeds.elim chat fun embeds => (Cql.updateEmbeds embeds.text now.millis key).apply chat
    published := w.published ++ [⟨channelMessages channelId, .messageUpdate channelId messageId⟩]
    persisted := w.persisted ++ [⟨persistMessages channelId, .messageUpdate channelId messageId⟩] }

theorem run_editWrites (w : World) (channelId messageId : ℤ) (body : EditMessageRequest) (now : DateTime) :
    (editWrites channelId messageId body now).run Effect.exec w = (.ok (), edited w channelId messageId body now) := by
  rw [editWrites, run_bind_of_ok (run_cqlOption body.content _ w), run_bind_of_ok (run_cqlOption body.embeds _ _)]
  rfl

theorem edited_row {r : MessageRow} (body : EditMessageRequest) (now : DateTime)
    (hrow : w.chat.message? (messageKey channelId messageId) = some r) :
    ∃ r', (edited w channelId messageId body now).chat.message? (messageKey channelId messageId) = some r' ∧
      (shown channelId r').isSome = (shown channelId r).isSome := by
  obtain ⟨r₁, hrow₁, hshown₁⟩ := isShown_option (o := body.content)
    (q := fun content => .updateContent content now.millis (messageKey channelId messageId)) (fun _ => rfl)
    (fun _ _ => isSome_shown rfl rfl rfl rfl rfl rfl) hrow
  obtain ⟨r₂, hrow₂, hshown₂⟩ := isShown_option (o := body.embeds)
    (q := fun embeds => .updateEmbeds embeds.text now.millis (messageKey channelId messageId)) (fun _ => rfl)
    (fun _ _ => isSome_shown rfl rfl rfl rfl rfl rfl) hrow₁
  exact ⟨r₂, hrow₂, hshown₂.trans hshown₁⟩

/-! ## The request as a whole -/

/-- the rows of the channel are as before, and no event is out -/
structure NothingEdited (channelId : ℤ) (w w' : World) : Prop where
  rows : ∀ b, w'.chat.messages.partition channelId b = w.chat.messages.partition channelId b
  published : w'.published = w.published
  persisted : w'.persisted = w.persisted

theorem NothingEdited.refl : NothingEdited channelId w w := ⟨fun _ => rfl, rfl, rfl⟩

theorem published_edited : ¬ NothingEdited channelId w (edited w channelId messageId body now) := by
  intro h
  have hlength := congrArg List.length h.published
  simp [edited] at hlength

/-- whoever may edit the message may read the history of the channel, and the message is shown -/
def EditReadable (w : World) (auth channelId messageId : ℤ) (body : EditMessageRequest) : Prop :=
  ∀ serverId, MayEditMessage w auth channelId messageId body serverId →
    (∃ serverId, MayAccess w.pg channelId auth .readMessageHistory serverId) ∧
      ∃ r, w.chat.message? (messageKey channelId messageId) = some r ∧ (shown channelId r).isSome = true

theorem getMessage_iff (auth : ℤ) {r : MessageRow} (hrow : w.chat.message? (messageKey channelId messageId) = some r) :
    (getMessage auth channelId messageId).succeeds Effect.exec w = true ↔
      (∃ serverId, MayAccess w.pg channelId auth .readMessageHistory serverId) ∧ (shown channelId r).isSome = true := by
  rw [succeeds_iff, getMessage]
  simp only [run_bind_eq_ok, run_onPg_ok readOnly_checkChannelPermission, checkChannelPermission_iff, run_select,
    orFail_eq_ok, Prod.mk.injEq, Except.ok.injEq, Option.isSome_iff_exists]
  constructor
  · rintro ⟨m, _, serverId, _, ⟨haccess, rfl⟩, _, _, ⟨rfl, rfl⟩, hshown, -⟩
    rw [hrow] at hshown
    exact ⟨⟨serverId, haccess⟩, m, hshown⟩
  · rintro ⟨⟨serverId, haccess⟩, m, hshown⟩
    exact ⟨m, w, serverId, w, ⟨haccess, rfl⟩, _, w, ⟨rfl, rfl⟩, by rw [hrow]; exact hshown, rfl⟩

/-- **A refused edit changes nothing exactly if whoever may edit the message may read it.** -/
theorem editMessage_unchanged_iff (w : World) (auth channelId messageId : ℤ) (body : EditMessageRequest)
    (now : DateTime) :
    (editMessage auth channelId messageId body now).AllOrNothing Effect.exec (NothingEdited channelId) w ↔
      EditReadable w auth channelId messageId body := by
  rw [allOrNothing_iff, editMessage_checked, ends_guarded readOnly_editChecks fun _ => NothingEdited.refl,
    editChecks_iff, EditReadable, ends_bind, ends_of_ok (run_editWrites w channelId messageId body now),
    forall_exists_index]
  refine forall₂_congr fun serverId hallowed => ?_
  obtain ⟨r, _, hrow, -⟩ := hallowed.author
  obtain ⟨r', hrow', hshown⟩ := edited_row body now hrow
  have hpg : (edited w channelId messageId body now).pg = w.pg := rfl
  have hread := getMessage_iff auth hrow'
  rw [hpg, hshown] at hread
  simp only [hrow, Option.some.injEq, exists_eq_left']
  rw [← hread, succeeds_iff_ends]
  rcases hrun : (getMessage auth channelId messageId).run Effect.exec (edited w channelId messageId body now) with
    ⟨e | m, w'⟩
  · obtain rfl := readOnly_getMessage.eq_of_run hrun
    rw [ends_of_error hrun, ends_of_error hrun]
    exact iff_of_false published_edited id
  · rw [ends_of_ok hrun, ends_of_ok hrun]

/-! ## A deleted message -/

/-- member 2 has written message 4194304 in channel 101, and deleted it -/
def withdrawn : World :=
  let sent := ((sendMessage 2 101 hello (.ofI64 4194304) ⟨1⟩).run Effect.exec joined).2
  ((deleteMessage 2 101 4194304).run Effect.exec sent).2

/-- another text -/
def goodbye : EditMessageRequest := ⟨some "goodbye", none, none⟩

/-- **The edit is refused as the message is not found, and the row has the new text and the event is out.** -/
theorem edited_and_refused :
    let edit := (editMessage 2 101 4194304 goodbye ⟨2⟩).run Effect.exec withdrawn
    edit.1.isOk = false ∧
      ((withdrawn.chat.message? (messageKey 101 4194304)).map MessageRow.content = some (some "hello")) ∧
      ((edit.2.chat.message? (messageKey 101 4194304)).map MessageRow.content = some (some "goodbye")) ∧
      edit.2.published = withdrawn.published ++ [⟨channelMessages 101, .messageUpdate 101 4194304⟩] := by
  decide

end Lumiere.Routes
