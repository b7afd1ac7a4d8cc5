/-
The texts that are stored, over runs of the handlers that write messages. `send_message` and `execute_webhook` check the
length of a text, and `send_message` stores the mentions that it finds in it; `edit_message` writes a text as it comes.

- `Authored`: the stores and, beside them, which messages `send_message` has created.
- `Stored`: no text is too long, and the mentions of a sent message are those of its text.
- `Kept`: a text that is edited in would have been accepted, and has the mentions that are stored. `stored_iff`: over whole
  runs the first holds exactly if every edit satisfies the second.
- `edited_out`: a text that is too long, and a text that mentions somebody else.
-/
import Lumiere.Core.Record
import Lumiere.Routes.MessageRequests

namespace Lumiere.Routes

open Lumiere.Core Lumiere.Core.Prog Lumiere.Models Lumiere.Db

/-- the messages that `send_message` has created are noted beside the stores -/
abbrev Authored := World × List MessageKey

def noteSent : Effect → List MessageKey → List MessageKey
  | .cql (.insertMessage key _), sent => key :: sent
  | .cql (.insertWebhookMessage key _ _), sent => sent.filter fun k => k ≠ key
  | _, sent => sent

def authoredStep (hash : String → String) (s : Authored) (r : MessageRequest) : Authored :=
  ((r.handle hash).recorded.run (recording Effect.exec noteSent) s).2

/-! ## What is claimed, and of which edits -/

/-- a text with the mentions that are stored beside it -/
structure TextOk (sent : Prop) (r : MessageRow) : Prop where
  short : ∀ c ∈ r.content, c.length ≤ 4000
  mentions : sent → r.mentions = some (jsonIds (mentionsOf r.content).1)
  mentionRoles : sent → r.mentionRoles = some (jsonIds (mentionsOf r.content).2.1)

/-- every message that is not deleted -/
def Stored (s : Authored) : Prop :=
  ∀ key r, s.1.chat.message? key = some r → r.deleted ≠ some true → TextOk (key ∈ s.2) r

/-- an edit of a message that is not deleted: at most 4000 characters, and in a sent message the mentions stay -/
def Kept : Effect → Authored → Prop
  | .cql (.updateContent content _ key), s => (s.1.chat.row key).deleted ≠ some true →
    content.length ≤ 4000 ∧ (key ∈ s.2 →
      (s.1.chat.row key).mentions = some (jsonIds (parseMentions content).1) ∧
        (s.1.chat.row key).mentionRoles = some (jsonIds (parseMentions content).2.1))
  | _, _ => True

/-- every edit that the request executes -/
def KeepsText (hash : String → String) (s : Authored) (r : MessageRequest) : Prop :=
  (r.handle hash).recorded.AllSteps (recording Effect.exec noteSent) Kept s

variable {s s' : Authored} {e : Effect} {n : ℕ} {hash : String → String}

/-! ## Statements -/

/-- a new message has passed the checks of its handler -/
def Checked : Effect → Prop
  | .cql (.insertMessage _ row) => (∀ c ∈ row.content, c.length ≤ 4000) ∧
    row.mentions = some (jsonIds (mentionsOf row.content).1) ∧
    row.mentionRoles = some (jsonIds (mentionsOf row.content).2.1)
  | .cql (.insertWebhookMessage _ _ content) => ∀ c ∈ content, c.length ≤ 4000
  | _ => True

/-- a sent message has a row -/
structure Kempt (s : Authored) : Prop where
  stored : Stored s
  there : ∀ key ∈ s.2, ∃ r, s.1.chat.message? key = some r

theorem TextOk.of_same {p q : Prop} {r r' : MessageRow} (h : TextOk p r) (hp : q → p) (hcontent : r'.content = r.content)
    (hmentions : r'.mentions = r.mentions) (hroles : r'.mentionRoles = r.mentionRoles) : TextOk q r' := by
  refine ⟨?_, fun hq => ?_, fun hq => ?_⟩
  · rw [hcontent]
    exact h.short
  · rw [hcontent, hmentions]
    exact h.mentions (hp hq)
  · rw [hcontent, hroles]
    exact h.mentionRoles (hp hq)

/-- the row to which a statement is applied is in order even if it is blank -/
theorem Kempt.row (hs : Kempt s) {key : MessageKey} (h : (s.1.chat.row key).deleted ≠ some true) :
    TextOk (key ∈ s.2) (s.1.chat.row key) := by
  rcases hrow : s.1.chat.message? key with _ | r
  · have hnot : key ∉ s.2 := fun hkey => by
      obtain ⟨r, hr⟩ := hs.there key hkey
      rw [hrow] at hr
      cases hr
    rw [Chat.row_of_none hrow]
    refine ⟨fun c hc => ?_, fun hkey => absurd hkey hnot, fun hkey => absurd hkey hnot⟩
    cases hc
  · rw [Chat.row_of_some hrow] at h ⊢
    exact hs.stored key r hrow h

/-- messages other than that of the statement -/
theorem mem_noteSent {key : MessageKey} {q : Cql} (h : q.target? ≠ some key) {sent : List MessageKey} :
    key ∈ noteSent (.cql q) sent ↔ key ∈ sent := by
  have hne : ∀ k, some k ≠ some key → key ≠ k := fun k hk heq => hk (congrArg some heq.symm)
  cases q with
  | insertMessage k row => simp [noteSent, hne k h]
  | insertWebhookMessage k authorId content => simp [noteSent, hne k h]
  | _ => exact Iff.rfl

/-- the row of the statement's own message -/
theorem Kempt.columns (hs : Kempt s) {q : Cql} (he : Checked (.cql q)) (hkept : Kept (.cql q) s) {key : MessageKey}
    (htarget : q.target? = some key) (hlive : (q.columns (s.1.chat.row key)).deleted ≠ some true) :
    TextOk (key ∈ noteSent (.cql q) s.2) (q.columns (s.1.chat.row key)) := by
  cases q with
  | insertMessage k row => exact ⟨he.1, fun _ => he.2.1, fun _ => he.2.2⟩
  | insertWebhookMessage k authorId content =>
    obtain rfl := Option.some.inj htarget
    have hnot : k ∉ noteSent (.cql (.insertWebhookMessage k authorId content)) s.2 := by simp [noteSent]
    exact ⟨he, fun hkey => absurd hkey hnot, fun hkey => absurd hkey hnot⟩
  | updateContent content editedAt k =>
    obtain rfl := Option.some.inj htarget
    obtain ⟨hshort, hmentions⟩ := hkept hlive
    refine ⟨fun c hc => ?_, fun hkey => (hmentions hkey).1, fun hkey => (hmentions hkey).2⟩
    obtain rfl := Option.some.inj hc
    exact hshort
  | updateEmbeds embeds editedAt k => exact (hs.row hlive).of_same id rfl rfl rfl
  | setPinned k => exact (hs.row hlive).of_same id rfl rfl rfl
  | unsetPinned k => exact (hs.row hlive).of_same id rfl rfl rfl
  | softDelete k => exact absurd rfl hlive
  | insertPin row => cases htarget
  | deletePin channelId messageId => cases htarget
  | insertReaction row => cases htarget
  | deleteReaction channelId messageId emoji userId => cases htarget

/-- the rows after a statement on ScyllaDB -/
theorem exec_rows {q : Cql} (h : recording Effect.exec noteSent (.cql q) s = .ok (n, s')) (key : MessageKey) :
    s'.1.chat.message? key =
      if q.target? = some key then some (q.columns (s.1.chat.row key)) else s.1.chat.message? key := by
  rw [exec_cql (recording_eq_ok.1 h).1]
  exact q.message?_apply s.1.chat key

/-- another statement changes neither the rows nor the note -/
theorem exec_same (h : recording Effect.exec noteSent e s = .ok (n, s')) (he : ∀ q, e ≠ .cql q) :
    s'.1.chat = s.1.chat ∧ s'.2 = s.2 := by
  obtain ⟨hexec, hnote⟩ := recording_eq_ok.1 h
  refine ⟨exec_chat he hexec, ?_⟩
  cases e with
  | cql q => exact absurd rfl (he q)
  | _ => exact hnote

theorem exec_kempt (h : recording Effect.exec noteSent e s = .ok (n, s')) (hs : Kempt s) (he : Checked e)
    (hkept : Kept e s) : Kempt s' := by
  by_cases hcql : ∃ q, e = .cql q
  · obtain ⟨q, rfl⟩ := hcql
    have hnote := (recording_eq_ok.1 h).2
    refine ⟨fun key r hr hlive => ?_, fun key hkey => ?_⟩
    · rw [exec_rows h] at hr
      rw [hnote]
      split_ifs at hr with htarget
      · obtain rfl := Option.some.inj hr
        exact hs.columns he hkept htarget hlive
      · exact (hs.stored key r hr hlive).of_same (mem_noteSent htarget).1 rfl rfl rfl
    · rw [exec_rows h]
      split_ifs with htarget
      · exact ⟨_, rfl⟩
      · rw [hnote] at hkey
        exact hs.there key ((mem_noteSent htarget).1 hkey)
  · obtain ⟨hchat, hnote⟩ := exec_same h (not_exists.1 hcql)
    refine ⟨fun key r hr => ?_, fun key hkey => ?_⟩
    · rw [hchat] at hr
      rw [hnote]
      exact hs.stored key r hr
    · rw [hnote] at hkey
      rw [hchat]
      exact hs.there key hkey

/-! ## Requests -/

def MessageRequest.edits : MessageRequest → Bool
  | .editMessage .. => true
  | _ => false

/-- new messages are checked by their handlers, and only `edit_message` rewrites a text -/
theorem MessageRequest.Writes.checked {r : MessageRequest} (h : r.Writes e) :
    Checked e ∧ (r.edits = false → ∀ s, Kept e s) := by
  have hpublish : e.Publishes → Checked e ∧ (r.edits = false → ∀ s, Kept e s) := fun h => by
    cases e <;> first | exact ⟨trivial, fun _ _ => trivial⟩ | exact h.elim
  cases r with
  | sendMessage auth channelId body messageId now =>
    cases h with
    | insert mentionEveryone short => exact ⟨⟨short, rfl, rfl⟩, fun _ _ => trivial⟩
    | last => exact ⟨trivial, fun _ _ => trivial⟩
    | slowmode userId seconds now => exact ⟨trivial, fun _ _ => trivial⟩
    | publish e h => exact hpublish h
  | executeWebhook webhookId token content messageId =>
    cases h with
    | insert channelId content short =>
      refine ⟨fun c hc => ?_, fun _ _ => trivial⟩
      obtain rfl := Option.some.inj hc
      exact short
    | publish e h => exact hpublish h
  | editMessage auth channelId messageId body now =>
    rcases h with ⟨content, rfl⟩ | ⟨embeds, rfl⟩ | h
    · exact ⟨trivial, fun hr => nomatch hr⟩
    · exact ⟨trivial, fun _ _ => trivial⟩
    · exact hpublish h
  | deleteMessage auth channelId messageId =>
    rcases h with rfl | h
    · exact ⟨trivial, fun _ _ => trivial⟩
    · exact hpublish h
  | bulkDelete auth channelId messages failed =>
    rcases h with ⟨id, -, rfl⟩ | h
    · exact ⟨trivial, fun _ _ => trivial⟩
    · exact hpublish h
  | pinMessage auth channelId messageId now =>
    rcases h with rfl | rfl | h
    · exact ⟨trivial, fun _ _ => trivial⟩
    · exact ⟨trivial, fun _ _ => trivial⟩
    · exact hpublish h
  | unpinMessage auth channelId messageId =>
    rcases h with rfl | rfl | h
    · exact ⟨trivial, fun _ _ => trivial⟩
    · exact ⟨trivial, fun _ _ => trivial⟩
    · exact hpublish h

theorem authoredStep_kempt {r : MessageRequest} (hr : KeepsText hash s r) (hs : Kempt s) :
    Kempt (authoredStep hash s r) := by
  have hwrites := allSteps_recorded noteSent s (allSteps_handle hash r s.1)
  exact allSteps_inv (fun e t n t' he ht h => exec_kempt h ht he.2.checked.1 he.1) (hr.and hwrites) hs

/-! ## An edit that is not allowed shows in the outcome -/

theorem kept_of_exec {content : String} {editedAt : ℤ} {key : MessageKey}
    (h : recording Effect.exec noteSent (.cql (.updateContent content editedAt key)) s = .ok (n, s')) (hs' : Stored s') :
    Kept (.cql (.updateContent content editedAt key)) s := by
  intro hlive
  have hrow := (exec_rows h key).trans (if_pos rfl)
  have hok := hs' key _ hrow hlive
  rw [(recording_eq_ok.1 h).2] at hok
  exact ⟨hok.short content rfl, fun hkey => ⟨hok.mentions hkey, hok.mentionRoles hkey⟩⟩

/-- a statement that leaves texts, mentions and deletions alone -/
def KeepsRows (e : Effect) : Prop := (∃ embeds editedAt key, e = .cql (.updateEmbeds embeds editedAt key)) ∨ e.Publishes

theorem stored_of_exec (h : recording Effect.exec noteSent e s = .ok (n, s')) (he : KeepsRows e) (hs' : Stored s') :
    Stored s := by
  rcases he with ⟨embeds, editedAt, key, rfl⟩ | he
  · intro k r hr hlive
    have hrow := exec_rows h k
    have hsent : k ∈ s.2 → k ∈ s'.2 := fun hk => (recording_eq_ok.1 h).2 ▸ hk
    split_ifs at hrow
    · rw [Chat.row_of_some hr] at hrow
      exact (hs' k _ hrow hlive).of_same hsent rfl rfl rfl
    · exact (hs' k r (hrow.trans hr) hlive).of_same hsent rfl rfl rfl
  · obtain ⟨hchat, hnote⟩ := exec_same h he.ne_cql
    rw [Stored, hchat, hnote] at hs'
    exact hs'

abbrev EditShows {α : Type} (p : Route α) : Prop := p.recorded.Shows (recording Effect.exec noteSent) Kept Stored

theorem editShows_editMessage {auth channelId messageId : ℤ} {body : EditMessageRequest} {now : DateTime} :
    EditShows (editMessage auth channelId messageId body now) := by
  rw [EditShows, editMessage_eq]
  simp only [recorded_bind]
  refine shows_bind (issues_recorded readOnly_check.issues) fun serverId => ?_
  refine shows_bind (issues_recorded readOnly_messageAuthor.issues) fun authorId => ?_
  refine shows_bind (issues_recorded (issues_when fun _ => readOnly_refuseEdit.issues)) fun _ => ?_
  refine shows_bind_of_back ?_ fun _ => issues_recorded (issues_editRest.mono fun e he => ?_)
  · rcases body.content with _ | content
    · exact shows_of_issues (issues_pure _)
    · exact shows_execute fun _ _ _ h => kept_of_exec h
  · have hkeeps : KeepsRows e := he.imp_left fun ⟨embeds, h⟩ => ⟨embeds, _, _, h⟩
    refine ⟨fun s => ?_, fun s n s' h => stored_of_exec h hkeeps⟩
    rcases hkeeps with ⟨_, _, _, rfl⟩ | h
    · trivial
    · cases e <;> trivial

theorem keepsText_of_step {r : MessageRequest} (h : Stored (authoredStep hash s r)) : KeepsText hash s r := by
  cases hr : r.edits with
  | false => exact (allSteps_recorded _ s (allSteps_handle hash r s.1)).mono fun e t he => he.checked.2 hr t
  | true =>
    cases r with
    | editMessage auth channelId messageId body now =>
      have hshows : EditShows (answer (editMessage auth channelId messageId body now)) := by
        rw [EditShows, answer, recorded_bind]
        exact shows_bind_readOnly editShows_editMessage fun _ => issues_pure _
      exact hshows s h
    | _ => cases hr

/-! ## Runs -/

/-- **Stored texts stay valid exactly as long as every edit would have been accepted as a new message and mentions whom
the message mentioned before.** -/
theorem stored_iff (hash : String → String) (w : World) (rs : List MessageRequest) :
    (∀ l, l <+: rs → Stored (Core.run (authoredStep hash) (noMessages w, []) l)) ↔
      Every (authoredStep hash) (KeepsText hash) (noMessages w, []) rs := by
  have hempty : Kempt (noMessages w, []) := by
    refine ⟨fun key r hr => ?_, fun key hkey => absurd hkey List.not_mem_nil⟩
    rw [message?_noMessages] at hr
    cases hr
  constructor
  · exact every_of_prefixes fun _ _ => keepsText_of_step
  · intro h l hl
    exact (run_inv_of_every (fun _ _ => authoredStep_kempt) hempty (h.of_prefix hl)).stored

/-- user 1 says hello in channel 101 and edits -/
def editTrace (content : String) : List MessageRequest :=
  [.sendMessage 1 101 hello ⟨7⟩ ⟨10⟩, .editMessage 1 101 7 ⟨some content, none, none⟩ ⟨20⟩]

/-- the message after the edit, and what is noted as sent -/
def afterEdit (s : World × List MessageKey) : Option (Option String × Option String × Option Bool) × List MessageKey :=
  ((s.1.chat.message? (messageKey 101 7)).map fun r => (r.content, r.mentions, r.deleted), s.2)

/-- the rest of an edit without embeds leaves the texts alone -/
theorem editRest_text {auth channelId messageId : ℤ} {content : Option String} {flags : Option ℤ} {now : DateTime}
    {text : Option (Option String × Option String × Option Bool) × List MessageKey} (hs : afterEdit s = text) :
    afterEdit ((editRest auth channelId messageId ⟨content, none, flags⟩ now).recorded.run
      (recording Effect.exec noteSent) s).2 = text := by
  have hissues : (editRest auth channelId messageId ⟨content, none, flags⟩ now).Issues Effect.Publishes :=
    issues_bind (issues_pure _) fun _ => issues_bind (issues_execute trivial) fun _ =>
      issues_bind (issues_execute trivial) fun _ => readOnly_getMessage.issues
  have hsame : ∀ e (t : Authored) n t', Effect.Publishes e → afterEdit t = text →
      recording Effect.exec noteSent e t = .ok (n, t') → afterEdit t' = text := by
    intro e t n t' he ht h
    obtain ⟨hchat, hnote⟩ := exec_same h he.ne_cql
    rw [afterEdit, hchat, hnote]
    exact ht
  exact issues_run hsame (issues_recorded hissues) hs

/-- the author's edit replaces the text, and nothing else -/
theorem edit_text {serverId : Option ℤ} (content : String)
    (hcheck : (onPg (checkChannelPermission 101 1 .sendMessages)).recorded.run (recording Effect.exec noteSent) s =
      (.ok serverId, s))
    (hauthor : (messageAuthor 101 7).recorded.run (recording Effect.exec noteSent) s = (.ok 1, s)) :
    afterEdit (authoredStep id s (.editMessage 1 101 7 ⟨some content, none, none⟩ ⟨20⟩)) =
      (some (some content, (s.1.chat.row (messageKey 101 7)).mentions, (s.1.chat.row (messageKey 101 7)).deleted),
        s.2) := by
  have hwhen : (when ((1 : ℤ) ≠ 1) (refuseEdit 1 serverId ⟨some content, none, none⟩)).recorded.run
      (recording Effect.exec noteSent) s = (.ok (), s) := rfl
  obtain ⟨s', hedit, htext⟩ : ∃ s', ((some content).forM fun content =>
      execute (.cql (.updateContent content 20 (messageKey 101 7))) : Route Unit).recorded.run
        (recording Effect.exec noteSent) s = (.ok (), s') ∧ afterEdit s' = (some (some content,
          (s.1.chat.row (messageKey 101 7)).mentions, (s.1.chat.row (messageKey 101 7)).deleted), s.2) := by
    have hrow := (Cql.message?_apply (.updateContent content 20 (messageKey 101 7)) s.1.chat (messageKey 101 7)).trans
      (if_pos rfl)
    refine ⟨_, rfl, ?_⟩
    rw [afterEdit, hrow]
    rfl
  unfold authoredStep MessageRequest.handle answer
  dsimp only
  rw [recorded_bind, editMessage_eq]
  simp only [recorded_bind]
  rw [run_bind, run_bind_of_ok hcheck, run_bind_of_ok hauthor, run_bind_of_ok hwhen, run_bind_of_ok hedit]
  have hrest := @editRest_text s' 1 101 7 (some content) none ⟨20⟩ _ htext
  rcases hrun : Prog.run _ _ s' with ⟨e | a, t⟩
  · rw [hrun] at hrest
    exact hrest
  · rw [hrun] at hrest
    exact hrest

theorem content_edited (content : String) :
    afterEdit (Core.run (authoredStep id) (noMessages joined, []) (editTrace content)) =
      (some (some content, some "[]", some false), [messageKey 101 7]) := by
  refine @edit_text _ (some 100) content (Prod.ext rfl ?_) (Prod.ext rfl ?_)
  · exact run_readOnly (issues_recorded readOnly_check.issues) _
  · exact run_readOnly (issues_recorded readOnly_messageAuthor.issues) _

theorem Stored.of_afterEdit {s : World × List MessageKey} {content : String} (h : Stored s)
    (hs : afterEdit s = (some (some content, some "[]", some false), [messageKey 101 7])) :
    content.length ≤ 4000 ∧ "[]" = jsonIds (parseMentions content).1 := by
  obtain ⟨hedited, hnoted⟩ := Prod.mk.inj hs
  obtain ⟨r, hr, htext⟩ := Option.map_eq_some_iff.1 hedited
  simp only [Prod.mk.injEq] at htext
  obtain ⟨hcontent, hmentions, hdeleted⟩ := htext
  have hok := h _ r hr (by simp [hdeleted])
  have hlist := hok.mentions (hnoted.symm ▸ List.mem_singleton_self _)
  rw [hcontent, hmentions] at hlist
  exact ⟨hok.short content hcontent, Option.some.inj hlist⟩

/-- what is claimed of the message after the edit -/
theorem Stored.edited {content : String}
    (h : Stored (Core.run (authoredStep id) (noMessages joined, []) (editTrace content))) :
    content.length ≤ 4000 ∧ "[]" = jsonIds (parseMentions content).1 :=
  h.of_afterEdit (content_edited content)

/-- a text of 4001 characters, and a text that mentions user 2 in a message that mentioned nobody -/
theorem edited_out :
    ¬ Stored (Core.run (authoredStep id) (noMessages joined, [])
      (editTrace (String.ofList (List.replicate 4001 'a')))) ∧
    ¬ Stored (Core.run (authoredStep id) (noMessages joined, []) (editTrace "<@2>")) := by
  constructor
  · intro h
    have hshort := h.edited.1
    rw [String.length_ofList, List.length_replicate] at hshort
    omega
  · intro h
    exact absurd h.edited.2 (by decide)

end Lumiere.Routes
