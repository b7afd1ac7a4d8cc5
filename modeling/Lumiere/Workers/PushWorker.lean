/-
The push worker (`lumiere-server/src/workers/push_worker.rs`). For a new message of a server it tries to notify the members
but the author who have no presence key in Redis. An event whose processing ends with an error is not acknowledged and comes
again, three times in all; errors come from the payload and the queries, so before anything is sent. The name of a channel
is read as a text, which a null is not. A send that panics takes the worker with it.

- `processMessage`: one attempt at one event.
- `acknowledged_iff`: a message comes to be acknowledged exactly if the queries succeed, its channel, if it is still there,
  has a name, and no send panics. So a direct message never is.
- `pushed_exact`: when it does, the devices that were tried, each once for each time that it is stored, are those of the
  members but the author without a key, by the operations on presence that came before. A user whose devices cannot be
  read is passed over.
-/
import Lumiere.Gateway.Presence
import Lumiere.Push.Dispatch
import Lumiere.Workers.Payloads
import Lumiere.Workers.ReadState

namespace Lumiere.Push

/-- without badge and thread, with the default sound -/
def PushNotification.new (title body : String) : PushNotification := ⟨title, body, [], none, some "default", none⟩

/-- `data.insert(key, value)` -/
def PushNotification.withData (n : PushNotification) (key value : String) : PushNotification :=
  { n with data := n.data.filter (fun e => e.1 ≠ key) ++ [(key, value)] }

def PushNotification.withThreadId (n : PushNotification) (threadId : String) : PushNotification :=
  { n with threadId := some threadId }

end Lumiere.Push

namespace Lumiere.Workers.PushWorker

open Lumiere.Core Lumiere.Models Lumiere.Db Lumiere.Routes Lumiere.Push

/-! ## One event -/

/-- what the queries of one attempt meet -/
structure Environment where
  pg : Postgres
  order : Order
  /-- the query that fails, if one does: that of the author, of the channel, of the members -/
  stop : Option ℕ
  /-- the answers to `EXISTS presence:{}`, `none` if the pipeline fails -/
  online : Option (ℤ → Bool)
  push : Option Clients

def authorName (pg : Postgres) (authorId : ℤ) : String :=
  ((pg.users.find? fun u => u.id = authorId).map User.username).getD "Someone"

/-- decoded to a `String`, so a null is an error -/
def channelName (pg : Postgres) (channelId : ℤ) : Except WorkerError String :=
  match pg.channels.find? fun c => c.id = channelId with
  | none => .ok "a channel"
  | some channel => (channel.name.map Except.ok).getD (.error .database)

/-- `SELECT user_id FROM server_members WHERE server_id = $1 AND user_id != $2` -/
def membersBut (pg : Postgres) (serverId authorId : ℤ) : List ℤ :=
  (pg.serverMembers.select fun m => m.serverId = serverId && m.userId ≠ authorId).map ServerMember.userId

/-- a user whose answer is missing counts as offline -/
def offlineRecipients (online : Option (ℤ → Bool)) (recipients : List ℤ) : List ℤ :=
  recipients.filter fun uid => !(online.elim false fun hasKey => hasKey uid)

/-- at most 200 characters -/
def bodyText (content : String) : String :=
  if 200 < content.length then String.ofList (content.toList.take 197) ++ "..."
  else if content.isEmpty then "Sent an attachment"
  else content

def notification (authorName channelName content : String) (channelId : ℤ) : PushNotification :=
  (((PushNotification.new (authorName ++ " in #" ++ channelName) (bodyText content)).withData "channel_id"
    (toString channelId)).withData "type" "MESSAGE_CREATE").withThreadId ("channel-" ++ toString channelId)

/-- how an attempt ends; `none` is a panic -/
abbrev Processed := Option (Except WorkerError Unit)

/-- the queries and the notifications for a message -/
def notify (env : Environment) (store : TokenStoreBackend) (channelId authorId : ℤ) (serverId : Option ℤ)
    (content : String) : Processed × Batch :=
  if env.stop = some 0 then (some (.error .database), ⟨store, [], []⟩)
  else if env.stop = some 1 then (some (.error .database), ⟨store, [], []⟩)
  else match channelName env.pg channelId with
    | .error e => (some (.error e), ⟨store, [], []⟩)
    | .ok name =>
      if serverId.isSome ∧ env.stop = some 2 then (some (.error .database), ⟨store, [], []⟩)
      else
        let recipients := serverId.elim [] fun sid => env.order.order (membersBut env.pg sid authorId)
        let offline := offlineRecipients env.online recipients
        match env.push with
        | none => (some (.ok ()), ⟨store, [], []⟩)
        -- a batch for nobody is no attempt, so the two early returns make no difference
        | some push =>
          let (delivered, s) := push.sendToUsers store (offline.map .ofI64)
            (notification (authorName env.pg authorId) name content channelId)
          (delivered.map fun _ => .ok (), s)

/-- one attempt: how it ends, and the store of device tokens after it with the sends that it tried -/
def processMessage (env : Environment) (store : TokenStoreBackend) (payload : Option Value) : Processed × Batch :=
  match payload with
  | none => (some (.error .json), ⟨store, [], []⟩)
  | some event =>
    if (event.field "type").asStr.getD "" ≠ "MESSAGE_CREATE" then (some (.ok ()), ⟨store, [], []⟩)
    else match event.get? "message" with
      | none => (some (.ok ()), ⟨store, [], []⟩)
      | some message =>
        let channelId := (event.field "channel_id").asI64.getD 0
        let authorId := (message.field "author_id").asId.getD 0
        let content := (message.field "content").asStr.getD ""
        if channelId = 0 ∨ authorId = 0 then (some (.ok ()), ⟨store, [], []⟩)
        else notify env store channelId authorId (event.field "server_id").asI64 content

/-! ## New messages -/

/-- what the handlers have of a message: ids that are not negative and fit their columns -/
structure WellFormed (channelId : ℤ) (serverId : Option ℤ) (m : MessageResponse) : Prop where
  channel : 0 < channelId ∧ FitsI64 channelId
  server : ∀ sid ∈ serverId, FitsI64 sid
  author : 0 < m.authorId ∧ FitsI64 m.authorId

section Sent

variable {env : Environment} {store : TokenStoreBackend} {w : Wire} {channelId : ℤ} {serverId : Option ℤ}
  {m : MessageResponse}

/-- the event of a new message is read as it was written -/
theorem processMessage_sent (h : WellFormed channelId serverId m) :
    processMessage env store (payload w (.messageCreate channelId serverId m)) =
      notify env store channelId m.authorId serverId (m.content.getD "") := by
  have hchannel : (Value.int channelId).asI64 = some channelId := asI64_int h.channel.2
  have hauthor : (snowflake m.authorId).asId = some m.authorId := asId_snowflake h.author.1.le h.author.2
  have hserver : (nullable Value.int serverId).asI64 = serverId := by
    cases serverId with
    | none => rfl
    | some sid => exact asI64_int (h.server sid rfl)
  have hcontent : (nullable Value.string m.content).asStr = m.content := by
    cases m.content <;> rfl
  have hzero : ¬ (channelId = 0 ∨ m.authorId = 0) := by
    have := h.channel.1
    have := h.author.1
    omega
  have htype : (Value.string "MESSAGE_CREATE").asStr = some "MESSAGE_CREATE" := rfl
  simp [processMessage, payload, messageValue, Value.field, Value.get?, htype, hchannel, hauthor, hserver, hcontent, hzero]

/-- the queries succeed, and the channel has this name -/
structure Queried (env : Environment) (channelId : ℤ) (serverId : Option ℤ) (name : String) : Prop where
  author : env.stop ≠ some 0
  channel : env.stop ≠ some 1
  name : channelName env.pg channelId = .ok name
  members : serverId.isSome = true → env.stop ≠ some 2

/-- the first failing query ends the attempt; with none, there is a batch for the users without a key -/
theorem notify_eq (env : Environment) (store : TokenStoreBackend) (channelId authorId : ℤ) (serverId : Option ℤ)
    (content : String) :
    (∃ e, notify env store channelId authorId serverId content = (some (.error e), ⟨store, [], []⟩) ∧
        ∀ name, ¬ Queried env channelId serverId name) ∨
      ∃ name, Queried env channelId serverId name ∧ notify env store channelId authorId serverId content =
        env.push.elim (some (.ok ()), ⟨store, [], []⟩) fun push =>
          let r := push.sendToUsers store ((offlineRecipients env.online (serverId.elim [] fun sid =>
              env.order.order (membersBut env.pg sid authorId))).map .ofI64)
            (notification (authorName env.pg authorId) name content channelId)
          (r.1.map fun _ => .ok (), r.2) := by
  unfold notify
  by_cases h0 : env.stop = some 0
  · rw [if_pos h0]
    exact .inl ⟨_, rfl, fun _ h => h.author h0⟩
  rw [if_neg h0]
  by_cases h1 : env.stop = some 1
  · rw [if_pos h1]
    exact .inl ⟨_, rfl, fun _ h => h.channel h1⟩
  rw [if_neg h1]
  cases hname : channelName env.pg channelId with
  | error e =>
    refine .inl ⟨e, rfl, fun _ h => ?_⟩
    have hread := h.name
    rw [hname] at hread
    cases hread
  | ok name =>
    by_cases h2 : serverId.isSome ∧ env.stop = some 2
    · simp only [if_pos h2]
      exact .inl ⟨_, rfl, fun _ h => h.members h2.1 h2.2⟩
    · simp only [if_neg h2]
      refine .inr ⟨name, ⟨h0, h1, hname, fun hs hstop => h2 ⟨hs, hstop⟩⟩, ?_⟩
      cases env.push <;> rfl

theorem exists_channelName_iff : (∃ name, channelName env.pg channelId = .ok name) ↔
    ∀ channel, env.pg.channels.find? (fun c => c.id = channelId) = some channel → channel.name ≠ none := by
  unfold channelName
  cases env.pg.channels.find? fun c => c.id = channelId with
  | none => simp
  | some channel => cases hname : channel.name <;> simp [hname]

/-- **When a message is acknowledged.** The queries must succeed, the channel, if it is still there, must have a name, and
no send may panic: of no device that is tried and whose token cannot be cut at its eighth byte may FCM say that the token
is dead or, where debug events are recorded, that it was delivered to. Nothing else that APNs and FCM answer makes a
difference. -/
theorem acknowledged_iff (w : Wire) (env : Environment) (store : TokenStoreBackend) (channelId : ℤ)
    (serverId : Option ℤ) (m : MessageResponse) (h : WellFormed channelId serverId m) :
    let r := processMessage env store (payload w (.messageCreate channelId serverId m))
    r.1 = some (.ok ()) ↔
      env.stop ≠ some 0 ∧ env.stop ≠ some 1 ∧ (serverId.isSome = true → env.stop ≠ some 2) ∧
        (∀ channel, env.pg.channels.find? (fun c => c.id = channelId) = some channel → channel.name ≠ none) ∧
        ∀ push ∈ env.push, ∀ i a, r.2.tried[i]? = some a → ¬ push.Cut i a.device a.notification := by
  intro r
  have hr : r = notify env store channelId m.authorId serverId (m.content.getD "") := processMessage_sent h
  rw [hr]
  rcases notify_eq env store channelId m.authorId serverId (m.content.getD "") with
    ⟨e, herror, hnot⟩ | ⟨name, hqueried, hbatch⟩
  · rw [herror]
    refine iff_of_false (by simp) ?_
    rintro ⟨h0, h1, h2, hnamed, -⟩
    obtain ⟨name, hname⟩ := exists_channelName_iff.mpr hnamed
    exact hnot name ⟨h0, h1, hname, h2⟩
  · have hnamed := exists_channelName_iff.mp ⟨name, hqueried.name⟩
    rw [and_iff_right hqueried.author, and_iff_right hqueried.channel, and_iff_right hqueried.members,
      and_iff_right hnamed, hbatch]
    cases hpush : env.push with
    | none => simp
    | some push =>
      have hpanics := panics_iff push store ((offlineRecipients env.online (serverId.elim [] fun sid =>
          env.order.order (membersBut env.pg sid m.authorId))).map .ofI64)
        (notification (authorName env.pg m.authorId) name (m.content.getD "") channelId)
      simp only [Option.elim_some, Option.map_eq_some_iff, and_true, ← Option.ne_none_iff_exists', ne_eq, hpanics,
        Option.mem_def, Option.some.injEq, forall_eq', not_exists, not_and]

end Sent

/-! ## Who is notified -/

/-- a member of the server, not the author, who is not found online -/
def Notified (env : Environment) (serverId authorId userId : ℤ) : Prop :=
  env.pg.hasMember serverId userId = true ∧ userId ≠ authorId ∧ env.online.elim false (fun hasKey => hasKey userId) = false

theorem nodup_membersBut (pg : Postgres) (serverId authorId : ℤ) : (membersBut pg serverId authorId).Nodup := by
  refine Table.nodup_map_select (fun userId => (serverId, userId)) ?_
  intro m _ hm
  simp only [Bool.and_eq_true, decide_eq_true_eq] at hm
  rw [hm.1]

theorem mem_offlineRecipients {env : Environment} {serverId authorId userId : ℤ} :
    userId ∈ offlineRecipients env.online (env.order.order (membersBut env.pg serverId authorId)) ↔
      Notified env serverId authorId userId := by
  unfold offlineRecipients Notified
  rw [List.mem_filter, (env.order.perm _).mem_iff, hasMember_iff]
  simp only [membersBut, List.mem_map, Table.mem_select, Bool.and_eq_true, decide_eq_true_eq, Bool.not_eq_true']
  constructor
  · rintro ⟨⟨m, ⟨hm, hserver, hauthor⟩, rfl⟩, honline⟩
    exact ⟨⟨m, hm, hserver, rfl⟩, hauthor, honline⟩
  · rintro ⟨⟨m, hm, hserver, rfl⟩, hauthor, honline⟩
    exact ⟨⟨m, ⟨hm, hserver, hauthor⟩, rfl⟩, honline⟩

/-- the ids of a column, as the service is given them -/
theorem mem_map_ofI64 {ids : List ℤ} (hfits : ∀ id ∈ ids, FitsI64 id) {userId : Snowflake} :
    userId ∈ ids.map Snowflake.ofI64 ↔ userId.toI64 ∈ ids := by
  rw [List.mem_map]
  constructor
  · rintro ⟨id, hid, rfl⟩
    rwa [toI64_ofI64 (hfits id hid)]
  · exact fun h => ⟨_, h, Snowflake.ofI64_toI64 userId⟩

theorem nodup_map_ofI64 {ids : List ℤ} (hids : ids.Nodup) (hfits : ∀ id ∈ ids, FitsI64 id) :
    (ids.map Snowflake.ofI64).Nodup := by
  refine List.Nodup.map_on (fun id hid id' hid' h => ?_) hids
  rw [← toI64_ofI64 (hfits id hid), h, toI64_ofI64 (hfits id' hid')]

/-- **Who is notified.** When a message of a server comes to be acknowledged, a device whose token was not found invalid
was tried as often as it is stored, if its user is a member but not the author, has no presence key and had its devices
read, and not otherwise; each with the text for the message. The keys are those that a run of the operations on presence
leaves. -/
theorem pushed_exact {σ κ : Type} [DecidableEq σ] [DecidableEq κ] (w : Wire) (env : Environment) (push : Clients)
    (hpush : env.push = some push) (store : TokenStoreBackend) (howned : store.Owned)
    (hcolumn : ∀ row ∈ env.pg.serverMembers, FitsI64 row.userId) (now : ℕ)
    (settings : ℤ → Option Gateway.Presence.Settings) (ops : List (Gateway.Presence.Op σ κ))
    (honline : env.online = some fun userId =>
      ((run Gateway.Presence.step (Gateway.Presence.init now settings) ops).keys.read userId).isSome)
    (channelId serverId : ℤ) (m : MessageResponse) (h : WellFormed channelId (some serverId) m) (s : Batch)
    (hs : processMessage env store (payload w (.messageCreate channelId (some serverId) m)) = (some (.ok ()), s)) :
    (∀ d : DeviceToken, d.token ∉ foundInvalid s.tried → (s.tried.map Tried.device).count d =
      if (env.pg.hasMember serverId d.userId.toI64 = true ∧ d.userId.toI64 ≠ m.authorId ∧
        (run Gateway.Presence.step (Gateway.Presence.init now settings) ops).keys.read d.userId.toI64 = none) ∧
          d.userId ∉ s.unread
      then store.copies d else 0) ∧
    ∃ name, channelName env.pg channelId = .ok name ∧ ∀ a ∈ s.tried,
      a.notification = notification (authorName env.pg m.authorId) name (m.content.getD "") channelId := by
  rw [processMessage_sent h] at hs
  rcases notify_eq env store channelId m.authorId (some serverId) (m.content.getD "") with
    ⟨e, herror, -⟩ | ⟨name, hqueried, hbatch⟩
  · rw [herror] at hs
    cases hs
  · rw [hbatch, hpush, Option.elim_some, Option.elim_some] at hs
    have hmem : ∀ {userId : ℤ},
        userId ∈ offlineRecipients env.online (env.order.order (membersBut env.pg serverId m.authorId)) ↔
        Notified env serverId m.authorId userId := mem_offlineRecipients
    have hnodup : (offlineRecipients env.online (env.order.order (membersBut env.pg serverId m.authorId))).Nodup :=
      ((env.order.perm _).nodup_iff.mpr (nodup_membersBut env.pg serverId m.authorId)).filter _
    generalize offlineRecipients env.online (env.order.order (membersBut env.pg serverId m.authorId)) = ids at hs hmem hnodup
    obtain ⟨hdone, rfl⟩ := Prod.mk.inj hs
    obtain ⟨n, hn, -⟩ := Option.map_eq_some_iff.mp hdone
    obtain ⟨hgoes, hcount⟩ := goes_batch push store (ids.map .ofI64)
      (notification (authorName env.pg m.authorId) name (m.content.getD "") channelId)
    have hfits : ∀ id ∈ ids, FitsI64 id := by
      intro id hid
      obtain ⟨hmember, -⟩ := hmem.mp hid
      obtain ⟨row, hrow, -, rfl⟩ := hasMember_iff.mp hmember
      exact hcolumn row hrow
    refine ⟨fun d hvalid => ?_, name, hqueried.name, fun a ha => ?_⟩
    · have hreached : d.userId ∈ ids.map .ofI64 ↔ Notified env serverId m.authorId d.userId.toI64 :=
        (mem_map_ofI64 hfits).trans hmem
      simp only [Notified, honline, Option.elim_some, Option.isSome_eq_false_iff, Option.isNone_iff_eq_none] at hreached
      simp only [hcount (hn ▸ rfl) (nodup_map_ofI64 hnodup hfits) howned d hvalid, hreached]
    · obtain ⟨i, hi⟩ := List.mem_iff_getElem?.mp ha
      exact (hgoes.ended i a hi).1

/-! ## A message to an offline member -/

/-- FCM takes everything, or knows no token any more -/
def fcmSays (body : String) (status : ℕ) : Clients :=
  ⟨false, true, true, fun _ => none, fun _ _ => ⟨fun _ => .ok "bearer", fun _ => .ok ⟨status, some body⟩⟩⟩

/-- users 1 and 2 are on server 100, whose channel 101 has a name; user 2 is connected, but no status was written -/
def twoOffline (push : Clients) : Environment where
  pg := twoMembers
  order := asStored
  stop := none
  online := some fun userId =>
    ((run Gateway.Presence.step (Gateway.Presence.init 0 fun _ => none)
      [.identify 0 0 2 [100]] : Gateway.Presence.St ℕ ℕ).keys.read userId).isSome
  push := some push

def fromAda : MessageResponse := ⟨7, 101, 1, some "hello", ⟨0⟩, none, 0, 0, false, false, [], [], none, none, none⟩

def plain : Wire := ⟨fun _ => .null, fun _ => ""⟩

/-- user 2 has an Android device with this token -/
def bobsPhone (token : String) : TokenStoreBackend :=
  .postgres ⟨twoMembers.users, ⟨[⟨1, 2, 1, token, ⟨0⟩⟩], by simp⟩⟩ fun _ => false

theorem wellFormed_fromAda : WellFormed 101 (some 100) fromAda :=
  ⟨by decide, by simp [FitsI64], by decide⟩

/-- a dead token whose eighth byte is inside a character -/
theorem panicked_and_unacknowledged :
    (processMessage (twoOffline (fcmSays "UNREGISTERED" 404)) (bobsPhone "aaaaaaaéaaaa")
      (payload plain (.messageCreate 101 (some 100) fromAda))).1 ≠ some (.ok ()) := by
  intro hdone
  have hall := ((acknowledged_iff plain (twoOffline (fcmSays "UNREGISTERED" 404)) (bobsPhone "aaaaaaaéaaaa") 101 (some 100)
    fromAda wellFormed_fromAda).mp hdone).2.2.2.2
  refine hall (fcmSays "UNREGISTERED" 404) rfl 0 _ rfl ⟨rfl, rfl, by decide, .inl (.inr ⟨⟨_, rfl⟩, _, rfl, ?_⟩), by decide⟩
  exact .inl (by decide)

theorem connected_and_notified :
    ∃ s, processMessage (twoOffline (fcmSays "" 200)) (bobsPhone "bob")
      (payload plain (.messageCreate 101 (some 100) fromAda)) = (some (.ok ()), s) ∧
        (s.tried.map Tried.device).count ⟨some (.ofI64 1), "bob", .android, .ofI64 2, none⟩ = 1 := by
  refine ⟨_, rfl, ?_⟩
  have hcolumn : ∀ row ∈ twoMembers.serverMembers.rows, FitsI64 row.userId := by decide
  rw [(pushed_exact plain (twoOffline (fcmSays "" 200)) _ rfl (bobsPhone "bob") trivial hcolumn 0 (fun _ => none)
    [.identify 0 0 2 [100]] rfl 101 100 fromAda wellFormed_fromAda _ rfl).1 _ (by decide)]
  decide

end Lumiere.Workers.PushWorker
