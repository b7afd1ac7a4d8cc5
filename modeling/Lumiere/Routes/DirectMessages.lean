/-
Direct messages (`create_dm_channel` in `lumiere-server/src/routes/users.rs`), over the tables that it touches. The
channel and each of its recipients are inserted by statements of their own.

- `admitted`: the recipients that a channel gets, up to the first that is unknown or comes twice.
- `run_insertRecipients`: what the loop over the recipients leaves behind, whether it fails or not.
- `wellFormed_step`: one request.
- `dm_channels_iff`: all channels are well formed all along a run of requests exactly if every request that inserts its
  channel names different, existing users, the first three of which matter in a group.
- `lonely`: a channel for two with one recipient.
-/
import Lumiere.Core.Run
import Lumiere.Db.Relationships
import Lumiere.Routes.Access
import Lumiere.Routes.Servers

namespace Lumiere.Routes

open Lumiere.Core Lumiere.Core.Prog Lumiere.Models Lumiere.Db

/-! ## Statements -/

structure DmDb where
  users : Table User.id
  relationships : Table Relationship.key
  channels : Table Channel.id
  dmRecipients : Table fun r : DmRecipient => (r.channelId, r.userId)

inductive DmSql where
  /-- `INSERT INTO channels (id, type)`; `now` is the default of `created_at` -/
  | insertChannel (id type : ℤ) (now : DateTime)
  | insertRecipient (channelId userId : ℤ)
deriving DecidableEq, Repr

namespace DmDb

variable (s : DmDb)

def hasUser (id : ℤ) : Bool := s.users.any fun u => u.id = id

def hasChannel (id : ℤ) : Bool := s.channels.any fun c => c.id = id

def isRecipient (channelId userId : ℤ) : Bool :=
  s.dmRecipients.any fun r => r.channelId = channelId && r.userId = userId

/-- the recipients of a channel -/
def recipients (channelId : ℤ) : List ℤ :=
  (s.dmRecipients.select fun r => r.channelId = channelId).map DmRecipient.userId

end DmDb

/-- a row with the defaults of the table -/
def dmChannelRow (id type : ℤ) (now : DateTime) : Channel where
  id
  serverId := none
  parentId := none
  type
  name := none
  topic := none
  position := 0
  bitrate := none
  userLimit := none
  rateLimit := 0
  nsfw := false
  lastMessageId := none
  icon := none
  e2eeEnabled := false
  createdAt := now

/-- the number of rows affected, and the state afterwards -/
def DmSql.exec (s : DmDb) : DmSql → Except DbError (ℕ × DmDb)
  | .insertChannel id type now => do
    let channels ← unique "channels_pkey" s.channels (dmChannelRow id type now)
    .ok (1, { s with channels })
  | .insertRecipient channelId userId => do
    let dmRecipients ← unique "dm_recipients_pkey" s.dmRecipients ⟨channelId, userId⟩
    requires (.foreignKey "dm_recipients" "dm_recipients_channel_id_fkey") (s.hasChannel channelId)
    requires (.foreignKey "dm_recipients" "dm_recipients_user_id_fkey") (s.hasUser userId)
    .ok (1, { s with dmRecipients })

/-- a statement as the handlers see it -/
def dmStatement (w : DmSql) (s : DmDb) : Except AppError (ℕ × DmDb) :=
  match w.exec s with
  | .ok r => .ok r
  | .error e => .error (dbErr e)

/-! ## Handlers -/

abbrev DmHandler := Prog DmDb DmSql AppError

structure CreateDmRequest where
  recipientId : Option ℤ
  recipients : Option (List ℤ)
deriving DecidableEq, Repr

structure DmChannel where
  id : ℤ
  channelType : ℤ
  recipients : List PublicUser
  lastMessageId : Option ℤ
  name : Option String
  icon : Option String
deriving DecidableEq, Repr

inductive DmResponse where
  /-- `StatusCode::OK` -/
  | found (channel : DmChannel)
  /-- `StatusCode::CREATED` -/
  | created (channel : DmChannel)
deriving DecidableEq, Repr

def DmResponse.channel : DmResponse → DmChannel
  | .found channel | .created channel => channel

def publicUser (u : User) : PublicUser :=
  ⟨u.id, u.username, u.discriminator, u.avatar, u.banner, u.bio, u.flags, u.isBot⟩

/-- a channel for two in which both are -/
def existingDm (auth recipientId : ℤ) (s : DmDb) : Option ℤ :=
  (s.channels.find? fun c => c.type = 1 && s.isRecipient c.id auth && s.isRecipient c.id recipientId).map Channel.id

/-- the profiles of the other recipients -/
def dmProfiles (auth : ℤ) (recipientIds : List ℤ) (s : DmDb) : List PublicUser :=
  (s.users.select fun u => u.id ∈ recipientIds && u.id ≠ auth && u.deletedAt.isNone).map publicUser

def dmType (recipientIds : List ℤ) : ℤ := if recipientIds.length = 1 then 1 else 3

def insertRecipients (channelId : ℤ) (userIds : List ℤ) : DmHandler Unit :=
  userIds.forM fun userId => execute (.insertRecipient channelId userId)

def insertDm (auth channelId : ℤ) (now : DateTime) (recipientIds : List ℤ) : DmHandler DmResponse := do
  execute (.insertChannel channelId (dmType recipientIds) now)
  insertRecipients channelId (auth :: recipientIds)
  let recipients ← select (dmProfiles auth recipientIds)
  pure (.created ⟨channelId, dmType recipientIds, recipients, none, none, none⟩)

/-- `recipient_id` alone, or else `recipients` -/
def CreateDmRequest.ids (body : CreateDmRequest) : Except AppError (List ℤ) :=
  match body.recipientId, body.recipients with
  | some id, _ => .ok [id]
  | none, some ids => .ok ids
  | none, none => .error (.badRequest "Must provide recipient_id or recipients")

/-- the checks on the list -/
def dmRecipientIds (auth : ℤ) (body : CreateDmRequest) : Except AppError (List ℤ) := do
  let recipientIds ← body.ids
  if recipientIds.isEmpty then .error (.badRequest "Must provide at least one recipient")
  else if 9 < recipientIds.length then .error (.badRequest "Group DM limited to 10 users")
  else if recipientIds.length = 1 ∧ recipientIds[0]? = some auth then
    .error (.badRequest "Cannot create DM with yourself")
  else .ok recipientIds

/-- the channel that is there already, with its other recipient -/
def foundDm (recipientId : ℤ) : Option ℤ → DmHandler (Option DmResponse)
  | none => pure none
  | some channelId => do
    let row ← select fun s => s.users.find? fun u => u.id = recipientId && u.deletedAt.isNone
    let recipient ← orFail (.notFound "Recipient not found") row
    pure (some (.found ⟨channelId, 1, [publicUser recipient], none, none, none⟩))

/-- only a channel for two is looked for -/
def findDm (auth : ℤ) : List ℤ → DmHandler (Option DmResponse)
  | [recipientId] => do
    let blocked ← select fun s => s.relationships.any fun r =>
      r.userId = recipientId && r.targetId = auth && r.type = 2
    failIf blocked (.forbidden "Cannot send DM to this user")
    let existing ← select (existingDm auth recipientId)
    foundDm recipientId existing
  | _ => pure none

def answerDm (auth channelId : ℤ) (now : DateTime) (recipientIds : List ℤ) : Option DmResponse → DmHandler DmResponse
  | some response => pure response
  | none => insertDm auth channelId now recipientIds

def createDmChannel (auth channelId : ℤ) (now : DateTime) (body : CreateDmRequest) : DmHandler DmResponse := do
  let recipientIds ← ofExcept (dmRecipientIds auth body)
  let existing ← findDm auth recipientIds
  answerDm auth channelId now recipientIds existing

/-! ## Requests one at a time -/

structure DmRequest where
  auth : ℤ
  /-- `state.snowflake.next_id()` -/
  channelId : ℤ
  now : DateTime
  body : CreateDmRequest
deriving DecidableEq, Repr

def dmStep (s : DmDb) (r : DmRequest) : DmDb := ((createDmChannel r.auth r.channelId r.now r.body).run dmStatement s).2

/-- a channel for two has two recipients, a group three to ten, and no two channels for two have the same -/
structure DmWellFormed (s : DmDb) : Prop where
  pair : ∀ c ∈ s.channels, c.type = 1 → (s.recipients c.id).length = 2
  group : ∀ c ∈ s.channels, c.type = 3 → 3 ≤ (s.recipients c.id).length ∧ (s.recipients c.id).length ≤ 10
  unique : ∀ c ∈ s.channels, ∀ c' ∈ s.channels, c.type = 1 → c'.type = 1 →
    (∀ u, u ∈ s.recipients c.id ↔ u ∈ s.recipients c'.id) → c = c'

/-- the request gets to insert its channel, with these recipients besides its user -/
def Inserts (s : DmDb) (r : DmRequest) (recipientIds : List ℤ) : Prop :=
  dmRecipientIds r.auth r.body = .ok recipientIds ∧
    ((findDm r.auth recipientIds).run dmStatement s).1 = .ok none ∧ s.hasChannel r.channelId = false

/-- the first three users are different and have accounts -/
def Seated (s : DmDb) (userIds : List ℤ) : Prop :=
  (userIds.take 3).Nodup ∧ ∀ u ∈ userIds.take 3, s.hasUser u = true

/-- a request that inserts its channel inserts enough recipients -/
def DmComplete (s : DmDb) (r : DmRequest) : Prop :=
  ∀ recipientIds, Inserts s r recipientIds → Seated s (r.auth :: recipientIds)

instance (s : DmDb) (userIds : List ℤ) : Decidable (Seated s userIds) :=
  inferInstanceAs (Decidable ((userIds.take 3).Nodup ∧ ∀ u ∈ userIds.take 3, s.hasUser u = true))

instance (s : DmDb) (r : DmRequest) (recipientIds : List ℤ) : Decidable (Inserts s r recipientIds) :=
  inferInstanceAs (Decidable (dmRecipientIds r.auth r.body = .ok recipientIds ∧
    ((findDm r.auth recipientIds).run dmStatement s).1 = .ok none ∧ s.hasChannel r.channelId = false))

instance (s : DmDb) (r : DmRequest) : Decidable (DmComplete s r) :=
  match h : dmRecipientIds r.auth r.body with
  | .error _ => isTrue fun _ hids => (nomatch h.symm.trans hids.1)
  | .ok recipientIds => decidable_of_iff (Inserts s r recipientIds → Seated s (r.auth :: recipientIds))
    ⟨fun hall ids hids => by obtain rfl := Except.ok.inj (h.symm.trans hids.1); exact hall hids,
      fun hall => hall recipientIds⟩

/-! ## Recipients -/

/-- the recipients after the loop, which stops at the first that is unknown or has been inserted -/
def admitted (known : ℤ → Bool) : List ℤ → List ℤ → List ℤ
  | seen, [] => seen
  | seen, u :: us => if known u = true ∧ u ∉ seen then admitted known (seen ++ [u]) us else seen

section Admitted

variable {known : ℤ → Bool} {seen us : List ℤ}

theorem length_le_admitted : seen.length ≤ (admitted known seen us).length := by
  induction us generalizing seen with
  | nil => exact le_rfl
  | cons u us ih =>
    rw [admitted]
    split_ifs
    · refine le_trans ?_ ih
      simp
    · exact le_rfl

theorem length_admitted_le : (admitted known seen us).length ≤ seen.length + us.length := by
  induction us generalizing seen with
  | nil => exact le_rfl
  | cons u us ih =>
    rw [admitted]
    split_ifs
    · refine ih.trans ?_
      simp only [List.length_append, List.length_cons, List.length_nil]
      omega
    · omega

/-- the loop gets past the first `k` users exactly if they are new, different and known -/
theorem le_length_admitted {k : ℕ} : seen.length + k ≤ (admitted known seen us).length ↔
    k ≤ us.length ∧ (us.take k).Nodup ∧ ∀ u ∈ us.take k, known u = true ∧ u ∉ seen := by
  induction us generalizing seen k with
  | nil => cases k <;> simp [admitted]
  | cons u us ih =>
    cases k with
    | zero => simp [length_le_admitted]
    | succ k =>
      rw [admitted, List.take_succ_cons, List.nodup_cons, List.length_cons, List.forall_mem_cons]
      split_ifs with hu
      · have hlength : seen.length + (k + 1) = (seen ++ [u]).length + k := by
          simp only [List.length_append, List.length_singleton]
          omega
        have hseen : (∀ v ∈ us.take k, known v = true ∧ v ∉ seen ++ [u]) ↔
            u ∉ us.take k ∧ ∀ v ∈ us.take k, known v = true ∧ v ∉ seen := by
          simp only [List.mem_append, List.mem_singleton, not_or]
          constructor
          · exact fun h => ⟨fun hmem => (h u hmem).2.2 rfl, fun v hv => ⟨(h v hv).1, (h v hv).2.1⟩⟩
          · rintro ⟨hnot, h⟩ v hv
            exact ⟨(h v hv).1, (h v hv).2, fun heq => hnot (heq ▸ hv)⟩
        rw [hlength, ih, hseen]
        constructor
        · rintro ⟨hk, hnodup, hnot, hall⟩
          exact ⟨Nat.succ_le_succ hk, ⟨hnot, hnodup⟩, hu, hall⟩
        · rintro ⟨hk, ⟨hnot, hnodup⟩, -, hall⟩
          exact ⟨Nat.le_of_succ_le_succ hk, hnodup, hnot, hall⟩
      · refine iff_of_false (by omega) ?_
        rintro ⟨-, -, huser, -⟩
        exact hu huser

/-- users that are known, different and new are all inserted -/
theorem admitted_eq (h : us.Nodup) (hus : ∀ u ∈ us, known u = true ∧ u ∉ seen) : admitted known seen us = seen ++ us := by
  induction us generalizing seen with
  | nil => exact (List.append_nil seen).symm
  | cons u us ih =>
    obtain ⟨hnot, hnodup⟩ := List.nodup_cons.1 h
    rw [admitted, if_pos (hus u List.mem_cons_self), ih hnodup, List.append_assoc]
    · rfl
    · intro v hv
      obtain ⟨hknown, hseen⟩ := hus v (List.mem_cons_of_mem u hv)
      refine ⟨hknown, ?_⟩
      rw [List.mem_append, List.mem_singleton, not_or]
      exact ⟨hseen, fun heq => hnot (heq ▸ hv)⟩

end Admitted

/-! ## What a request leaves behind -/

section Effects

variable {s s' : DmDb} {c u : ℤ}

theorem mem_recipients : u ∈ s.recipients c ↔ ⟨c, u⟩ ∈ s.dmRecipients := by
  rw [DmDb.recipients, List.mem_map]
  constructor
  · rintro ⟨r, hr, rfl⟩
    obtain ⟨hmem, hc⟩ := Table.mem_select.1 hr
    obtain rfl : r.channelId = c := by simpa using hc
    exact hmem
  · exact fun hr => ⟨_, Table.mem_select.2 ⟨hr, by simp⟩, rfl⟩

theorem isRecipient_iff : s.isRecipient c u = true ↔ u ∈ s.recipients c := by
  rw [mem_recipients, DmDb.isRecipient, Table.any_eq_true]
  constructor
  · rintro ⟨⟨channelId, userId⟩, hr, h⟩
    simp only [Bool.and_eq_true, decide_eq_true_eq] at h
    obtain ⟨rfl, rfl⟩ := h
    exact hr
  · exact fun hr => ⟨_, hr, by simp⟩

/-- nothing but the recipients of the channel is different -/
structure OnlyRecipients (c : ℤ) (s s' : DmDb) : Prop where
  users : s'.users = s.users
  relationships : s'.relationships = s.relationships
  channels : s'.channels = s.channels
  recipients : ∀ c', c' ≠ c → s'.recipients c' = s.recipients c'

theorem OnlyRecipients.refl (c : ℤ) (s : DmDb) : OnlyRecipients c s s := ⟨rfl, rfl, rfl, fun _ _ => rfl⟩

theorem OnlyRecipients.trans {s'' : DmDb} (h : OnlyRecipients c s s') (h' : OnlyRecipients c s' s'') :
    OnlyRecipients c s s'' where
  users := h'.users.trans h.users
  relationships := h'.relationships.trans h.relationships
  channels := h'.channels.trans h.channels
  recipients c' hc := (h'.recipients c' hc).trans (h.recipients c' hc)

theorem hasUser_congr (h : s'.users = s.users) (u : ℤ) : s'.hasUser u = s.hasUser u := by
  rw [DmDb.hasUser, h, DmDb.hasUser]

theorem hasChannel_congr (h : s'.channels = s.channels) (c : ℤ) : s'.hasChannel c = s.hasChannel c := by
  rw [DmDb.hasChannel, h, DmDb.hasChannel]

/-- a recipient is inserted if it is a user and not yet a recipient -/
theorem insertRecipient_cases (hc : s.hasChannel c = true) :
    (s.hasUser u = true ∧ u ∉ s.recipients c ∧ ∃ s', dmStatement (.insertRecipient c u) s = .ok (1, s') ∧
      OnlyRecipients c s s' ∧ s'.recipients c = s.recipients c ++ [u]) ∨
    ¬ (s.hasUser u = true ∧ u ∉ s.recipients c) ∧ ∃ e, dmStatement (.insertRecipient c u) s = .error e := by
  rw [mem_recipients, dmStatement, DmSql.exec, unique]
  rcases hinsert : s.dmRecipients.insert? ⟨c, u⟩ with _ | dmRecipients
  · obtain ⟨⟨c', u'⟩, hr, hkey⟩ := Table.insert?_eq_none hinsert
    obtain ⟨rfl, rfl⟩ := Prod.mk.inj hkey
    exact .inr ⟨fun h => h.2 hr, _, rfl⟩
  · have hnew : ⟨c, u⟩ ∉ s.dmRecipients := fun hr => (Table.insert?_eq_some hinsert).1 _ hr rfl
    rw [hc]
    rcases huser : s.hasUser u with _ | _
    · exact .inr ⟨fun h => Bool.false_ne_true h.1, _, rfl⟩
    · have hrecipients : ∀ c', DmDb.recipients { s with dmRecipients } c' =
          s.recipients c' ++ if c = c' then [u] else [] := by
        intro c'
        rw [DmDb.recipients, Table.select, Table.rows_insert? hinsert, List.filter_append, List.map_append]
        refine congrArg (s.recipients c' ++ ·) ?_
        by_cases hcc : c = c'
        · simp [hcc]
        · simp [hcc]
      refine .inl ⟨rfl, hnew, _, rfl, ⟨rfl, rfl, rfl, fun c' hc' => ?_⟩, ?_⟩
      · rw [hrecipients, if_neg (Ne.symm hc'), List.append_nil]
      · rw [hrecipients, if_pos rfl]

/-- **The loop over the recipients.** Whether it fails or not, it leaves the admitted ones behind. -/
theorem run_insertRecipients (us : List ℤ) (hc : s.hasChannel c = true) :
    OnlyRecipients c s ((insertRecipients c us).run dmStatement s).2 ∧
      ((insertRecipients c us).run dmStatement s).2.recipients c = admitted s.hasUser (s.recipients c) us := by
  induction us generalizing s with
  | nil => exact ⟨.refl c s, rfl⟩
  | cons u us ih =>
    show OnlyRecipients c s ((execute (.insertRecipient c u) >>= fun _ => insertRecipients c us).run dmStatement s).2 ∧
      ((execute (.insertRecipient c u) >>= fun _ => insertRecipients c us).run dmStatement s).2.recipients c = _
    rw [admitted]
    rcases insertRecipient_cases (u := u) hc with ⟨huser, hnew, s', hexec, honly, hrecipients⟩ | ⟨hrefused, e, hexec⟩
    · obtain ⟨hrest, hadmitted⟩ := ih ((hasChannel_congr honly.channels c).trans hc)
      rw [run_bind_of_ok (execute_eq_ok (u := ()) |>.2 ⟨1, hexec⟩), if_pos ⟨huser, hnew⟩]
      refine ⟨honly.trans hrest, hadmitted.trans ?_⟩
      rw [hrecipients, funext (hasUser_congr honly.users)]
    · have hfail : (execute (.insertRecipient c u) : DmHandler Unit).run dmStatement s = (.error e, s) := by
        rw [execute, run_exec, hexec]
      rw [run_bind_of_error hfail, if_neg hrefused]
      exact ⟨.refl c s, rfl⟩

/-- nothing but a new row of `channels` is different -/
structure OnlyChannel (s s' : DmDb) (row : Channel) : Prop where
  users : s'.users = s.users
  channels : ∀ c, c ∈ s'.channels ↔ c ∈ s.channels ∨ c = row
  new : ∀ c ∈ s.channels, c.id ≠ row.id
  recipients : ∀ c, s'.recipients c = s.recipients c

theorem OnlyChannel.hasChannel {row : Channel} (h : OnlyChannel s s' row) : s'.hasChannel row.id = true :=
  Table.any_eq_true.2 ⟨row, (h.channels row).2 (.inr rfl), decide_eq_true rfl⟩

/-- a channel is inserted if there is none with its id -/
theorem insertChannel_cases (s : DmDb) (id type : ℤ) (now : DateTime) :
    (s.hasChannel id = true ∧ ∃ e, dmStatement (.insertChannel id type now) s = .error e) ∨
      s.hasChannel id = false ∧ ∃ s', dmStatement (.insertChannel id type now) s = .ok (1, s') ∧
        OnlyChannel s s' (dmChannelRow id type now) := by
  rw [dmStatement, DmSql.exec, unique]
  rcases hinsert : s.channels.insert? (dmChannelRow id type now) with _ | channels
  · obtain ⟨c, hc, hid⟩ := Table.insert?_eq_none hinsert
    exact .inl ⟨Table.any_eq_true.2 ⟨c, hc, decide_eq_true hid⟩, _, rfl⟩
  · obtain ⟨hnew, hmem⟩ := Table.insert?_eq_some hinsert
    exact .inr ⟨Table.any_eq_false.2 fun c hc => decide_eq_false (hnew c hc), _, rfl, rfl, hmem, hnew, fun _ => rfl⟩

/-- what is different once a channel is inserted, with recipients as far as they could be -/
structure NewChannel (s s' : DmDb) (row : Channel) (userIds : List ℤ) : Prop where
  users : s'.users = s.users
  channels : ∀ c, c ∈ s'.channels ↔ c ∈ s.channels ∨ c = row
  new : ∀ c ∈ s.channels, c.id ≠ row.id
  recipients : ∀ c, s'.recipients c = if c = row.id then admitted s.hasUser (s.recipients c) userIds else s.recipients c

theorem run_insertDm (auth channelId : ℤ) (now : DateTime) (recipientIds : List ℤ) :
    (s.hasChannel channelId = true ∧ ((insertDm auth channelId now recipientIds).run dmStatement s).2 = s) ∨
      s.hasChannel channelId = false ∧ NewChannel s ((insertDm auth channelId now recipientIds).run dmStatement s).2
        (dmChannelRow channelId (dmType recipientIds) now) (auth :: recipientIds) := by
  rcases insertChannel_cases s channelId (dmType recipientIds) now with
    ⟨hchannel, e, hexec⟩ | ⟨hchannel, s₁, hexec, hrow⟩
  · have hfail : (execute (.insertChannel channelId (dmType recipientIds) now) : DmHandler Unit).run dmStatement s =
        (.error e, s) := by
      rw [execute, run_exec, hexec]
    refine .inl ⟨hchannel, ?_⟩
    rw [insertDm, run_bind_of_error hfail]
  · have hnew : s₁.hasChannel channelId = true := hrow.hasChannel
    obtain ⟨honly, hadmitted⟩ := run_insertRecipients (auth :: recipientIds) hnew
    have hstate : ((insertDm auth channelId now recipientIds).run dmStatement s).2 =
        ((insertRecipients channelId (auth :: recipientIds)).run dmStatement s₁).2 := by
      rw [insertDm, run_bind_of_ok (execute_eq_ok (u := ()) |>.2 ⟨1, hexec⟩), run_bind]
      rcases (insertRecipients channelId (auth :: recipientIds)).run dmStatement s₁ with ⟨e | x, t⟩ <;> rfl
    refine .inr ⟨hchannel, ?_⟩
    rw [hstate]
    refine ⟨honly.users.trans hrow.users, fun c => ?_, hrow.new, fun c => ?_⟩
    · rw [honly.channels]
      exact hrow.channels c
    · split_ifs with hc
      · subst hc
        rw [← hrow.recipients, ← funext (hasUser_congr hrow.users)]
        exact hadmitted
      · exact (honly.recipients c hc).trans (hrow.recipients c)

theorem readOnly_findDm {auth : ℤ} {recipientIds : List ℤ} : (findDm auth recipientIds).ReadOnly := by
  rw [findDm.eq_def]
  split
  · refine issues_bind (issues_select _) fun _ => issues_bind (issues_failIf _ _) fun _ =>
      issues_bind (issues_select _) fun existing => ?_
    cases existing with
    | none => exact issues_pure _
    | some channelId =>
      exact issues_bind (issues_select _) fun _ => issues_bind (issues_orFail _ _) fun _ => issues_pure _
  · exact issues_pure _

/-- **One request.** It inserts its channel and what it can of the recipients, or changes nothing. -/
theorem dmStep_cases (s : DmDb) (r : DmRequest) :
    (∃ recipientIds, Inserts s r recipientIds ∧ NewChannel s (dmStep s r)
      (dmChannelRow r.channelId (dmType recipientIds) r.now) (r.auth :: recipientIds)) ∨
    (∀ recipientIds, ¬ Inserts s r recipientIds) ∧ dmStep s r = s := by
  rw [dmStep, createDmChannel]
  rcases hids : dmRecipientIds r.auth r.body with e | recipientIds
  · exact .inr ⟨fun ids h => (nomatch hids.symm.trans h.1), rfl⟩
  · have hother : ∀ ids, Inserts s r ids → ids = recipientIds := fun ids h =>
      Except.ok.inj (h.1.symm.trans hids)
    show (∃ ids, Inserts s r ids ∧ NewChannel s ((findDm r.auth recipientIds >>=
        answerDm r.auth r.channelId r.now recipientIds).run dmStatement s).2 _ _) ∨ _ ∧
      ((findDm r.auth recipientIds >>= answerDm r.auth r.channelId r.now recipientIds).run dmStatement s).2 = s
    rcases hfind : (findDm r.auth recipientIds).run dmStatement s with ⟨e | existing, s'⟩
    · obtain rfl := readOnly_findDm.eq_of_run hfind
      rw [run_bind_of_error hfind]
      refine .inr ⟨fun ids h => ?_, rfl⟩
      obtain rfl := hother ids h
      have := h.2.1
      rw [hfind] at this
      cases this
    · obtain rfl := readOnly_findDm.eq_of_run hfind
      rw [run_bind_of_ok hfind]
      cases existing with
      | some response =>
        refine .inr ⟨fun ids h => ?_, rfl⟩
        obtain rfl := hother ids h
        have := h.2.1
        rw [hfind] at this
        cases this
      | none =>
        rcases run_insertDm (s := s') r.auth r.channelId r.now recipientIds with ⟨hchannel, hsame⟩ | ⟨hchannel, hnew⟩
        · refine .inr ⟨fun ids h => ?_, hsame⟩
          rw [h.2.2] at hchannel
          cases hchannel
        · exact .inl ⟨recipientIds, ⟨hids, by rw [hfind], hchannel⟩, hnew⟩

end Effects

/-! ## Runs -/

/-- recipients belong to channels that exist, as the foreign key has it -/
def Referenced (s : DmDb) : Prop := ∀ c, s.hasChannel c = false → s.recipients c = []

section Runs

variable {s : DmDb} {r : DmRequest} {recipientIds : List ℤ}

theorem length_of_dmRecipientIds {auth : ℤ} {body : CreateDmRequest} (h : dmRecipientIds auth body = .ok recipientIds) :
    1 ≤ recipientIds.length ∧ recipientIds.length ≤ 9 := by
  rw [dmRecipientIds, bind_eq_ok] at h
  obtain ⟨ids, -, h⟩ := h
  split_ifs at h with hempty hlong hself
  obtain rfl := Except.ok.inj h
  refine ⟨List.length_pos_iff.2 fun hnil => hempty ?_, not_lt.1 hlong⟩
  rw [hnil]
  rfl

/-- a channel for two is inserted if the two have none -/
theorem existingDm_of_inserts {b : ℤ} (h : Inserts s r [b]) : existingDm r.auth b s = none := by
  have hrun : (findDm r.auth [b]).run dmStatement s = (.ok none, s) := Prod.ext h.2.1 (run_readOnly readOnly_findDm s)
  rw [findDm, run_bind_of_ok (run_select _)] at hrun
  obtain ⟨_, s₁, hblocked, hrun⟩ := run_bind_eq_ok.1 hrun
  rw [(failIf_eq_ok.1 hblocked).2, run_bind_of_ok (run_select _)] at hrun
  rcases hexisting : existingDm r.auth b s with _ | channelId
  · rfl
  · rw [hexisting] at hrun
    obtain ⟨row, _, -, hrun⟩ := run_bind_eq_ok.1 hrun
    obtain ⟨recipient, _, -, hrun⟩ := run_bind_eq_ok.1 hrun
    cases hrun

theorem not_both_of_existingDm {a b : ℤ} (h : existingDm a b s = none) {c : Channel} (hc : c ∈ s.channels)
    (htype : c.type = 1) : ¬ (a ∈ s.recipients c.id ∧ b ∈ s.recipients c.id) := by
  rintro ⟨ha, hb⟩
  rw [existingDm, Option.map_eq_none_iff, Table.find?_eq_none] at h
  have := h c hc
  rw [isRecipient_iff.2 ha, isRecipient_iff.2 hb] at this
  simp [htype] at this

theorem seated_iff {userIds : List ℤ} :
    Seated s userIds ↔ min 3 userIds.length ≤ (admitted s.hasUser [] userIds).length := by
  have htake : userIds.take (min 3 userIds.length) = userIds.take 3 := by
    rw [List.take_eq_take_iff]
    omega
  have hlength := @le_length_admitted s.hasUser [] userIds (min 3 userIds.length)
  rw [List.length_nil, Nat.zero_add, htake] at hlength
  rw [hlength, Seated]
  simp

theorem dmType_eq_one : dmType recipientIds = 1 ↔ recipientIds.length = 1 := by
  rw [dmType]
  split_ifs with h <;> simp [h]

theorem dmType_eq_three : dmType recipientIds = 3 ↔ recipientIds.length ≠ 1 := by
  rw [dmType]
  split_ifs with h <;> simp [h]

/-- the new channel is well formed exactly if enough of its recipients could be inserted -/
theorem newChannel_wellFormed (href : Referenced s) (hs : DmWellFormed s) (h : Inserts s r recipientIds) {s' : DmDb}
    (hnew : NewChannel s s' (dmChannelRow r.channelId (dmType recipientIds) r.now) (r.auth :: recipientIds)) :
    DmWellFormed s' ↔ Seated s (r.auth :: recipientIds) := by
  set row := dmChannelRow r.channelId (dmType recipientIds) r.now with hrow
  have hrecipients : s'.recipients row.id = admitted s.hasUser [] (r.auth :: recipientIds) := by
    rw [hnew.recipients, if_pos rfl, show s.recipients row.id = [] from href r.channelId h.2.2]
  have hold : ∀ c ∈ s.channels, s'.recipients c.id = s.recipients c.id := fun c hc => by
    rw [hnew.recipients, if_neg (hnew.new c hc)]
  obtain ⟨hpos, hshort⟩ := length_of_dmRecipientIds h.1
  have hbound : (admitted s.hasUser [] (r.auth :: recipientIds)).length ≤ recipientIds.length + 1 := by
    simpa using @length_admitted_le s.hasUser [] (r.auth :: recipientIds)
  have hmem : row ∈ s'.channels := (hnew.channels row).2 (.inr rfl)
  rw [seated_iff, List.length_cons]
  constructor
  · intro hs'
    by_cases hone : recipientIds.length = 1
    · have hpair := hs'.pair row hmem (dmType_eq_one.2 hone)
      rw [hrecipients] at hpair
      omega
    · have hgroup := (hs'.group row hmem (dmType_eq_three.2 hone)).1
      rw [hrecipients] at hgroup
      omega
  · intro hseated
    -- an older channel for the same two would have been found
    have hfirst : ∀ c ∈ s.channels, c.type = 1 → row.type = 1 →
        ¬ ∀ u, u ∈ s'.recipients c.id ↔ u ∈ s'.recipients row.id := by
      intro c hc htype hrowtype hsame
      obtain ⟨b, rfl⟩ := List.length_eq_one_iff.1 (dmType_eq_one.1 hrowtype)
      have hlength : (admitted s.hasUser [] [r.auth, b]).length = 2 := by
        simp only [List.length_singleton] at hseated hbound
        omega
      have hall := (@le_length_admitted s.hasUser [] [r.auth, b] 2).1
        (by rw [hlength]; exact le_rfl)
      have hadmitted : s'.recipients row.id = [r.auth, b] := hrecipients.trans (admitted_eq hall.2.1 hall.2.2)
      refine not_both_of_existingDm (existingDm_of_inserts h) hc htype ?_
      rw [← hold c hc, hsame, hsame, hadmitted]
      simp
    refine ⟨fun c hc htype => ?_, fun c hc htype => ?_, fun c hc c' hc' htype htype' hsame => ?_⟩
    · rcases (hnew.channels c).1 hc with hc | rfl
      · rw [hold c hc]
        exact hs.pair c hc htype
      · have hone := dmType_eq_one.1 htype
        rw [hrecipients]
        omega
    · rcases (hnew.channels c).1 hc with hc | rfl
      · rw [hold c hc]
        exact hs.group c hc htype
      · have hmany := dmType_eq_three.1 htype
        rw [hrecipients]
        omega
    · rcases (hnew.channels c).1 hc with hc | rfl <;> rcases (hnew.channels c').1 hc' with hc' | rfl
      · refine hs.unique c hc c' hc' htype htype' fun u => ?_
        rw [← hold c hc, ← hold c' hc']
        exact hsame u
      · exact absurd hsame (hfirst c hc htype htype')
      · exact absurd (fun u => (hsame u).symm) (hfirst c' hc' htype' htype)
      · rfl

theorem wellFormed_step (r : DmRequest) (href : Referenced s) (hs : DmWellFormed s) :
    DmWellFormed (dmStep s r) ↔ DmComplete s r := by
  rcases dmStep_cases s r with ⟨recipientIds, hinserts, hnew⟩ | ⟨hnone, hsame⟩
  · rw [newChannel_wellFormed href hs hinserts hnew]
    refine ⟨fun h ids hids => ?_, fun h => h recipientIds hinserts⟩
    obtain rfl := Except.ok.inj (hinserts.1.symm.trans hids.1)
    exact h
  · rw [hsame]
    exact iff_of_true hs fun ids hids => absurd hids (hnone ids)

theorem referenced_step (r : DmRequest) (href : Referenced s) : Referenced (dmStep s r) := by
  rcases dmStep_cases s r with ⟨recipientIds, hinserts, hnew⟩ | ⟨hnone, hsame⟩
  · intro c hc
    have hchannels := Table.any_eq_false.1 hc
    have hne : c ≠ (dmChannelRow r.channelId (dmType recipientIds) r.now).id := by
      rintro rfl
      exact absurd (hchannels _ ((hnew.channels _).2 (.inr rfl))) (by simp)
    rw [hnew.recipients, if_neg hne]
    exact href c (Table.any_eq_false.2 fun c' hc' => hchannels c' ((hnew.channels c').2 (.inl hc')))
  · rwa [hsame]

/-- **Channels for direct messages are well formed exactly as long as no request inserts too few recipients.** -/
theorem dm_channels_iff (s : DmDb) (rs : List DmRequest) (href : Referenced s) (hs : DmWellFormed s) :
    (∀ l, l <+: rs → DmWellFormed (run dmStep s l)) ↔ Every dmStep DmComplete s rs := by
  have hstep : ∀ r ∈ rs, ∀ s, Referenced s ∧ DmWellFormed s →
      (Referenced (dmStep s r) ∧ DmWellFormed (dmStep s r) ↔ DmComplete s r) := fun r _ s h =>
    (and_iff_right (referenced_step r h.1)).trans (wellFormed_step r h.1 h.2)
  rw [← every_iff_prefixes hstep ⟨href, hs⟩]
  refine forall_congr' fun l => imp_congr_right fun _ => ?_
  exact (and_iff_right (run_inv (I := Referenced) (fun _ r => referenced_step r) href l)).symm

end Runs

/-! ## Channels in practice -/

def dmUser (id : ℤ) : User := ⟨id, "user", 1, "", none, none, none, 0, false, none⟩

/-- users 7, 8 and 9 have accounts, and there are no channels -/
def dmUsers : DmDb where
  users := ⟨[dmUser 7, dmUser 8, dmUser 9], by decide⟩
  relationships := .empty
  channels := .empty
  dmRecipients := .empty

theorem dmUsers_referenced : Referenced dmUsers := fun _ _ => rfl

theorem dmUsers_wellFormed : DmWellFormed dmUsers where
  pair _ hc := absurd hc Table.not_mem_empty
  group _ hc := absurd hc Table.not_mem_empty
  unique _ hc := absurd hc Table.not_mem_empty

/-- the second request finds the channel of the first, the third names a user twice -/
def sociable : List DmRequest :=
  [⟨7, 100, ⟨0⟩, ⟨some 8, none⟩⟩, ⟨8, 101, ⟨1⟩, ⟨some 7, none⟩⟩, ⟨9, 102, ⟨2⟩, ⟨none, some [8, 7, 8]⟩⟩]

theorem dm_channels_iff_sociable :
    Every dmStep DmComplete dmUsers sociable ∧ DmWellFormed (run dmStep dmUsers sociable) := by
  have hcomplete : Every dmStep DmComplete dmUsers sociable := by decide +kernel
  have hall := (dm_channels_iff dmUsers sociable dmUsers_referenced dmUsers_wellFormed).2 hcomplete
  exact ⟨hcomplete, hall sociable List.prefix_rfl⟩

/-- **A message to nobody.** Recipient 5 has no account: the channel for two is left with one recipient. -/
theorem lonely :
    let s := dmStep dmUsers ⟨7, 100, ⟨0⟩, ⟨some 5, none⟩⟩
    (∃ c ∈ s.channels, c.type = 1 ∧ s.recipients c.id = [7]) ∧ ¬ DmWellFormed s := by
  have hchannel : ∃ c ∈ (dmStep dmUsers ⟨7, 100, ⟨0⟩, ⟨some 5, none⟩⟩).channels, c.type = 1 ∧
      (dmStep dmUsers ⟨7, 100, ⟨0⟩, ⟨some 5, none⟩⟩).recipients c.id = [7] :=
    ⟨dmChannelRow 100 1 ⟨0⟩, by decide, rfl, by decide⟩
  refine ⟨hchannel, fun h => ?_⟩
  obtain ⟨c, hc, htype, hrecipients⟩ := hchannel
  have hpair := h.pair c hc htype
  rw [hrecipients] at hpair
  exact absurd hpair (by decide)

end Lumiere.Routes
