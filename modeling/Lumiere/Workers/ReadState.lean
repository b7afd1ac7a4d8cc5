/-
The read-state worker (`workers/read_state_worker.rs`). It pulls the events of the MESSAGES stream, and for a new message
of a server upserts a row of `read_states` in PostgreSQL for every member but the author, one statement each. An event
whose processing ends with an error is not acknowledged and comes again; so does one whose acknowledgement is lost.

The statements take `read_states` to have the key of their ON CONFLICT clause; no migration creates the table.

- `processMessage`: one attempt at one event; `stop` is the command that fails, the order of the members is the database's.
- `Exactly`: the rows are those of every event counted once.
- `exactly_iff`: they are so exactly if no two attempts at one event reach the same member whom the event mentions.
- `counted_twice`: an event that is delivered again.
-/
import Lumiere.Core.Json
import Lumiere.Core.Run
import Lumiere.Core.Steps
import Lumiere.Db.Postgres
import Mathlib.Data.Finset.Card
import Mathlib.Data.Finset.Max

namespace Lumiere.Workers

open Lumiere.Core Lumiere.Core.Prog Lumiere.Db

/-! ## What an event says -/

/-- the fields of a `MESSAGE_CREATE` event that the worker reads -/
structure Reading where
  channelId : ℤ
  serverId : Option ℤ
  authorId : ℤ
  mentionEveryone : Bool
  mentionedUsers : List ℤ
  messageId : ℤ
deriving DecidableEq, Repr

/-- `none` if the event is passed over -/
def reading (event : Value) : Option Reading :=
  if (event.field "type").asStr.getD "" ≠ "MESSAGE_CREATE" then none
  else
    (event.get? "message").bind fun message =>
      let channelId := (event.field "channel_id").asI64.getD 0
      if channelId = 0 then none
      else some
        { channelId
          serverId := (event.field "server_id").asI64
          authorId := (message.field "author_id").asId.getD 0
          mentionEveryone := (message.field "mention_everyone").asBool.getD false
          mentionedUsers := ((message.field "mentions").asArray.getD []).filterMap Value.asI64
          messageId := (message.field "id").asId.getD 0 }

/-- `is_mentioned` -/
def Reading.mentions (r : Reading) (userId : ℤ) : Bool := r.mentionEveryone || r.mentionedUsers.contains userId

/-! ## Rows -/

structure ReadState where
  userId : ℤ
  channelId : ℤ
  lastMessageId : ℤ
  mentionCount : ℤ
deriving DecidableEq, Repr

abbrev ReadStates := Table fun r : ReadState => (r.userId, r.channelId)

/-- the two upserts, of a member who is mentioned and of one who is not -/
inductive Upsert where
  | mention (userId channelId messageId : ℤ)
  | message (userId channelId messageId : ℤ)
deriving DecidableEq, Repr

def Upsert.apply (t : ReadStates) : Upsert → ReadStates
  | .mention userId channelId messageId => t.upsert ⟨userId, channelId, messageId, 1⟩
    (fun r => { r with lastMessageId := max r.lastMessageId messageId, mentionCount := r.mentionCount + 1 }) fun _ => rfl
  | .message userId channelId messageId => t.upsert ⟨userId, channelId, messageId, 0⟩
    (fun r => { r with lastMessageId := max r.lastMessageId messageId }) fun _ => rfl

structure ReadDb where
  pg : Postgres
  readStates : ReadStates

inductive WorkerError where
  | json
  | database
deriving DecidableEq, Repr

def Upsert.exec (u : Upsert) (s : ReadDb) : Except WorkerError (ℕ × ReadDb) :=
  .ok (1, { s with readStates := u.apply s.readStates })

abbrev Work := Prog ReadDb Upsert WorkerError

/-! ## One attempt -/

/-- rows come in no particular order -/
structure Order where
  order : List ℤ → List ℤ
  perm : ∀ l, (order l).Perm l

/-- `SELECT user_id FROM server_members WHERE server_id = $1 AND user_id != $2` -/
def members (pg : Postgres) (r : Reading) : List ℤ :=
  match r.serverId with
  | some sid => (pg.serverMembers.select fun m => m.serverId = sid && m.userId ≠ r.authorId).map ServerMember.userId
  | none => []

def upsertFor (r : Reading) (memberId : ℤ) : Upsert :=
  if r.mentions memberId then .mention memberId r.channelId r.messageId else .message memberId r.channelId r.messageId

/-- the loop over the members -/
def upsertAll (stop : Option ℕ) (r : Reading) (memberIds : List (ℤ × ℕ)) : Work Unit :=
  memberIds.forM fun (memberId, i) => do
    failIf (stop = some (i + 1)) .database
    execute (upsertFor r memberId)

/-- `payload` is `none` if it is not JSON; `stop` numbers the commands from the SELECT -/
def processMessage (order : Order) (stop : Option ℕ) (payload : Option Value) : Work Unit := do
  let event ← orFail .json payload
  match reading event with
  | none => pure ()
  | some r =>
    failIf (r.serverId.isSome ∧ stop = some 0) .database
    let memberIds ← select fun s => order.order (members s.pg r)
    upsertAll stop r memberIds.zipIdx

structure Attempt where
  /-- the position in the stream -/
  message : ℕ
  order : Order
  stop : Option ℕ

variable (stream : ℕ → Option Value)

def Attempt.program (a : Attempt) : Work Unit := processMessage a.order a.stop (stream a.message)

def attempt (s : ReadDb) (a : Attempt) : ReadDb := ((a.program stream).run Upsert.exec s).2

/-- `Ok(())`: the message is acknowledged -/
def Attempt.completes (pg : Postgres) (a : Attempt) : Bool := (a.program stream).succeeds Upsert.exec ⟨pg, .empty⟩

/-! ## What is claimed, and of which attempts -/

/-- the first members of the list: those before the command that fails -/
def cut (stop : Option ℕ) (j : ℕ) (memberIds : List ℤ) : List ℤ :=
  match stop with
  | none => memberIds
  | some k => memberIds.take (k - 1 - j)

/-- the members whose rows the attempt gets to -/
def Attempt.reached (pg : Postgres) (r : Reading) (a : Attempt) : List ℤ := cut a.stop 0 (a.order.order (members pg r))

/-- the attempt increments the `mention_count` of the user -/
def Attempt.raises (pg : Postgres) (userId : ℤ) (a : Attempt) : Bool :=
  ((stream a.message).bind reading).any fun r => r.mentions userId && (a.reached pg r).contains userId

/-- the event, if it is a new message in the channel, of somebody else on a server of the user -/
def notice (pg : Postgres) (userId channelId : ℤ) (payload : Option Value) : Option Reading :=
  (payload.bind reading).filter fun r => r.channelId = channelId && (members pg r).contains userId

/-- the event at a position -/
def noticed (pg : Postgres) (userId channelId : ℤ) (n : ℕ) : Option Reading := notice pg userId channelId (stream n)

def row? (t : ReadStates) (userId channelId : ℤ) : Option ReadState :=
  t.find? fun r => (r.userId, r.channelId) = (userId, channelId)

/-- the rows after the events at `positions`, each counted once -/
structure Exactly (pg : Postgres) (positions : List ℕ) (t : ReadStates) : Prop where
  rows : ∀ userId channelId, row? t userId channelId = none ↔ ∀ n ∈ positions, noticed stream pg userId channelId n = none
  last : ∀ userId channelId, ∀ row ∈ row? t userId channelId,
    IsGreatest {id | ∃ n ∈ positions, ∃ r ∈ noticed stream pg userId channelId n, r.messageId = id} row.lastMessageId
  mentions : ∀ userId channelId, ∀ row ∈ row? t userId channelId, row.mentionCount =
    (positions.toFinset.filter fun n => (noticed stream pg userId channelId n).any fun r => r.mentions userId).card

/-- no two attempts at one event increment the count of the same user -/
def RaisedOnce (pg : Postgres) (attempts : List Attempt) : Prop :=
  attempts.Pairwise fun a b => a.message = b.message → ∀ userId,
    ¬ (a.raises stream pg userId = true ∧ b.raises stream pg userId = true)

/-! ## Upserts -/

namespace Upsert

def key : Upsert → ℤ × ℤ
  | .mention userId channelId _ | .message userId channelId _ => (userId, channelId)

def messageId : Upsert → ℤ
  | .mention _ _ messageId | .message _ _ messageId => messageId

def isMention : Upsert → Bool
  | .mention .. => true
  | .message .. => false

end Upsert

/-- a row after upserts, starting from an empty table -/
structure Tallies (ups : List Upsert) (userId channelId : ℤ) (row : Option ReadState) : Prop where
  none_iff : row = none ↔ ∀ u ∈ ups, u.key ≠ (userId, channelId)
  last : ∀ r ∈ row, IsGreatest {id | ∃ u ∈ ups, u.key = (userId, channelId) ∧ u.messageId = id} r.lastMessageId
  count : ∀ r ∈ row, r.mentionCount = ups.countP fun u => decide (u.key = (userId, channelId)) && u.isMention

theorem row?_apply (t : ReadStates) (u : Upsert) (userId channelId : ℤ) :
    row? (u.apply t) userId channelId =
      if u.key = (userId, channelId) then
        some ((row? t userId channelId).elim ⟨userId, channelId, u.messageId, if u.isMention then 1 else 0⟩ fun r =>
          { r with
            lastMessageId := max r.lastMessageId u.messageId
            mentionCount := r.mentionCount + if u.isMention then 1 else 0 })
      else row? t userId channelId := by
  by_cases hkey : u.key = (userId, channelId)
  · rw [if_pos hkey]
    cases u with
    | mention member channel messageId =>
      obtain ⟨rfl, rfl⟩ := Prod.mk.inj hkey
      rw [row?, Upsert.apply, Table.find?_upsert, if_pos rfl]
      rfl
    | message member channel messageId =>
      obtain ⟨rfl, rfl⟩ := Prod.mk.inj hkey
      rw [row?, Upsert.apply, Table.find?_upsert, if_pos rfl]
      simp only [Upsert.isMention, Bool.false_eq_true, if_false, add_zero]
      rfl
  · rw [if_neg hkey]
    cases u with
    | mention member channel messageId => exact (Table.find?_upsert _ _).trans (if_neg hkey)
    | message member channel messageId => exact (Table.find?_upsert _ _).trans (if_neg hkey)

section Tallies

variable {ups : List Upsert} {u : Upsert} {userId channelId : ℤ} {row : Option ReadState}

/-- an upsert of another row -/
theorem Tallies.other (h : Tallies ups userId channelId row) (hkey : u.key ≠ (userId, channelId)) :
    Tallies (ups ++ [u]) userId channelId row := by
  have hmem : ∀ v, v ∈ ups ++ [u] ∧ v.key = (userId, channelId) ↔ v ∈ ups ∧ v.key = (userId, channelId) := by
    intro v
    rw [List.mem_append, List.mem_singleton]
    refine and_congr_left fun hv => or_iff_left ?_
    rintro rfl
    exact hkey hv
  refine ⟨h.none_iff.trans ?_, fun r hr => ?_, fun r hr => ?_⟩
  · exact ⟨fun hno v hv hvkey => hno v ((hmem v).1 ⟨hv, hvkey⟩).1 hvkey, fun hno v hv => hno v (List.mem_append_left _ hv)⟩
  · simp only [← and_assoc, hmem]
    simpa only [and_assoc] using h.last r hr
  · rw [h.count r hr, List.countP_append, List.countP_singleton]
    simp [hkey]

/-- the first upsert of the row -/
theorem Tallies.first (h : Tallies ups userId channelId none) (hkey : u.key = (userId, channelId)) :
    Tallies (ups ++ [u]) userId channelId (some ⟨userId, channelId, u.messageId, if u.isMention then 1 else 0⟩) := by
  have hnone := h.none_iff.1 rfl
  refine ⟨⟨nofun, fun hno => absurd hkey (hno u (by simp))⟩, fun r hr => ?_, fun r hr => ?_⟩
  · obtain rfl := Option.some.inj hr
    refine ⟨⟨u, by simp, hkey, rfl⟩, ?_⟩
    rintro id ⟨v, hv, hvkey, rfl⟩
    rcases List.mem_append.1 hv with hv | hv
    · exact absurd hvkey (hnone v hv)
    · rw [List.mem_singleton.1 hv]
  · obtain rfl := Option.some.inj hr
    have hzero : (ups.countP fun v => decide (v.key = (userId, channelId)) && v.isMention) = 0 :=
      List.countP_eq_zero.2 fun v hv => by simp [hnone v hv]
    rw [List.countP_append, hzero, List.countP_singleton]
    cases u.isMention <;> simp [hkey]

/-- a later one -/
theorem Tallies.next {r : ReadState} (h : Tallies ups userId channelId (some r)) (hkey : u.key = (userId, channelId)) :
    Tallies (ups ++ [u]) userId channelId (some { r with
      lastMessageId := max r.lastMessageId u.messageId
      mentionCount := r.mentionCount + if u.isMention then 1 else 0 }) := by
  obtain ⟨⟨v, hv, hvkey, hid⟩, hle⟩ := h.last r rfl
  refine ⟨⟨nofun, fun hno => absurd hkey (hno u (by simp))⟩, fun r' hr => ?_, fun r' hr => ?_⟩
  · obtain rfl := Option.some.inj hr
    constructor
    · rcases max_choice r.lastMessageId u.messageId with hmax | hmax
      · exact ⟨v, List.mem_append_left _ hv, hvkey, hid.trans hmax.symm⟩
      · exact ⟨u, by simp, hkey, hmax.symm⟩
    · rintro id ⟨w, hw, hwkey, rfl⟩
      rcases List.mem_append.1 hw with hw | hw
      · exact (hle ⟨w, hw, hwkey, rfl⟩).trans (le_max_left _ _)
      · rw [List.mem_singleton.1 hw]
        exact le_max_right _ _
  · obtain rfl := Option.some.inj hr
    rw [List.countP_append, List.countP_singleton, Nat.cast_add, ← h.count r rfl]
    cases u.isMention <;> simp [hkey]

end Tallies

theorem tallies_foldl (ups : List Upsert) (userId channelId : ℤ) :
    Tallies ups userId channelId (row? (ups.foldl Upsert.apply .empty) userId channelId) := by
  induction ups using List.reverseRecOn with
  | nil => exact ⟨⟨fun _ u hu => (List.not_mem_nil hu).elim, fun _ => rfl⟩, nofun, nofun⟩
  | append_singleton ups u ih =>
    rw [List.foldl_append, List.foldl_cons, List.foldl_nil, row?_apply]
    by_cases hkey : u.key = (userId, channelId)
    · rw [if_pos hkey]
      rcases hrow : row? (ups.foldl Upsert.apply .empty) userId channelId with _ | r
      · rw [hrow] at ih
        exact ih.first hkey
      · rw [hrow] at ih
        exact ih.next hkey
    · rw [if_neg hkey]
      exact ih.other hkey

/-! ## One attempt -/

variable {stream} {pg : Postgres} {s : ReadDb} {r : Reading} {a : Attempt}

theorem cut_cons {stop : Option ℕ} {j : ℕ} (hstop : ∀ k ∈ stop, j < k) (hne : stop ≠ some (j + 1)) (m : ℤ) (ms : List ℤ) :
    (∀ k ∈ stop, j + 1 < k) ∧ cut stop j (m :: ms) = m :: cut stop (j + 1) ms := by
  cases stop with
  | none => exact ⟨nofun, rfl⟩
  | some k =>
    have hk : j + 1 < k := lt_of_le_of_ne (hstop k rfl) fun h => hne (congrArg some h.symm)
    refine ⟨fun k' hk' => Option.some.inj hk' ▸ hk, ?_⟩
    rw [cut, cut, show k - 1 - j = k - 1 - (j + 1) + 1 by omega, List.take_succ_cons]

theorem upsertAll_cons (stop : Option ℕ) (r : Reading) (m : ℤ) (i : ℕ) (ms : List (ℤ × ℕ)) :
    upsertAll stop r ((m, i) :: ms) = (do
      failIf (stop = some (i + 1)) .database
      execute (upsertFor r m)) >>= fun _ => upsertAll stop r ms := rfl

/-- it stops at the command that fails -/
theorem run_upsertAll (stop : Option ℕ) (r : Reading) (memberIds : List ℤ) (j : ℕ) (hstop : ∀ k ∈ stop, j < k)
    (s : ReadDb) :
    ∃ res, (upsertAll stop r (memberIds.zipIdx j)).run Upsert.exec s =
        (res, { s with readStates := ((cut stop j memberIds).map (upsertFor r)).foldl Upsert.apply s.readStates }) ∧
      (res = .ok () → cut stop j memberIds = memberIds) := by
  induction memberIds generalizing j s with
  | nil => exact ⟨.ok (), by cases stop <;> simp [upsertAll, cut], fun _ => by cases stop <;> simp [cut]⟩
  | cons m ms ih =>
    rw [List.zipIdx_cons, upsertAll_cons]
    by_cases hj : stop = some (j + 1)
    · subst hj
      refine ⟨.error .database, ?_, nofun⟩
      rw [run_bind, run_bind, run_failIf, if_pos rfl]
      simp [cut]
    · obtain ⟨hstop', hcut⟩ := cut_cons hstop hj m ms
      obtain ⟨res, hrun, hres⟩ := ih (j + 1) hstop' { s with readStates := (upsertFor r m).apply s.readStates }
      refine ⟨res, ?_, fun h => by rw [hcut, hres h]⟩
      rw [run_bind, run_bind, run_failIf, if_neg hj, hcut]
      exact hrun

/-- the statements of an attempt -/
def Attempt.upserts (stream : ℕ → Option Value) (pg : Postgres) (a : Attempt) : List Upsert :=
  match (stream a.message).bind reading with
  | some r => (a.reached pg r).map (upsertFor r)
  | none => []

theorem run_program (stream : ℕ → Option Value) (a : Attempt) (s : ReadDb) :
    ∃ res, (a.program stream).run Upsert.exec s =
        (res, { s with readStates := (a.upserts stream s.pg).foldl Upsert.apply s.readStates }) ∧
      (res = .ok () → ∀ r ∈ (stream a.message).bind reading, a.reached s.pg r = a.order.order (members s.pg r)) := by
  rw [Attempt.program, processMessage, Attempt.upserts]
  rcases hpayload : stream a.message with _ | event
  · exact ⟨.error .json, rfl, nofun⟩
  rw [run_bind_of_ok (run_orFail_some _ event), Option.bind_some]
  rcases hreading : reading event with _ | r
  · exact ⟨.ok (), rfl, nofun⟩
  dsimp only
  rw [run_bind, run_failIf]
  by_cases hfail : r.serverId.isSome = true ∧ a.stop = some 0
  · rw [if_pos hfail, Attempt.reached, hfail.2]
    exact ⟨.error .database, rfl, nofun⟩
  rw [if_neg hfail]
  dsimp only
  rw [run_bind_of_ok (run_select _)]
  by_cases hzero : a.stop = some 0
  · -- not a message of a server, so no members
    have hempty : a.order.order (members s.pg r) = [] := by
      have hserver : r.serverId = none := by simpa [hzero] using hfail
      refine List.Perm.eq_nil ((a.order.perm _).trans (List.Perm.of_eq ?_))
      rw [members, hserver]
    rw [Attempt.reached, hempty, hzero]
    exact ⟨.ok (), rfl, fun _ r' hr' => by
      obtain rfl := Option.some.inj hr'
      rw [Attempt.reached, hempty, hzero]
      rfl⟩
  · obtain ⟨res, hrun, hres⟩ := run_upsertAll a.stop r (a.order.order (members s.pg r)) 0
      (fun k hk => Nat.pos_of_ne_zero fun h => hzero (h ▸ hk)) s
    refine ⟨res, hrun, fun h r' hr' => ?_⟩
    obtain rfl := Option.some.inj hr'
    exact hres h

theorem attempt_eq (s : ReadDb) (a : Attempt) : attempt stream s a =
    { s with readStates := (a.upserts stream s.pg).foldl Upsert.apply s.readStates } := by
  obtain ⟨res, hrun, -⟩ := run_program stream a s
  rw [attempt, hrun]

/-- an attempt that completes gets to every member -/
theorem reached_of_completes (h : a.completes stream pg = true) (hr : r ∈ (stream a.message).bind reading) :
    a.reached pg r = a.order.order (members pg r) := by
  obtain ⟨res, hrun, hall⟩ := run_program stream a ⟨pg, .empty⟩
  obtain ⟨u, s', h⟩ := succeeds_iff.1 h
  rw [hrun] at h
  exact hall (Prod.mk.inj h).1 r hr

theorem run_attempts (attempts : List Attempt) (s : ReadDb) : Core.run (attempt stream) s attempts =
    { s with readStates := (attempts.flatMap (Attempt.upserts stream s.pg)).foldl Upsert.apply s.readStates } := by
  induction attempts generalizing s with
  | nil => rfl
  | cons a attempts ih => rw [run_cons, ih, attempt_eq, List.flatMap_cons, List.foldl_append]

/-! ## Any number of attempts -/

variable {attempts : List Attempt} {userId channelId : ℤ}

theorem nodup_members (pg : Postgres) (r : Reading) : (members pg r).Nodup := by
  rw [members]
  cases r.serverId with
  | none => exact List.nodup_nil
  | some sid =>
    refine Table.nodup_map_select (fun userId => (sid, userId)) fun m _ hm => ?_
    have hsid := (Bool.and_eq_true_iff.1 hm).1
    rw [← of_decide_eq_true hsid]

theorem cut_sublist (stop : Option ℕ) (j : ℕ) (memberIds : List ℤ) : (cut stop j memberIds).Sublist memberIds := by
  cases stop with
  | none => exact List.Sublist.refl _
  | some k => exact List.take_sublist _ _

/-- no member is reached twice -/
theorem nodup_reached : (a.reached pg r).Nodup :=
  ((a.order.perm _).nodup_iff.2 (nodup_members pg r)).sublist (cut_sublist _ _ _)

theorem mem_members_of_reached (h : userId ∈ a.reached pg r) : userId ∈ members pg r :=
  (a.order.perm _).subset ((cut_sublist _ _ _).subset h)

theorem key_upsertFor (r : Reading) (m : ℤ) : (upsertFor r m).key = (m, r.channelId) := by
  rw [upsertFor]
  split_ifs <;> rfl

theorem messageId_upsertFor (r : Reading) (m : ℤ) : (upsertFor r m).messageId = r.messageId := by
  rw [upsertFor]
  split_ifs <;> rfl

theorem isMention_upsertFor (r : Reading) (m : ℤ) : (upsertFor r m).isMention = r.mentions m := by
  rw [upsertFor]
  split_ifs with h
  · exact h.symm
  · exact (Bool.eq_false_iff.2 h).symm

theorem mem_noticed {n : ℕ} : r ∈ noticed stream pg userId channelId n ↔
    r ∈ (stream n).bind reading ∧ r.channelId = channelId ∧ userId ∈ members pg r := by
  simp [noticed, notice, Option.mem_def, Option.filter_eq_some_iff]

/-- the upserts of one row that an attempt executes -/
theorem mem_upserts {u : Upsert} : u ∈ a.upserts stream pg ∧ u.key = (userId, channelId) ↔
    ∃ r ∈ noticed stream pg userId channelId a.message, userId ∈ a.reached pg r ∧ u = upsertFor r userId := by
  simp only [mem_noticed, Attempt.upserts]
  rcases (stream a.message).bind reading with _ | r
  · simp
  · simp only [List.mem_map, Option.mem_def, Option.some.injEq]
    constructor
    · rintro ⟨⟨m, hm, rfl⟩, hkey⟩
      rw [key_upsertFor] at hkey
      obtain ⟨rfl, rfl⟩ := Prod.mk.inj hkey
      exact ⟨r, ⟨rfl, rfl, mem_members_of_reached hm⟩, hm, rfl⟩
    · rintro ⟨r, ⟨rfl, rfl, -⟩, hm, rfl⟩
      exact ⟨⟨userId, hm, rfl⟩, key_upsertFor _ _⟩

/-- the attempt increments the count of the row -/
def raising (stream : ℕ → Option Value) (pg : Postgres) (userId channelId : ℤ) (a : Attempt) : Bool :=
  (noticed stream pg userId channelId a.message).any fun r => r.mentions userId && (a.reached pg r).contains userId

/-- at most one of them is a mention -/
theorem countP_upserts : ((a.upserts stream pg).countP fun u => decide (u.key = (userId, channelId)) && u.isMention) =
    if raising stream pg userId channelId a then 1 else 0 := by
  rw [Attempt.upserts, raising, noticed, notice]
  rcases (stream a.message).bind reading with _ | r
  · rfl
  have hcount : ((a.reached pg r).map (upsertFor r)).countP (fun u => decide (u.key = (userId, channelId)) && u.isMention) =
      (a.reached pg r).countP fun m => decide (m = userId) && (decide (r.channelId = channelId) && r.mentions userId) := by
    rw [List.countP_map]
    refine List.countP_congr fun m _ => ?_
    simp only [Function.comp, key_upsertFor, isMention_upsertFor, Prod.mk.injEq]
    by_cases hm : m = userId <;> simp [hm]
  have hone : (a.reached pg r).countP (fun m => decide (m = userId)) = if userId ∈ a.reached pg r then 1 else 0 := by
    rw [← nodup_reached.count, List.count]
    exact List.countP_congr fun m _ => by simp
  dsimp only
  rw [hcount]
  by_cases hchannel : r.channelId = channelId
  · by_cases hm : userId ∈ a.reached pg r
    · cases hmentions : r.mentions userId <;> simp [hone, hchannel, hm, hmentions, mem_members_of_reached hm]
    · have hne : ∀ m ∈ a.reached pg r, m ≠ userId := fun m hmem h => hm (h ▸ hmem)
      simpa [hm] using fun m hmem h => absurd h (hne m hmem)
  · simp [hchannel]

theorem countP_flatMap_upserts (attempts : List Attempt) :
    ((attempts.flatMap (Attempt.upserts stream pg)).countP fun u => decide (u.key = (userId, channelId)) && u.isMention) =
      attempts.countP (raising stream pg userId channelId) := by
  induction attempts with
  | nil => rfl
  | cons a attempts ih =>
    rw [List.flatMap_cons, List.countP_append, ih, countP_upserts, List.countP_cons, add_comm]

/-- every event is completely processed at last -/
def AllComplete (stream : ℕ → Option Value) (pg : Postgres) (attempts : List Attempt) : Prop :=
  ∀ a ∈ attempts, ∃ b ∈ attempts, b.message = a.message ∧ b.completes stream pg = true

theorem reached_of_allComplete (h : AllComplete stream pg attempts) {n : ℕ} (hn : n ∈ attempts.map Attempt.message)
    (hr : r ∈ noticed stream pg userId channelId n) :
    ∃ b ∈ attempts, b.message = n ∧ userId ∈ b.reached pg r := by
  obtain ⟨a, ha, rfl⟩ := List.mem_map.1 hn
  obtain ⟨b, hb, hmessage, hcompletes⟩ := h a ha
  obtain ⟨hreading, -, hmember⟩ := mem_noticed.1 hr
  rw [← hmessage] at hreading
  refine ⟨b, hb, hmessage, ?_⟩
  rw [reached_of_completes hcompletes hreading]
  exact (b.order.perm _).mem_iff.2 hmember

/-- the ids that are upserted into a row are those of the events it notices -/
theorem upserted_iff (h : AllComplete stream pg attempts) (id : ℤ) :
    (∃ u ∈ attempts.flatMap (Attempt.upserts stream pg), u.key = (userId, channelId) ∧ u.messageId = id) ↔
      ∃ n ∈ attempts.map Attempt.message, ∃ r ∈ noticed stream pg userId channelId n, r.messageId = id := by
  constructor
  · rintro ⟨u, hu, hkey, rfl⟩
    obtain ⟨a, ha, hu⟩ := List.mem_flatMap.1 hu
    obtain ⟨r, hr, -, rfl⟩ := mem_upserts.1 ⟨hu, hkey⟩
    exact ⟨a.message, List.mem_map_of_mem ha, r, hr, (messageId_upsertFor r userId).symm⟩
  · rintro ⟨n, hn, r, hr, rfl⟩
    obtain ⟨b, hb, rfl, hreached⟩ := reached_of_allComplete h hn hr
    obtain ⟨hu, hkey⟩ := mem_upserts.2 ⟨r, hr, hreached, rfl⟩
    exact ⟨_, List.mem_flatMap.2 ⟨b, hb, hu⟩, hkey, messageId_upsertFor r userId⟩

/-- the events that mention the user are those of the attempts that increment the count -/
theorem toFinset_raising (h : AllComplete stream pg attempts) :
    ((attempts.filter (raising stream pg userId channelId)).map Attempt.message).toFinset =
      (attempts.map Attempt.message).toFinset.filter fun n =>
        (noticed stream pg userId channelId n).any fun r => r.mentions userId := by
  ext n
  simp only [List.mem_toFinset, Finset.mem_filter, Option.any_eq_true]
  constructor
  · intro hn
    obtain ⟨a, ha, rfl⟩ := List.mem_map.1 hn
    obtain ⟨ha, hraising⟩ := List.mem_filter.1 ha
    obtain ⟨r, hr, hmentions⟩ := (Option.any_eq_true _ _).1 hraising
    exact ⟨List.mem_map_of_mem ha, r, hr, (Bool.and_eq_true_iff.1 hmentions).1⟩
  · rintro ⟨hn, r, hr, hmentions⟩
    obtain ⟨b, hb, rfl, hreached⟩ := reached_of_allComplete h hn hr
    refine List.mem_map_of_mem (List.mem_filter.2 ⟨hb, (Option.any_eq_true _ _).2 ⟨r, hr, ?_⟩⟩)
    rw [hmentions, List.contains_iff_mem.2 hreached]
    rfl

/-- the count of a row is that of the events exactly if no event has raised it twice -/
theorem count_eq_iff (h : AllComplete stream pg attempts) :
    attempts.countP (raising stream pg userId channelId) =
        ((attempts.map Attempt.message).toFinset.filter fun n =>
          (noticed stream pg userId channelId n).any fun r => r.mentions userId).card ↔
      ((attempts.filter (raising stream pg userId channelId)).map Attempt.message).Nodup := by
  rw [← toFinset_raising h, List.countP_eq_length_filter, ← List.length_map (f := Attempt.message)]
  constructor
  · intro hcard
    exact Multiset.toFinset_card_eq_card_iff_nodup.1 hcard.symm
  · exact fun hnodup => (List.toFinset_card_of_nodup hnodup).symm

theorem raising_iff : raising stream pg userId channelId a = true ↔
    ∃ r ∈ noticed stream pg userId channelId a.message, r.mentions userId = true ∧ userId ∈ a.reached pg r := by
  simp [raising, Option.any_eq_true]

theorem raises_iff : a.raises stream pg userId = true ↔
    ∃ r ∈ (stream a.message).bind reading, r.mentions userId = true ∧ userId ∈ a.reached pg r := by
  simp [Attempt.raises, Option.any_eq_true]

/-- counts are kept by user and channel, and an event is about one channel -/
theorem raisedOnce_iff : RaisedOnce stream pg attempts ↔ ∀ userId channelId,
    ((attempts.filter (raising stream pg userId channelId)).map Attempt.message).Nodup := by
  simp only [List.Nodup, List.pairwise_map, List.pairwise_filter]
  constructor
  · intro h userId channelId
    refine h.imp fun hab ha hb hmessage => hab hmessage userId ⟨?_, ?_⟩
    · obtain ⟨r, hr, hmentions⟩ := raising_iff.1 ha
      exact raises_iff.2 ⟨r, (mem_noticed.1 hr).1, hmentions⟩
    · obtain ⟨r, hr, hmentions⟩ := raising_iff.1 hb
      exact raises_iff.2 ⟨r, (mem_noticed.1 hr).1, hmentions⟩
  · intro h
    refine List.pairwise_iff_getElem.2 fun i j hi hj hij hmessage userId ⟨ha, hb⟩ => ?_
    obtain ⟨r, hr, hmentions, ha⟩ := raises_iff.1 ha
    obtain ⟨r', hr', hmentions', hb⟩ := raises_iff.1 hb
    rw [hmessage] at hr
    obtain rfl : r = r' := Option.some.inj (hr.symm.trans hr')
    refine List.pairwise_iff_getElem.1 (h userId r.channelId) i j hi hj hij ?_ ?_ hmessage
    · exact raising_iff.2 ⟨r, mem_noticed.2 ⟨hmessage ▸ hr, rfl, mem_members_of_reached ha⟩, hmentions, ha⟩
    · exact raising_iff.2 ⟨r, mem_noticed.2 ⟨hr', rfl, mem_members_of_reached hb⟩, hmentions, hb⟩

/-- **Redelivery leaves the rows alone exactly if no event raises a count twice.** Every event is processed completely at
last, in any order, with any other attempts in between. -/
theorem exactly_iff (stream : ℕ → Option Value) (pg : Postgres) (attempts : List Attempt)
    (h : AllComplete stream pg attempts) :
    Exactly stream pg (attempts.map Attempt.message) (Core.run (attempt stream) ⟨pg, .empty⟩ attempts).readStates ↔
      RaisedOnce stream pg attempts := by
  rw [run_attempts, raisedOnce_iff]
  have htally := tallies_foldl (attempts.flatMap (Attempt.upserts stream pg))
  dsimp only
  generalize (attempts.flatMap (Attempt.upserts stream pg)).foldl Upsert.apply .empty = t at htally ⊢
  constructor
  · intro hexact userId channelId
    rw [← count_eq_iff h]
    rcases hrow : row? t userId channelId with _ | row
    · have hnone := (hexact.rows userId channelId).1 hrow
      rw [Finset.filter_eq_empty_iff.2 fun n hn => ?_, Finset.card_empty, List.countP_eq_zero]
      · intro a ha hraising
        obtain ⟨r, hr, -⟩ := raising_iff.1 hraising
        rw [hnone a.message (List.mem_map_of_mem ha)] at hr
        cases hr
      · rw [hnone n (List.mem_toFinset.1 hn)]
        exact Bool.false_ne_true
    · have hcount := (htally userId channelId).count row hrow
      rw [countP_flatMap_upserts] at hcount
      exact_mod_cast hcount.symm.trans (hexact.mentions userId channelId row hrow)
  · intro hnodup
    refine ⟨fun userId channelId => ?_, fun userId channelId row hrow => ?_, fun userId channelId row hrow => ?_⟩
    · rw [(htally userId channelId).none_iff]
      constructor
      · intro hno n hn
        by_contra hsome
        obtain ⟨r, hr⟩ := Option.ne_none_iff_exists'.1 hsome
        obtain ⟨u, hu, hkey, -⟩ := (upserted_iff h r.messageId).2 ⟨n, hn, r, hr, rfl⟩
        exact hno u hu hkey
      · intro hnone u hu hkey
        obtain ⟨n, hn, r, hr, -⟩ := (upserted_iff h u.messageId).1 ⟨u, hu, hkey, rfl⟩
        rw [hnone n hn] at hr
        cases hr
    · have hlast := (htally userId channelId).last row hrow
      simpa only [upserted_iff h] using hlast
    · rw [(htally userId channelId).count row hrow, countP_flatMap_upserts, (count_eq_iff h).2 (hnodup userId channelId)]

def asStored : Order := ⟨fun memberIds => memberIds, fun _ => .refl _⟩

/-- user 1 writes to everyone in channel 101 of server 100 -/
def shout : Value := .object [("type", .string "MESSAGE_CREATE"), ("channel_id", .int 101), ("server_id", .int 100),
  ("message", .object [("id", .string "7"), ("author_id", .string "1"), ("mention_everyone", .bool true),
    ("mentions", .array [])])]

/-- users 1 and 2 are on server 100 -/
def pair : Postgres :=
  ⟨.empty, .empty, .empty, .empty,
    ⟨[⟨100, 1, none, none, ⟨0⟩, none, 0⟩, ⟨100, 2, none, none, ⟨0⟩, none, 0⟩], by decide⟩, .empty, .empty, .empty, .empty,
    .empty⟩

/-- an attempt whose SELECT fails, and one that completes -/
def retried : List Attempt := [⟨0, asStored, some 0⟩, ⟨0, asStored, none⟩]

theorem exactly_iff_retried : AllComplete (fun _ => some shout) pair retried ∧
    (Exactly (fun _ => some shout) pair (retried.map Attempt.message)
      (Core.run (attempt fun _ => some shout) ⟨pair, .empty⟩ retried).readStates ↔
        RaisedOnce (fun _ => some shout) pair retried) :=
  have h : AllComplete (fun _ => some shout) pair retried := fun a ha =>
    ⟨⟨0, asStored, none⟩, by simp [retried], by rcases List.mem_pair.1 ha with rfl | rfl <;> rfl, by decide⟩
  ⟨h, exactly_iff (fun _ => some shout) pair retried h⟩

/-- an acknowledgement is lost -/
def redelivered : List Attempt := [⟨0, asStored, none⟩, ⟨0, asStored, none⟩]

theorem counted_twice : AllComplete (fun _ => some shout) pair redelivered ∧
    ¬ Exactly (fun _ => some shout) pair (redelivered.map Attempt.message)
      (Core.run (attempt fun _ => some shout) ⟨pair, .empty⟩ redelivered).readStates := by
  refine ⟨fun a ha => ⟨a, ha, rfl, ?_⟩, fun h => ?_⟩
  · rcases List.mem_pair.1 ha with rfl | rfl <;> decide
  · have hrow : row? (Core.run (attempt fun _ => some shout) ⟨pair, .empty⟩ redelivered).readStates 2 101 =
        some ⟨2, 101, 7, 2⟩ := by decide
    exact absurd (h.mentions 2 101 _ hrow) (by decide)

end Lumiere.Workers
