/-
The buffer of a session in Redis and its replay (`buffer_event` and `replay_events` in lumiere-gateway/src/handler.rs), with
the codec of gateway messages (`protocol.rs`). Redis answers every command.

`serde_json` between a value and its text is a parameter.

- `deserialize_serialize`: a message is read back, if its payload is not JSON null.
- `bufferEvent_eq_inOrder`: while the key lives, the buffer is the list of `InOrder`.
- `replay_is_missed_suffix`: a replay sends exactly the missed dispatches, if the key cannot expire after the first of
  them.
- `quiet_session`: after five minutes without a dispatch nothing is replayed.
-/
import Lumiere.Core.RedisList
import Lumiere.Gateway.InOrder

namespace Lumiere.Gateway.EventBuffer

open Lumiere.Core Lumiere.Core.ListKey

/-! ## Messages -/

inductive OpCode where
  | dispatch
  | heartbeat
  | identify
  | presenceUpdate
  | voiceStateUpdate
  | resume
  | reconnect
  | invalidSession
  | hello
  | heartbeatAck
deriving DecidableEq, Repr

namespace OpCode

def serialize : OpCode → ℤ
  | dispatch => 0
  | heartbeat => 1
  | identify => 2
  | presenceUpdate => 3
  | voiceStateUpdate => 4
  | resume => 6
  | reconnect => 7
  | invalidSession => 9
  | hello => 10
  | heartbeatAck => 11

def deserialize : Value → Option OpCode
  | .int 0 => some dispatch
  | .int 1 => some heartbeat
  | .int 2 => some identify
  | .int 3 => some presenceUpdate
  | .int 4 => some voiceStateUpdate
  | .int 6 => some resume
  | .int 7 => some reconnect
  | .int 9 => some invalidSession
  | .int 10 => some hello
  | .int 11 => some heartbeatAck
  | _ => none

theorem deserialize_serialize (op : OpCode) : deserialize (.int op.serialize) = some op := by
  cases op <;> rfl

end OpCode

structure GatewayMessage where
  op : OpCode
  d : Option Value
  s : Option UInt64
  t : Option String

namespace GatewayMessage

def dispatch (eventName : String) (sequence : UInt64) (data : Value) : GatewayMessage :=
  ⟨.dispatch, some data, some sequence, some eventName⟩

/-- absent fields are skipped -/
def fields (m : GatewayMessage) : List (String × Value) :=
  ("op", .int m.op.serialize) :: ((m.d.map fun d => ("d", d)).toList ++
    (m.s.map fun s => ("s", .int s.toNat)).toList ++ (m.t.map fun t => ("t", .string t)).toList)

def serialize (m : GatewayMessage) : Value := .object m.fields

/-- a field of a struct; one that is there twice is an error -/
def member (key : String) (fields : List (String × Value)) : Option (Option Value) :=
  match fields.filter fun f => f.1 = key with
  | [] => some none
  | [f] => some (some f.2)
  | _ => none

/-- `Option<T>`: absent and null are `None` -/
def optional {α : Type} (deserialize : Value → Option α) : Option Value → Option (Option α)
  | none => some none
  | some .null => some none
  | some v => (deserialize v).map some

def deserializeU64 : Value → Option UInt64
  | .int n => if 0 ≤ n ∧ n < 18446744073709551616 then some (UInt64.ofNat n.toNat) else none
  | _ => none

/-- the derived one: a map by field names, or an array -/
def deserialize (v : Value) : Option GatewayMessage :=
  match v with
  | .object fields => do
    let op ← (← member "op" fields).bind OpCode.deserialize
    let d ← optional some (← member "d" fields)
    let s ← optional deserializeU64 (← member "s" fields)
    let t ← optional Value.asStr (← member "t" fields)
    some ⟨op, d, s, t⟩
  | .array [op, d, s, t] => do
    some ⟨← OpCode.deserialize op, ← optional some (some d), ← optional deserializeU64 (some s),
      ← optional Value.asStr (some t)⟩
  | _ => none

theorem deserializeU64_toNat (s : UInt64) : deserializeU64 (.int s.toNat) = some s := by
  have hlt : (s.toNat : ℤ) < 18446744073709551616 := by exact_mod_cast s.toNat_lt
  rw [deserializeU64, if_pos ⟨by positivity, hlt⟩, Int.toNat_natCast, UInt64.ofNat_toNat]

theorem optional_int {α : Type} (f : Value → Option α) (n : ℤ) : optional f (some (.int n)) = (f (.int n)).map some := rfl

theorem member_fields (m : GatewayMessage) : member "op" m.fields = some (some (.int m.op.serialize)) ∧
    member "d" m.fields = some m.d ∧ member "s" m.fields = some (m.s.map fun s => .int s.toNat) ∧
    member "t" m.fields = some (m.t.map .string) := by
  obtain ⟨op, d, s, t⟩ := m
  cases d <;> cases s <;> cases t <;> simp [fields, member]

/-- **A message is read back**, unless its payload is null. -/
theorem deserialize_serialize (m : GatewayMessage) (h : m.d ≠ some .null) : deserialize m.serialize = some m := by
  obtain ⟨hop, hd, hs, ht⟩ := m.member_fields
  have hd' : optional some m.d = some m.d := by
    cases hm : m.d with
    | none => rfl
    | some d =>
      cases d with
      | null => exact absurd hm h
      | _ => rfl
  have hs' : optional deserializeU64 (m.s.map fun s => .int s.toNat) = some m.s := by
    cases m.s with
    | none => rfl
    | some s => rw [Option.map_some, optional_int, deserializeU64_toNat, Option.map_some]
  have ht' : optional Value.asStr (m.t.map .string) = some m.t := by
    cases m.t with
    | none => rfl
    | some t => rfl
  unfold serialize deserialize
  simp only [hop, hd, hs, ht, Option.bind_some, OpCode.deserialize_serialize, hd', hs', ht', Option.bind_eq_bind]

end GatewayMessage

/-! ## The channel -/

structure Channel where
  capacity : ℕ
  queue : List GatewayMessage
  /-- nobody receives any more -/
  closed : Bool

def Channel.trySend (tx : Channel) (m : GatewayMessage) : Channel :=
  if !tx.closed && tx.queue.length < tx.capacity then { tx with queue := tx.queue ++ [m] } else tx

/-! ## Buffering and replay -/

structure SerdeJson where
  toString : Value → Option String
  fromStr : String → Option Value

/-- what is written is read back -/
def SerdeJson.RoundTrips (json : SerdeJson) (v : Value) : Prop :=
  ∃ text, json.toString v = some text ∧ json.fromStr text = some v

section Functions

variable (json : SerdeJson)

def sessionBufferTtl : ℚ := 300

def bufferEvent (now : ℚ) (event : GatewayMessage) (key : Option (ListKey String)) : Option (ListKey String) :=
  if event.op ≠ .dispatch then key
  else
    match json.toString event.serialize with
    | none => key
    | some text => expire now (ltrim now (rpush now key text) (-1000) (-1)) sessionBufferTtl

/-- one text of the buffer: the number of replayed events, and the channel -/
def replayOne (lastSequence : UInt64) (st : ℕ × Channel) (text : String) : ℕ × Channel :=
  match (json.fromStr text).bind GatewayMessage.deserialize with
  | none => st
  | some event =>
    match event.s with
    | none => st
    | some seq => if lastSequence < seq then (st.1 + 1, st.2.trySend event) else st

/-- the number, the channel and the key -/
def replayEvents (now : ℚ) (lastSequence : UInt64) (tx : Channel) (key : Option (ListKey String)) :
    ℕ × Channel × Option (ListKey String) :=
  let events := lrange now key 0 (-1)
  let (replayed, tx) := events.foldl (replayOne json lastSequence) (0, tx)
  -- `DEL`
  (replayed, tx, none)

end Functions

/-! ## Dispatches -/

/-- a dispatch, and when it is buffered -/
structure Dispatched where
  bufferedAt : ℚ
  eventName : String
  sequence : UInt64
  data : Value

def Dispatched.message (d : Dispatched) : GatewayMessage := .dispatch d.eventName d.sequence d.data

/-- the key of a new session after its dispatches -/
def bufferAfter (json : SerdeJson) (ds : List Dispatched) : Option (ListKey String) :=
  run (fun key (d : Dispatched) => bufferEvent json d.bufferedAt d.message key) none ds

def missed (lastSequence : UInt64) (ds : List Dispatched) : List Dispatched :=
  ds.filter fun d => lastSequence < d.sequence

/-- from the first of them on the key cannot expire before the replay -/
def InTime (now : ℚ) (ds : List Dispatched) : Prop :=
  ds.IsChain (fun a b => b.bufferedAt < a.bufferedAt + sessionBufferTtl) ∧
    ∀ last ∈ ds.getLast?, now < last.bufferedAt + sessionBufferTtl

variable {json : SerdeJson} {now : ℚ} {lastSequence : UInt64} {tx : Channel} {d : Dispatched} {ds : List Dispatched}

/-- what is kept of a dispatch -/
def Dispatched.text (json : SerdeJson) (d : Dispatched) : String := (json.toString d.message.serialize).getD ""

theorem bufferEvent_eq_pushLast (h : json.RoundTrips d.message.serialize) (key : Option (ListKey String)) :
    bufferEvent json d.bufferedAt d.message key = pushLast 1000 sessionBufferTtl d.bufferedAt (d.text json) key := by
  obtain ⟨text, htext, -⟩ := h
  rw [bufferEvent, if_neg (by simp [Dispatched.message, GatewayMessage.dispatch]), Dispatched.text, htext]
  rfl

theorem bufferAfter_eq_pushes (h : ∀ d ∈ ds, json.RoundTrips d.message.serialize) :
    bufferAfter json ds = pushes 1000 sessionBufferTtl (ds.map fun d => (d.bufferedAt, d.text json)) := by
  induction ds using List.reverseRecOn with
  | nil => rfl
  | append_singleton ds d ih =>
    have hbefore := ih fun d hd => h d (List.mem_append_left _ hd)
    have hlast := h d (List.mem_append_right _ List.mem_cons_self)
    rw [List.map_append, List.map_singleton, pushes_snoc, ← hbefore, bufferAfter, run_snoc, ← bufferAfter]
    exact bufferEvent_eq_pushLast hlast _

/-- a dispatch of the listener tasks -/
def inOrderMessage (d : InOrder.Dispatch) : GatewayMessage := .dispatch d.t (UInt64.ofNat d.s) d.d

def inOrderText (json : SerdeJson) (d : InOrder.Dispatch) : String :=
  (json.toString (inOrderMessage d).serialize).getD ""

/-- **While the key lives, the buffer is the list of `InOrder`.** -/
theorem bufferEvent_eq_inOrder {d : InOrder.Dispatch} {buffer : List InOrder.Dispatch} {key : Option (ListKey String)}
    (h : json.RoundTrips (inOrderMessage d).serialize) (hread : read now key = buffer.map (inOrderText json)) :
    bufferEvent json now (inOrderMessage d) key =
      some ⟨(InOrder.bufferEvent buffer d).map (inOrderText json), some (now + sessionBufferTtl)⟩ := by
  obtain ⟨text, htext, -⟩ := h
  have hpush : bufferEvent json now (inOrderMessage d) key =
      pushLast 1000 sessionBufferTtl now (inOrderText json d) key := by
    rw [bufferEvent, if_neg (by simp [inOrderMessage, GatewayMessage.dispatch]), inOrderText, htext]
    rfl
  have hpushed : read now key ++ [inOrderText json d] = (buffer ++ [d]).map (inOrderText json) := by
    rw [hread, List.map_append, List.map_singleton]
  rw [hpush, pushLast_eq (by decide), hpushed, ← List.map_drop, List.length_map, InOrder.bufferEvent]

/-- a text of the buffer is read as its dispatch -/
theorem replayOne_text (h : json.RoundTrips d.message.serialize) (hdata : d.data ≠ .null) (st : ℕ × Channel) :
    replayOne json lastSequence st (d.text json) =
      if lastSequence < d.sequence then (st.1 + 1, st.2.trySend d.message) else st := by
  obtain ⟨text, htext, hback⟩ := h
  have hmessage : GatewayMessage.deserialize d.message.serialize = some d.message :=
    GatewayMessage.deserialize_serialize d.message fun hnull => hdata (Option.some.inj hnull)
  rw [replayOne, Dispatched.text, htext, Option.getD_some, hback, Option.bind_some, hmessage]
  rfl

theorem replay_seen (h : ∀ d ∈ ds, json.RoundTrips d.message.serialize) (hdata : ∀ d ∈ ds, d.data ≠ .null)
    {texts : List String} (htexts : ∀ text ∈ texts, ∃ d ∈ ds, text = d.text json ∧ ¬ lastSequence < d.sequence)
    (st : ℕ × Channel) : texts.foldl (replayOne json lastSequence) st = st := by
  induction texts with
  | nil => rfl
  | cons text texts ih =>
    obtain ⟨d, hd, rfl, hseen⟩ := htexts text List.mem_cons_self
    rw [List.foldl_cons, replayOne_text (h d hd) (hdata d hd), if_neg hseen]
    exact ih fun text htext => htexts text (List.mem_cons_of_mem _ htext)

theorem replay_missed (st : ℕ × Channel) (h : ∀ d ∈ ds, json.RoundTrips d.message.serialize)
    (hdata : ∀ d ∈ ds, d.data ≠ .null) (hmissed : ∀ d ∈ ds, lastSequence < d.sequence)
    (hopen : st.2.closed = false) (hroom : st.2.queue.length + ds.length ≤ st.2.capacity) :
    (ds.map (Dispatched.text json)).foldl (replayOne json lastSequence) st =
      (st.1 + ds.length, { st.2 with queue := st.2.queue ++ ds.map Dispatched.message }) := by
  induction ds generalizing st with
  | nil => simp
  | cons d ds ih =>
    rw [List.length_cons] at hroom
    have hsend : st.2.trySend d.message = { st.2 with queue := st.2.queue ++ [d.message] } := by
      rw [Channel.trySend, if_pos]
      simp only [hopen, Bool.not_false, Bool.true_and, decide_eq_true_eq]
      omega
    rw [List.map_cons, List.foldl_cons, replayOne_text (h d List.mem_cons_self) (hdata d List.mem_cons_self),
      if_pos (hmissed d List.mem_cons_self), hsend, ih _ (fun d hd => h d (List.mem_cons_of_mem _ hd))
        (fun d hd => hdata d (List.mem_cons_of_mem _ hd)) (fun d hd => hmissed d (List.mem_cons_of_mem _ hd))]
    · rw [List.map_cons, List.length_cons, List.append_assoc, List.singleton_append]
      congr 1
      omega
    · exact hopen
    · show (st.2.queue ++ [d.message]).length + ds.length ≤ st.2.capacity
      rw [List.length_append, List.length_singleton]
      omega

/-- the missed dispatches are the last ones -/
theorem exists_seen (h : ds.Pairwise fun a b => a.sequence < b.sequence) (lastSequence : UInt64) :
    ∃ seen, ds = seen ++ missed lastSequence ds ∧ ∀ d ∈ seen, ¬ lastSequence < d.sequence := by
  induction ds with
  | nil => exact ⟨[], rfl, fun d hd => absurd hd List.not_mem_nil⟩
  | cons d ds ih =>
    obtain ⟨hfirst, hrest⟩ := List.pairwise_cons.1 h
    by_cases hd : lastSequence < d.sequence
    · -- then all that follow are missed too
      have hall : missed lastSequence (d :: ds) = d :: ds := by
        refine List.filter_eq_self.2 fun x hx => decide_eq_true ?_
        rcases List.mem_cons.1 hx with rfl | hx
        · exact hd
        · exact UInt64.lt_trans hd (hfirst x hx)
      exact ⟨[], by rw [hall, List.nil_append], fun d hd => absurd hd List.not_mem_nil⟩
    · obtain ⟨seen, hsplit, hseen⟩ := ih hrest
      have hskip : missed lastSequence (d :: ds) = missed lastSequence ds := List.filter_cons_of_neg (by simpa using hd)
      refine ⟨d :: seen, by rw [hskip, List.cons_append, ← hsplit], fun x hx => ?_⟩
      rcases List.mem_cons.1 hx with rfl | hx
      · exact hd
      · exact hseen x hx

/-- what the replay reads: texts of dispatches that the client has seen, then those of the missed ones -/
theorem read_bufferAfter (hinc : ds.Pairwise fun a b => a.sequence < b.sequence)
    (hjson : ∀ d ∈ ds, json.RoundTrips d.message.serialize) (hcount : (missed lastSequence ds).length ≤ 1000)
    (htime : InTime now (missed lastSequence ds)) :
    ∃ front, (∀ text ∈ front, ∃ d ∈ ds, text = d.text json ∧ ¬ lastSequence < d.sequence) ∧
      read now (bufferAfter json ds) = front ++ (missed lastSequence ds).map (Dispatched.text json) := by
  obtain ⟨seen, hsplit, hseen⟩ := exists_seen hinc lastSequence
  have hfront : ∀ text ∈ (seen.map fun d => (d.bufferedAt, d.text json)).map Prod.snd,
      ∃ d ∈ ds, text = d.text json ∧ ¬ lastSequence < d.sequence := by
    intro text htext
    rw [List.map_map] at htext
    obtain ⟨d, hd, rfl⟩ := List.mem_map.1 htext
    exact ⟨d, hsplit ▸ List.mem_append_left _ hd, rfl, hseen d hd⟩
  have hpushes : bufferAfter json ds = pushes 1000 sessionBufferTtl ((seen.map fun d => (d.bufferedAt, d.text json)) ++
      (missed lastSequence ds).map fun d => (d.bufferedAt, d.text json)) := by
    rw [bufferAfter_eq_pushes hjson, ← List.map_append, ← hsplit]
  rw [hpushes]
  by_cases hnone : missed lastSequence ds = []
  · rw [hnone, List.map_nil, List.append_nil, List.map_nil]
    exact ⟨_, fun text htext => hfront text (mem_of_mem_pushes (by decide) htext), (List.append_nil _).symm⟩
  · obtain ⟨hchain, hlast⟩ := htime
    have hpushed : ((missed lastSequence ds).map fun d => (d.bufferedAt, d.text json)).IsChain
        fun a b => b.1 < a.1 + sessionBufferTtl := (List.isChain_map _).2 hchain
    have hfits : ((missed lastSequence ds).map fun d => (d.bufferedAt, d.text json)).length ≤ 1000 := by simpa using hcount
    obtain ⟨front, last, hmem, hgetLast, hkey⟩ := pushes_suffix (seen.map fun d => (d.bufferedAt, d.text json))
      (by simpa using hnone) hfits hpushed
    rw [List.getLast?_map] at hgetLast
    obtain ⟨d, hd, rfl⟩ := Option.map_eq_some_iff.1 hgetLast
    refine ⟨front, fun text htext => hfront text (hmem text htext), ?_⟩
    rw [hkey, read_of_lt (hlast d hd), List.map_map]
    rfl

/-- **A replay is exactly the missed suffix.** A new session has buffered dispatches with increasing numbers and payloads
other than null, of which at most 1000 are missed; from the first missed one to the replay the buffer is never left for
as long as its time to live. The replay then sends the missed ones, in order and unchanged, on a channel with room for
them, returns their number and leaves no buffer. -/
theorem replay_is_missed_suffix (json : SerdeJson) (ds : List Dispatched) (lastSequence : UInt64) (now : ℚ) (tx : Channel)
    (hinc : ds.Pairwise fun a b => a.sequence < b.sequence) (hdata : ∀ d ∈ ds, d.data ≠ .null)
    (hjson : ∀ d ∈ ds, json.RoundTrips d.message.serialize) (hcount : (missed lastSequence ds).length ≤ 1000)
    (htime : InTime now (missed lastSequence ds)) (hopen : tx.closed = false)
    (hroom : tx.queue.length + (missed lastSequence ds).length ≤ tx.capacity) :
    replayEvents json now lastSequence tx (bufferAfter json ds) =
      ((missed lastSequence ds).length,
        { tx with queue := tx.queue ++ (missed lastSequence ds).map Dispatched.message }, none) := by
  obtain ⟨front, hfront, hread⟩ := read_bufferAfter hinc hjson hcount htime
  have hsub : ∀ d ∈ missed lastSequence ds, d ∈ ds := fun d hd => List.mem_of_mem_filter hd
  have hlater : ∀ d ∈ missed lastSequence ds, lastSequence < d.sequence := fun d hd =>
    of_decide_eq_true (List.mem_filter.1 hd).2
  have hmissed := replay_missed (0, tx) (fun d hd => hjson d (hsub d hd)) (fun d hd => hdata d (hsub d hd)) hlater hopen
    hroom
  rw [replayEvents, lrange_all, hread, List.foldl_append, replay_seen hjson hdata hfront, hmissed, Nat.zero_add]

/-! ## A session that is quiet -/

/-- a buffer that nothing was added to for its time to live is gone -/
theorem replay_of_expired (hjson : ∀ d ∈ ds, json.RoundTrips d.message.serialize) {last : Dispatched}
    (hlast : ds.getLast? = some last) (hexpired : last.bufferedAt + sessionBufferTtl ≤ now) (lastSequence : UInt64)
    (tx : Channel) : replayEvents json now lastSequence tx (bufferAfter json ds) = (0, tx, none) := by
  obtain ⟨before, rfl⟩ := List.getLast?_eq_some_iff.1 hlast
  have hkey := bufferAfter_eq_pushes hjson
  rw [List.map_append, List.map_singleton, pushes_snoc, pushLast_eq (by decide)] at hkey
  rw [replayEvents, lrange_all, hkey, read_of_le hexpired]
  rfl

def typing (bufferedAt : ℚ) (sequence : UInt64) : Dispatched := ⟨bufferedAt, "TYPING_START", sequence, .bool true⟩

def typingText (sequence : String) : String :=
  "\x7b\"op\":0,\"d\":true,\"s\":" ++ sequence ++ ",\"t\":\"TYPING_START\"\x7d"

/-- `serde_json` on the first two of them -/
def sampleJson : SerdeJson where
  toString v :=
    match v.field "s" with
    | .int 1 => some (typingText "1")
    | .int 2 => some (typingText "2")
    | _ => none
  fromStr text :=
    if text = typingText "1" then some (typing 0 1).message.serialize
    else if text = typingText "2" then some (typing 0 2).message.serialize
    else none

theorem roundTrips_first (bufferedAt : ℚ) : sampleJson.RoundTrips (typing bufferedAt 1).message.serialize := by
  refine ⟨typingText "1", rfl, ?_⟩
  dsimp only [sampleJson]
  exact if_pos rfl

theorem roundTrips_second (bufferedAt : ℚ) : sampleJson.RoundTrips (typing bufferedAt 2).message.serialize := by
  refine ⟨typingText "2", rfl, ?_⟩
  dsimp only [sampleJson]
  rw [if_neg (by decide)]
  exact if_pos rfl

def outbound : Channel := ⟨1024, [], false⟩

/-- **After five quiet minutes** a missed dispatch is not replayed. -/
theorem quiet_session :
    (missed 0 [typing 0 1]).map Dispatched.sequence = [1] ∧ sampleJson.RoundTrips (typing 0 1).message.serialize ∧
      replayEvents sampleJson 300 0 outbound (bufferAfter sampleJson [typing 0 1]) = (0, outbound, none) := by
  have hjson : ∀ d ∈ [typing 0 1], sampleJson.RoundTrips d.message.serialize := by
    intro d hd
    rw [List.mem_singleton.1 hd]
    exact roundTrips_first 0
  refine ⟨by decide, roundTrips_first 0, replay_of_expired hjson rfl ?_ 0 outbound⟩
  norm_num [typing, sessionBufferTtl]

theorem replay_is_missed_suffix_two :
    replayEvents sampleJson 400 1 outbound (bufferAfter sampleJson [typing 0 1, typing 200 2]) =
      (1, { outbound with queue := [(typing 200 2).message] }, none) := by
  have hmissed : missed 1 [typing 0 1, typing 200 2] = [typing 200 2] := rfl
  have hboth : ∀ d ∈ [typing 0 1, typing 200 2], d.data ≠ .null ∧ sampleJson.RoundTrips d.message.serialize := by
    intro d hd
    rcases List.mem_cons.1 hd with rfl | hd
    · exact ⟨nofun, roundTrips_first 0⟩
    · rw [List.mem_singleton.1 hd]
      exact ⟨nofun, roundTrips_second 200⟩
  have htime : InTime 400 (missed 1 [typing 0 1, typing 200 2]) := by
    rw [hmissed]
    refine ⟨.singleton _, fun last hlast => ?_⟩
    obtain rfl := Option.some.inj hlast
    norm_num [typing, sessionBufferTtl]
  have hreplay := replay_is_missed_suffix sampleJson [typing 0 1, typing 200 2] 1 400 outbound
    (List.pairwise_pair.2 (by decide)) (fun d hd => (hboth d hd).1) (fun d hd => (hboth d hd).2)
    (by rw [hmissed]; decide) htime rfl (by rw [hmissed]; decide)
  rw [hreplay, hmissed]
  rfl

end Lumiere.Gateway.EventBuffer
