/-
The listener tasks of one gateway session side by side (`lumiere-gateway/src/handler.rs`, `subscribe_and_forward`). A
listener takes its next message, draws a number for it, buffers the dispatch in Redis and sends it to the sender task,
which passes on what it gets in order. Each of these is one step, and the steps of different listeners interleave. The
commands of Redis succeed, the buffer does not expire, and no listener is aborted.

- `in_order`: the client and the buffer get the numbers in increasing order as long as no listener buffers or sends a
  dispatch before one with a smaller number, and the counter does not wrap around.
- `in_turn_of_ordered`: the condition is exact. Once every dispatch has arrived, an overtaken one shows.
- `faster_listener`: two listeners, and the second one is faster.
-/
import Lumiere.Core.Json
import Lumiere.Core.Run
import Lumiere.Gateway.Resumption

namespace Lumiere.Gateway.InOrder

open Lumiere.Core
open Resumption (nextSequence capacity)

/-! ## Listeners -/

/-- a `GatewayMessage` with op `Dispatch` -/
structure Dispatch where
  s : ℕ
  t : String
  d : Value

def GatewayMessage.dispatch (eventName : String) (sequence : ℕ) (data : Value) : Dispatch :=
  ⟨sequence, eventName, data⟩

/-- where a listener stands in its loop -/
inductive Stage where
  | waiting
  | numbered (dispatch : Dispatch)
  | buffered (dispatch : Dispatch)
  /-- the loop is over -/
  | stopped

structure St (ι : Type) where
  /-- `GatewaySession::sequence` -/
  sequence : ℕ
  /-- `gateway_events:{session_id}` -/
  buffer : List Dispatch
  /-- the channel to the sender task -/
  outbound : List Dispatch
  /-- by the client -/
  received : List Dispatch
  listener : ι → Stage

inductive Op (ι : Type) where
  /-- the next message of a subscription, if it is JSON, gets a number -/
  | receive (i : ι) (payload : Option Value)
  /-- `buffer_event` -/
  | buffer (i : ι)
  /-- `try_send` -/
  | send (i : ι)
  /-- the sender task passes a dispatch on -/
  | deliver

/-- `RPUSH` and `LTRIM -1000 -1` -/
def bufferEvent (buffer : List Dispatch) (d : Dispatch) : List Dispatch :=
  (buffer ++ [d]).drop ((buffer ++ [d]).length - 1000)

def eventType (data : Value) : String := (data.field "type").asStr.getD "UNKNOWN"

variable {ι : Type} [DecidableEq ι]

def goto (s : St ι) (i : ι) (stage : Stage) : St ι := { s with listener := Function.update s.listener i stage }

def step (s : St ι) : Op ι → St ι
  | .receive i payload =>
    match s.listener i, payload with
    | .waiting, some data =>
      let seq := nextSequence s.sequence
      goto { s with sequence := seq } i (.numbered (GatewayMessage.dispatch (eventType data) seq data))
    | _, _ => s
  | .buffer i =>
    match s.listener i with
    | .numbered d => goto { s with buffer := bufferEvent s.buffer d } i (.buffered d)
    | _ => s
  | .send i =>
    match s.listener i with
    | .buffered d =>
      if s.outbound.length < capacity then goto { s with outbound := s.outbound ++ [d] } i .waiting
      else goto s i .stopped
    | _ => s
  | .deliver =>
    match s.outbound with
    | d :: outbound => { s with outbound, received := s.received ++ [d] }
    | [] => s

/-- the listeners are spawned after READY or RESUMED is sent, which took the last number -/
def start (answer : Dispatch) : St ι := ⟨answer.s, [], [answer], [], fun _ => .waiting⟩

/-! ## Order -/

def Stage.isWaiting : Stage → Bool
  | .waiting => true
  | _ => false

/-- the dispatch that is sent next -/
def Stage.ready : Stage → Option Dispatch
  | .buffered d => some d
  | _ => none

/-- the dispatch that is not sent yet -/
def Stage.unsent : Stage → Option Dispatch
  | .numbered d | .buffered d => some d
  | _ => none

/-- the dispatch that is not buffered yet -/
def Stage.unbuffered : Stage → Option Dispatch
  | .numbered d => some d
  | _ => none

def Increasing (ds : List Dispatch) : Prop := (ds.map Dispatch.s).Pairwise (· < ·)

/-- a dispatch is in the buffer, or a thousand later ones are -/
def Listed (buffer : List Dispatch) (d : Dispatch) : Prop :=
  d ∈ buffer ∨ buffer.length = 1000 ∧ ∀ b ∈ buffer, d.s < b.s

/-- the client gets increasing numbers, and the buffer lists what the listeners sent in this order -/
structure Ordered (answer : Dispatch) (s : St ι) : Prop where
  received : Increasing s.received
  buffer : Increasing s.buffer
  listed : ∀ d ∈ s.received, d = answer ∨ Listed s.buffer d

/-- the next number is larger, and no smaller one is overtaken -/
def InTurn (s : St ι) : Op ι → Prop
  | .receive i payload => (s.listener i).isWaiting = true → payload.isSome = true → s.sequence + 1 < 2 ^ 64
  | .buffer i => ∀ d ∈ (s.listener i).unbuffered, ∀ j, ∀ d' ∈ (s.listener j).unbuffered, d.s ≤ d'.s
  | .send i => ∀ d ∈ (s.listener i).ready, ∀ j, ∀ d' ∈ (s.listener j).unsent, d.s ≤ d'.s
  | .deliver => True

/-- a dispatch that is sent finds room in the channel -/
def Room (s : St ι) : Op ι → Prop
  | .send _ => s.outbound.length < capacity
  | _ => True

instance (s : St ι) : (o : Op ι) → Decidable (Room s o)
  | .send _ => inferInstanceAs (Decidable (s.outbound.length < capacity))
  | .receive .. | .buffer _ | .deliver => isTrue trivial

instance [Fintype ι] (s : St ι) : (o : Op ι) → Decidable (InTurn s o)
  | .receive i payload => inferInstanceAs (Decidable ((s.listener i).isWaiting = true → payload.isSome = true → _))
  | .buffer i =>
    inferInstanceAs (Decidable (∀ d ∈ (s.listener i).unbuffered, ∀ j, ∀ d' ∈ (s.listener j).unbuffered, _))
  | .send i => inferInstanceAs (Decidable (∀ d ∈ (s.listener i).ready, ∀ j, ∀ d' ∈ (s.listener j).unsent, _))
  | .deliver => isTrue trivial

/-! ## The invariant -/

structure Inv (answer : Dispatch) (s : St ι) : Prop where
  sent : Increasing (s.received ++ s.outbound)
  buffer : Increasing s.buffer
  bound : ∀ d ∈ s.received ++ s.outbound ++ s.buffer, d.s ≤ s.sequence
  /-- a dispatch that is not sent is later than all that are -/
  unsent : ∀ i, ∀ d ∈ (s.listener i).unsent, d.s ≤ s.sequence ∧ ∀ x ∈ s.received ++ s.outbound, x.s < d.s
  unbuffered : ∀ i, ∀ d ∈ (s.listener i).unbuffered, ∀ x ∈ s.buffer, x.s < d.s
  apart : ∀ i j, ∀ d ∈ (s.listener i).unsent, ∀ d' ∈ (s.listener j).unsent, d.s = d'.s → i = j
  listed : ∀ d ∈ s.received ++ s.outbound, d = answer ∨ Listed s.buffer d
  /-- what is not sent is buffered, or still to be -/
  kept : ∀ i, ∀ d ∈ (s.listener i).unsent, d ∈ (s.listener i).unbuffered ∨ Listed s.buffer d

variable {answer d x : Dispatch} {s : St ι} {ds : List Dispatch}

theorem increasing_append : Increasing (ds ++ [d]) ↔ Increasing ds ∧ ∀ x ∈ ds, x.s < d.s := by
  simp [Increasing, List.pairwise_append]

theorem increasing_bufferEvent (h : Increasing ds) (hd : ∀ x ∈ ds, x.s < d.s) : Increasing (bufferEvent ds d) :=
  (increasing_append.2 ⟨h, hd⟩).sublist ((List.drop_sublist _ _).map Dispatch.s)

theorem mem_bufferEvent (h : x ∈ bufferEvent ds d) : x ∈ ds ∨ x = d := by
  simpa using List.mem_of_mem_drop h

/-- what is pushed is in the buffer -/
theorem self_mem_bufferEvent : d ∈ bufferEvent ds d := by
  have hdrop : (ds ++ [d]).length - 1000 ≤ ds.length := by
    rw [List.length_append, List.length_singleton]
    omega
  rw [bufferEvent, List.drop_append_of_le_length hdrop]
  exact List.mem_append_right _ List.mem_cons_self

/-- a dispatch stays in the buffer until there are a thousand later ones -/
theorem listed_bufferEvent (hds : Increasing ds) (hd : ∀ x ∈ ds, x.s < d.s) (h : Listed ds x) :
    Listed (bufferEvent ds d) x := by
  have hall := increasing_append.2 ⟨hds, hd⟩
  rcases h with hx | ⟨hlength, hlater⟩
  · by_cases hin : x ∈ bufferEvent ds d
    · exact .inl hin
    · -- the beginning of the list is cut off, and x with it
      set k := (ds ++ [d]).length - 1000 with hk
      have hsplit : (ds ++ [d]).take k ++ bufferEvent ds d = ds ++ [d] := List.take_append_drop k _
      have hcut : x ∈ (ds ++ [d]).take k := by
        have hmem : x ∈ (ds ++ [d]).take k ++ bufferEvent ds d := by
          rw [hsplit]
          exact List.mem_append_left _ hx
        exact (List.mem_append.1 hmem).resolve_right hin
      have hpos : 0 < k := by
        by_contra hzero
        rw [show k = 0 by omega] at hcut
        exact List.not_mem_nil hcut
      have hlength : (bufferEvent ds d).length = 1000 := by
        rw [bufferEvent, List.length_drop]
        omega
      rw [Increasing, ← hsplit, List.map_append, List.pairwise_append] at hall
      exact .inr ⟨hlength, fun b hb => hall.2.2 _ (List.mem_map_of_mem hcut) _ (List.mem_map_of_mem hb)⟩
  · have hbuffer : (bufferEvent ds d).length = 1000 := by
      rw [bufferEvent, List.length_drop, List.length_append, List.length_singleton, hlength]
    refine .inr ⟨hbuffer, fun b hb => ?_⟩
    rcases mem_bufferEvent hb with hb | rfl
    · exact hlater b hb
    · obtain ⟨y, hy⟩ := List.exists_mem_of_length_pos (by omega : 0 < ds.length)
      exact (hlater y hy).trans (hd y hy)

theorem getLast?_bufferEvent : d ∈ (bufferEvent ds d).getLast? := by
  have hdrop : (ds ++ [d]).length - 1000 ≤ ds.length := by
    rw [List.length_append, List.length_singleton]
    omega
  rw [bufferEvent, List.drop_append_of_le_length hdrop]
  exact List.getLast?_concat

/-- the last event of the buffer stays when another one is pushed -/
theorem last_lt_of_increasing (h : Increasing (bufferEvent ds d)) (hx : x ∈ ds.getLast?) : x.s < d.s := by
  obtain ⟨l, rfl⟩ := List.getLast?_eq_some_iff.1 hx
  have hdrop : (l ++ ([x] ++ [d])).length - 1000 ≤ l.length := by
    simp only [List.length_append, List.length_singleton]
    omega
  rw [bufferEvent, List.append_assoc, List.drop_append_of_le_length hdrop, ← List.append_assoc,
    increasing_append] at h
  exact h.2 x (by simp)

attribute [irreducible] bufferEvent

theorem unbuffered_unsent {stage : Stage} (h : d ∈ stage.unbuffered) : d ∈ stage.unsent := by
  cases stage with
  | numbered d' => exact h
  | _ => cases h

/-! ## What a step keeps -/

@[simp] theorem goto_listener (i j : ι) (stage : Stage) :
    (goto s i stage).listener j = if j = i then stage else s.listener j := Function.update_apply ..

omit [DecidableEq ι] in
theorem start_inv (answer : Dispatch) : Inv answer (start answer : St ι) where
  sent := by simp [start, Increasing]
  buffer := List.Pairwise.nil
  bound := by simp [start]
  unsent i d hd := by cases hd
  unbuffered i d hd := by cases hd
  apart i j d hd := by cases hd
  listed d hd := .inl (by simpa [start] using hd)
  kept i d hd := by cases hd

theorem receive_inv (h : Inv answer s) {i : ι} (hd : d.s = s.sequence + 1) :
    Inv answer (goto { s with sequence := d.s } i (.numbered d)) := by
  have hlt : ∀ x ∈ s.received ++ s.outbound ++ s.buffer, x.s < d.s := fun x hx => by
    have := h.bound x hx
    omega
  have hother : ∀ j, ∀ x ∈ (s.listener j).unsent, x.s < d.s := fun j x hx => by
    have := (h.unsent j x hx).1
    omega
  refine ⟨h.sent, h.buffer, fun x hx => (hlt x hx).le, fun j x hx => ?_, fun j x hx => ?_,
    fun j k x hx y hy heq => ?_, h.listed, fun j x hx => ?_⟩
  · rw [goto_listener] at hx
    split_ifs at hx with hj
    · obtain rfl : d = x := Option.some.inj hx
      exact ⟨le_rfl, fun y hy => hlt y (List.mem_append_left _ hy)⟩
    · exact ⟨(hother j x hx).le, (h.unsent j x hx).2⟩
  · rw [goto_listener] at hx
    split_ifs at hx with hj
    · obtain rfl : d = x := Option.some.inj hx
      exact fun y hy => hlt y (List.mem_append_right _ hy)
    · exact h.unbuffered j x hx
  · rw [goto_listener] at hx hy
    split_ifs at hx hy with hj hk hk
    · exact hj.trans hk.symm
    · obtain rfl : d = x := Option.some.inj hx
      exact absurd heq (hother k y hy).ne'
    · obtain rfl : d = y := Option.some.inj hy
      exact absurd heq (hother j x hx).ne
    · exact h.apart j k x hx y hy heq
  · rw [goto_listener] at hx ⊢
    split_ifs at hx ⊢ with hj
    · exact .inl hx
    · exact h.kept j x hx

theorem buffer_inv (h : Inv answer s) {i : ι} (hi : s.listener i = .numbered d) 
    (hturn : ∀ j, ∀ x ∈ (s.listener j).unbuffered, d.s ≤ x.s) :
    Inv answer (goto { s with buffer := bufferEvent s.buffer d } i (.buffered d)) := by
  have hmine : d ∈ (s.listener i).unbuffered := by rw [hi]; rfl
  have hnew := h.unbuffered i d hmine
  have hlisted : ∀ {x}, Listed s.buffer x → Listed (bufferEvent s.buffer d) x := listed_bufferEvent h.buffer hnew
  have hunsent : ∀ j, ((goto { s with buffer := bufferEvent s.buffer d } i (.buffered d)).listener j).unsent =
      (s.listener j).unsent := fun j => by
    rw [goto_listener]
    split_ifs with hj
    · rw [hj, hi]
      rfl
    · rfl
  refine ⟨h.sent, increasing_bufferEvent h.buffer hnew, fun x hx => ?_, fun j x hx => ?_, fun j x hx y hy => ?_,
    fun j k x hx y hy => ?_, fun x hx => (h.listed x hx).imp_right fun hx => hlisted hx, fun j x hx => ?_⟩
  · rcases List.mem_append.1 hx with hx | hx
    · exact h.bound x (List.mem_append_left _ hx)
    · rcases mem_bufferEvent hx with hx | rfl
      · exact h.bound x (List.mem_append_right _ hx)
      · exact (h.unsent i x (unbuffered_unsent hmine)).1
  · exact h.unsent j x (hunsent j ▸ hx)
  · rw [goto_listener] at hx
    split_ifs at hx with hj
    · cases hx
    · rcases mem_bufferEvent hy with hy | rfl
      · exact h.unbuffered j x hx y hy
      · refine lt_of_le_of_ne (hturn j x hx) fun heq => hj ?_
        exact (h.apart i j y (unbuffered_unsent hmine) x (unbuffered_unsent hx) heq).symm
  · exact h.apart j k x (hunsent j ▸ hx) y (hunsent k ▸ hy)
  · rw [hunsent] at hx
    rw [goto_listener]
    split_ifs with hj
    · rw [hj, hi] at hx
      obtain rfl : d = x := Option.some.inj hx
      exact .inr (.inl self_mem_bufferEvent)
    · exact (h.kept j x hx).imp_right hlisted

/-- a listener is done with its dispatch: it is sent, or the channel is full -/
theorem send_inv (h : Inv answer s) {i : ι} (hi : s.listener i = .buffered d)
    (hturn : ∀ j, ∀ x ∈ (s.listener j).unsent, d.s ≤ x.s) {stage : Stage} (hstage : stage.unsent = none)
    {outbound : List Dispatch} (houtbound : outbound = s.outbound ++ [d] ∨ outbound = s.outbound) :
    Inv answer (goto { s with outbound } i stage) := by
  have hmine : d ∈ (s.listener i).unsent := by rw [hi]; rfl
  obtain ⟨hle, hnew⟩ := h.unsent i d hmine
  have hlisted : Listed s.buffer d := by
    have := h.kept i d hmine
    rw [hi] at this
    exact this.resolve_left nofun
  have hmem : ∀ x ∈ s.received ++ outbound, x ∈ s.received ++ s.outbound ∨ x = d := by
    intro x hx
    rcases houtbound with rfl | rfl
    · rw [← List.append_assoc] at hx
      exact (List.mem_append.1 hx).imp_right List.mem_singleton.1
    · exact .inl hx
  -- the other listeners are as they were
  have hother : ∀ j, ∀ x ∈ ((goto { s with outbound } i stage).listener j).unsent,
      j ≠ i ∧ x ∈ (s.listener j).unsent := by
    intro j x hx
    rw [goto_listener] at hx
    split_ifs at hx with hj
    · rw [hstage] at hx
      cases hx
    · exact ⟨hj, hx⟩
  have hsame : ∀ j, j ≠ i → (goto { s with outbound } i stage).listener j = s.listener j := fun j hj => by
    rw [goto_listener, if_neg hj]
  refine ⟨?_, h.buffer, fun x hx => ?_, fun j x hx => ?_, fun j x hx => ?_, fun j k x hx y hy => ?_, fun x hx => ?_,
    fun j x hx => ?_⟩
  · show Increasing (s.received ++ outbound)
    rcases houtbound with rfl | rfl
    · rw [← List.append_assoc]
      exact increasing_append.2 ⟨h.sent, hnew⟩
    · exact h.sent
  · rcases List.mem_append.1 hx with hx | hx
    · rcases hmem x hx with hx | rfl
      · exact h.bound x (List.mem_append_left _ hx)
      · exact hle
    · exact h.bound x (List.mem_append_right _ hx)
  · obtain ⟨hj, hx⟩ := hother j x hx
    refine ⟨(h.unsent j x hx).1, fun y hy => ?_⟩
    rcases hmem y hy with hy | rfl
    · exact (h.unsent j x hx).2 y hy
    · exact lt_of_le_of_ne (hturn j x hx) fun heq => hj (h.apart i j y hmine x hx heq).symm
  · obtain ⟨hj, -⟩ := hother j x (unbuffered_unsent hx)
    rw [hsame j hj] at hx
    exact h.unbuffered j x hx
  · exact h.apart j k x (hother j x hx).2 y (hother k y hy).2
  · rcases hmem x hx with hx | rfl
    · exact h.listed x hx
    · exact .inr hlisted
  · obtain ⟨hj, hx⟩ := hother j x hx
    rw [hsame j hj]
    exact h.kept j x hx

omit [DecidableEq ι] in
theorem deliver_inv (h : Inv answer s) {outbound : List Dispatch} (hout : s.outbound = d :: outbound) :
    Inv answer { s with outbound, received := s.received ++ [d] } := by
  have hsent : s.received ++ [d] ++ outbound = s.received ++ s.outbound := by
    rw [List.append_assoc, hout]
    rfl
  constructor
  · rw [hsent]
    exact h.sent
  · exact h.buffer
  · rw [hsent]
    exact h.bound
  · rw [hsent]
    exact h.unsent
  · exact h.unbuffered
  · exact h.apart
  · rw [hsent]
    exact h.listed
  · exact h.kept

theorem step_inv (s : St ι) (o : Op ι) (ho : InTurn s o) (h : Inv answer s) : Inv answer (step s o) := by
  cases o with
  | receive i payload =>
    simp only [step]
    split
    · next data hi =>
      have hlt : s.sequence + 1 < 2 ^ 64 := ho (by rw [hi]; rfl) rfl
      exact receive_inv (d := GatewayMessage.dispatch _ _ data) h (Nat.mod_eq_of_lt hlt)
    · exact h
  | buffer i =>
    simp only [step]
    split
    · next d hi => exact buffer_inv h hi (ho d (by rw [hi]; rfl))
    · exact h
  | send i =>
    simp only [step]
    split
    · next d hi =>
      have hturn := ho d (by rw [hi]; rfl)
      split_ifs
      · exact send_inv h hi hturn rfl (.inl rfl)
      · exact send_inv h hi hturn rfl (.inr rfl)
    · exact h
  | deliver =>
    simp only [step]
    split
    · next d outbound hout => exact deliver_inv h hout
    · exact h

omit [DecidableEq ι] in
theorem Inv.ordered (h : Inv answer s) : Ordered answer s where
  received := h.sent.sublist ((List.sublist_append_left _ _).map Dispatch.s)
  buffer := h.buffer
  listed d hd := h.listed d (List.mem_append_left _ hd)

/-- **In order.** As long as every listener waits for its turn, the client and the buffer get increasing numbers. -/
theorem in_order (answer : Dispatch) {ops : List (Op ι)} (h : Every step InTurn (start answer) ops) :
    Ordered answer (run step (start answer) ops) :=
  (run_inv_of_every step_inv (start_inv answer) h).ordered

def ready : Dispatch := GatewayMessage.dispatch "READY" 1 .null

def message : Op Bool := .receive false (some (.object [("type", .string "MESSAGE_CREATE")]))

def presence : Op Bool := .receive true (some (.object [("type", .string "PRESENCE_UPDATE")]))

theorem in_order_turns :
    Ordered ready (run step (start ready) [message, presence, .buffer false, .buffer true, .send false, .send true,
      .deliver, .deliver, .deliver]) :=
  in_order ready (by decide)

/-- the second listener is faster than the first -/
def overtaking : List (Op Bool) :=
  [message, presence, .buffer true, .send true, .buffer false, .send false, .deliver, .deliver, .deliver]

/-- **Number 3 arrives before number 2.** -/
theorem faster_listener :
    Every step Room (start ready) overtaking ∧
      (run step (start ready) overtaking).received.map Dispatch.s = [1, 3, 2] ∧
      ¬ Ordered ready (run step (start ready) overtaking) := by
  have hreceived : (run step (start ready) overtaking).received.map Dispatch.s = [1, 3, 2] := by decide
  refine ⟨by decide, hreceived, fun h => ?_⟩
  have hincreasing := h.received
  rw [Increasing, hreceived] at hincreasing
  exact absurd hincreasing (by decide)

/-! ## Overtaken dispatches -/

/-- every dispatch has arrived -/
def Finished (s : St ι) : Prop := s.outbound = [] ∧ ∀ i, (s.listener i).unsent = none

/-- what is not sent, or not buffered, comes too late -/
def Late (s : St ι) : Prop :=
  (∃ i, ∃ d ∈ (s.listener i).unsent, ∃ x ∈ s.received ++ s.outbound, d.s ≤ x.s) ∨
    ∃ i, ∃ d ∈ (s.listener i).unbuffered, ∃ x ∈ s.buffer.getLast?, d.s ≤ x.s

omit [DecidableEq ι] in
theorem not_late (h : Finished s) : ¬ Late s := by
  rintro (⟨i, d, hd, -⟩ | ⟨i, d, hd, -⟩)
  · rw [h.2 i] at hd
    cases hd
  · have := unbuffered_unsent hd
    rw [h.2 i] at this
    cases this

/-- what has been sent stays in its place -/
theorem sent_step (s : St ι) (o : Op ι) :
    s.received ++ s.outbound <+: (step s o).received ++ (step s o).outbound := by
  cases o with
  | receive i payload =>
    simp only [step]
    split <;> exact List.prefix_rfl
  | buffer i =>
    simp only [step]
    split <;> exact List.prefix_rfl
  | send i =>
    simp only [step]
    split
    · split_ifs
      · exact (List.prefix_append_right_inj _).2 (List.prefix_append _ _)
      · exact List.prefix_rfl
    · exact List.prefix_rfl
  | deliver =>
    simp only [step]
    split
    · next d outbound hout =>
      rw [hout, List.append_assoc]
      exact List.prefix_rfl
    · exact List.prefix_rfl

theorem sent_run (s : St ι) (ops : List (Op ι)) :
    s.received ++ s.outbound <+: (run step s ops).received ++ (run step s ops).outbound :=
  run_inv (I := fun t : St ι => s.received ++ s.outbound <+: t.received ++ t.outbound)
    (fun t o h => h.trans (sent_step t o)) List.prefix_rfl ops

/-- a dispatch is not sent until it is the last that is sent -/
theorem unsent_step {o : Op ι} (ho : Room s o) {i : ι} (hd : d ∈ (s.listener i).unsent) :
    d ∈ ((step s o).listener i).unsent ∨
      (step s o).received ++ (step s o).outbound = s.received ++ s.outbound ++ [d] := by
  cases o with
  | receive j payload =>
    simp only [step]
    split
    · next data hj =>
      rw [goto_listener]
      split_ifs with hij
      · rw [hij, hj] at hd
        cases hd
      · exact .inl hd
    · exact .inl hd
  | buffer j =>
    simp only [step]
    split
    · next d' hj =>
      rw [goto_listener]
      split_ifs with hij
      · rw [hij, hj] at hd
        exact .inl hd
      · exact .inl hd
    · exact .inl hd
  | send j =>
    simp only [step]
    split
    · next d' hj =>
      have hroom : s.outbound.length < capacity := ho
      rw [if_pos hroom, goto_listener]
      split_ifs with hij
      · rw [hij, hj] at hd
        obtain rfl : d' = d := Option.some.inj hd
        exact .inr (List.append_assoc ..).symm
      · exact .inl hd
    · exact .inl hd
  | deliver =>
    simp only [step]
    split <;> exact .inl hd

theorem unbuffered_step {o : Op ι} {i : ι} (hd : d ∈ (s.listener i).unbuffered) :
    d ∈ ((step s o).listener i).unbuffered ∨ (step s o).buffer = bufferEvent s.buffer d := by
  cases o with
  | receive j payload =>
    simp only [step]
    split
    · next data hj =>
      rw [goto_listener]
      split_ifs with hij
      · rw [hij, hj] at hd
        cases hd
      · exact .inl hd
    · exact .inl hd
  | buffer j =>
    simp only [step]
    split
    · next d' hj =>
      rw [goto_listener]
      split_ifs with hij
      · rw [hij, hj] at hd
        obtain rfl : d' = d := Option.some.inj hd
        exact .inr rfl
      · exact .inl hd
    · exact .inl hd
  | send j =>
    simp only [step]
    split
    · next d' hj =>
      have hij : i ≠ j := by
        rintro rfl
        rw [hj] at hd
        cases hd
      split_ifs <;> rw [goto_listener, if_neg hij] <;> exact .inl hd
    · exact .inl hd
  | deliver =>
    simp only [step]
    split <;> exact .inl hd

theorem buffer_step (s : St ι) (o : Op ι) :
    (step s o).buffer = s.buffer ∨ ∃ d, (step s o).buffer = bufferEvent s.buffer d := by
  cases o with
  | buffer j =>
    simp only [step]
    split
    · exact .inr ⟨_, rfl⟩
    · exact .inl rfl
  | send j =>
    simp only [step]
    split
    · split_ifs <;> exact .inl rfl
    · exact .inl rfl
  | _ =>
    simp only [step]
    split <;> exact .inl rfl

/-- an overtaken dispatch stays late until the order is broken -/
theorem late_step (s : St ι) (o : Op ι) (ho : Room s o) (h : Late s)
    (hsent : Increasing ((step s o).received ++ (step s o).outbound)) (hbuffer : Increasing (step s o).buffer) :
    Late (step s o) := by
  rcases h with ⟨i, d, hd, x, hx, hle⟩ | ⟨i, d, hd, x, hx, hle⟩
  · rcases unsent_step ho hd with hstill | heq
    · exact .inl ⟨i, d, hstill, x, (sent_step s o).subset hx, hle⟩
    · rw [heq, increasing_append] at hsent
      exact absurd (hsent.2 x hx) hle.not_gt
  · rcases unbuffered_step (o := o) hd with hstill | heq
    · rcases buffer_step s o with heq | ⟨y, heq⟩
      · exact .inr ⟨i, d, hstill, x, heq ▸ hx, hle⟩
      · rw [heq] at hbuffer
        refine .inr ⟨i, d, hstill, y, ?_, hle.trans (last_lt_of_increasing hbuffer hx).le⟩
        rw [heq]
        exact getLast?_bufferEvent
    · rw [heq] at hbuffer
      exact absurd (last_lt_of_increasing hbuffer hx) hle.not_gt

theorem eq_numbered {stage : Stage} (h : d ∈ stage.unbuffered) : stage = .numbered d := by
  cases stage with
  | numbered d' =>
    obtain rfl : d' = d := Option.some.inj h
    rfl
  | _ => cases h

theorem eq_buffered {stage : Stage} (h : d ∈ stage.ready) : stage = .buffered d := by
  cases stage with
  | buffered d' =>
    obtain rfl : d' = d := Option.some.inj h
    rfl
  | _ => cases h

theorem eq_waiting {stage : Stage} (h : stage.isWaiting = true) : stage = .waiting := by
  cases stage with
  | waiting => rfl
  | _ => cases h

/-- a step out of turn leaves a dispatch late -/
theorem late_of_not_inTurn {o : Op ι} (hsequence : s.sequence < 2 ^ 64) (hanswer : answer ∈ s.received ++ s.outbound)
    (hroom : Room s o) (ho : ¬ InTurn s o) : Late (step s o) := by
  cases o with
  | receive i payload =>
    simp only [InTurn, not_forall, not_lt] at ho
    obtain ⟨hwaiting, hsome, hwrap⟩ := ho
    obtain ⟨data, rfl⟩ := Option.isSome_iff_exists.1 hsome
    have hzero : nextSequence s.sequence = 0 := by
      rw [nextSequence, show s.sequence + 1 = 2 ^ 64 by omega, Nat.mod_self]
    simp only [step, eq_waiting hwaiting, hzero]
    refine .inl ⟨i, GatewayMessage.dispatch (eventType data) 0 data, ?_, answer, hanswer, Nat.zero_le _⟩
    rw [goto_listener, if_pos rfl]
    rfl
  | buffer i =>
    simp only [InTurn, not_forall, not_le] at ho
    obtain ⟨d, hd, j, d', hd', hlt⟩ := ho
    have hji : j ≠ i := by
      rintro rfl
      exact hlt.ne' (congrArg Dispatch.s (Option.mem_unique hd hd'))
    simp only [step, eq_numbered hd]
    refine .inr ⟨j, d', ?_, d, getLast?_bufferEvent, hlt.le⟩
    rwa [goto_listener, if_neg hji]
  | send i =>
    simp only [InTurn, not_forall, not_le] at ho
    obtain ⟨d, hd, j, d', hd', hlt⟩ := ho
    have hfull : s.outbound.length < capacity := hroom
    have hji : j ≠ i := by
      rintro rfl
      rw [eq_buffered hd] at hd'
      exact hlt.ne' (congrArg Dispatch.s (Option.some.inj hd'))
    simp only [step, eq_buffered hd, if_pos hfull]
    refine .inl ⟨j, d', ?_, d, ?_, hlt.le⟩
    · rwa [goto_listener, if_neg hji]
    · exact List.mem_append_right _ (List.mem_append_right _ List.mem_cons_self)
  | deliver => exact absurd trivial ho

/-- a late dispatch shows before the run is over -/
theorem late_shows {ops : List (Op ι)} (hroom : Every step Room s ops) (hdone : Finished (run step s ops))
    (h : Late s) : ¬ ∀ l, l <+: ops → Increasing (run step s l).buffer ∧
      Increasing ((run step s l).received ++ (run step s l).outbound) := by
  induction ops generalizing s with
  | nil => exact fun _ => not_late hdone h
  | cons o ops ih =>
    intro hall
    obtain ⟨hbuffer, hsent⟩ := hall [o] ⟨ops, rfl⟩
    refine ih hroom.2 hdone (late_step s o hroom.1 h hsent hbuffer) fun l hl => ?_
    exact hall (o :: l) ((List.prefix_cons_inj o).2 hl)

theorem sequence_step (o : Op ι) (h : s.sequence < 2 ^ 64) : (step s o).sequence < 2 ^ 64 := by
  cases o with
  | receive i payload =>
    simp only [step]
    split
    · exact Nat.mod_lt _ (by decide)
    · exact h
  | send j =>
    simp only [step]
    split
    · split_ifs <;> exact h
    · exact h
  | _ =>
    simp only [step]
    split <;> exact h

theorem every_inTurn {ops : List (Op ι)} (hsequence : s.sequence < 2 ^ 64)
    (hanswer : answer ∈ s.received ++ s.outbound) (hroom : Every step Room s ops)
    (hdone : Finished (run step s ops)) (h : ∀ l, l <+: ops → Increasing (run step s l).buffer ∧
      Increasing ((run step s l).received ++ (run step s l).outbound)) : Every step InTurn s ops := by
  induction ops generalizing s with
  | nil => trivial
  | cons o ops ih =>
    have hlater : ∀ l, l <+: ops → Increasing (run step (step s o) l).buffer ∧
        Increasing ((run step (step s o) l).received ++ (run step (step s o) l).outbound) :=
      fun l hl => h (o :: l) ((List.prefix_cons_inj o).2 hl)
    refine ⟨?_, ih (sequence_step o hsequence) ((sent_step s o).subset hanswer) hroom.2 hdone hlater⟩
    by_contra ho
    exact late_shows hroom.2 hdone (late_of_not_inTurn hsequence hanswer hroom.1 ho) hlater

/-- **The condition is exact.** If the order holds all along a run in which no dispatch is lost, every listener waited
for its turn. -/
theorem in_turn_of_ordered (answer : Dispatch) {ops : List (Op ι)} (hanswer : answer.s < 2 ^ 64)
    (hroom : Every step Room (start answer) ops) (hdone : Finished (run step (start answer) ops))
    (h : ∀ l, l <+: ops → Ordered answer (run step (start answer) l)) : Every step InTurn (start answer) ops := by
  refine every_inTurn hanswer List.mem_cons_self hroom hdone fun l hl => ⟨(h l hl).buffer, ?_⟩
  obtain ⟨m, rfl⟩ := hl
  have hsent := sent_run (run step (start answer) l) m
  rw [← run_append, hdone.1, List.append_nil] at hsent
  exact (h _ List.prefix_rfl).received.sublist (hsent.sublist.map Dispatch.s)

end Lumiere.Gateway.InOrder
