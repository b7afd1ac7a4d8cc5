/-
The numbers that the client of a session receives. A connection numbers its dispatches from a counter, which a resume
starts at the number that the client gives; `replay_events` sends the buffered events above that number under their old
numbers, and the counter does not move.

- `sequence_increasing`: the numbers increase as long as no resume has an event to replay.
- `replay_repeats`: after one event is replayed, RESUMED carries its number again.
-/
import Lumiere.Gateway.Resumption
import Lumiere.Routes.MessageWrites

namespace Lumiere.Gateway

open Lumiere.Core Lumiere.Db Lumiere.Routes

namespace Resumption

/-! ## When the numbers increase -/

/-- a resume replays nothing, and the counter does not wrap around -/
def Fresh (s : St) : Op → Prop
  | .resume _ read => s.conn = none → s.record = true → s.replays read = []
  | .dispatch .. | .resumed _ | .hangUp _ => ∀ x ∈ s.conn, x.sequence + 1 < 2 ^ 64
  | _ => True

instance (s : St) : (o : Op) → Decidable (Fresh s o)
  | .resume _ read => inferInstanceAs (Decidable (s.conn = none → s.record = true → s.replays read = []))
  | .dispatch .. | .resumed _ | .hangUp _ => inferInstanceAs (Decidable (∀ x ∈ s.conn, x.sequence + 1 < 2 ^ 64))
  | .other | .replay | .spawn _ | .fail | .subscribe _ | .stop _ | .deliver | .unlink | .endSender | .close _
  | .publish _ | .expireBuffer | .expireRecord => isTrue trivial

/-- what the client has received and is going to receive increases, up to the counter -/
structure Ordered (received : List Dispatch) (x : Conn) : Prop where
  increasing : ((received ++ x.pending).map Dispatch.s).Pairwise (· < ·)
  bound : ∀ d ∈ received ++ x.pending, d.s ≤ x.sequence
  replaying : x.replaying = []

structure Inv (s : St) : Prop where
  received : (s.received.map Dispatch.s).Pairwise (· < ·)
  conn : ∀ x ∈ s.conn, Ordered s.received x

variable {user : ℤ} {s : St} {received : List Dispatch} {x y : Conn}

theorem nextSequence_of_lt {n : ℕ} (h : n + 1 < 2 ^ 64) : nextSequence n = n + 1 := Nat.mod_eq_of_lt h

theorem le_claim {d : Dispatch} (h : d ∈ s.received) : d.s ≤ s.claim :=
  List.le_max_of_le (List.mem_map_of_mem h) le_rfl

namespace Ordered

/-- nothing new is on its way -/
theorem keep (h : Ordered received x) (hpending : y.pending.Sublist x.pending) (hsequence : x.sequence ≤ y.sequence)
    (hreplaying : y.replaying = []) : Ordered received y where
  increasing := h.increasing.sublist ((hpending.append_left received).map Dispatch.s)
  bound d hd := (h.bound d ((hpending.append_left received).subset hd)).trans hsequence
  replaying := hreplaying

/-- a message under the next number -/
theorem send (h : Ordered received x) {p : Payload} (hsequence : y.sequence = x.sequence + 1)
    (hpending : y.pending = x.pending ∨ y.pending = x.pending ++ [⟨y.sequence, p⟩]) (hreplaying : y.replaying = []) :
    Ordered received y := by
  rcases hpending with hpending | hpending
  · exact h.keep (hpending ▸ List.Sublist.refl _) (by omega) hreplaying
  · have hbound : ∀ d ∈ received ++ x.pending, d.s < y.sequence := fun d hd => by
      have := h.bound d hd
      omega
    refine ⟨?_, fun d hd => ?_, hreplaying⟩
    · rw [hpending, ← List.append_assoc, List.map_append, List.pairwise_append]
      refine ⟨h.increasing, by simp, fun n hn m hm => ?_⟩
      obtain ⟨d, hd, rfl⟩ := List.mem_map.1 hn
      obtain rfl : m = y.sequence := by simpa using hm
      exact hbound d hd
    · rw [hpending, ← List.append_assoc] at hd
      rcases List.mem_append.1 hd with hd | hd
      · exact (hbound d hd).le
      · rw [List.mem_singleton.1 hd]

end Ordered

/-- the client has received nothing, and the connection is in order -/
theorem Inv.conn_eq (h : Inv s) {s' : St} (hreceived : s'.received = s.received) (hconn : s'.conn = some y)
    (hy : Ordered s.received y) : Inv s' where
  received := hreceived ▸ h.received
  conn z hz := by
    rw [hconn] at hz
    obtain rfl := Option.some.inj hz
    exact hreceived ▸ hy

theorem stepConn_inv (o : Op) (h : Inv s) (hx : s.conn = some x) (ho : Fresh s o) : Inv (stepConn user s x o) := by
  have hinv : Ordered s.received x := h.conn x hx
  cases o with
  | other =>
    refine h.conn_eq rfl rfl (hinv.keep ?_ (by simp) (by simpa [Conn.replaying] using hinv.replaying))
    rcases Conn.trySend_pending (x := x) (m := none) with hp | hp
    · exact hp ▸ List.Sublist.refl _
    · simp [hp]
  | replay =>
    simp only [stepConn]
    split
    · next d rest hstage =>
      have := hinv.replaying
      rw [Conn.replaying, hstage] at this
      cases this
    · exact h
  | resumed deleted =>
    simp only [stepConn]
    split
    · next hstage =>
      have hsequence := nextSequence_of_lt (ho x hx)
      have hy : Ordered s.received (x.answer .resumed) := by
        refine hinv.send (p := .resumed) ?_ ?_ ?_
        · rw [Conn.answer, Conn.trySend_sequence, hsequence]
        · rw [Conn.answer, Conn.trySend_sequence]
          exact Conn.trySend_pending
        · rw [Conn.answer, Conn.replaying, Conn.trySend_stage]
      exact h.conn_eq rfl rfl hy
    · exact h
  | spawn pg =>
    simp only [stepConn]
    split
    · exact h.conn_eq rfl rfl (hinv.keep (List.Sublist.refl _) le_rfl rfl)
    · exact h
  | fail =>
    simp only [stepConn]
    split
    · exact ⟨h.received, by rintro _ ⟨⟩⟩
    · exact h
  | subscribe j =>
    simp only [stepConn]
    split
    · exact h.conn_eq rfl rfl (hinv.keep (List.Sublist.refl _) le_rfl rfl)
    · exact h
  | stop j =>
    simp only [stepConn]
    split
    · exact h.conn_eq rfl rfl (hinv.keep (List.Sublist.refl _) le_rfl rfl)
    · exact h
  | dispatch j buffered =>
    simp only [stepConn]
    split
    · next ls₀ e ls hstage htake =>
      have hsequence := nextSequence_of_lt (ho x hx)
      refine ⟨h.received, fun y hy => ?_⟩
      obtain rfl := Option.some.inj hy
      refine hinv.send (p := .event e) hsequence Conn.trySend_pending ?_
      rw [Conn.replaying]
      split_ifs <;> rfl
    · exact h
  | deliver =>
    simp only [stepConn]
    split
    · next m queue hlink hqueue =>
      have hpending : x.pending = m.toList ++ queue.filterMap id := by
        rw [Conn.pending, if_pos hlink, hqueue]
        cases m <;> rfl
      have hnow : Ordered (s.received ++ m.toList) { x with queue } := by
        refine ⟨?_, ?_, hinv.replaying⟩
        · rw [Conn.pending, if_pos hlink, List.append_assoc, ← hpending]
          exact hinv.increasing
        · rw [Conn.pending, if_pos hlink, List.append_assoc, ← hpending]
          exact hinv.bound
      refine ⟨?_, fun y hy => ?_⟩
      · exact hnow.increasing.sublist ((List.sublist_append_left _ _).map Dispatch.s)
      · obtain rfl := Option.some.inj hy
        exact hnow
    · next m queue hlink hqueue =>
      exact h.conn_eq rfl rfl (hinv.keep (by simp [Conn.pending, hlink]) le_rfl hinv.replaying)
    · exact h
  | unlink =>
    refine h.conn_eq rfl rfl (hinv.keep ?_ le_rfl hinv.replaying)
    rw [Conn.pending, Conn.pending]
    split_ifs <;> simp_all
  | endSender =>
    simp only [stepConn]
    split
    · exact h.conn_eq rfl rfl (hinv.keep (by simp [Conn.pending]) le_rfl hinv.replaying)
    · exact h
  | hangUp cut =>
    have hsequence := nextSequence_of_lt (ho x hx)
    have hclosing {sequence : ℕ} (hle : x.sequence ≤ sequence) :
        Ordered s.received { x with sequence, stage := .closing } :=
      hinv.keep (List.Sublist.refl _) hle rfl
    simp only [stepConn]
    split
    · split
      · exact h.conn_eq rfl rfl (hclosing le_rfl)
      · split
        · exact h.conn_eq rfl rfl (hclosing (by omega))
        · exact h.conn_eq rfl rfl (hclosing le_rfl)
    · exact h
  | close stored =>
    simp only [stepConn]
    split
    · exact ⟨h.received, by rintro _ ⟨⟩⟩
    · exact h
  | _ => exact h

theorem step_inv (s : St) (o : Op) (ho : Fresh s o) (h : Inv s) : Inv (step user s o) := by
  cases o with
  | publish p =>
    refine ⟨h.received, fun y hy => ?_⟩
    obtain ⟨x, hx, rfl⟩ := Option.map_eq_some_iff.1 hy
    exact (h.conn x hx).keep (by simp) (by simp) (by simpa using (h.conn x hx).replaying)
  | expireBuffer => exact ⟨h.received, h.conn⟩
  | expireRecord => exact ⟨h.received, h.conn⟩
  | resume waiting read =>
    simp only [step]
    split
    · next hconn hrecord =>
      have hpending : (List.replicate (min waiting capacity) (none : Option Dispatch)).filterMap id = [] := by simp
      refine h.conn_eq rfl rfl ⟨?_, ?_, ho hconn hrecord⟩
      · simpa [Conn.pending, hpending] using h.received
      · intro d hd
        exact le_claim (by simpa [Conn.pending, hpending] using hd)
    · exact h
  | _ =>
    simp only [step]
    split
    · next x hx => exact stepConn_inv _ h hx ho
    · exact h

theorem identify_inv (waiting : ℕ) : Inv (identify waiting) := by
  have hempty : Ordered [] ⟨0, List.replicate (min waiting capacity) none, .up, .answered⟩ :=
    ⟨by simp [Conn.pending], by simp [Conn.pending], rfl⟩
  refine ⟨List.Pairwise.nil, fun y hy => ?_⟩
  obtain rfl := Option.some.inj hy
  exact hempty.send (p := .ready) (by rw [Conn.answer, Conn.trySend_sequence]; rfl)
    (by rw [Conn.answer, Conn.trySend_sequence]; exact Conn.trySend_pending)
    (by rw [Conn.answer, Conn.replaying, Conn.trySend_stage])

/-- **The numbers increase.** Over the whole life of a session whose resumes find nothing to replay, the dispatches that
the client receives carry strictly increasing numbers. -/
theorem sequence_increasing (waiting : ℕ) {ops : List Op} (h : Every (step user) Fresh (identify waiting) ops) :
    ((run (step user) (identify waiting) ops).received.map Dispatch.s).Pairwise (· < ·) :=
  (run_inv_of_every step_inv (identify_inv waiting) h).received

/-! ## A number that comes again -/

/-- a resume on an empty channel, whose messages all reach the client -/
def resumeTrace (replays : ℕ) : List Op :=
  .resume 0 true :: List.replicate replays .replay ++ .resumed true :: List.replicate (replays + 1) .deliver

theorem run_replay {rest : List Dispatch} (hconn : s.conn = some x) (hlink : x.link = .up)
    (hstage : x.stage = .replaying rest) (hroom : x.queue.length + rest.length ≤ capacity) :
    run (step user) s (List.replicate rest.length .replay) =
      s.withConn { x with queue := x.queue ++ rest.map some, stage := .replaying [] } := by
  induction rest generalizing s x with
  | nil =>
    cases s
    cases x
    simp_all [St.withConn]
  | cons d rest ih =>
    have hx : x.room = true := by
      rw [List.length_cons] at hroom
      simp only [Conn.room, hlink, ne_eq, reduceCtorEq, not_false_eq_true, decide_true, Bool.true_and,
        decide_eq_true_eq]
      omega
    have hstep : step user s .replay =
        s.withConn { x with queue := x.queue ++ [some d], stage := .replaying rest } := by
      simp only [step, hconn, stepConn, hstage, Conn.trySend, hx, if_true]
    rw [List.length_cons, List.replicate_succ, run_cons, hstep,
      ih (x := { x with queue := x.queue ++ [some d], stage := .replaying rest }) rfl hlink rfl]
    · simp [St.withConn]
    · rw [List.length_append, List.length_singleton]
      rw [List.length_cons] at hroom
      omega

theorem run_deliver {queue : List (Option Dispatch)} (hconn : s.conn = some x) (hlink : x.link = .up)
    (hqueue : x.queue = queue) :
    run (step user) s (List.replicate queue.length .deliver) =
      { s.withConn { x with queue := [] } with received := s.received ++ queue.filterMap id } := by
  induction queue generalizing s x with
  | nil =>
    cases s
    cases x
    simp_all [St.withConn]
  | cons m queue ih =>
    have hstep : step user s .deliver = { s.withConn { x with queue } with received := s.received ++ m.toList } := by
      simp only [step, hconn, stepConn, hlink, hqueue]
    rw [List.length_cons, List.replicate_succ, run_cons, hstep,
      ih (x := { x with queue }) rfl hlink rfl]
    cases m <;> simp [St.withConn]

/-- **A replay goes back.** Whenever a resume finds something to replay and the client gets all that is sent, RESUMED
comes after the replayed events and carries no larger number than the first of them. -/
theorem replay_repeats (hconn : s.conn = none) (hrecord : s.record = true) (hreplays : s.replays true ≠ [])
    (hroom : (s.replays true).length < capacity) :
    ¬ ((run (step user) s (resumeTrace (s.replays true).length)).received.map Dispatch.s).Pairwise (· < ·) := by
  have hrun : (run (step user) s (resumeTrace (s.replays true).length)).received =
      s.received ++ (s.replays true ++ [⟨nextSequence s.claim, .resumed⟩]) := by
    have hresume : step user s (.resume 0 true) =
        { s with record := false, conn := some ⟨s.claim, [], .up, .replaying (s.replays true)⟩ } := by
      simp [step, hconn, hrecord]
    have hresumed (t : St) (queue : List (Option Dispatch)) (h : queue.length < capacity) :
        step user (t.withConn ⟨s.claim, queue, .up, .replaying []⟩) (.resumed true) =
          { t.withConn ⟨nextSequence s.claim, queue ++ [some ⟨nextSequence s.claim, .resumed⟩], .up, .answered⟩ with
            buffer := [] } := by
      simp [step, stepConn, St.withConn, Conn.answer, Conn.trySend, Conn.room, h]
    rw [resumeTrace, List.cons_append, run_cons, run_append, run_cons, hresume,
      run_replay rfl rfl rfl (by simpa using hroom.le), List.nil_append, hresumed _ _ (by simpa using hroom)]
    generalize hqueue : (s.replays true).map some ++ [some (Dispatch.mk (nextSequence s.claim) .resumed)] = queue
    have hlength : (s.replays true).length + 1 = queue.length := by simp [← hqueue]
    rw [hlength, run_deliver (x := ⟨nextSequence s.claim, queue, .up, .answered⟩) rfl rfl rfl, ← hqueue]
    simp [St.withConn]
  rw [hrun]
  rcases hd : s.replays true with _ | ⟨d, rest⟩
  · exact absurd hd hreplays
  have hclaim : s.claim < d.s := by
    have hmem : d ∈ s.replays true := hd ▸ List.mem_cons_self
    simpa [St.replays] using (List.mem_filter.1 hmem).2
  intro hincreasing
  rw [List.map_append, List.pairwise_append] at hincreasing
  have hlt : d.s < nextSequence s.claim := by
    have := hincreasing.2.1
    simp only [List.cons_append, List.map_cons, List.pairwise_cons] at this
    exact this.1 _ (by simp)
  have hle : nextSequence s.claim ≤ s.claim + 1 := Nat.mod_le ..
  omega

/-- user 2 identifies and listens to itself and to server 100 -/
def listenTrace : List Op := [.deliver, .spawn joined.pg, .subscribe 0, .subscribe 1]

/-- an event of server 100 is numbered and buffered -/
def eventTrace : List Op := [.publish ⟨serverEvents 100, .guildMemberRemove 100 3⟩, .dispatch 1 true]

def closeTrace : List Op := [.hangUp none, .close true]

theorem sequence_increasing_resumed :
    let ops := listenTrace ++ eventTrace ++ [.deliver] ++ closeTrace ++ resumeTrace 0
    ((run (step 2) (identify 0) ops).received.map Dispatch.s).Pairwise (· < ·) :=
  sequence_increasing 0 (by decide)

/-- **The number of a replayed event comes again.** The event is numbered 2 and does not reach the client, which resumes
with 1; it is replayed with 2, and RESUMED carries 2. -/
theorem sequence_repeats :
    let ops := listenTrace ++ eventTrace ++ closeTrace ++ resumeTrace 1
    let numbers := (run (step 2) (identify 0) ops).received.map Dispatch.s
    numbers = [1, 2, 2] ∧ ¬ numbers.Pairwise (· < ·) := by
  decide

end Resumption

end Lumiere.Gateway
