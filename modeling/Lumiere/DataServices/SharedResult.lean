/-
"All concurrent callers for the same key share one result" (the comment on `get_or_fetch`), when no task is cancelled.

- `shared_result`: the callers of a leader whose fetch returned `Ok(v)` return `Ok(v)`, in every run in which no caller
  finds the entry of a leader that has sent, and every caller that has found it has subscribed when the leader sends.
- `lateTrace`: a caller that finds the entry and subscribes after the send fails with `CoalescingFailed`.
- `lateClone_hangs`: a slow-path caller that does so holds a sender of its own, and no run of the other tasks wakes it.
-/
import Mathlib.Data.Fintype.Basic
import Lumiere.DataServices.Coalescing

namespace Lumiere.DataServices.CoalescingCache

open Lumiere.Core

variable {τ K V ε : Type} [DecidableEq τ] [DecidableEq K]

/-! ## Runs in which every caller subscribes in time -/

/-- the channel the task's next map operation would find -/
def target (s : St τ K V ε) (t : τ) : Option τ :=
  match s.pc t with
  | .start k | .slow k => s.inFlight k
  | _ => none

def Prompt (s : St τ K V ε) : Op τ K V ε → Prop
  | .lookup t | .entry t => ∀ c ∈ target s t, (s.chan c).sent = []
  | .send c => ∀ t, (s.pc t).unsubscribed ≠ some c
  | .cancel _ => False
  | _ => True

instance [Fintype τ] (s : St τ K V ε) (o : Op τ K V ε) : Decidable (Prompt s o) :=
  match o with
  | .lookup t | .entry t => inferInstanceAs (Decidable (∀ c ∈ target s t, (s.chan c).sent = []))
  | .send c => inferInstanceAs (Decidable (∀ t, (s.pc t).unsubscribed ≠ some c))
  | .cancel _ => inferInstanceAs (Decidable False)
  | .call .. | .subscribe _ | .fetchOk .. | .fetchErr .. | .dropTx _ | .remove _ | .finish _ | .recv _ =>
    inferInstanceAs (Decidable True)

/-- a leader's fetch has returned -/
def Pc.fetchOver : Pc τ K V ε → Bool
  | .fetching _ => false
  | p => !p.early

structure PromptInv (s : St τ K V ε) : Prop extends Inv s where
  unsub : ∀ {t c}, (s.pc t).unsubscribed = some c → (s.chan c).sent = []
  pos : ∀ {t k c p}, s.pc t = .waiting k c p → p = 0
  joined : ∀ {t c}, s.joined t = some c → (∃ k, (s.pc t).follows = some (k, c)) ∨
    ∃ k r, s.pc t = .done k r ∧ (s.pc c).fetchOver = true ∧ ∀ v, s.fetchResult c = some (.ok v) → r = .ok v
  live : ∀ {t k}, s.pc t ≠ .dropped k

section

variable {s s' : St τ K V ε} {o : Op τ K V ε}

theorem Moves.unsub (m : Moves s o s') (ho : Prompt s o) (h : PromptInv s) {t c : τ}
    (ht : (s'.pc t).unsubscribed = some c) : (s'.chan c).sent = [] := by
  have hold := @h.unsub
  cases m <;> simp only [goto, onChan, Function.update_apply, Prompt, target, removeEntry_pc] at ho ht ⊢ <;>
    grind [Pc.unsubscribed]

theorem Moves.pos (m : Moves s o s') (h : PromptInv s) {t c : τ} {k : K} {p : ℕ}
    (ht : s'.pc t = .waiting k c p) : p = 0 := by
  have hold := @h.pos
  have hu := @h.unsub
  cases m <;> simp only [goto, onChan, Function.update_apply, removeEntry_pc] at ht ⊢ <;>
    grind [Pc.unsubscribed, Broadcast.subscribe]

omit [DecidableEq τ] [DecidableEq K] in
/-- a value on a channel is the one its leader's fetch returned -/
theorem Inv.sent_ok (h : Inv s) {c : τ} {p : ℕ} {v : V} (hv : (s.chan c).sent[p]? = some v) :
    s.fetchResult c = some (.ok v) ∧ (s.pc c).fetchOver = true := by
  have hc := h.chan c
  rcases hl : (s.chan c).sent with _ | ⟨w, l⟩
  · simp [hl] at hv
  · cases hp : s.pc c <;> simp only [hp, hl, ChanOk] at hc <;> grind [Pc.fetchOver, Pc.early]

omit [DecidableEq τ] [DecidableEq K] in
/-- the channel of a leader is not closed before its fetch is over -/
theorem Inv.closed_over (h : Inv s) {c : τ} {k : K} (hin : (c, k) ∈ s.inserted) (hs : (s.chan c).senders = [])
    (hl : (s.chan c).sent = []) : (s.pc c).fetchOver = true ∧ ∀ v, s.fetchResult c ≠ some (.ok v) := by
  have hc := h.chan c
  have he := h.opened hin
  have ho : (s.pc c).holdsTx = false := by
    rw [Bool.eq_false_iff]
    intro hx
    simpa [hs] using h.own hx
  cases hp : s.pc c <;> simp only [hp, hl, ChanOk] at hc he ho <;> grind [Pc.fetchOver, Pc.early, Pc.holdsTx]

theorem Moves.joined (m : Moves s o s') (ho : Prompt s o) (h : PromptInv s) {t c : τ} (ht : s'.joined t = some c) :
    (∃ k, (s'.pc t).follows = some (k, c)) ∨
    ∃ k r, s'.pc t = .done k r ∧ (s'.pc c).fetchOver = true ∧ ∀ v, s'.fetchResult c = some (.ok v) → r = .ok v := by
  have hold := h.joined (t := t) (c := c)
  cases m with
  | @hit u k d hp hk =>
    simp only [goto, Function.update_apply] at ht ⊢
    by_cases htu : t = u
    · obtain rfl : d = c := by simpa [htu] using ht
      exact .inl ⟨k, by simp [htu, Pc.follows]⟩
    · grind [Pc.fetchOver, Pc.early]
  | @occupied u k d hp hk =>
    simp only [goto, onChan, Function.update_apply] at ht ⊢
    by_cases htu : t = u
    · obtain rfl : d = c := by simpa [htu] using ht
      exact .inl ⟨k, by simp [htu, Pc.follows]⟩
    · grind [Pc.fetchOver, Pc.early]
  | @ready u k d p v hp hr =>
    -- the value received is the one the fetch returned
    obtain ⟨hf, hov⟩ := h.sent_ok (Broadcast.recv_eq_ready.1 hr)
    have hj : s.joined u = some d := (h.follows (t := u) (k := k) (c := d) (by rw [hp]; rfl)).1
    simp only [goto, onChan, Function.update_apply] at ht ⊢
    grind [Pc.follows, Pc.fetchOver, Pc.early]
  | @closed u k d p hp hr =>
    -- the channel closes on a failed fetch only
    obtain ⟨hlen, hnone⟩ := Broadcast.recv_eq_closed.1 hr
    obtain ⟨hj, hin⟩ := h.follows (t := u) (k := k) (c := d) (by rw [hp]; rfl)
    rw [h.pos hp, Nat.le_zero, List.length_eq_zero_iff] at hlen
    obtain ⟨hov, hne⟩ := h.closed_over hin hnone hlen
    simp only [goto, onChan, Function.update_apply] at ht ⊢
    grind [Pc.follows, Pc.fetchOver, Pc.early]
  | cancelLeader | cancelCaller => exact ho.elim
  | _ =>
    simp only [goto, onChan, Function.update_apply, removeEntry_pc, removeEntry_joined, removeEntry_fetchResult]
      at ht ⊢
    grind [Pc.follows, Pc.fetchOver, Pc.early]

end

theorem step_promptInv (s : St τ K V ε) (o : Op τ K V ε) (ho : Prompt s o) (h : PromptInv s) :
    PromptInv (step s o) := by
  rcases step_moves s o with e | m
  · rwa [e]
  · have hc : o.isCancel = false := by cases o <;> first | rfl | exact ho.elim
    exact ⟨m.inv h.toInv, m.unsub ho h, m.pos h, m.joined ho h, step_not_dropped s o hc (fun _ _ => h.live) _ _⟩

omit [DecidableEq τ] [DecidableEq K] in
theorem promptInv_init : PromptInv (init : St τ K V ε) where
  toInv := inv_init
  unsub h := by cases h
  pos h := by cases h
  joined h := by cases h
  live h := by cases h

/-! ## The shared result -/

theorem done_stays {s : St τ K V ε} {t : τ} {k : K} {r} (h : s.pc t = .done k r) (o : Op τ K V ε) :
    (step s o).pc t = .done k r := by
  rcases step_moves s o with e | m
  · rw [e]; exact h
  · generalize step s o = s' at m
    cases m <;> simp only [goto, onChan, Function.update_apply, removeEntry_pc] <;> grind

theorem done_stays_run {s : St τ K V ε} {t : τ} {k : K} {r} (h : s.pc t = .done k r) (ops : List (Op τ K V ε)) :
    (run step s ops).pc t = .done k r := by
  induction ops generalizing s with
  | nil => exact h
  | cons o ops ih => exact ih (done_stays h o)

omit [DecidableEq τ] [DecidableEq K] in
theorem Inv.value_sent {s : St τ K V ε} (h : Inv s) {c : τ} {v : V} (hv : s.fetchResult c = some (.ok v)) :
    (∃ k, s.pc c = .fetched k v) ∧ (s.chan c).sent = [] ∨ (s.chan c).sent = [v] := by
  have hc := h.chan c
  cases hp : s.pc c <;> simp only [hp, ChanOk] at hc <;> grind

theorem subscribe_waits {s : St τ K V ε} {t c : τ} {k : K} (h : (s.pc t).follows = some (k, c)) :
    ∃ p, (step s (.subscribe t)).pc t = .waiting k c p ∧ (step s (.subscribe t)).fetchResult = s.fetchResult ∧
      (s.pc t = .waiting k c p ∨ p = (s.chan c).sent.length) := by
  cases hp : s.pc t <;> simp only [hp, Pc.follows, Option.some.injEq, Prod.mk.injEq, reduceCtorEq] at h
  all_goals
    obtain ⟨rfl, rfl⟩ := h
    simp [step, hp, goto, Broadcast.subscribe]

/-- after its `send` step a leader whose fetch succeeded has sent the value -/
theorem send_sends {s : St τ K V ε} (h : Inv s) {c : τ} {v : V} (hv : s.fetchResult c = some (.ok v)) :
    ((step s (.send c)).chan c).sent = [v] := by
  rcases h.value_sent hv with ⟨⟨k, hp⟩, hl⟩ | hl
  · simp [step, hp, hl, goto, onChan]
  · have hc := h.chan c
    cases hp : s.pc c <;> simp_all [step, ChanOk]

theorem send_frame {s : St τ K V ε} {t c : τ} (hne : c ≠ t) : (step s (.send c)).pc t = s.pc t := by
  unfold step
  dsimp only
  split <;> simp [goto, onChan, hne.symm]

theorem recv_returns {s : St τ K V ε} {t c : τ} {k : K} {v : V} (hp : s.pc t = .waiting k c 0)
    (hl : (s.chan c).sent = [v]) : (step s (.recv t)).pc t = .done k (.ok v) := by
  simp [step, hp, hl, Broadcast.recv, goto]

/-- a caller's own steps and the leader's send make it return the value -/
theorem PromptInv.delivers {s : St τ K V ε} (h : PromptInv s) {t c : τ} {v : V} (hj : s.joined t = some c)
    (hv : s.fetchResult c = some (.ok v)) :
    ∃ k, (run step s [.subscribe t, .send c, .recv t]).pc t = .done k (.ok v) := by
  rcases h.joined hj with ⟨k, hfol⟩ | ⟨k, r, hd, -, hr⟩
  · obtain ⟨p, hp, hf, hpos⟩ := subscribe_waits hfol
    have h1 : PromptInv (step s (.subscribe t)) := step_promptInv s (.subscribe t) trivial h
    rw [h1.pos hp] at hp
    refine ⟨k, recv_returns ?_ (send_sends h1.toInv (by rwa [hf]))⟩
    rw [send_frame (h.follows_ne hfol), hp]
  · obtain rfl := hr v hv
    exact ⟨k, done_stays_run hd _⟩

/-- **The callers of a leader share its result.** In a run in which every caller subscribes in time, a caller of a
leader whose fetch returned `Ok(v)` has returned `Ok(v)` if it has returned, and otherwise does so by its own remaining
steps once the leader has sent. -/
theorem shared_result (ops : List (Op τ K V ε)) (hops : Every step Prompt init ops) :
    let s := run step init ops
    ∀ t c v, s.joined t = some c → s.fetchResult c = some (.ok v) →
      (∀ k r, s.pc t = .done k r → r = .ok v) ∧
      ∃ k, (run step s [.subscribe t, .send c, .recv t]).pc t = .done k (.ok v) := by
  intro s t c v hj hv
  have h : PromptInv s := run_inv_of_every step_promptInv promptInv_init hops
  refine ⟨fun k r hd => ?_, h.delivers hj hv⟩
  rcases h.joined hj with ⟨k', hfol⟩ | ⟨k', r', hd', -, hr⟩
  · rw [hd] at hfol; cases hfol
  · rw [hd] at hd'; cases hd'; exact hr v hv

/-- three callers: on the fast path, on the slow path, and after the fetch returned -/
def promptTrace : List (Op (Fin 4) ℕ ℕ String) :=
  [.call 0 5, .lookup 0, .call 1 5, .lookup 1, .entry 0, .call 2 5, .lookup 2, .subscribe 2, .entry 1, .subscribe 1,
    .fetchOk 0 7, .call 3 5, .lookup 3, .subscribe 3, .send 0, .recv 2, .remove 0, .recv 1, .finish 0]

theorem shared_result_prompt :
    let s := run step init promptTrace
    s.joined 3 = some 0 ∧ (∀ k r, s.pc 3 = .done k r → r = .ok 7) ∧
      ∃ k, (run step s [.subscribe 3, .send 0, .recv 3]).pc 3 = .done k (.ok 7) :=
  ⟨by decide, shared_result promptTrace (by decide) 3 0 7 (by decide) (by decide)⟩

/-- a caller finds the entry before the send, subscribes after it, and is left with a closed channel -/
def lateTrace : List (Op ℕ ℕ ℕ String) :=
  [.call 0 5, .lookup 0, .entry 0, .fetchOk 0 7, .call 1 5, .lookup 1, .send 0, .subscribe 1, .remove 0, .finish 0,
    .recv 1]

theorem late_caller_fails :
    let s := run step init lateTrace
    (∀ o ∈ lateTrace, o.isCancel = false) ∧ s.joined 1 = some 0 ∧ s.fetchResult 0 = some (.ok 7) ∧
      s.pc 0 = .done 5 (.ok 7) ∧ s.pc 1 = .done 5 (.error .coalescingFailed) := by
  decide

/-! ## A late clone -/

/-- waiting on a channel that will carry no further value, with a sender of its own -/
structure LateClone (s : St τ K V ε) (t c : τ) (k : K) (p : ℕ) : Prop extends Inv s where
  waits : s.pc t = .waiting k c p
  past : (s.chan c).sent.length ≤ p
  finished : (s.pc c).early = false ∧ (s.pc c).willSend = false
  holds : .task t ∈ (s.chan c).senders

theorem step_lateClone {s : St τ K V ε} {t c : τ} {k : K} {p : ℕ} (o : Op τ K V ε) (ho : ∀ u, o = .cancel u → u ≠ t)
    (h : LateClone s t c k p) : LateClone (step s o) t c k p := by
  rcases step_moves s o with e | m
  · rwa [e]
  have hne : c ≠ t := h.follows_ne (k := k) (by rw [h.waits]; rfl)
  have hpend : (s.chan c).recv p = .pending := Broadcast.recv_eq_pending.2 ⟨h.past, List.ne_nil_of_mem h.holds⟩
  obtain ⟨hi, hw, hpast, ⟨he, hs⟩, hh⟩ := h
  generalize step s o = s' at m
  refine ⟨m.inv hi, ?_, ?_, ?_, ?_⟩
  · cases m <;> simp only [goto, onChan, Function.update_apply, removeEntry_pc] <;> grind
  · cases m <;> simp only [goto, onChan, Function.update_apply, removeEntry_sent] <;> grind [Pc.willSend, Pc.early]
  · cases m <;> simp only [goto, onChan, Function.update_apply, removeEntry_pc] <;> grind [Pc.willSend, Pc.early]
  · cases m <;> simp only [goto, onChan, Function.update_apply, task_mem_senders_removeEntry] <;>
      grind [Pc.willSend, Pc.early]

/-- **A late clone is never woken.** Whatever the other tasks do, the caller keeps waiting until it is cancelled. -/
theorem lateClone_hangs {s : St τ K V ε} {t c : τ} {k : K} {p : ℕ} (h : LateClone s t c k p)
    {ops : List (Op τ K V ε)} (hops : ∀ o ∈ ops, ∀ u, o = .cancel u → u ≠ t) :
    (run step s ops).pc t = .waiting k c p :=
  (run_inv_of_every (I := (LateClone · t c k p)) (fun _ o ho hs => step_lateClone o ho hs) h
    (every_of_forall hops)).waits

end Lumiere.DataServices.CoalescingCache
