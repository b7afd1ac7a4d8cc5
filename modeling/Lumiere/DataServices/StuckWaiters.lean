/-
Who wakes a caller waiting in `recv`, and who removes an entry, when fetches fail and futures are dropped.

- `no_stuck_waiter`: every entry has a running leader and every waiting caller a pending value, a leader that will send,
  or no sender left, in every run in which no leader is dropped at its fetch, no fetch fails while a caller has found
  its entry, no caller finds the entry of a leader past its fetch's send or failure, and every caller that has found it
  has subscribed when the leader sends.
- `waiters_released`: failing fetches are harmless as long as no slow-path caller is involved. Each sender left is then
  one that its holder drops without waiting for anything.
- `orphanTrace`: a leader dropped at its fetch leaves its entry behind. `orphan_stays`: no later step removes it, and
  whoever finds it waits for ever.
-/
import Lumiere.DataServices.SharedResult

namespace Lumiere.DataServices.CoalescingCache

open Lumiere.Core

variable {τ K V ε : Type} [DecidableEq τ] [DecidableEq K]

/-! ## No stuck waiter -/

structure NoStuck (s : St τ K V ε) : Prop where
  leader : ∀ {k c}, s.inFlight k = some c → (s.pc c).leads = some k
  waiter : ∀ {t k c p}, s.pc t = .waiting k c p →
    (∃ v, (s.chan c).recv p = .ready v) ∨ (s.pc c).willSend = true ∨ (s.chan c).senders = []

/-- the channel a caller has found and not yet received from -/
def Pc.channel : Pc τ K V ε → Option τ
  | .found _ c | .cloned _ c | .waiting _ c _ => some c
  | _ => none

omit [DecidableEq τ] [DecidableEq K] in
theorem Pc.channel_of_unsubscribed {p : Pc τ K V ε} {c : τ} (h : p.unsubscribed = some c) : p.channel = some c := by
  cases p <;> simp_all [Pc.unsubscribed, Pc.channel]

def Calm (s : St τ K V ε) : Op τ K V ε → Prop
  | .lookup t | .entry t => ∀ c ∈ target s t, (s.pc c).willSend = true
  | .send c => ∀ t, (s.pc t).unsubscribed ≠ some c
  | .fetchErr c _ => ∀ t, (s.pc t).channel ≠ some c
  | .cancel t => (s.pc t).leads = none
  | _ => True

instance [Fintype τ] (s : St τ K V ε) (o : Op τ K V ε) : Decidable (Calm s o) :=
  match o with
  | .lookup t | .entry t => inferInstanceAs (Decidable (∀ c ∈ target s t, (s.pc c).willSend = true))
  | .send c => inferInstanceAs (Decidable (∀ t, (s.pc t).unsubscribed ≠ some c))
  | .fetchErr c _ => inferInstanceAs (Decidable (∀ t, (s.pc t).channel ≠ some c))
  | .cancel t => inferInstanceAs (Decidable ((s.pc t).leads = none))
  | .call .. | .subscribe _ | .fetchOk .. | .dropTx _ | .remove _ | .finish _ | .recv _ => inferInstanceAs (Decidable True)

structure CalmInv (s : St τ K V ε) : Prop extends Inv s where
  leader : ∀ {k t}, s.inFlight k = some t → (s.pc t).leads = some k
  unsub : ∀ {t c}, (s.pc t).unsubscribed = some c → (s.pc c).willSend = true
  pos : ∀ {t k c p}, s.pc t = .waiting k c p → p = 0
  waits : ∀ {t k c p}, s.pc t = .waiting k c p → (s.pc c).willSend = true ∨ (s.chan c).sent ≠ []

section

variable {s s' : St τ K V ε} {o : Op τ K V ε}

omit [DecidableEq τ] [DecidableEq K] in
theorem Inv.sent_of_willSend (h : Inv s) {c : τ} (hc : (s.pc c).willSend = true) : (s.chan c).sent = [] := by
  have h' := h.chan c
  cases hp : s.pc c <;> simp_all [ChanOk, Pc.willSend]

/-- only a dropped leader leaves its entry behind -/
theorem Moves.leader (m : Moves s o s') (ho : ∀ t, o = .cancel t → (s.pc t).leads = none) (h : Inv s)
    (hl : ∀ {k t}, s.inFlight k = some t → (s.pc t).leads = some k) {k : K} {t : τ} (ht : s'.inFlight k = some t) :
    (s'.pc t).leads = some k := by
  refine (m.entry h ht).resolve_right fun hd => ?_
  cases m <;> simp only [goto, onChan, removeEntry, Function.update_apply] at ht hd <;> grind [Pc.leads]

theorem Moves.calm_unsub (m : Moves s o s') (ho : Calm s o) (h : CalmInv s) {t c : τ}
    (ht : (s'.pc t).unsubscribed = some c) : (s'.pc c).willSend = true := by
  have hold := @h.unsub
  cases m <;> simp only [goto, onChan, Function.update_apply, Calm, target, removeEntry_pc] at ho ht ⊢ <;>
    grind [Pc.unsubscribed, Pc.willSend, Pc.channel_of_unsubscribed, Pc.leads]

theorem Moves.calm_pos (m : Moves s o s') (h : CalmInv s) {t c : τ} {k : K} {p : ℕ}
    (ht : s'.pc t = .waiting k c p) : p = 0 := by
  have hold := @h.pos
  have hu := fun {t c} ht => h.sent_of_willSend (@h.unsub t c ht)
  cases m <;> simp only [goto, onChan, Function.update_apply, removeEntry_pc] at ht ⊢ <;>
    grind [Pc.unsubscribed, Broadcast.subscribe]

theorem Moves.calm_waits (m : Moves s o s') (ho : Calm s o) (h : CalmInv s) {t c : τ} {k : K} {p : ℕ}
    (ht : s'.pc t = .waiting k c p) : (s'.pc c).willSend = true ∨ (s'.chan c).sent ≠ [] := by
  have hold := @h.waits
  have hu := @h.unsub
  cases m <;> simp only [goto, onChan, Function.update_apply, Calm, removeEntry_pc, removeEntry_sent] at ho ht ⊢ <;>
    grind [Pc.unsubscribed, Pc.willSend, Pc.channel, Pc.leads, List.append_eq_nil_iff]

end

theorem step_calmInv (s : St τ K V ε) (o : Op τ K V ε) (ho : Calm s o) (h : CalmInv s) : CalmInv (step s o) := by
  rcases step_moves s o with e | m
  · rwa [e]
  · have hc : ∀ t, o = .cancel t → (s.pc t).leads = none := by rintro t rfl; exact ho
    exact ⟨m.inv h.toInv, m.leader hc h.toInv h.leader, m.calm_unsub ho h, m.calm_pos h, m.calm_waits ho h⟩

omit [DecidableEq τ] [DecidableEq K] in
theorem calmInv_init : CalmInv (init : St τ K V ε) where
  toInv := inv_init
  leader h := by cases h
  unsub h := by cases h
  pos h := by cases h
  waits h := by cases h

/-- **No stuck waiter and no orphaned key.** In a calm run every entry belongs to a running leader, and every waiting
caller has a pending value, a leader that will still send, or a channel without senders. -/
theorem no_stuck_waiter (ops : List (Op τ K V ε)) (hops : Every step Calm init ops) :
    NoStuck (run step init ops) := by
  have h : CalmInv (run step init ops) := run_inv_of_every step_calmInv calmInv_init hops
  refine ⟨h.leader, fun {t k c p} ht => ?_⟩
  rcases h.waits ht with hw | hl
  · exact .inr (.inl hw)
  · obtain ⟨v, l, hv⟩ := List.exists_cons_of_ne_nil hl
    exact .inl ⟨v, by simp [Broadcast.recv_eq_ready, h.pos ht, hv]⟩

/-- a failed fetch, a cancelled caller, and a fetch shared by two callers -/
def calmTrace : List (Op (Fin 4) ℕ ℕ String) :=
  [.call 0 5, .lookup 0, .entry 0, .fetchErr 0 "db is down", .dropTx 0, .remove 0, .call 1 5, .lookup 1, .call 2 5,
    .lookup 2, .entry 1, .entry 2, .subscribe 2, .call 3 5, .lookup 3, .subscribe 3, .cancel 3, .fetchOk 1 7, .send 1]

theorem no_stuck_waiter_calm : NoStuck (run step init calmTrace) := no_stuck_waiter calmTrace (by decide)

/-- a leader is dropped at its fetch, and a later caller waits on the channel it left in the map -/
def orphanTrace : List (Op ℕ ℕ ℕ String) :=
  [.call 0 5, .lookup 0, .entry 0, .cancel 0, .call 1 5, .lookup 1, .subscribe 1]

theorem orphan_stuck :
    let s := run step init orphanTrace
    (s.inFlight 5 = some 0 ∧ s.pc 0 = .dropped 5) ∧
    (s.pc 1 = .waiting 5 0 0 ∧ (s.chan 0).recv 0 = .pending ∧ (s.chan 0).senders = [.map]) ∧ ¬ NoStuck s := by
  refine ⟨by decide, by decide, fun h => ?_⟩
  have hl := h.leader (k := 5) (c := 0) (by decide)
  revert hl
  decide

structure Orphan (s : St τ K V ε) (k : K) (c : τ) : Prop extends Inv s where
  entry' : s.inFlight k = some c
  gone : s.pc c = .dropped k
  unsent : (s.chan c).sent = []
  stored : .map ∈ (s.chan c).senders

theorem step_orphan {s : St τ K V ε} {k : K} {c : τ} (o : Op τ K V ε) (h : Orphan s k c) : Orphan (step s o) k c := by
  rcases step_moves s o with e | m
  · rwa [e]
  have hact := @h.active
  obtain ⟨hi, hk, hg, hu, hm⟩ := h
  generalize step s o = s' at m
  refine ⟨m.inv hi, ?_, ?_, ?_, ?_⟩
  · cases m <;> simp only [goto, onChan, removeEntry, Function.update_apply] <;> grind [Pc.leads]
  · cases m <;> simp only [goto, onChan, Function.update_apply, removeEntry_pc] <;> grind
  · cases m <;> simp only [goto, onChan, Function.update_apply, removeEntry_sent] <;> grind
  · cases m <;> simp only [goto, onChan, Function.update_apply, map_mem_senders_removeEntry] <;> grind [Pc.leads]

/-- **An orphaned entry stays.** No run removes it, and a receive on its channel never returns. -/
theorem orphan_stays {s : St τ K V ε} {k : K} {c : τ} (h : Orphan s k c) (ops : List (Op τ K V ε)) :
    let s' := run step s ops
    s'.inFlight k = some c ∧ ∀ t p, s'.pc t = .waiting k c p → step s' (.recv t) = s' := by
  intro s'
  have h' : Orphan s' k c := run_inv (I := (Orphan · k c)) (fun _ o => step_orphan o) h ops
  refine ⟨h'.entry', fun t p ht => ?_⟩
  have hpend : (s'.chan c).recv p = .pending :=
    Broadcast.recv_eq_pending.2 ⟨by simp [h'.unsent], List.ne_nil_of_mem h'.stored⟩
  simp [step, ht, hpend]

/-! ## Failed fetches -/

def Orderly (s : St τ K V ε) : Op τ K V ε → Prop
  | .entry t => ∀ c ∈ target s t, (s.pc c).willSend = true
  | .send c => ∀ t k, s.pc t ≠ .cloned k c
  | .fetchErr c _ => ∀ t, .task t ∈ (s.chan c).senders → t = c
  | .cancel t => (s.pc t).leads = none
  | _ => True

structure OrderlyInv (s : St τ K V ε) : Prop extends Inv s where
  leader : ∀ {k t}, s.inFlight k = some t → (s.pc t).leads = some k
  stored : ∀ {c}, .map ∈ (s.chan c).senders → ∃ k, s.inFlight k = some c
  held : ∀ {t c}, .task t ∈ (s.chan c).senders → t ≠ c → ∃ k, s.pc t = .cloned k c ∨ ∃ p, s.pc t = .waiting k c p
  scope : ∀ {c}, .task c ∈ (s.chan c).senders → (s.pc c).holdsTx = true
  pos : ∀ {t k c p}, s.pc t = .waiting k c p → p ≤ (s.chan c).sent.length
  drain : ∀ {t c}, (s.pc c).willSend = false → .task t ∈ (s.chan c).senders → t ≠ c →
    ∃ k p, s.pc t = .waiting k c p ∧ p < (s.chan c).sent.length

section

variable {s s' : St τ K V ε} {o : Op τ K V ε}

theorem Moves.stored (m : Moves s o s') (h : OrderlyInv s) {c : τ} (hc : .map ∈ (s'.chan c).senders) :
    ∃ k, s'.inFlight k = some c := by
  have hold := @h.stored c
  cases m with
  | @removeOk t k v hp =>
    simp only [goto, map_mem_senders_removeEntry] at hc
    obtain ⟨k', hk'⟩ := hold hc.1
    exact ⟨k', by simp only [goto, removeEntry, Function.update_apply]; grind⟩
  | @removeErr t k v hp =>
    simp only [goto, map_mem_senders_removeEntry] at hc
    obtain ⟨k', hk'⟩ := hold hc.1
    exact ⟨k', by simp only [goto, removeEntry, Function.update_apply]; grind⟩
  | @vacant t k hp hk =>
    by_cases hct : c = t
    · exact ⟨k, by simp [goto, hct]⟩
    · simp only [goto, onChan, Function.update_apply, if_neg hct] at hc
      obtain ⟨k', hk'⟩ := hold hc
      exact ⟨k', by simp only [goto, Function.update_apply]; grind⟩
  | _ => simp only [goto, onChan, Function.update_apply] at hc ⊢; grind

omit [DecidableEq τ] [DecidableEq K] in
/-- the task of an entry is past the slow path -/
theorem Inv.entry_ne (h : Inv s) {k k' : K} {t c : τ} (hp : s.pc t = .slow k') (hk : s.inFlight k = some c) : c ≠ t := by
  rintro rfl
  simpa [hp, Pc.early] using h.opened (h.inserted hk)

theorem Moves.held (m : Moves s o s') (h : OrderlyInv s) {t c : τ} (hc : .task t ∈ (s'.chan c).senders) (hne : t ≠ c) :
    ∃ k, s'.pc t = .cloned k c ∨ ∃ p, s'.pc t = .waiting k c p := by
  have hold := @h.held t c
  cases m with
  | @occupied u k d hp hk =>
    by_cases htu : t = u ∧ c = d
    · exact ⟨k, .inl (by simp [goto, htu])⟩
    · simp only [goto, onChan, Function.update_apply] at hc ⊢
      grind
  | _ =>
    simp only [goto, onChan, Function.update_apply, task_mem_senders_removeEntry, removeEntry_pc] at hc ⊢
    grind [Broadcast.empty]

theorem Moves.scope (m : Moves s o s') (h : OrderlyInv s) {c : τ} (hc : .task c ∈ (s'.chan c).senders) :
    (s'.pc c).holdsTx = true := by
  have hold := @h.scope c
  cases m with
  | occupied hp hk =>
    have hne := h.entry_ne hp hk
    simp only [goto, onChan, Function.update_apply] at hc ⊢
    grind [Pc.holdsTx]
  | _ =>
    simp only [goto, onChan, Function.update_apply, task_mem_senders_removeEntry, removeEntry_pc] at hc ⊢
    grind [Pc.holdsTx]

theorem Moves.orderly_pos (m : Moves s o s') (h : OrderlyInv s) {t c : τ} {k : K} {p : ℕ}
    (ht : s'.pc t = .waiting k c p) : p ≤ (s'.chan c).sent.length := by
  have hold := @h.pos
  cases m with
  | @vacant u k' hp hk =>
    -- nobody waits on a channel before it is opened
    have hnew : ∀ {w k p}, s.pc w ≠ .waiting k u p := fun {w k p} hw => by
      have hin := (h.follows (t := w) (k := k) (c := u) (by rw [hw]; rfl)).2
      simpa [hp, Pc.early] using h.opened hin
    simp only [goto, onChan, Function.update_apply] at ht ⊢
    grind
  | _ =>
    simp only [goto, onChan, Function.update_apply, removeEntry_pc, removeEntry_sent] at ht ⊢
    grind [Broadcast.subscribe]

theorem Moves.drain (m : Moves s o s') (ho : Orderly s o) (h : OrderlyInv s) {t c : τ} (hs : (s'.pc c).willSend = false)
    (hc : .task t ∈ (s'.chan c).senders) (hne : t ≠ c) :
    ∃ k p, s'.pc t = .waiting k c p ∧ p < (s'.chan c).sent.length := by
  have hold := @h.drain t c
  have hheld := @h.held t c
  have hpos := @h.pos t
  cases m with
  | @dropTx u k e hp | @finish u k v hp =>
    have hw : (s.pc u).willSend = false := by rw [hp]; rfl
    simp only [goto, onChan, Function.update_apply] at hs hc ⊢
    grind
  | @send u k v hp =>
    -- the subscribed callers get the value, and no other holds a clone
    simp only [goto, onChan, Function.update_apply, Orderly] at ho hs hc ⊢
    grind [Pc.willSend]
  | _ =>
    simp only [goto, onChan, Function.update_apply, task_mem_senders_removeEntry, removeEntry_pc, removeEntry_sent,
      Orderly, target] at ho hs hc ⊢
    grind [Pc.willSend, Pc.leads]

end

theorem step_orderlyInv (s : St τ K V ε) (o : Op τ K V ε) (ho : Orderly s o) (h : OrderlyInv s) :
    OrderlyInv (step s o) := by
  rcases step_moves s o with e | m
  · rwa [e]
  · have hc : ∀ t, o = .cancel t → (s.pc t).leads = none := by rintro t rfl; exact ho
    exact ⟨m.inv h.toInv, m.leader hc h.toInv h.leader, m.stored h, m.held h, m.scope h, m.orderly_pos h, m.drain ho h⟩

omit [DecidableEq τ] [DecidableEq K] in
theorem orderlyInv_init : OrderlyInv (init : St τ K V ε) where
  toInv := inv_init
  leader h := by cases h
  stored h := by cases h
  held h := by cases h
  scope h := by cases h
  pos h := by cases h
  drain _ h := by cases h

/-- the holder of a clone drops it without waiting: a leader past its send or failure, or a caller with a value -/
def Releasing (s : St τ K V ε) (c : τ) : Owner τ → Prop
  | .map => (s.pc c).leads ≠ none
  | .task t => t = c ∧ (s.pc c).holdsTx = true ∨ ∃ k p v, s.pc t = .waiting k c p ∧ (s.chan c).recv p = .ready v

/-- **Waiters are released.** In an orderly run a waiting caller has a pending value or a leader that will still send,
or every sender left is about to be dropped. -/
theorem waiters_released {ops : List (Op τ K V ε)} (hops : Every step Orderly init ops) :
    let s := run step init ops
    ∀ t k c p, s.pc t = .waiting k c p → (∃ v, (s.chan c).recv p = .ready v) ∨ (s.pc c).willSend = true ∨
      ∀ o ∈ (s.chan c).senders, Releasing s c o := by
  intro s t k c p ht
  have h : OrderlyInv s := run_inv_of_every step_orderlyInv orderlyInv_init hops
  rcases hw : (s.pc c).willSend with _ | _
  · refine .inr (.inr fun o ho => ?_)
    cases o with
    | map =>
      obtain ⟨k', hk'⟩ := h.stored ho
      simp [Releasing, h.leader hk']
    | task u =>
      by_cases huc : u = c
      · exact .inl ⟨huc, h.scope (huc ▸ ho)⟩
      · obtain ⟨k', q, hq, hlt⟩ := h.drain hw ho huc
        exact .inr ⟨k', q, _, hq, Broadcast.recv_eq_ready.2 (List.getElem?_eq_getElem hlt)⟩
  · exact .inr (.inl rfl)

end Lumiere.DataServices.CoalescingCache
