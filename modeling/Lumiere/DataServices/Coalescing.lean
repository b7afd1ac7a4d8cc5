/-
`CoalescingCache::get_or_fetch` under any interleaving of its callers (`lumiere-data-services/src/coalescing.rs`).

A task is one call; tasks and keys are arbitrary types, and any number of calls may run. A step is one atomic action of
one task: a map operation, a subscription, a poll, the return of the fetch, the drop of a sender. `lookup` keeps the
guard of the fast path until `subscribe`, and a write to a guarded key waits. A leader opens one channel, which carries
its name; `in_flight` maps a key to the channel whose sender it stores.

Ghost state, written and never read by the code:
- `joined`: the channel whose entry a caller found;
- `fetchResult`: what a leader's fetch returned;
- `inserted`, `removals`: the entries inserted, and for each removal the entry it deleted.

`Inv` holds in every reachable state, cancellations included.
-/
import Mathlib.Logic.Function.Basic
import Lumiere.Core.Broadcast
import Lumiere.Core.Run

namespace Lumiere.DataServices

open Lumiere.Core

inductive DataServiceError (ε : Type) where
  | fetch (e : ε)
  | coalescingFailed
deriving DecidableEq, Repr

namespace CoalescingCache

variable {τ K V ε : Type}

/-! ## Model -/

/-- who holds a clone of a sender: the map entry, or a task in a local variable -/
inductive Owner (τ : Type) where
  | map
  | task (t : τ)
deriving DecidableEq, Repr

inductive Pc (τ K V ε : Type) where
  | idle
  | start (k : K)
  /-- fast path, the guard of the entry held -/
  | found (k : K) (c : τ)
  | slow (k : K)
  /-- slow path, holding its own clone of the sender -/
  | cloned (k : K) (c : τ)
  /-- at `rx.recv().await` -/
  | waiting (k : K) (c : τ) (pos : ℕ)
  /-- at `fetch().await` -/
  | fetching (k : K)
  | fetched (k : K) (v : V)
  | sent (k : K) (v : V)
  | removed (k : K) (v : V)
  | failed (k : K) (e : ε)
  | closing (k : K) (e : ε)
  | done (k : K) (r : Except (DataServiceError ε) V)
  /-- the future was dropped at its await point -/
  | dropped (k : K)
deriving DecidableEq

structure St (τ K V ε : Type) where
  inFlight : K → Option τ
  /-- the keys under a read guard, once for each guard -/
  guards : List K
  chan : τ → Broadcast (Owner τ) V
  pc : τ → Pc τ K V ε
  joined : τ → Option τ
  fetchResult : τ → Option (Except ε V)
  inserted : List (τ × K)
  removals : List (τ × K × Option τ)

inductive Op (τ K V ε : Type) where
  | call (t : τ) (k : K)
  | lookup (t : τ)
  | subscribe (t : τ)
  | entry (t : τ)
  | fetchOk (t : τ) (v : V)
  | fetchErr (t : τ) (e : ε)
  | send (t : τ)
  | dropTx (t : τ)
  | remove (t : τ)
  | finish (t : τ)
  | recv (t : τ)
  | cancel (t : τ)

def Op.isCancel : Op τ K V ε → Bool
  | .cancel _ => true
  | _ => false

def init : St τ K V ε := ⟨fun _ => none, [], fun _ => .empty, fun _ => .idle, fun _ => none, fun _ => none, [], []⟩

variable [DecidableEq τ] [DecidableEq K]

def goto (s : St τ K V ε) (t : τ) (p : Pc τ K V ε) : St τ K V ε := { s with pc := Function.update s.pc t p }

def onChan (s : St τ K V ε) (c : τ) (f : Broadcast (Owner τ) V → Broadcast (Owner τ) V) : St τ K V ε :=
  { s with chan := Function.update s.chan c (f (s.chan c)) }

/-- `in_flight.remove(&key)` and the drop of the sender it returns -/
def removeEntry (s : St τ K V ε) (t : τ) (k : K) : St τ K V ε :=
  { s with
    inFlight := Function.update s.inFlight k none
    chan := match s.inFlight k with
      | some c => Function.update s.chan c ((s.chan c).drop .map)
      | none => s.chan
    removals := s.removals ++ [(t, k, s.inFlight k)] }

def step (s : St τ K V ε) : Op τ K V ε → St τ K V ε
  | .call t k =>
    match s.pc t with
    | .idle => goto s t (.start k)
    | _ => s
  | .lookup t =>
    match s.pc t with
    | .start k =>
      match s.inFlight k with
      | some c =>
        goto { s with guards := k :: s.guards, joined := Function.update s.joined t (some c) } t (.found k c)
      | none => goto s t (.slow k)
    | _ => s
  | .subscribe t =>
    match s.pc t with
    | .found k c => goto { s with guards := s.guards.erase k } t (.waiting k c (s.chan c).subscribe)
    | .cloned k c => goto s t (.waiting k c (s.chan c).subscribe)
    | _ => s
  | .entry t =>
    match s.pc t with
    | .slow k =>
      if k ∈ s.guards then s
      else match s.inFlight k with
        | some c =>
          goto { onChan s c (·.clone (.task t)) with joined := Function.update s.joined t (some c) } t (.cloned k c)
        | none =>
          goto { onChan s t (fun _ => (Broadcast.empty.clone (.task t)).clone .map) with
            inFlight := Function.update s.inFlight k (some t), inserted := s.inserted ++ [(t, k)] } t (.fetching k)
    | _ => s
  | .fetchOk t v =>
    match s.pc t with
    | .fetching k => goto { s with fetchResult := Function.update s.fetchResult t (some (.ok v)) } t (.fetched k v)
    | _ => s
  | .fetchErr t e =>
    match s.pc t with
    | .fetching k => goto { s with fetchResult := Function.update s.fetchResult t (some (.error e)) } t (.failed k e)
    | _ => s
  | .send t =>
    match s.pc t with
    | .fetched k v => goto (onChan s t (·.send v)) t (.sent k v)
    | _ => s
  | .dropTx t =>
    match s.pc t with
    | .failed k e => goto (onChan s t (·.drop (.task t))) t (.closing k e)
    | _ => s
  | .remove t =>
    match s.pc t with
    | .sent k v => if k ∈ s.guards then s else goto (removeEntry s t k) t (.removed k v)
    | .closing k e => if k ∈ s.guards then s else goto (removeEntry s t k) t (.done k (.error (.fetch e)))
    | _ => s
  | .finish t =>
    match s.pc t with
    | .removed k v => goto (onChan s t (·.drop (.task t))) t (.done k (.ok v))
    | _ => s
  | .recv t =>
    match s.pc t with
    | .waiting k c pos =>
      match (s.chan c).recv pos with
      | .ready v => goto (onChan s c (·.drop (.task t))) t (.done k (.ok v))
      | .closed => goto (onChan s c (·.drop (.task t))) t (.done k (.error .coalescingFailed))
      | .pending => s
    | _ => s
  | .cancel t =>
    match s.pc t with
    | .fetching k => goto (onChan s t (·.drop (.task t))) t (.dropped k)
    | .waiting k c _ => goto (onChan s c (·.drop (.task t))) t (.dropped k)
    | _ => s

/-! ## What a step can do -/

/-- the steps that change the state -/
inductive Moves (s : St τ K V ε) : Op τ K V ε → St τ K V ε → Prop
  | call {t k} (hp : s.pc t = .idle) : Moves s (.call t k) (goto s t (.start k))
  | hit {t k c} (hp : s.pc t = .start k) (hk : s.inFlight k = some c) : Moves s (.lookup t)
      (goto { s with guards := k :: s.guards, joined := Function.update s.joined t (some c) } t (.found k c))
  | miss {t k} (hp : s.pc t = .start k) (hk : s.inFlight k = none) : Moves s (.lookup t) (goto s t (.slow k))
  | subscribeFast {t k c} (hp : s.pc t = .found k c) : Moves s (.subscribe t)
      (goto { s with guards := s.guards.erase k } t (.waiting k c (s.chan c).subscribe))
  | subscribeSlow {t k c} (hp : s.pc t = .cloned k c) : Moves s (.subscribe t)
      (goto s t (.waiting k c (s.chan c).subscribe))
  | occupied {t k c} (hp : s.pc t = .slow k) (hk : s.inFlight k = some c) : Moves s (.entry t)
      (goto { onChan s c (·.clone (.task t)) with joined := Function.update s.joined t (some c) } t (.cloned k c))
  | vacant {t k} (hp : s.pc t = .slow k) (hk : s.inFlight k = none) : Moves s (.entry t)
      (goto { onChan s t (fun _ => (Broadcast.empty.clone (.task t)).clone .map) with
        inFlight := Function.update s.inFlight k (some t), inserted := s.inserted ++ [(t, k)] } t (.fetching k))
  | fetchOk {t k v} (hp : s.pc t = .fetching k) : Moves s (.fetchOk t v)
      (goto { s with fetchResult := Function.update s.fetchResult t (some (.ok v)) } t (.fetched k v))
  | fetchErr {t k e} (hp : s.pc t = .fetching k) : Moves s (.fetchErr t e)
      (goto { s with fetchResult := Function.update s.fetchResult t (some (.error e)) } t (.failed k e))
  | send {t k v} (hp : s.pc t = .fetched k v) : Moves s (.send t) (goto (onChan s t (·.send v)) t (.sent k v))
  | dropTx {t k e} (hp : s.pc t = .failed k e) : Moves s (.dropTx t)
      (goto (onChan s t (·.drop (.task t))) t (.closing k e))
  | removeOk {t k v} (hp : s.pc t = .sent k v) : Moves s (.remove t) (goto (removeEntry s t k) t (.removed k v))
  | removeErr {t k e} (hp : s.pc t = .closing k e) : Moves s (.remove t)
      (goto (removeEntry s t k) t (.done k (.error (.fetch e))))
  | finish {t k v} (hp : s.pc t = .removed k v) : Moves s (.finish t)
      (goto (onChan s t (·.drop (.task t))) t (.done k (.ok v)))
  | ready {t k c pos v} (hp : s.pc t = .waiting k c pos) (hr : (s.chan c).recv pos = .ready v) : Moves s (.recv t)
      (goto (onChan s c (·.drop (.task t))) t (.done k (.ok v)))
  | closed {t k c pos} (hp : s.pc t = .waiting k c pos) (hr : (s.chan c).recv pos = .closed) : Moves s (.recv t)
      (goto (onChan s c (·.drop (.task t))) t (.done k (.error .coalescingFailed)))
  | cancelLeader {t k} (hp : s.pc t = .fetching k) : Moves s (.cancel t)
      (goto (onChan s t (·.drop (.task t))) t (.dropped k))
  | cancelCaller {t k c pos} (hp : s.pc t = .waiting k c pos) : Moves s (.cancel t)
      (goto (onChan s c (·.drop (.task t))) t (.dropped k))

theorem step_moves (s : St τ K V ε) (o : Op τ K V ε) : step s o = s ∨ Moves s o (step s o) := by
  cases o <;> unfold step <;> dsimp only
  case call => split <;> [exact .inr (.call ‹_›); exact .inl rfl]
  case lookup =>
    split
    · split <;> [exact .inr (.hit ‹_› ‹_›); exact .inr (.miss ‹_› ‹_›)]
    · exact .inl rfl
  case subscribe => split <;> [exact .inr (.subscribeFast ‹_›); exact .inr (.subscribeSlow ‹_›); exact .inl rfl]
  case entry =>
    split
    · split_ifs
      · exact .inl rfl
      · split <;> [exact .inr (.occupied ‹_› ‹_›); exact .inr (.vacant ‹_› ‹_›)]
    · exact .inl rfl
  case fetchOk => split <;> [exact .inr (.fetchOk ‹_›); exact .inl rfl]
  case fetchErr => split <;> [exact .inr (.fetchErr ‹_›); exact .inl rfl]
  case send => split <;> [exact .inr (.send ‹_›); exact .inl rfl]
  case dropTx => split <;> [exact .inr (.dropTx ‹_›); exact .inl rfl]
  case remove =>
    split
    · split_ifs <;> [exact .inl rfl; exact .inr (.removeOk ‹_›)]
    · split_ifs <;> [exact .inl rfl; exact .inr (.removeErr ‹_›)]
    · exact .inl rfl
  case finish => split <;> [exact .inr (.finish ‹_›); exact .inl rfl]
  case recv =>
    split
    · split <;> [exact .inr (.ready ‹_› ‹_›); exact .inr (.closed ‹_› ‹_›); exact .inl rfl]
    · exact .inl rfl
  case cancel => split <;> [exact .inr (.cancelLeader ‹_›); exact .inr (.cancelCaller ‹_›); exact .inl rfl]

/-! ## Invariant -/

namespace Pc

/-- the key whose entry the task has inserted and not yet removed -/
def leads : Pc τ K V ε → Option K
  | .fetching k | .fetched k _ | .sent k _ | .failed k _ | .closing k _ => some k
  | _ => none

/-- the key and channel a caller has found and not yet received from -/
def follows : Pc τ K V ε → Option (K × τ)
  | .found k c | .cloned k c | .waiting k c _ => some (k, c)
  | _ => none

/-- the channel a caller has found and not yet subscribed to -/
def unsubscribed : Pc τ K V ε → Option τ
  | .found _ c | .cloned _ c => some c
  | _ => none

/-- the call is neither a leader nor over -/
def early : Pc τ K V ε → Bool
  | .idle | .start _ | .found _ _ | .slow _ | .cloned _ _ | .waiting _ _ _ => true
  | _ => false

/-- the leader's local sender is still in scope -/
def holdsTx : Pc τ K V ε → Bool
  | .fetching _ | .fetched _ _ | .sent _ _ | .removed _ _ | .failed _ _ => true
  | _ => false

/-- the leader has yet to send, if its fetch succeeds -/
def willSend : Pc τ K V ε → Bool
  | .fetching _ | .fetched _ _ => true
  | _ => false

def running : Pc τ K V ε → Bool
  | .idle | .done _ _ | .dropped _ => false
  | _ => true

end Pc

/-- what a task's position says about its fetch and about what is sent on its channel -/
def ChanOk (f : Option (Except ε V)) (l : List V) : Pc τ K V ε → Prop
  | .fetched _ v => f = some (.ok v) ∧ l = []
  | .sent _ v | .removed _ v => f = some (.ok v) ∧ l = [v]
  | .failed _ e | .closing _ e => f = some (.error e) ∧ l = []
  | .done _ _ => (∃ v, f = some (.ok v) ∧ l = [v]) ∨ (∀ v, f ≠ some (.ok v)) ∧ l = []
  | _ => f = none ∧ l = []

structure Inv (s : St τ K V ε) : Prop where
  active : ∀ {t k}, (s.pc t).leads = some k → s.inFlight k = some t
  entry : ∀ {t k}, s.inFlight k = some t → (s.pc t).leads = some k ∨ s.pc t = .dropped k
  inserted : ∀ {t k}, s.inFlight k = some t → (t, k) ∈ s.inserted
  opened : ∀ {t k}, (t, k) ∈ s.inserted → (s.pc t).early = false
  once : ∀ {t k k'}, (t, k) ∈ s.inserted → (t, k') ∈ s.inserted → k = k'
  removals : ∀ {t k e}, (t, k, e) ∈ s.removals → e = some t ∧ (t, k) ∈ s.inserted
  follows : ∀ {t k c}, (s.pc t).follows = some (k, c) → s.joined t = some c ∧ (c, k) ∈ s.inserted
  chan : ∀ t, ChanOk (s.fetchResult t) (s.chan t).sent (s.pc t)
  own : ∀ {t}, (s.pc t).holdsTx = true → .task t ∈ (s.chan t).senders

omit [DecidableEq τ] [DecidableEq K] in
theorem inv_init : Inv (init : St τ K V ε) where
  active h := by cases h
  entry h := by cases h
  inserted h := by cases h
  opened h := by cases h
  once h := by cases h
  removals h := by cases h
  follows h := by cases h
  chan _ := ⟨rfl, rfl⟩
  own h := by cases h

omit [DecidableEq τ] [DecidableEq K] in
theorem Pc.early_of_follows {p : Pc τ K V ε} {k : K} {c : τ} (h : p.follows = some (k, c)) : p.early = true := by
  cases p <;> simp_all [follows, early]

omit [DecidableEq τ] [DecidableEq K] in
/-- a caller is not the leader it follows -/
theorem Inv.follows_ne {s : St τ K V ε} (h : Inv s) {t c : τ} {k : K} (hf : (s.pc t).follows = some (k, c)) :
    c ≠ t := by
  rintro rfl
  have he := h.opened (h.follows hf).2
  simp [Pc.early_of_follows hf] at he

section

variable (s : St τ K V ε) (t c u : τ) (k : K)

@[simp, grind =] theorem removeEntry_pc : (removeEntry s t k).pc = s.pc := rfl

@[simp, grind =] theorem removeEntry_joined : (removeEntry s t k).joined = s.joined := rfl

@[simp, grind =] theorem removeEntry_fetchResult : (removeEntry s t k).fetchResult = s.fetchResult := rfl

@[simp, grind =] theorem removeEntry_inserted : (removeEntry s t k).inserted = s.inserted := rfl

@[simp, grind =] theorem removeEntry_sent : ((removeEntry s t k).chan c).sent = (s.chan c).sent := by
  unfold removeEntry
  cases s.inFlight k <;> simp [Function.update_apply]
  split_ifs with h <;> simp [h]

@[simp, grind =] theorem task_mem_senders_removeEntry :
    .task u ∈ ((removeEntry s t k).chan c).senders ↔ .task u ∈ (s.chan c).senders := by
  unfold removeEntry
  cases s.inFlight k <;> simp [Function.update_apply]
  split_ifs with h <;> simp [h]

@[simp, grind =] theorem map_mem_senders_removeEntry :
    .map ∈ ((removeEntry s t k).chan c).senders ↔ .map ∈ (s.chan c).senders ∧ s.inFlight k ≠ some c := by
  unfold removeEntry
  cases hk : s.inFlight k <;> simp [Function.update_apply]
  split_ifs with h <;> simp [h, eq_comm]

end

section

variable {s s' : St τ K V ε} {o : Op τ K V ε}

theorem Moves.active (m : Moves s o s') (h : Inv s) {u : τ} {k' : K} (hu : (s'.pc u).leads = some k') :
    s'.inFlight k' = some u := by
  have hold := @h.active
  cases m with
  | @vacant t k hp hk =>
    -- the key was free, so nobody else leads it
    have hfree : ∀ {w}, (s.pc w).leads ≠ some k := fun hw => by simp [hold hw] at hk
    simp only [goto, onChan, Function.update_apply] at hu ⊢
    grind [Pc.leads]
  | @removeOk t k v hp =>
    have ht : s.inFlight k = some t := hold (by rw [hp]; rfl)
    simp only [goto, removeEntry, Function.update_apply] at hu ⊢
    grind [Pc.leads]
  | @removeErr t k e hp =>
    have ht : s.inFlight k = some t := hold (by rw [hp]; rfl)
    simp only [goto, removeEntry, Function.update_apply] at hu ⊢
    grind [Pc.leads]
  | _ =>
    simp only [goto, onChan, Function.update_apply] at hu ⊢
    grind [Pc.leads]

theorem Moves.entry (m : Moves s o s') (h : Inv s) {u : τ} {k' : K} (hu : s'.inFlight k' = some u) :
    (s'.pc u).leads = some k' ∨ s'.pc u = .dropped k' := by
  have hold := @h.entry
  cases m <;> simp only [goto, onChan, removeEntry, Function.update_apply] at hu ⊢ <;> grind [Pc.leads]

theorem Moves.inserted (m : Moves s o s') (h : Inv s) {u : τ} {k' : K} (hu : s'.inFlight k' = some u) :
    (u, k') ∈ s'.inserted := by
  have hold := @h.inserted
  cases m <;> simp only [goto, onChan, removeEntry, Function.update_apply] at hu ⊢ <;> grind

theorem Moves.opened (m : Moves s o s') (h : Inv s) {u : τ} {k' : K} (hu : (u, k') ∈ s'.inserted) :
    (s'.pc u).early = false := by
  have hold := @h.opened
  cases m <;> simp only [goto, onChan, removeEntry, Function.update_apply] at hu ⊢ <;> grind [Pc.early]

theorem Moves.once (m : Moves s o s') (h : Inv s) {u : τ} {k₁ k₂ : K} (h1 : (u, k₁) ∈ s'.inserted)
    (h2 : (u, k₂) ∈ s'.inserted) : k₁ = k₂ := by
  have hold := @h.once
  cases m with
  | @vacant t k hp hk =>
    -- `t` is about to insert its first entry
    have hnew : ∀ {k'}, (t, k') ∉ s.inserted := fun hin => by simpa [hp, Pc.early] using h.opened hin
    simp only [goto, onChan, List.mem_append, List.mem_singleton] at h1 h2
    grind
  | _ => exact hold h1 h2

/-- a leader removes the entry it inserted -/
theorem Moves.removals (m : Moves s o s') (h : Inv s) {u : τ} {k' : K} {e : Option τ} (hu : (u, k', e) ∈ s'.removals) :
    e = some u ∧ (u, k') ∈ s'.inserted := by
  have hold := @h.removals
  cases m with
  | @removeOk t k v hp =>
    have ht : s.inFlight k = some t := h.active (by rw [hp]; rfl)
    have := h.inserted ht
    simp only [goto, removeEntry, List.mem_append, List.mem_singleton] at hu ⊢
    grind
  | @removeErr t k x hp =>
    have ht : s.inFlight k = some t := h.active (by rw [hp]; rfl)
    have := h.inserted ht
    simp only [goto, removeEntry, List.mem_append, List.mem_singleton] at hu ⊢
    grind
  | vacant => exact ⟨(hold hu).1, List.mem_append_left _ (hold hu).2⟩
  | _ => exact hold hu

theorem Moves.follows (m : Moves s o s') (h : Inv s) {u c : τ} {k' : K} (hu : (s'.pc u).follows = some (k', c)) :
    s'.joined u = some c ∧ (c, k') ∈ s'.inserted := by
  have hold := @h.follows
  have hins := @h.inserted
  cases m <;> simp only [goto, onChan, removeEntry, Function.update_apply] at hu ⊢ <;> grind [Pc.follows]

theorem Moves.chan (m : Moves s o s') (h : Inv s) (u : τ) :
    ChanOk (s'.fetchResult u) (s'.chan u).sent (s'.pc u) := by
  have hold := h.chan u
  cases m <;> simp only [goto, onChan, Function.update_apply] <;> grind [ChanOk]

theorem Moves.own (m : Moves s o s') (h : Inv s) {u : τ} (hu : (s'.pc u).holdsTx = true) :
    .task u ∈ (s'.chan u).senders := by
  have hold := @h.own u
  have hne := @h.follows_ne
  cases m <;> simp only [goto, onChan, Function.update_apply] at hu ⊢ <;> grind [Pc.holdsTx, Pc.follows]

theorem Moves.inv (m : Moves s o s') (h : Inv s) : Inv s' :=
  ⟨m.active h, m.entry h, m.inserted h, m.opened h, m.once h, m.removals h, m.follows h, m.chan h, m.own h⟩

end

theorem step_inv (s : St τ K V ε) (o : Op τ K V ε) (h : Inv s) : Inv (step s o) := by
  rcases step_moves s o with e | m
  · rwa [e]
  · exact m.inv h

theorem reachable_inv (ops : List (Op τ K V ε)) : Inv (run step init ops) := run_inv step_inv inv_init ops

/-! ## Mutual exclusion of fetches -/

theorem step_not_dropped (s : St τ K V ε) (o : Op τ K V ε) (ho : o.isCancel = false)
    (h : ∀ t k, s.pc t ≠ .dropped k) (t : τ) (k : K) : (step s o).pc t ≠ .dropped k := by
  rcases step_moves s o with e | m
  · rw [e]; exact h t k
  generalize step s o = s' at m
  cases m with
  | cancelLeader | cancelCaller => cases ho
  | _ => simp only [goto, onChan, removeEntry, Function.update_apply]; grind

theorem not_dropped_of_no_cancel {ops : List (Op τ K V ε)} (hops : ∀ o ∈ ops, o.isCancel = false) :
    ∀ t k, (run step init ops).pc t ≠ .dropped k :=
  run_inv_of_every step_not_dropped (fun _ _ h => by cases h) (every_of_forall hops)

/-- **Mutual exclusion of fetches.** With no task cancelled, the entry of a key is that of the one task between its
insertion and its removal; a removal deletes the entry its own task inserted; no running call, no entry. -/
theorem fetches_exclusive (ops : List (Op τ K V ε)) (hops : ∀ o ∈ ops, o.isCancel = false) :
    let s := run step init ops
    (∀ k t u, (s.pc t).leads = some k → (s.pc u).leads = some k → t = u) ∧
    (∀ k t, s.inFlight k = some t ↔ (s.pc t).leads = some k) ∧
    (∀ t k e, (t, k, e) ∈ s.removals →
      e = some t ∧ (t, k) ∈ s.inserted ∧ ∀ k', (t, k') ∈ s.inserted → k' = k) ∧
    ((∀ t, (s.pc t).running = false) → ∀ k, s.inFlight k = none) := by
  intro s
  have h : Inv s := reachable_inv ops
  have hentry : ∀ k t, s.inFlight k = some t ↔ (s.pc t).leads = some k := fun k t =>
    ⟨fun hk => (h.entry hk).resolve_right (not_dropped_of_no_cancel hops t k), h.active⟩
  refine ⟨fun k t u ht hu => ?_, hentry, fun t k e hr => ?_, fun hidle k => ?_⟩
  · simpa [h.active ht] using h.active hu
  · obtain ⟨he, hin⟩ := h.removals hr
    exact ⟨he, hin, fun k' hin' => h.once hin' hin⟩
  · -- the task of an entry would still be running
    rcases hk : s.inFlight k with _ | t
    · rfl
    · have hl := (hentry k t).1 hk
      have hr := hidle t
      revert hl hr
      cases s.pc t <;> simp [Pc.leads, Pc.running]

/-- two keys, a caller that finds the leader's entry, and a second leader after the removal -/
def handOverTrace : List (Op ℕ ℕ ℕ String) :=
  [.call 0 5, .call 1 5, .call 2 6, .lookup 0, .lookup 1, .lookup 2, .entry 0, .entry 2, .entry 1, .subscribe 1,
    .fetchOk 0 7, .send 0, .remove 0, .call 3 5, .lookup 3, .entry 3, .recv 1, .finish 0]

theorem fetches_exclusive_hand_over :
    let s := run step init handOverTrace
    (s.inFlight 5 = some 3 ∧ s.inFlight 6 = some 2 ∧ s.removals = [(0, 5, some 0)]) ∧
    (∀ k t, s.inFlight k = some t ↔ (s.pc t).leads = some k) :=
  ⟨by decide, (fetches_exclusive handOverTrace (by decide)).2.1⟩

end CoalescingCache

end Lumiere.DataServices
