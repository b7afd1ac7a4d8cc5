/-
`DataService::get_or_fetch` beside a writer that updates the database and calls `invalidate`
(`lumiere-data-services/src/cache.rs`, `redis_cache.rs`). A call asks Redis, then joins the fetch that
`CoalescingCache` has in flight or leads one: it reads the database, stores the value in Redis and returns it. Redis
commands, reads and writes are atomic; entries do not expire.

Ghost state: whether a value was read after the update, and the calls that had started when the key was deleted.

- `invalidation_effective`: the invalidation is effective in every run in which no fetch holds a value read before the
  update when the key is deleted.
- `prompt_iff`: where one holds such a value then, it can still store it.
- `stored_late`: a fetch that reads before the update and stores after the key was deleted.
-/
import Lumiere.DataServices.Coalescing

namespace Lumiere.DataServices.DataService

open Lumiere.Core

variable {τ K V : Type}

/-! ## Model -/

structure Service (K : Type) where
  keyPrefix : String
  maxInFlight : ℕ
  toString : K → String

/-- `prefixed_key` of the key -/
def Service.redisKey (S : Service K) (k : K) : String := S.keyPrefix ++ S.toString k

structure Cached (V : Type) where
  value : V
  afterUpdate : Bool
deriving DecidableEq, Repr

inductive Pc (K V : Type) where
  | idle
  /-- at `redis.get` -/
  | start (k : K)
  | missed (k : K)
  /-- in `coalescing.get_or_fetch` -/
  | coalescing (k : K)
  | done (k : K) (r : Except (DataServiceError String) V)
  | dropped (k : K)
deriving DecidableEq

def Pc.isIdle : Pc K V → Bool
  | .idle => true
  | _ => false

/-- the closure that a leader runs -/
inductive Closure (V : Type) where
  /-- at `fetch` -/
  | fetch
  /-- at `redis.set` -/
  | set (e : Cached V)
  | stored (e : Cached V)
deriving DecidableEq

inductive Writer where
  | idle
  | updated
  | invalidated
  | failed
deriving DecidableEq, Repr

structure St (τ K V : Type) where
  coalescing : CoalescingCache.St τ K V String
  pc : τ → Pc K V
  closure : τ → Closure V
  redis : String → Option (Cached V)
  db : K → V
  writer : Writer
  /-- the calls that had started when the key was deleted -/
  before : τ → Bool

inductive Op (τ K V : Type) where
  | call (t : τ) (k : K)
  | get (t : τ)
  | getFails (t : τ)
  /-- `count` is what `in_flight_count` says -/
  | guard (t : τ) (count : ℕ)
  | coalesce (o : CoalescingCache.Op τ K V String)
  | read (t : τ)
  | readFails (t : τ) (e : String)
  | set (t : τ)
  | setFails (t : τ)
  /-- the closure returns -/
  | fetched (t : τ)
  | cancel (t : τ)
  | update (v : V)
  | delete
  | deleteFails

/-- the steps that `CoalescingCache` takes by itself -/
def isInternal : CoalescingCache.Op τ K V String → Bool
  | .call .. | .fetchOk .. | .fetchErr .. => false
  | _ => true

def init (redis : String → Option V) (db : K → V) : St τ K V where
  coalescing := CoalescingCache.init
  pc _ := .idle
  closure _ := .fetch
  redis rk := (redis rk).map fun v => ⟨v, false⟩
  db
  writer := .idle
  before _ := false

variable [DecidableEq τ] [DecidableEq K]

def goto (s : St τ K V) (t : τ) (p : Pc K V) : St τ K V := { s with pc := Function.update s.pc t p }

def toClosure (s : St τ K V) (t : τ) (c : Closure V) : St τ K V := { s with closure := Function.update s.closure t c }

def coalesce (s : St τ K V) (o : CoalescingCache.Op τ K V String) : St τ K V :=
  { s with coalescing := CoalescingCache.step s.coalescing o }

def setRedis (s : St τ K V) (rk : String) (e : Option (Cached V)) : St τ K V :=
  { s with redis := Function.update s.redis rk e }

/-- where the closure of a leader is, and its key -/
def fetching (s : St τ K V) (t : τ) : Option (K × Closure V) :=
  match s.coalescing.pc t with
  | .fetching k => some (k, s.closure t)
  | _ => none

variable (S : Service K) (key : K)

/-- the writer is about `key` -/
def step (s : St τ K V) : Op τ K V → St τ K V
  | .call t k =>
    match s.pc t with
    | .idle => goto s t (.start k)
    | _ => s
  | .get t =>
    match s.pc t with
    | .start k =>
      match s.redis (S.redisKey k) with
      | some e => goto s t (.done k (.ok e.value))
      | none => goto s t (.missed k)
    | _ => s
  | .getFails t =>
    match s.pc t with
    | .start k => goto s t (.missed k)
    | _ => s
  | .guard t count =>
    match s.pc t with
    | .missed k =>
      if 0 < S.maxInFlight ∧ S.maxInFlight ≤ count then goto s t (.done k (.error (.fetch "too many in-flight requests")))
      else coalesce (goto s t (.coalescing k)) (.call t k)
    | _ => s
  | .coalesce o => if isInternal o then coalesce s o else s
  | .read t =>
    match fetching s t with
    | some (k, .fetch) => toClosure s t (.set ⟨s.db k, s.writer ≠ .idle⟩)
    | _ => s
  | .readFails t e =>
    match fetching s t with
    | some (_, .fetch) => coalesce s (.fetchErr t e)
    | _ => s
  | .set t =>
    match fetching s t with
    | some (k, .set e) => setRedis (toClosure s t (.stored e)) (S.redisKey k) (some e)
    | _ => s
  | .setFails t =>
    match fetching s t with
    | some (_, .set e) => toClosure s t (.stored e)
    | _ => s
  | .fetched t =>
    match fetching s t with
    | some (_, .stored e) => coalesce s (.fetchOk t e.value)
    | _ => s
  | .cancel t =>
    match s.pc t with
    | .start k => goto s t (.dropped k)
    | _ => s
  | .update v =>
    match s.writer with
    | .idle => { s with db := Function.update s.db key v, writer := .updated }
    | _ => s
  | .delete =>
    match s.writer with
    | .updated =>
      { setRedis s (S.redisKey key) none with writer := .invalidated, before := fun t => !(s.pc t).isIdle }
    | _ => s
  | .deleteFails =>
    match s.writer with
    | .updated => { s with writer := .failed }
    | _ => s

/-! ## What is claimed, and of which runs -/

/-- the call has returned or was dropped -/
def finished (s : St τ K V) (t : τ) : Bool :=
  match s.pc t with
  | .done .. | .dropped _ => true
  | .coalescing _ =>
    match s.coalescing.pc t with
    | .done .. | .dropped _ => true
    | _ => false
  | _ => false

/-- `invalidate` has returned, and so has every call that had started before -/
def Settled (s : St τ K V) : Prop := s.writer = .invalidated ∧ ∀ t, s.before t = true → finished s t = true

/-- Redis holds nothing or a value read after the update -/
def Effective (s : St τ K V) : Prop := Settled s → ∀ e ∈ s.redis (S.redisKey key), e.afterUpdate = true

/-- what the step stores under the key -/
def stores (s : St τ K V) : Op τ K V → Option (Cached V)
  | .set t =>
    match fetching s t with
    | some (k, .set e) => if S.redisKey k = S.redisKey key then some e else none
    | _ => none
  | _ => none

/-! ## One step -/

/-- the step deletes the key -/
def deletes (s : St τ K V) : Op τ K V → Bool
  | .delete => s.writer = .updated
  | _ => false

variable {S} {key} {s : St τ K V} {o : Op τ K V}

theorem redis_step : (step S key s o).redis (S.redisKey key) =
    if deletes s o then none else (stores S key s o).or (s.redis (S.redisKey key)) := by
  cases o <;> unfold step deletes stores <;> dsimp only
  case set t =>
    rcases fetching s t with _ | ⟨k, _ | e | e⟩ <;> try rfl
    by_cases hk : S.redisKey k = S.redisKey key
    · simp [setRedis, toClosure, hk]
    · simp [setRedis, toClosure, hk, Function.update_of_ne (Ne.symm hk)]
  case delete => cases hw : s.writer <;> simp [setRedis]
  case coalesce o => cases isInternal o <;> rfl
  case guard t count =>
    split
    · split <;> rfl
    · rfl
  case get t =>
    split
    · split <;> rfl
    · rfl
  all_goals split <;> rfl

/-- only the writer's own steps move it -/
theorem writer_step : (step S key s o).writer = .invalidated ↔ s.writer = .invalidated ∨ deletes s o = true := by
  cases o <;> unfold step deletes <;> dsimp only
  case delete => cases hw : s.writer <;> simp [hw]
  case update v => cases hw : s.writer <;> simp [hw]
  case deleteFails => cases hw : s.writer <;> simp [hw]
  case coalesce o => split_ifs <;> simp [coalesce]
  case guard t count =>
    split
    · split_ifs <;> simp [coalesce, goto]
    · simp
  case get t =>
    split
    · split <;> simp [goto]
    · simp
  all_goals split <;> simp [goto, toClosure, setRedis, coalesce]

/-- Redis holds a value read before the update -/
def Stale (S : Service K) (key : K) (s : St τ K V) : Prop := ∃ e ∈ s.redis (S.redisKey key), e.afterUpdate = false

/-! ## When the key is deleted -/

section Coalescing

variable {c : CoalescingCache.St τ K V String} {o : CoalescingCache.Op τ K V String} {t : τ}

theorem early_of_step (h : ((CoalescingCache.step c o).pc t).early = true) : (c.pc t).early = true := by
  rcases CoalescingCache.step_moves c o with e | m
  · rwa [e] at h
  generalize CoalescingCache.step c o = c' at m h
  cases m <;> simp only [CoalescingCache.goto, CoalescingCache.onChan, CoalescingCache.removeEntry,
    Function.update_apply] at h <;> grind [CoalescingCache.Pc.early]

/-- a task that leads led before, or had not found an entry -/
theorem fetching_of_step {k : K} (h : (CoalescingCache.step c o).pc t = .fetching k) :
    c.pc t = .fetching k ∨ (c.pc t).early = true := by
  rcases CoalescingCache.step_moves c o with e | m
  · rw [e] at h
    exact .inl h
  generalize CoalescingCache.step c o = c' at m h
  cases m <;> simp only [CoalescingCache.goto, CoalescingCache.onChan, CoalescingCache.removeEntry,
    Function.update_apply] at h <;> grind [CoalescingCache.Pc.early]

end Coalescing

omit [DecidableEq τ] [DecidableEq K] in
theorem fetching_eq_some {t : τ} {k : K} {c : Closure V} :
    fetching s t = some (k, c) ↔ s.coalescing.pc t = .fetching k ∧ s.closure t = c := by
  unfold fetching
  split
  · rename_i k' h
    rw [h]
    simp
  · rename_i h
    simp only [reduceCtorEq, false_iff]
    exact fun hpc => h k hpc.1

/-- a step of `CoalescingCache`, a step of a leader's closure, or neither -/
theorem step_parts (S : Service K) (key : K) (s : St τ K V) (o : Op τ K V) :
    (∃ o', (step S key s o).coalescing = CoalescingCache.step s.coalescing o' ∧ (step S key s o).closure = s.closure) ∨
    ((step S key s o).coalescing = s.coalescing ∧ (step S key s o).closure = s.closure) ∨
    ∃ t k c, s.coalescing.pc t = .fetching k ∧ (step S key s o).coalescing = s.coalescing ∧
      (step S key s o).closure = Function.update s.closure t c ∧
        ∀ e, c = .set e → e.afterUpdate = decide (s.writer ≠ .idle) := by
  cases o <;> unfold step <;> dsimp only
  case read t =>
    split
    · exact .inr (.inr ⟨t, _, _, (fetching_eq_some.1 ‹_›).1, rfl, rfl, by rintro e ⟨⟩; rfl⟩)
    · exact .inr (.inl ⟨rfl, rfl⟩)
  case set t =>
    split
    · exact .inr (.inr ⟨t, _, _, (fetching_eq_some.1 ‹_›).1, rfl, rfl, nofun⟩)
    · exact .inr (.inl ⟨rfl, rfl⟩)
  case setFails t =>
    split
    · exact .inr (.inr ⟨t, _, _, (fetching_eq_some.1 ‹_›).1, rfl, rfl, nofun⟩)
    · exact .inr (.inl ⟨rfl, rfl⟩)
  case coalesce o => split <;> [exact .inl ⟨o, rfl, rfl⟩; exact .inr (.inl ⟨rfl, rfl⟩)]
  case readFails t e => split <;> [exact .inl ⟨.fetchErr t e, rfl, rfl⟩; exact .inr (.inl ⟨rfl, rfl⟩)]
  case fetched t => split <;> [exact .inl ⟨.fetchOk t _, rfl, rfl⟩; exact .inr (.inl ⟨rfl, rfl⟩)]
  case guard t count =>
    split
    · split <;> [exact .inr (.inl ⟨rfl, rfl⟩); exact .inl ⟨.call t _, rfl, rfl⟩]
    · exact .inr (.inl ⟨rfl, rfl⟩)
  case get t =>
    split
    · split <;> exact .inr (.inl ⟨rfl, rfl⟩)
    · exact .inr (.inl ⟨rfl, rfl⟩)
  all_goals split <;> exact .inr (.inl ⟨rfl, rfl⟩)

/-- a task that is not leading has read nothing yet -/
structure Inv (s : St τ K V) : Prop where
  coalescing : CoalescingCache.Inv s.coalescing
  closure : ∀ t, (s.coalescing.pc t).early = true → s.closure t = .fetch

theorem step_inv (s : St τ K V) (o : Op τ K V) (h : Inv s) : Inv (step S key s o) := by
  rcases step_parts S key s o with ⟨o', hcoalescing, hclosure⟩ | ⟨hcoalescing, hclosure⟩ |
    ⟨t, k, c, hpc, hcoalescing, hclosure, -⟩
  · refine ⟨?_, fun t ht => ?_⟩
    · rw [hcoalescing]
      exact CoalescingCache.step_inv _ _ h.coalescing
    · rw [hcoalescing] at ht
      rw [hclosure]
      exact h.closure t (early_of_step ht)
  · exact ⟨hcoalescing ▸ h.coalescing, by rw [hcoalescing, hclosure]; exact h.closure⟩
  · refine ⟨hcoalescing ▸ h.coalescing, fun u hu => ?_⟩
    rw [hcoalescing] at hu
    have hne : u ≠ t := by
      rintro rfl
      rw [hpc] at hu
      cases hu
    rw [hclosure, Function.update_of_ne hne]
    exact h.closure u hu

theorem reachable_inv (redis : String → Option V) (db : K → V) (ops : List (Op τ K V)) :
    Inv (run (step S key) (init redis db) ops) :=
  run_inv step_inv ⟨CoalescingCache.inv_init, fun _ _ => rfl⟩ ops

/-- no fetch is about to store a value read before the update -/
def Prompt (S : Service K) (key : K) (s : St τ K V) : Prop :=
  ∀ t k e, fetching s t = some (k, .set e) → S.redisKey k = S.redisKey key → e.afterUpdate = true

theorem step_prompt (h : Inv s) (hwriter : s.writer ≠ .idle) (hprompt : Prompt S key s) :
    Prompt S key (step S key s o) := by
  intro t k e hfetching hk
  obtain ⟨hpc, hset⟩ := fetching_eq_some.1 hfetching
  rcases step_parts S key s o with ⟨o', hcoalescing, hclosure⟩ | ⟨hcoalescing, hclosure⟩ |
    ⟨u, k', c, hpc', hcoalescing, hclosure, hread⟩
  · rw [hclosure] at hset
    rw [hcoalescing] at hpc
    rcases fetching_of_step hpc with hpc | hearly
    · exact hprompt t k e (fetching_eq_some.2 ⟨hpc, hset⟩) hk
    · rw [h.closure t hearly] at hset
      cases hset
  · rw [hclosure] at hset
    rw [hcoalescing] at hpc
    exact hprompt t k e (fetching_eq_some.2 ⟨hpc, hset⟩) hk
  · rw [hcoalescing] at hpc
    rw [hclosure] at hset
    by_cases htu : t = u
    · subst htu
      rw [Function.update_self] at hset
      rw [hread e hset]
      exact decide_eq_true hwriter
    · rw [Function.update_of_ne htu] at hset
      exact hprompt t k e (fetching_eq_some.2 ⟨hpc, hset⟩) hk

/-- the key was deleted in time -/
structure Clean (S : Service K) (key : K) (s : St τ K V) : Prop extends Inv s where
  writer : s.writer = .invalidated
  prompt : Prompt S key s
  fresh : ¬ Stale S key s

omit [DecidableEq τ] [DecidableEq K] in
theorem Prompt.stores {e : Cached V} (h : Prompt S key s) (he : e ∈ stores S key s o) : e.afterUpdate = true := by
  cases o with
  | set t =>
    simp only [DataService.stores, Option.mem_def] at he
    split at he
    · rename_i k e' hfetching
      split_ifs at he with hk
      obtain rfl := Option.some.inj he
      exact h t k e' hfetching hk
    · cases he
  | _ => cases he

theorem step_clean (h : Clean S key s) : Clean S key (step S key s o) where
  toInv := step_inv s o h.toInv
  writer := writer_step.2 (.inl h.writer)
  prompt := step_prompt h.toInv (by rw [h.writer]; exact nofun) h.prompt
  fresh := by
    rintro ⟨e, he, hstale⟩
    rw [redis_step] at he
    split_ifs at he
    · cases he
    · rcases hstore : stores S key s o with _ | e'
      · rw [hstore, Option.none_or] at he
        exact h.fresh ⟨e, he, hstale⟩
      · rw [hstore, Option.some_or] at he
        obtain rfl := Option.some.inj he
        rw [h.prompt.stores hstore] at hstale
        cases hstale

theorem clean_delete (h : Inv s) (hdelete : deletes s o = true) (hprompt : Prompt S key s) :
    Clean S key (step S key s o) where
  toInv := step_inv s o h
  writer := writer_step.2 (.inr hdelete)
  prompt := by
    refine step_prompt h ?_ hprompt
    cases o with
    | delete =>
      rw [of_decide_eq_true hdelete]
      exact nofun
    | _ => cases hdelete
  fresh := by
    rintro ⟨e, he, -⟩
    rw [redis_step, if_pos hdelete] at he
    cases he

/-- once the key was deleted, it was deleted in time -/
structure Kept (S : Service K) (key : K) (s : St τ K V) : Prop extends Inv s where
  clean : s.writer = .invalidated → Clean S key s

theorem step_kept (s : St τ K V) (o : Op τ K V) (hprompt : deletes s o = true → Prompt S key s) (h : Kept S key s) :
    Kept S key (step S key s o) where
  toInv := step_inv s o h.toInv
  clean := by
    intro hwriter
    rcases writer_step.1 hwriter with hbefore | hdelete
    · exact step_clean (h.clean hbefore)
    · exact clean_delete h.toInv hdelete (hprompt hdelete)

/-- **If no fetch holds a value read before the update when the key is deleted, the invalidation is effective.** -/
theorem invalidation_effective (S : Service K) (key : K) (redis : String → Option V) (db : K → V) (ops : List (Op τ K V))
    (h : Every (step S key) (fun s o => deletes s o = true → Prompt S key s) (init redis db) ops) :
    Effective S key (run (step S key) (init redis db) ops) := by
  have hinit : Kept S key (init redis db : St τ K V) := ⟨⟨CoalescingCache.inv_init, fun _ _ => rfl⟩, by rintro ⟨⟩⟩
  have hkept := run_inv_of_every step_kept hinit h
  intro hsettled e he
  rw [← Bool.not_eq_false]
  exact fun hstale => (hkept.clean hsettled.1).fresh ⟨e, he, hstale⟩

def sample : Service Unit := ⟨"cache:", 10, fun _ => "user:1"⟩

/-- the first call stores before the key is deleted, the second asks afterwards -/
def storedInTimeTrace : List (Op (Fin 2) Unit ℕ) :=
  [.call 0 (), .get 0, .guard 0 0, .coalesce (.lookup 0), .coalesce (.entry 0), .read 0, .set 0, .update 1, .delete,
    .fetched 0, .coalesce (.send 0), .coalesce (.remove 0), .coalesce (.finish 0),
    .call 1 (), .get 1, .guard 1 0, .coalesce (.lookup 1), .coalesce (.entry 1), .read 1, .set 1]

theorem stored_in_time :
    let s := run (step sample ()) (init (fun _ => none) fun _ => 0) storedInTimeTrace
    Settled s ∧ Effective sample () s ∧ s.redis (sample.redisKey ()) = some ⟨1, true⟩ := by
  refine ⟨⟨by decide, by decide⟩, invalidation_effective sample () _ _ storedInTimeTrace ?_, by decide⟩
  have hdeleted : ∀ t, fetching (run (step sample ()) (init (fun _ => none) fun _ => 0) (storedInTimeTrace.take 8)) t ∈
      [some ((), .stored ⟨0, false⟩), none] := by decide
  have hprompt : Prompt sample () (run (step sample ()) (init (fun _ => none) fun _ => 0) (storedInTimeTrace.take 8)) := by
    intro t k e hfetching
    have hlist := hdeleted t
    rw [hfetching] at hlist
    simp at hlist
  refine ⟨?_, ?_, ?_, ?_, ?_, ?_, ?_, ?_, fun _ => hprompt, ?_, ?_, ?_, ?_, ?_, ?_, ?_, ?_, ?_, ?_, ?_, trivial⟩ <;>
    rintro ⟨⟩

/-- **Of the fetches in flight when the key is deleted, whatever follows.** Where one holds a value read before the
update, Redis may come to hold that value. -/
theorem prompt_iff (S : Service K) (key : K) (redis : String → Option V) (db : K → V) (ops : List (Op τ K V))
    (hwriter : (run (step S key) (init redis db) ops).writer = .updated) :
    Prompt S key (run (step S key) (init redis db) ops) ↔
      ∀ later, ¬ Stale S key (run (step S key) (init redis db) (ops ++ .delete :: later)) := by
  have hinv : Inv (run (step S key) (init redis db) ops) := reachable_inv redis db ops
  generalize hs : run (step S key) (init redis db) ops = s at hwriter hinv
  simp only [run_append, run_cons, hs]
  constructor
  · intro hprompt later
    have hclean : Clean S key (step S key s .delete) := clean_delete hinv (decide_eq_true hwriter) hprompt
    exact (run_inv (fun _ _ => step_clean) hclean later).fresh
  · intro hnever t k e hfetching hk
    by_contra hstale
    refine hnever [.set t] ⟨e, ?_, Bool.eq_false_iff.2 hstale⟩
    have hlater : fetching (step S key s .delete) t = some (k, .set e) := by
      rw [← hfetching]
      simp only [step, hwriter]
      rfl
    rw [run_cons, run_nil, redis_step, if_neg (by simp [deletes]), stores, hlater]
    simp [hk]

/-! ## A fetch that stores late -/

/-- a call reads the database before the update and stores after the key was deleted -/
def storedLateTrace : List (Op Unit Unit ℕ) :=
  [.call () (), .get (), .guard () 0, .coalesce (.lookup ()), .coalesce (.entry ()), .read (), .update 1, .delete, .set (),
    .fetched (), .coalesce (.send ()), .coalesce (.remove ()), .coalesce (.finish ())]

theorem stored_late :
    let s := run (step sample ()) (init (fun _ => none) fun _ => 0) storedLateTrace
    ¬ Effective sample () s ∧ s.redis (sample.redisKey ()) = some ⟨0, false⟩ ∧ s.db () = 1 := by
  have hsettled : Settled (run (step sample ()) (init (fun _ => none) fun _ => 0) storedLateTrace) :=
    ⟨by decide, fun () _ => by decide⟩
  have hredis : (run (step sample ()) (init (fun _ => none) fun _ => 0) storedLateTrace).redis (sample.redisKey ()) =
      some ⟨0, false⟩ := by decide
  exact ⟨fun h => absurd (h hsettled _ hredis) (by decide), hredis, by decide⟩

end Lumiere.DataServices.DataService
