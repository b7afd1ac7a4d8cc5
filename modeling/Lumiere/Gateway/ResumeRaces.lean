/-
Resumes of one session side by side (`handle_resume` in `lumiere-gateway/src/handler.rs`). The record that lets a
session be resumed is read, checked and deleted by separate commands, and whether `DEL` found it does not matter.

The records of the session are numbered in the order in which connections store them; a request returns the number of
the record that it has read. Its token is valid. The replay and RESUMED cannot fail and touch neither the record nor the
manager; they are left out.

- `stage_advance`, `stage_programs`: a request in progress, named by what it sends next.
- `resumed_once`: of any number of resumes at most one succeeds for each record, as long as none finds a record that
  another one has read and not deleted yet.
- `resumed_twice_of_not_alone`: after any other turn both can succeed.
- `both_resumed`: two clients share a session id, which the user's list has twice.
-/
import Lumiere.Core.Pool
import Lumiere.Gateway.Registry
import Lumiere.Models.Snowflake

namespace Lumiere.Gateway.ResumeRaces

open Lumiere.Core Lumiere.Core.Prog Lumiere.Models

variable {ι : Type}

/-! ## Requests -/

/-- what the cleanup of a connection stores -/
structure Record where
  number : ℕ
  userId : String
deriving DecidableEq, Repr

abbrev GatewaySession (ι : Type) := Session String Snowflake ι

structure Shared (ι : Type) where
  /-- `gateway_session:{session_id}` -/
  record : Option Record
  /-- how many records have been stored -/
  stored : ℕ
  manager : Registry String Snowflake ι

inductive Command (ι : Type) where
  /-- `DEL gateway_session:{session_id}` -/
  | del
  | insert (session : GatewaySession ι)
  | push (userId : Snowflake) (sessionId : String)

def Command.exec : Command ι → Shared ι → Except String (ℕ × Shared ι)
  | .del, s => .ok (if s.record.isSome then 1 else 0, { s with record := none })
  | .insert session, s => .ok (0, { s with manager := s.manager.insert session })
  | .push userId sessionId, s => .ok (0, { s with manager := s.manager.push userId sessionId })

abbrev Call (ι : Type) := Prog (Shared ι) (Command ι) String

/-- once the record is deleted -/
def becomeSession (number : ℕ) (session : GatewaySession ι) : Call ι (ℕ × GatewaySession ι) := do
  execute (.insert session)
  execute (.push session.userId session.sessionId)
  let _servers ← select fun _ => ()
  let _dms ← select fun _ => ()
  pure (number, session)

def handleResume (session : GatewaySession ι) : Call ι (ℕ × GatewaySession ι) := do
  let sessionData ← select Shared.record
  let record ← orFail "Session expired" sessionData
  failIf (record.userId ≠ toString session.userId.value) "Session user mismatch"
  execute .del
  becomeSession record.number session

/-! ## Requests in progress -/

inductive Stage (ι : Type) where
  | get (session : GatewaySession ι)
  | del (number : ℕ) (session : GatewaySession ι)
  | insert (number : ℕ) (session : GatewaySession ι)
  | push (number : ℕ) (session : GatewaySession ι)
  | servers (number : ℕ) (session : GatewaySession ι)
  | dms (number : ℕ) (session : GatewaySession ι)
  | ok (number : ℕ) (session : GatewaySession ι)
  | failed (e : String)
deriving DecidableEq, Repr

namespace Stage

/-- what is left of the request -/
def prog : Stage ι → Call ι (ℕ × GatewaySession ι)
  | .get session => handleResume session
  | .del number session => do
    execute .del
    becomeSession number session
  | .insert number session => becomeSession number session
  | .push number session => do
    execute (.push session.userId session.sessionId)
    let _servers ← select fun _ => ()
    let _dms ← select fun _ => ()
    pure (number, session)
  | .servers number session => do
    let _servers ← select fun _ => ()
    let _dms ← select fun _ => ()
    pure (number, session)
  | .dms number session => do
    let _dms ← select fun _ => ()
    pure (number, session)
  | .ok number session => pure (number, session)
  | .failed e => fail e

def send : Command ι → Stage ι → Shared ι → Stage ι × Shared ι := Pool.send Command.exec .failed

def next : Stage ι → Shared ι → Stage ι × Shared ι
  | .get session, s =>
    (match s.record with
    | none => .failed "Session expired"
    | some record =>
      if record.userId ≠ toString session.userId.value then .failed "Session user mismatch"
      else .del record.number session, s)
  | .del number session, s => send .del (.insert number session) s
  | .insert number session, s => send (.insert session) (.push number session) s
  | .push number session, s => send (.push session.userId session.sessionId) (.servers number session) s
  | .servers number session, s => (.dms number session, s)
  | .dms number session, s => (.ok number session, s)
  | .ok number session, s => (.ok number session, s)
  | .failed e, s => (.failed e, s)

/-- the pending command fails -/
def stop (e : String) : Stage ι → Stage ι
  | .ok number session => .ok number session
  | .failed e' => .failed e'
  | _ => .failed e

/-- the record that the request has read -/
def read : Stage ι → Option ℕ
  | .get _ | .failed _ => none
  | .del number _ | .insert number _ | .push number _ | .servers number _ | .dms number _ | .ok number _ => some number

/-- the record that the request has read and is about to delete -/
def deletes : Stage ι → Option ℕ
  | .del number _ => some number
  | _ => none

end Stage

/-- **A stage and its program take the same steps.** -/
theorem stage_advance (t : Stage ι) (s : Shared ι) :
    t.prog.advance Command.exec s = ((t.next s).1.prog, (t.next s).2) := by
  cases t with
  | get session =>
    rw [Stage.next]
    show (orFail "Session expired" s.record >>= fun record => do
      failIf (record.userId ≠ toString session.userId.value) "Session user mismatch"
      (Stage.del record.number session).prog, s) = _
    rcases s.record with _ | record
    · rfl
    · show (failIf (record.userId ≠ toString session.userId.value) "Session user mismatch" >>= fun _ =>
        (Stage.del record.number session).prog, s) = _
      dsimp only
      rw [failIf]
      split_ifs <;> rfl
  | _ => rfl

theorem stage_interrupt (e : String) (t : Stage ι) : t.prog.interrupt e = (t.stop e).prog := by
  cases t <;> rfl

theorem eq_ok {t : Stage ι} {n : ℕ} {x : GatewaySession ι} (h : t.prog = pure (n, x)) : t = .ok n x := by
  cases t with
  | ok number session => cases h; rfl
  | _ => exact nomatch congrArg Prog.succeeded h

/-! ## Side by side -/

/-- what happens outside the requests -/
inductive Outside (ι : Type) where
  /-- the cleanup of a connection stores a record -/
  | store (userId : Snowflake)
  /-- the record expires -/
  | expire
  /-- other connections have called the manager -/
  | manager (r : Registry String Snowflake ι)

def Shared.outside (s : Shared ι) : Outside ι → Shared ι
  | .store userId => { s with record := some ⟨s.stored, toString userId.value⟩, stored := s.stored + 1 }
  | .expire => { s with record := none }
  | .manager manager => { s with manager }

section Pools

variable [DecidableEq ι] (e : String)

/-- one turn of the requests; `e` is what a failed command reports -/
def stageStep : Pool ι (Stage ι) (Shared ι) → Turn ι (Outside ι) → Pool ι (Stage ι) (Shared ι) :=
  Pool.step Stage.next (Stage.stop e) Shared.outside

def progStep : Pool ι (Call ι (ℕ × GatewaySession ι)) (Shared ι) → Turn ι (Outside ι) →
    Pool ι (Call ι (ℕ × GatewaySession ι)) (Shared ι) :=
  Pool.stepProg Command.exec e Shared.outside

/-- **A pool of stages runs as the pool of their programs.** -/
theorem stage_programs (s : Pool ι (Stage ι) (Shared ι)) (ts : List (Turn ι (Outside ι))) :
    run (progStep e) (s.map Stage.prog) ts = (run (stageStep e) s ts).map Stage.prog :=
  Pool.run_map Stage.prog stage_advance (stage_interrupt e) s ts

end Pools

/-! ## One record -/

/-- no request finds a record that another one has read and is about to delete -/
def Alone (s : Pool ι (Stage ι) (Shared ι)) : Turn ι (Outside ι) → Prop
  | .advance i =>
    match s.task i with
    | .get session => ∀ record ∈ s.shared.record, record.userId = toString session.userId.value →
      ∀ j, (s.task j).deletes ≠ some record.number
    | _ => True
  | _ => True

instance [Fintype ι] (s : Pool ι (Stage ι) (Shared ι)) : (t : Turn ι (Outside ι)) → Decidable (Alone s t)
  | .advance i => by
    rw [Alone]
    cases s.task i <;> dsimp only <;> infer_instance
  | .interrupt _ => isTrue trivial
  | .outside _ => isTrue trivial

/-- what one command of a request does to the record -/
structure Moves (t : Stage ι) (s : Shared ι) (t' : Stage ι) (s' : Shared ι) : Prop where
  record : ∀ record ∈ s'.record, record ∈ s.record
  stored : s'.stored = s.stored
  read : ∀ n, t'.read = some n → (t.read = some n ∧ (t.deletes = some n → s'.record = none)) ∨
    ∃ session record, t = .get session ∧ record ∈ s.record ∧ record.userId = toString session.userId.value ∧
      record.number = n ∧ t'.deletes = some n

theorem moves_next (t : Stage ι) (s : Shared ι) : Moves t s (t.next s).1 (t.next s).2 := by
  cases t with
  | get session =>
    refine ⟨fun _ hr => hr, rfl, fun n hn => ?_⟩
    simp only [Stage.next] at hn ⊢
    rcases hrecord : s.record with _ | record
    · rw [hrecord] at hn
      cases hn
    · rw [hrecord] at hn
      simp only at hn ⊢
      split_ifs at hn ⊢ with huser
      · cases hn
      · exact .inr ⟨session, record, rfl, rfl, not_not.1 huser, Option.some.inj hn, hn⟩
  | del number session => exact ⟨nofun, rfl, fun n hn => .inl ⟨hn, fun _ => rfl⟩⟩
  | _ => exact ⟨fun _ hr => hr, rfl, fun n hn => .inl ⟨hn, nofun⟩⟩

structure Inv (s : Pool ι (Stage ι) (Shared ι)) : Prop where
  one : ∀ i j n, (s.task i).read = some n → (s.task j).read = some n → i = j
  bound : ∀ i n, (s.task i).read = some n → n < s.shared.stored
  record : ∀ record ∈ s.shared.record, record.number < s.shared.stored
  deleted : ∀ i n, (s.task i).read = some n →
    (s.task i).deletes = some n ∨ ∀ record ∈ s.shared.record, record.number ≠ n

theorem stop_cases (e : String) (t : Stage ι) : t.stop e = t ∨ (t.stop e).read = none := by
  cases t with
  | ok number session => exact .inl rfl
  | _ => exact .inr rfl

section Runs

variable [DecidableEq ι] {e : String}

theorem advance_inv (s : Pool ι (Stage ι) (Shared ι)) (i : ι) (hok : Alone s (.advance i)) (h : Inv s) :
    Inv (stageStep e s (.advance i)) := by
  rcases hnext : (s.task i).next s.shared with ⟨t', s'⟩
  have hmoves : Moves (s.task i) s.shared t' s' := by
    have := moves_next (s.task i) s.shared
    rwa [hnext] at this
  -- a record that is read anew is read by nobody else
  have hother : ∀ n, t'.read = some n → ∀ j, j ≠ i → (s.task j).read ≠ some n := by
    intro n hn j hj hread
    rcases hmoves.read n hn with ⟨hmine, -⟩ | ⟨session, record, htask, hrecord, huser, rfl, -⟩
    · exact hj (h.one j i n hread hmine)
    · rw [Alone, htask] at hok
      rcases h.deleted j _ hread with hdel | hgone
      · exact hok record hrecord huser j hdel
      · exact hgone record hrecord rfl
  have htask : ∀ j, (stageStep e s (.advance i)).task j = if j = i then t' else s.task j := Pool.advance_task hnext
  have hshared : (stageStep e s (.advance i)).shared = s' := Pool.advance_shared hnext
  have hone : ∀ j k n, ((stageStep e s (.advance i)).task j).read = some n →
      ((stageStep e s (.advance i)).task k).read = some n → j = k := by
    intro j k n
    have hown : (stageStep e s (.advance i)).task i = t' := Pool.advance_own hnext
    refine Pool.sole_step (P := fun t : Stage ι => t.read = some n) (fun _ => Pool.advance_other)
      (fun j k => h.one j k n) (fun hn => hother n ?_) j k
    exact hown ▸ hn
  refine ⟨hone, fun j n => ?_, fun record hr => ?_, fun j n => ?_⟩
  · rw [htask, hshared, hmoves.stored]
    split_ifs
    · intro hn
      rcases hmoves.read n hn with ⟨hmine, -⟩ | ⟨session, record, -, hrecord, -, rfl, -⟩
      · exact h.bound i n hmine
      · exact h.record record hrecord
    · exact h.bound j n
  · rw [hshared] at hr ⊢
    rw [hmoves.stored]
    exact h.record record (hmoves.record record hr)
  · rw [htask, hshared]
    split_ifs
    · intro hn
      rcases hmoves.read n hn with ⟨hmine, hdel⟩ | ⟨session, record, -, -, -, -, hdel⟩
      · refine .inr fun record hr => ?_
        rcases h.deleted i n hmine with hdeletes | hgone
        · rw [hdel hdeletes] at hr
          cases hr
        · exact hgone record (hmoves.record record hr)
      · exact .inl hdel
    · exact fun hn => (h.deleted j n hn).imp_right fun hgone record hr => hgone record (hmoves.record record hr)

theorem stageStep_inv (s : Pool ι (Stage ι) (Shared ι)) (t : Turn ι (Outside ι)) (hok : Alone s t) (h : Inv s) :
    Inv (stageStep e s t) := by
  cases t with
  | advance i => exact advance_inv s i hok h
  | interrupt i =>
    have hsame : ∀ j n, ((stageStep e s (.interrupt i)).task j).read = some n →
        (stageStep e s (.interrupt i)).task j = s.task j := by
      intro j n hn
      have htask : (stageStep e s (.interrupt i)).task j = if j = i then (s.task i).stop e else s.task j :=
        Pool.interrupt_task j
      rw [htask] at hn ⊢
      split_ifs at hn ⊢ with hj
      · rcases stop_cases e (s.task i) with hstop | hstop
        · rw [hstop, hj]
        · rw [hstop] at hn
          cases hn
      · rfl
    refine ⟨fun j k n hj hk => ?_, fun j n hj => ?_, h.record, fun j n hj => ?_⟩
    · exact h.one j k n (hsame j n hj ▸ hj) (hsame k n hk ▸ hk)
    · exact h.bound j n (hsame j n hj ▸ hj)
    · rw [hsame j n hj]
      exact h.deleted j n (hsame j n hj ▸ hj)
  | outside o =>
    cases o with
    | store userId =>
      refine ⟨h.one, fun j n hj => (h.bound j n hj).trans (Nat.lt_succ_self _), fun record hr => ?_, fun j n hj => ?_⟩
      · obtain rfl := Option.some.inj hr
        exact Nat.lt_succ_self _
      · refine .inr fun record hr => ?_
        obtain rfl := Option.some.inj hr
        exact (h.bound j n hj).ne'
    | expire => exact ⟨h.one, h.bound, nofun, fun j n hj => .inr nofun⟩
    | manager r => exact ⟨h.one, h.bound, h.record, h.deleted⟩

/-- requests for one session id, before any record has been stored -/
def requests (sessionId : String) (users : ι → Snowflake) (manager : Registry String Snowflake ι) :
    Pool ι (Stage ι) (Shared ι) :=
  ⟨fun i => .get ⟨sessionId, users i, i⟩, ⟨none, 0, manager⟩⟩

omit [DecidableEq ι] in
theorem requests_inv (sessionId : String) (users : ι → Snowflake) (manager : Registry String Snowflake ι) :
    Inv (requests sessionId users manager) := ⟨nofun, nofun, nofun, nofun⟩

/-- **A record is good for one resume.** In a run of turns that are alone, of any number of requests for one session at
most one succeeds with each record that is stored. -/
theorem resumed_once (e sessionId : String) (users : ι → Snowflake) (manager : Registry String Snowflake ι)
    (ts : List (Turn ι (Outside ι))) (h : Every (stageStep e) Alone (requests sessionId users manager) ts) :
    let calls := run (progStep e)
      ⟨fun i => handleResume ⟨sessionId, users i, i⟩, (requests sessionId users manager).shared⟩ ts
    ∀ i j n x y, calls.task i = pure (n, x) → calls.task j = pure (n, y) → i = j := by
  intro calls i j n x y hi hj
  have hcalls : calls = (run (stageStep e) (requests sessionId users manager) ts).map Stage.prog :=
    stage_programs e (requests sessionId users manager) ts
  have hinv : Inv (run (stageStep e) (requests sessionId users manager) ts) :=
    run_inv_of_every stageStep_inv (requests_inv sessionId users manager) h
  rw [hcalls] at hi hj
  exact hinv.one i j n (by rw [eq_ok hi]; rfl) (by rw [eq_ok hj]; rfl)

theorem advance_task (s : Pool ι (Stage ι) (Shared ι)) (i j : ι) : (stageStep e s (.advance i)).task j =
    if j = i then ((s.task i).next s.shared).1 else s.task j := Function.update_apply ..

/-- a request that has read a record gets to its end if no command fails -/
theorem goes_on {s : Pool ι (Stage ι) (Shared ι)} {i : ι} {n : ℕ} {x : GatewaySession ι} (h : s.task i = .del n x) :
    (run (stageStep e) s (List.replicate 5 (.advance i))).task i = .ok n x ∧
      ∀ j, j ≠ i → (run (stageStep e) s (List.replicate 5 (.advance i))).task j = s.task j := by
  refine ⟨?_, fun j hj => ?_⟩
  · simp only [List.replicate, run_cons, run_nil, advance_task, if_true, h]
    rfl
  · simp only [List.replicate, run_cons, run_nil, advance_task, if_neg hj]

/-- **The condition is exact.** After a turn that is not alone, two requests can succeed with one record. -/
theorem resumed_twice_of_not_alone {s : Pool ι (Stage ι) (Shared ι)} {t : Turn ι (Outside ι)} (h : ¬ Alone s t) :
    ∃ ts i j n x y, i ≠ j ∧ (run (stageStep e) s (t :: ts)).task i = .ok n x ∧
      (run (stageStep e) s (t :: ts)).task j = .ok n y := by
  cases t with
  | advance i =>
    simp only [Alone] at h
    split at h
    · next session htask =>
      simp only [not_forall, not_not] at h
      obtain ⟨record, hrecord, huser, j, hj⟩ := h
      obtain ⟨y, hj⟩ : ∃ y, s.task j = .del record.number y := by
        cases hstage : s.task j with
        | del number y =>
          rw [hstage] at hj
          exact ⟨y, by rw [Option.some.inj hj]⟩
        | _ =>
          rw [hstage] at hj
          cases hj
      have hij : i ≠ j := by
        rintro rfl
        rw [htask] at hj
        cases hj
      have hread : (stageStep e s (.advance i)).task i = .del record.number session := by
        rw [advance_task, if_pos rfl, htask, Stage.next, hrecord]
        exact if_neg (not_not.2 huser)
      have hkeep : (stageStep e s (.advance i)).task j = .del record.number y :=
        (advance_task s i j).trans ((if_neg hij.symm).trans hj)
      obtain ⟨hfirst, hothers⟩ := goes_on (e := e) hread
      obtain ⟨hsecond, hothers'⟩ := goes_on (e := e) ((hothers j hij.symm).trans hkeep)
      refine ⟨List.replicate 5 (.advance i) ++ List.replicate 5 (.advance j), i, j, record.number, session, y, hij,
        ?_, ?_⟩
      · rw [run_cons, run_append, hothers' i hij]
        exact hfirst
      · rw [run_cons, run_append]
        exact hsecond
    · exact absurd trivial h
  | interrupt i => exact absurd trivial h
  | outside o => exact absurd trivial h

end Runs

/-! ## Two clients -/

/-- two clients of user 7, whose session has ended -/
def twoClients : Pool (Fin 2) (Stage (Fin 2)) (Shared (Fin 2)) :=
  requests "s" (fun _ => ⟨7⟩) ⟨fun _ => none, fun _ => none⟩

/-- the second client asks once the record is deleted -/
def oneAfterTheOther : List (Turn (Fin 2) (Outside (Fin 2))) :=
  .outside (.store ⟨7⟩) :: [.advance 0, .advance 0, .advance 1] ++ List.replicate 4 (.advance 0)

theorem resumed_once_oneAfterTheOther :
    let calls := run (progStep "lost") ⟨fun i => handleResume ⟨"s", ⟨7⟩, i⟩, twoClients.shared⟩ oneAfterTheOther
    ∀ i j n x y, calls.task i = pure (n, x) → calls.task j = pure (n, y) → i = j :=
  resumed_once "lost" "s" (fun _ => ⟨7⟩) ⟨fun _ => none, fun _ => none⟩ oneAfterTheOther (by decide)

/-- both clients read the record, then both go on -/
def bothAtOnce : List (Turn (Fin 2) (Outside (Fin 2))) :=
  .outside (.store ⟨7⟩) :: (List.replicate 6 [.advance 0, .advance 1]).flatten

/-- **One record, two resumed sessions.** Both have the same id, and the user's list has it twice. -/
theorem both_resumed :
    let calls := run (progStep "lost") ⟨fun i => handleResume ⟨"s", ⟨7⟩, i⟩, twoClients.shared⟩ bothAtOnce
    calls.task 0 = pure (0, ⟨"s", ⟨7⟩, 0⟩) ∧ calls.task 1 = pure (0, ⟨"s", ⟨7⟩, 1⟩) ∧
      calls.shared.manager.listed ⟨7⟩ = ["s", "s"] := by
  have hcalls : run (progStep "lost") ⟨fun i => handleResume ⟨"s", ⟨7⟩, i⟩, twoClients.shared⟩ bothAtOnce =
      (run (stageStep "lost") twoClients bothAtOnce).map Stage.prog := stage_programs "lost" twoClients bothAtOnce
  have hfirst : (run (stageStep "lost") twoClients bothAtOnce).task 0 = .ok 0 ⟨"s", ⟨7⟩, 0⟩ := by decide
  have hsecond : (run (stageStep "lost") twoClients bothAtOnce).task 1 = .ok 0 ⟨"s", ⟨7⟩, 1⟩ := by decide
  have hlisted : (run (stageStep "lost") twoClients bothAtOnce).shared.manager.listed ⟨7⟩ = ["s", "s"] := by decide
  rw [hcalls]
  exact ⟨congrArg Stage.prog hfirst, congrArg Stage.prog hsecond, hlisted⟩

end Lumiere.Gateway.ResumeRaces
