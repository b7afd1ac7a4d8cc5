/-
The end of a connection against the resume of its session on another one (`handle_connection` and `handle_resume` in
`lumiere-gateway/src/handler.rs`). Both sessions have the same id. The old connection publishes the record that lets the
session be resumed before it removes the id from the manager, and it removes whatever is there under the id.

Each call of Redis and each access to a map is one step; the two connections interleave in any order. What the resume
does after it has registered (replay, `RESUMED`, two queries) does not touch the manager; `finish` is its outcome.

- `handed_over_iff`: when both have finished, the manager has the new session, listed once, exactly if the new one was
  inserted after the old one had been taken out and pushed after the removal was over.
- `resumed_session_removed`: a resume between the record and the removal loses its session.
-/
import Lumiere.Core.Run
import Lumiere.Gateway.Registry

namespace Lumiere.Gateway

open Lumiere.Core

namespace Handover

variable {σ U : Type}

/-! ## Model -/

inductive Conn where
  | old
  | new
deriving DecidableEq, Repr

/-- the cleanup of the old connection -/
inductive Closing (U : Type) where
  | closing
  /-- the record is in Redis -/
  | stored
  /-- in `remove`, the session of the user taken out -/
  | taken (u : U)
  /-- in `remove`, the user's list left empty and its guard released -/
  | emptied (u : U)
  | removed
deriving DecidableEq, Repr

/-- `handle_resume` on the new connection -/
inductive Resuming where
  | asking
  /-- the record is there and names the user -/
  | admitted
  /-- the record is deleted -/
  | consumed
  /-- in `register`, in `sessions` and not yet in the user's list -/
  | inserted
  | registered
  | resumed
  /-- an error before the session is registered -/
  | refused
  /-- an error after it -/
  | failed
deriving DecidableEq, Repr

structure St (σ U : Type) where
  registry : Registry σ U Conn
  /-- `gateway_session:{id}`, of which the user id matters -/
  record : Option U
  closing : Closing U
  resuming : Resuming

inductive Op where
  | set (ok : Bool)
  | take
  | retain
  | unlist
  | get (ok : Bool)
  | del (ok : Bool)
  | insert
  | push
  | finish (ok : Bool)
deriving DecidableEq, Repr

section Step

variable [DecidableEq σ] [DecidableEq U] (id : σ) (u v : U)

/-- u: the user of the old session, v: the user of the token -/
def step (s : St σ U) : Op → St σ U
  | .set ok =>
    match s.closing with
    | .closing => { s with record := if ok then some u else s.record, closing := .stored }
    | _ => s
  | .take =>
    match s.closing with
    | .stored =>
      match s.registry.sessions id with
      | some x => { s with registry := s.registry.take id, closing := .taken x.userId }
      | none => { s with closing := .removed }
    | _ => s
  | .retain =>
    match s.closing with
    | .taken w =>
      let registry := s.registry.retain w id
      { s with registry, closing := if registry.userSessions w = some [] then .emptied w else .removed }
    | _ => s
  | .unlist =>
    match s.closing with
    | .emptied w => { s with registry := s.registry.unlist w, closing := .removed }
    | _ => s
  | .get ok =>
    match s.resuming with
    | .asking => { s with resuming := if ok ∧ s.record = some v then .admitted else .refused }
    | _ => s
  | .del ok =>
    match s.resuming with
    | .admitted => if ok then { s with record := none, resuming := .consumed } else { s with resuming := .refused }
    | _ => s
  | .insert =>
    match s.resuming with
    | .consumed => { s with registry := s.registry.insert ⟨id, v, .new⟩, resuming := .inserted }
    | _ => s
  | .push =>
    match s.resuming with
    | .inserted => { s with registry := s.registry.push v id, resuming := .registered }
    | _ => s
  | .finish ok =>
    match s.resuming with
    | .registered => { s with resuming := if ok then .resumed else .failed }
    | _ => s

end Step

/-! ## In order -/

/-- the old session is still in `sessions` -/
def Closing.holds : Closing U → Bool
  | .closing | .stored => true
  | _ => false

/-- the old session is still in its user's list -/
def Closing.lists : Closing U → Bool
  | .closing | .stored | .taken _ => true
  | _ => false

/-- the new session has been inserted -/
def Resuming.entered : Resuming → Bool
  | .inserted | .registered | .resumed | .failed => true
  | _ => false

/-- the new session has been listed -/
def Resuming.pushed : Resuming → Bool
  | .registered | .resumed | .failed => true
  | _ => false

/-- the record has been found under the user of the token -/
def Resuming.matched : Resuming → Bool
  | .asking | .refused => false
  | _ => true

/-- an insertion after the old session is taken out, a push after the removal is over -/
def InOrder (s : St σ U) : Op → Prop
  | .insert => s.resuming = .consumed → s.closing.holds = false
  | .push => s.resuming = .inserted → s.closing = .removed
  | _ => True

instance [DecidableEq U] (s : St σ U) (o : Op) : Decidable (InOrder s o) := by
  cases o <;> unfold InOrder <;> infer_instance

section

variable [DecidableEq σ] [DecidableEq U] (id : σ) (u v : U)

/-- the old session is registered, neither side has begun -/
structure Start (s : St σ U) : Prop where
  session : s.registry.sessions id = some ⟨id, u, .old⟩
  listing : (s.registry.listed u).count id = 1
  record : ∀ w ∈ s.record, w = u
  closing : s.closing = .closing
  resuming : s.resuming = .asking

/-- the manager has the new session, listed once -/
structure HandedOver (s : St σ U) : Prop where
  session : s.registry.sessions id = some ⟨id, v, .new⟩
  listing : (s.registry.listed v).count id = 1

/-- nothing has been done too early -/
structure Good (s : St σ U) : Prop where
  session : s.registry.sessions id = if s.closing.holds then some ⟨id, u, .old⟩
    else if s.resuming.entered then some ⟨id, v, .new⟩ else none
  listing : (s.registry.listed u).count id = if s.closing.lists || s.resuming.pushed then 1 else 0
  entered : s.closing.holds = true → s.resuming.entered = false
  pushed : s.resuming.pushed = true → s.closing = .removed
  owner : ∀ w, s.closing = .taken w ∨ s.closing = .emptied w → w = u
  record : ∀ w ∈ s.record, w = u
  user : s.resuming.matched = true → v = u

/-- the new session is going to be lost, or is -/
inductive Bad (s : St σ U) : Prop where
  | early (hholds : s.closing.holds = true) (hentered : s.resuming.entered = true)
  | gone (hholds : s.closing.holds = false) (hentered : s.resuming.entered = true) (h : s.registry.sessions id = none)
  | listed (hclosing : s.closing = .taken v ∨ s.closing = .emptied v) (hpushed : s.resuming.pushed = true)
  | unlisted (hclosing : s.closing = .removed) (hpushed : s.resuming.pushed = true)
      (h : (s.registry.listed v).count id = 0)

variable {id u v} {s : St σ U}

omit [DecidableEq U] in
theorem Start.good [DecidableEq U] (h : Start id u s) : Good id u v s where
  session := by rw [h.session, h.closing]; rfl
  listing := by rw [h.listing, h.closing]; rfl
  entered _ := by rw [h.resuming]; rfl
  pushed hp := by rw [h.resuming] at hp; cases hp
  owner w hw := by rw [h.closing] at hw; rcases hw with hw | hw <;> cases hw
  record := h.record
  user hm := by rw [h.resuming] at hm; cases hm

omit [DecidableEq U] in
/-- the resuming side goes on without an insertion or a push -/
theorem Good.resume {q : Resuming} (h : Good id u v s) (hentered : q.entered = s.resuming.entered)
    (hpushed : q.pushed = s.resuming.pushed) (huser : q.matched = true → v = u) :
    Good id u v { s with resuming := q } where
  session := by rw [hentered]; exact h.session
  listing := by rw [hpushed]; exact h.listing
  entered hholds := by rw [hentered]; exact h.entered hholds
  pushed hq := h.pushed (by rw [← hpushed]; exact hq)
  owner := h.owner
  record := h.record
  user := huser

theorem step_good (s : St σ U) (o : Op) (h : Good id u v s) (ho : InOrder s o) : Good id u v (step id u v s o) := by
  cases o with
  | set ok =>
    simp only [step]
    split
    · next hp =>
      refine { h with session := ?_, listing := ?_, entered := ?_, pushed := ?_, owner := ?_, record := ?_ }
      · simpa [hp, Closing.holds] using h.session
      · simpa [hp, Closing.lists] using h.listing
      · intro _; exact h.entered (by rw [hp]; rfl)
      · intro hpushed; have := h.pushed hpushed; rw [hp] at this; cases this
      · intro w hw; rcases hw with hw | hw <;> cases hw
      · intro w hw; simp only at hw; split_ifs at hw
        · exact (Option.some.inj hw).symm
        · exact h.record w hw
    · exact h
  | take =>
    simp only [step]
    split
    · next hp =>
      have hsession : s.registry.sessions id = some ⟨id, u, .old⟩ := by rw [h.session, hp]; rfl
      have hentered : s.resuming.entered = false := h.entered (by rw [hp]; rfl)
      rw [hsession]
      refine { h with session := ?_, listing := ?_, entered := ?_, pushed := ?_, owner := ?_ }
      · simp [Closing.holds, hentered]
      · simpa [hp, Closing.lists] using h.listing
      · intro hholds; cases hholds
      · intro hpushed; have := h.pushed hpushed; rw [hp] at this; cases this
      · intro w hw; rcases hw with hw | hw <;> cases hw; rfl
    · exact h
  | retain =>
    simp only [step]
    split
    · next w hp =>
      obtain rfl := h.owner w (.inl hp)
      have hpushed : s.resuming.pushed = false := by
        by_contra hpushed
        have := h.pushed (by simpa using hpushed)
        rw [hp] at this
        cases this
      obtain ⟨c, hc, hholds, hlists, howner⟩ : ∃ c : Closing U,
          (if (s.registry.retain w id).userSessions w = some [] then .emptied w else .removed) = c ∧ c.holds = false ∧
            c.lists = false ∧ ∀ x, c = .taken x ∨ c = .emptied x → x = w := by
        split_ifs
        · exact ⟨_, rfl, rfl, rfl, by simp⟩
        · exact ⟨_, rfl, rfl, rfl, by simp⟩
      rw [hc]
      refine { h with session := ?_, listing := ?_, entered := ?_, pushed := ?_, owner := howner }
      · simp only [Registry.retain_sessions, hholds]
        simpa [hp, Closing.holds] using h.session
      · simp [hlists, hpushed, List.count_eq_zero]
      · intro htrue; simp only at htrue; rw [hholds] at htrue; cases htrue
      · intro htrue; simp only at htrue; rw [hpushed] at htrue; cases htrue
    · exact h
  | unlist =>
    simp only [step]
    split
    · next w hp =>
      obtain rfl := h.owner w (.inr hp)
      have hpushed : s.resuming.pushed = false := by
        by_contra hpushed
        have := h.pushed (by simpa using hpushed)
        rw [hp] at this
        cases this
      refine { h with session := ?_, listing := ?_, entered := ?_, pushed := ?_, owner := ?_ }
      · simpa [hp, Closing.holds] using h.session
      · simp [Closing.lists, hpushed]
      · intro hholds; cases hholds
      · intro _; rfl
      · intro x hx; rcases hx with hx | hx <;> cases hx
    · exact h
  | get ok =>
    simp only [step]
    split
    · next hp =>
      split_ifs with hok
      · exact h.resume (by rw [hp]; rfl) (by rw [hp]; rfl) fun _ => h.record v hok.2
      · exact h.resume (by rw [hp]; rfl) (by rw [hp]; rfl) nofun
    · exact h
  | del ok =>
    simp only [step]
    split
    · next hp =>
      split_ifs
      · have hconsumed : Good id u v { s with resuming := .consumed } :=
          h.resume (by rw [hp]; rfl) (by rw [hp]; rfl) fun _ => h.user (by rw [hp]; rfl)
        exact { hconsumed with record := nofun }
      · exact h.resume (by rw [hp]; rfl) (by rw [hp]; rfl) nofun
    · exact h
  | insert =>
    simp only [step]
    split
    · next hp =>
      have hholds : s.closing.holds = false := ho hp
      refine { h with session := ?_, listing := ?_, entered := ?_, pushed := ?_, user := ?_ }
      · simp [hholds, Resuming.entered]
      · simpa [hp, Resuming.pushed] using h.listing
      · intro htrue; simp only at htrue; rw [hholds] at htrue; cases htrue
      · intro hpushed; cases hpushed
      · intro _; exact h.user (by rw [hp]; rfl)
    · exact h
  | push =>
    simp only [step]
    split
    · next hp =>
      have hclosing : s.closing = .removed := ho hp
      obtain rfl := h.user (by rw [hp]; rfl)
      refine { h with session := ?_, listing := ?_, entered := ?_, pushed := ?_, user := ?_ }
      · simpa [hp, Resuming.entered] using h.session
      · have hlisting := h.listing
        rw [hp, hclosing] at hlisting
        simpa [Resuming.pushed, Closing.lists, List.count_append] using hlisting
      · intro hholds; rw [hclosing] at hholds; cases hholds
      · intro _; exact hclosing
      · intro _; rfl
    · exact h
  | finish ok =>
    simp only [step]
    split
    · next hp =>
      have huser : v = u := h.user (by rw [hp]; rfl)
      split_ifs
      · exact h.resume (by rw [hp]; rfl) (by rw [hp]; rfl) fun _ => huser
      · exact h.resume (by rw [hp]; rfl) (by rw [hp]; rfl) fun _ => huser
    · exact h

theorem step_early (s : St σ U) (o : Op) (h : Good id u v s) (ho : ¬ InOrder s o) : Bad id v (step id u v s o) := by
  cases o with
  | insert =>
    simp only [InOrder, Classical.not_imp, Bool.not_eq_false] at ho
    obtain ⟨hp, hholds⟩ := ho
    simp only [step, hp]
    exact .early hholds rfl
  | push =>
    simp only [InOrder, Classical.not_imp] at ho
    obtain ⟨hp, hclosing⟩ := ho
    obtain rfl := h.user (by rw [hp]; rfl)
    have hholds : s.closing.holds ≠ true := fun hholds => by
      have := h.entered hholds
      rw [hp] at this
      cases this
    have hlisted : s.closing = .taken v ∨ s.closing = .emptied v := by
      rcases hc : s.closing with _ | _ | w | w | _
      · rw [hc] at hholds; exact absurd rfl hholds
      · rw [hc] at hholds; exact absurd rfl hholds
      · exact .inl (by rw [h.owner w (.inl hc)])
      · exact .inr (by rw [h.owner w (.inr hc)])
      · exact absurd hc hclosing
    simp only [step, hp]
    exact .listed hlisted rfl
  | _ => exact absurd trivial ho

theorem Resuming.pushed_entered {q : Resuming} (h : q.pushed = true) : q.entered = true := by
  cases q <;> first | rfl | cases h

omit [DecidableEq U] in
theorem Bad.entered [DecidableEq U] (h : Bad id v s) : s.resuming.entered = true := by
  cases h with
  | early _ hentered => exact hentered
  | gone _ hentered _ => exact hentered
  | listed _ hpushed => exact Resuming.pushed_entered hpushed
  | unlisted _ hpushed _ => exact Resuming.pushed_entered hpushed

theorem step_bad (s : St σ U) (o : Op) (h : Bad id v s) : Bad id v (step id u v s o) := by
  have hentered := h.entered
  cases o with
  | set ok =>
    simp only [step]
    split
    · exact .early rfl hentered
    · exact h
  | take =>
    simp only [step]
    split
    · next hp =>
      split
      · exact .gone rfl hentered (by simp)
      · next hnone => exact .gone rfl hentered hnone
    · exact h
  | retain =>
    simp only [step]
    split
    · next w hp =>
      cases h with
      | early hholds _ => rw [hp] at hholds; cases hholds
      | gone _ _ hnone =>
        refine .gone ?_ hentered (by simpa using hnone)
        split_ifs <;> rfl
      | listed hlisted hpushed =>
        obtain rfl : w = v := by
          rw [hp] at hlisted
          rcases hlisted with hlisted | hlisted <;> cases hlisted
          rfl
        split_ifs
        · exact .listed (.inr rfl) hpushed
        · exact .unlisted rfl hpushed (by simp [List.count_eq_zero])
      | unlisted hclosing _ _ => rw [hp] at hclosing; cases hclosing
    · exact h
  | unlist =>
    simp only [step]
    split
    · next w hp =>
      cases h with
      | early hholds _ => rw [hp] at hholds; cases hholds
      | gone _ _ hnone => exact .gone rfl hentered hnone
      | listed hlisted hpushed =>
        obtain rfl : w = v := by
          rw [hp] at hlisted
          rcases hlisted with hlisted | hlisted <;> cases hlisted
          rfl
        exact .unlisted rfl hpushed (by simp)
      | unlisted hclosing _ _ => rw [hp] at hclosing; cases hclosing
    · exact h
  | get ok =>
    simp only [step]
    split
    · next hp => rw [hp] at hentered; cases hentered
    · exact h
  | del ok =>
    simp only [step]
    split
    · next hp => rw [hp] at hentered; cases hentered
    · exact h
  | insert =>
    simp only [step]
    split
    · next hp => rw [hp] at hentered; cases hentered
    · exact h
  | push =>
    simp only [step]
    split
    · next hp =>
      cases h with
      | early hholds _ => exact .early hholds rfl
      | gone hholds _ hnone => exact .gone hholds rfl (by simpa using hnone)
      | listed _ hpushed => rw [hp] at hpushed; cases hpushed
      | unlisted _ hpushed _ => rw [hp] at hpushed; cases hpushed
    · exact h
  | finish ok =>
    simp only [step]
    split
    · have hpushed : (if ok then .resumed else .failed : Resuming).pushed = true := by split_ifs <;> rfl
      cases h with
      | early hholds _ => exact .early hholds (Resuming.pushed_entered hpushed)
      | gone hholds _ hnone => exact .gone hholds (Resuming.pushed_entered hpushed) hnone
      | listed hlisted _ => exact .listed hlisted hpushed
      | unlisted hclosing _ hcount => exact .unlisted hclosing hpushed hcount
    · exact h

/-- **A session is handed over exactly in order.** Once the cleanup is over and the resume has succeeded, the manager maps
the id to the new session and lists it once if and only if the new session was inserted after the old one was taken out
and pushed after the removal was over. -/
theorem handed_over_iff (h : Start id u s) (ops : List Op) (hclosing : (run (step id u v) s ops).closing = .removed)
    (hresuming : (run (step id u v) s ops).resuming = .resumed) :
    HandedOver id v (run (step id u v) s ops) ↔ Every (step id u v) InOrder s ops := by
  have hrun : Every (step id u v) InOrder s ops ∧ Good id u v (run (step id u v) s ops) ∨
      ¬ Every (step id u v) InOrder s ops ∧ Bad id v (run (step id u v) s ops) :=
    run_good_or_bad step_good step_early step_bad h.good ops
  rcases hrun with ⟨hops, hgood⟩ | ⟨hops, hbad⟩
  · refine iff_of_true ⟨?_, ?_⟩ hops
    · rw [hgood.session, hclosing, hresuming]
      rfl
    · obtain rfl := hgood.user (by rw [hresuming]; rfl)
      rw [hgood.listing, hclosing, hresuming]
      rfl
  · refine iff_of_false (fun hover => ?_) hops
    cases hbad with
    | early hholds _ =>
      rw [hclosing] at hholds
      cases hholds
    | gone _ _ hgone =>
      rw [hover.session] at hgone
      cases hgone
    | listed hlisted _ =>
      rw [hclosing] at hlisted
      rcases hlisted with hlisted | hlisted <;> cases hlisted
    | unlisted _ _ hcount =>
      rw [hover.listing] at hcount
      cases hcount

end

/-! ## A resume that is too early -/

/-- user 7, alone on its devices, whose session 0 is registered by the old connection -/
def start : St ℕ ℕ where
  registry := (⟨fun _ => none, fun _ => none⟩ : Registry ℕ ℕ Conn).register ⟨0, 7, .old⟩
  record := none
  closing := .closing
  resuming := .asking

theorem start_start : Start 0 7 start where
  session := by decide
  listing := by decide
  record := nofun
  closing := rfl
  resuming := rfl

def handoverTrace : List Op := [.set true, .get true, .take, .del true, .retain, .insert, .unlist, .push, .finish true]

theorem handed_over_iff_inOrder :
    HandedOver 0 7 (run (step 0 7 7) start handoverTrace) ↔ Every (step 0 7 7) InOrder start handoverTrace :=
  handed_over_iff start_start handoverTrace rfl rfl

/-- the whole resume, once the record is there and before the removal -/
def earlyTrace : List Op := [.set true, .get true, .del true, .insert, .push, .finish true, .take, .retain, .unlist]

/-- **The cleanup takes down the resumed session.** -/
theorem resumed_session_removed :
    let s := run (step 0 7 7) start earlyTrace
    Start 0 7 start ∧ s.closing = .removed ∧ s.resuming = .resumed ∧ s.registry.sessions 0 = none ∧
      s.registry.listed 7 = [] :=
  ⟨start_start, by decide⟩

end Handover

end Lumiere.Gateway
