/-
Two statements that go together: the one that opens `k` is followed at once by the one that closes it. Side by side with
others, between the two anything may happen.

- `Prog.Paired P opens closes p m`: a program of statements that satisfy P, each of which closes what the one before has
  opened; `m` is open when `p` begins.
- `Calls.Tidy`: what has been made is done, or some call closes it next. `tidy_step`: a move keeps this, unless it makes
  a closing statement fail. `Tidy.done`: when no call is in progress, what has been made is done.
-/
import Lumiere.Core.Calls

namespace Lumiere.Core

namespace Prog

variable {σ ω ε α β κ : Type}

/-! ## One program -/

def Paired (P : ω → Prop) (opens closes : ω → Option κ) {α : Type} : Prog σ ω ε α → Option κ → Prop
  | .ret _, m => m = none
  | .fail _, m => m = none
  | .query next, m => m = none ∧ ∀ s, (next s).Paired P opens closes none
  | .exec w next, m => P w ∧ closes w = m ∧ ∀ n, (next n).Paired P opens closes (opens w)
  | .tx body next, m => m = none ∧ body.ReadOnly ∧ ∀ b, (next b).Paired P opens closes none

variable {P : ω → Prop} {opens closes : ω → Option κ} {p : Prog σ ω ε α} {f : α → Prog σ ω ε β} {m : Option κ}

theorem paired_pure (a : α) : (pure a : Prog σ ω ε α).Paired P opens closes none := rfl

theorem paired_bind (hp : p.Paired P opens closes m) (hf : ∀ a, (f a).Paired P opens closes none) :
    (p >>= f).Paired P opens closes m := by
  show (p.bind f).Paired P opens closes m
  induction p generalizing m with
  | ret a =>
    obtain rfl : m = none := hp
    exact hf a
  | fail e => exact hp
  | query next ih => exact ⟨hp.1, fun s => ih s (hp.2 s) hf⟩
  | exec w next ih => exact ⟨hp.1, hp.2.1, fun n => ih n (hp.2.2 n) hf⟩
  | tx body next _ ih => exact ⟨hp.1, hp.2.1, fun b => ih b (hp.2.2 b) hf⟩

theorem ReadOnly.paired (hp : p.ReadOnly) : p.Paired P opens closes none := by
  induction p with
  | ret a => rfl
  | fail e => rfl
  | query next ih => exact ⟨rfl, fun s => ih s (hp s)⟩
  | exec w next ih => exact hp.1.elim
  | tx body next _ ih => exact ⟨rfl, hp.1, fun b => ih b (hp.2 b)⟩

/-- a statement closes what is open, and what follows what it opens -/
theorem paired_execute_bind {w : ω} {g : Unit → Prog σ ω ε α} (hw : P w) (hclose : closes w = m)
    (hg : (g ()).Paired P opens closes (opens w)) : (execute w >>= g).Paired P opens closes m :=
  ⟨hw, hclose, fun _ => hg⟩

theorem paired_execute {w : ω} (hw : P w) (hopen : opens w = none) (hclose : closes w = none) :
    (execute w : Prog σ ω ε Unit).Paired P opens closes none :=
  ⟨hw, hclose, fun _ => hopen⟩

theorem paired_when {c : Prop} [Decidable c] {q : Prog σ ω ε Unit} (h : q.Paired P opens closes none) :
    (when c q).Paired P opens closes none := by
  rw [when]
  split_ifs
  · exact h
  · rfl

theorem paired_forM_option {o : Option β} {body : β → Prog σ ω ε PUnit}
    (h : ∀ x, (body x).Paired P opens closes none) : (o.forM body).Paired P opens closes none := by
  cases o with
  | none => rfl
  | some x => exact h x

theorem paired_affected {w : ω} (hw : P w) (hopen : opens w = none) (hclose : closes w = none) :
    (affected w : Prog σ ω ε ℕ).Paired P opens closes none :=
  ⟨hw, hclose, fun _ => hopen⟩

theorem paired_lift {σ' ω' : Type} {get : σ' → σ} {g : ω → ω'} {P : ω' → Prop} {opens closes : ω' → Option κ}
    (hp : p.Paired (fun w => P (g w)) (fun w => opens (g w)) (fun w => closes (g w)) m) :
    (p.lift get g).Paired P opens closes m := by
  induction p generalizing m with
  | ret a => exact hp
  | fail e => exact hp
  | query next ih => exact ⟨hp.1, fun s => ih (get s) (hp.2 (get s))⟩
  | exec w next ih => exact ⟨hp.1, hp.2.1, fun n => ih n (hp.2.2 n)⟩
  | tx body next _ ih => exact ⟨hp.1, issues_lift hp.2.1, fun b => ih b (hp.2.2 b)⟩

/-- what is open is what the next statement closes -/
theorem Paired.pending (hp : p.Paired P opens closes m) : p.pending.bind closes = m := by
  cases p with
  | ret a => exact Eq.symm hp
  | fail e => exact Eq.symm hp
  | query next => exact hp.1.symm
  | exec w next => exact hp.2.1
  | tx body next => exact hp.1.symm

theorem paired_interrupt (hp : p.Paired P opens closes none) (e : ε) : (p.interrupt e).Paired P opens closes none := by
  cases p with
  | ret a => exact hp
  | _ => rfl

theorem Paired.eq_none_of_finished (hp : p.Paired P opens closes m) (h : p.finished = true) : m = none := by
  cases p with
  | ret a => exact hp
  | fail e => exact hp
  | _ => cases h

variable {sem : ω → σ → Except ε (ℕ × σ)} {s : σ}

/-- a step executes the statement that closes what is open, or leaves everything as it is -/
theorem paired_advance (hclose : ∀ w k s, closes w = some k → ∃ r, sem w s = .ok r)
    (hp : p.Paired P opens closes m) (s : σ) :
    (m = none ∧ (p.advance sem s).2 = s ∧ (p.advance sem s).1.Paired P opens closes none) ∨
      ∃ w n, p.pending = some w ∧ P w ∧ closes w = m ∧ sem w s = .ok (n, (p.advance sem s).2) ∧
        (p.advance sem s).1.Paired P opens closes (opens w) := by
  cases p with
  | ret a => exact .inl ⟨hp, rfl, rfl⟩
  | fail e => exact .inl ⟨hp, rfl, rfl⟩
  | query next => exact .inl ⟨hp.1, rfl, hp.2 s⟩
  | exec w next =>
    obtain ⟨hw, hm, hnext⟩ := hp
    rw [advance]
    rcases h : sem w s with e | ⟨n, t⟩
    · refine .inl ⟨?_, rfl, rfl⟩
      cases m with
      | none => rfl
      | some k =>
        obtain ⟨r, hr⟩ := hclose w k s hm
        rw [hr] at h
        cases h
    · exact .inr ⟨w, n, rfl, hw, hm, h, hnext n⟩
  | tx body next =>
    obtain ⟨hm, hbody, hnext⟩ := hp
    rw [advance]
    rcases h : body.run sem s with ⟨e | b, t⟩
    · exact .inl ⟨hm, rfl, rfl⟩
    · obtain rfl := hbody.eq_of_run h
      exact .inl ⟨hm, rfl, hnext b⟩

end Prog

/-! ## Calls -/

namespace Calls

variable {ρ σ ω ε κ : Type}

/-- `made k`: `k` has been opened by a statement of some call, or was there from the start -/
structure Tidy (P : ω → Prop) (opens closes : ω → Option κ) (made done : κ → σ → Prop) (I : σ → Prop)
    (s : Calls ρ σ ω ε) : Prop where
  paired : ∀ c ∈ s.calls, ∃ m, c.rest.Paired P opens closes m ∧ ∀ k ∈ m, made k s.shared
  owed : ∀ k, made k s.shared → done k s.shared ∨ ∃ c ∈ s.calls, c.rest.pending.bind closes = some k
  inv : I s.shared

/-- no call is in progress -/
def Quiet (s : Calls ρ σ ω ε) : Prop := ∀ c ∈ s.calls, c.rest.finished = true

instance (s : Calls ρ σ ω ε) : Decidable s.Quiet := inferInstanceAs (Decidable (∀ c ∈ s.calls, c.rest.finished = true))

/-- the statement that a move makes fail -/
def failing (s : Calls ρ σ ω ε) : Move ρ → Option ω
  | .interrupt i => s.calls[i]?.bind fun c => c.rest.pending
  | _ => none

/-- what the statements do, where `ok` allows them -/
structure Settles (P : ω → Prop) (opens closes : ω → Option κ) (made done : κ → σ → Prop) (I : σ → Prop)
    (ok : ω → σ → Prop) (sem : ω → σ → Except ε (ℕ × σ)) : Prop where
  succeeds : ∀ w k s, closes w = some k → ∃ r, sem w s = .ok r
  opened : ∀ {w s n t k}, P w → sem w s = .ok (n, t) → made k s ∨ opens w = some k → made k t
  new : ∀ {w s n t k}, P w → ok w s → I s → sem w s = .ok (n, t) → made k t → made k s ∨ opens w = some k ∨ done k t
  kept : ∀ {w s n t k}, P w → ok w s → I s → sem w s = .ok (n, t) → done k s ∨ closes w = some k → done k t
  inv : ∀ {w s n t}, P w → I s → (∀ k ∈ closes w, made k s) → sem w s = .ok (n, t) → I t

variable {P : ω → Prop} {opens closes : ω → Option κ} {made done : κ → σ → Prop} {I : σ → Prop} {ok : ω → σ → Prop}
  {start : ρ → Prog σ ω ε Unit} {sem : ω → σ → Except ε (ℕ × σ)} {e : ε} {s : Calls ρ σ ω ε} {o : Move ρ}

/-- the move executes an allowed statement, and makes no closing one fail -/
def Allows (ok : ω → σ → Prop) (closes : ω → Option κ) (s : Calls ρ σ ω ε) (o : Move ρ) : Prop :=
  (∀ w ∈ s.executes o, ok w s.shared) ∧ ∀ w ∈ s.failing o, closes w = none

instance [DecidableEq κ] [∀ w x, Decidable (ok w x)] (s : Calls ρ σ ω ε) (o : Move ρ) :
    Decidable (s.Allows ok closes o) :=
  inferInstanceAs (Decidable (_ ∧ _))

/-- the calls after a move that leaves the state alone -/
theorem tidy_of_shared (hstart : ∀ r, (start r).Paired P opens closes none) (hs : s.Tidy P opens closes made done I)
    (hshared : (s.step start sem e o).shared = s.shared)
    (hown : ∀ i c, o = .advance i ∨ o = .interrupt i → s.calls[i]? = some c → c.rest.pending.bind closes = none ∧
      ∀ c', (s.step start sem e o).calls[i]? = some c' → c'.rest.Paired P opens closes none) :
    (s.step start sem e o).Tidy P opens closes made done I := by
  refine ⟨fun c' hc' => ?_, fun k hk => ?_, hshared ▸ hs.inv⟩
  · rw [hshared]
    obtain ⟨i, hi⟩ := List.mem_iff_getElem?.1 hc'
    by_cases ho : o = .advance i ∨ o = .interrupt i
    · rcases getElem?_step hi with ⟨r, hr, -⟩ | ⟨c, hc, -⟩
      · rcases ho with h | h <;> rw [h] at hr <;> cases hr
      · exact ⟨none, (hown i c ho hc).2 c' hi, fun k hk => by cases hk⟩
    · obtain ⟨r, -, rfl⟩ | ⟨c, hc, rfl | ⟨h, -⟩ | ⟨h, -⟩⟩ := getElem?_step hi
      · exact ⟨none, hstart r, fun k hk => by cases hk⟩
      · exact hs.paired c' (List.mem_of_getElem? hc)
      · exact absurd (.inl h) ho
      · exact absurd (.inr h) ho
  · rw [hshared] at hk ⊢
    refine (hs.owed k hk).imp_right fun ⟨c, hc, hpending⟩ => ?_
    obtain ⟨i, hi⟩ := List.mem_iff_getElem?.1 hc
    have hother : ¬ (o = .advance i ∨ o = .interrupt i) := fun ho => by
      rw [(hown i c ho hi).1] at hpending
      cases hpending
    rw [not_or] at hother
    exact ⟨c, List.mem_of_getElem? (getElem?_step_of_ne hi hother.1 hother.2), hpending⟩

/-- the calls after a statement that succeeds -/
theorem tidy_of_exec (hsem : Settles P opens closes made done I ok sem) (hs : s.Tidy P opens closes made done I)
    {i n : ℕ} {c : Call ρ σ ω ε} {w : ω} (hi : s.calls[i]? = some c) (hpending : c.rest.pending = some w) (hw : P w)
    (hok : ok w s.shared) (hmade : ∀ k ∈ closes w, made k s.shared)
    (hexec : sem w s.shared = .ok (n, (s.step start sem e (.advance i)).shared))
    (hnext : ((c.rest.advance sem s.shared).1).Paired P opens closes (opens w)) :
    (s.step start sem e (.advance i)).Tidy P opens closes made done I := by
  have hown : (s.step start sem e (.advance i)).calls[i]? = _ := getElem?_advance hi
  refine ⟨fun c' hc' => ?_, fun k hk => ?_, hsem.inv hw hs.inv hmade hexec⟩
  · obtain ⟨j, hj⟩ := List.mem_iff_getElem?.1 hc'
    by_cases hij : j = i
    · subst hij
      obtain rfl := Option.some.inj (hown.symm.trans hj)
      exact ⟨opens w, hnext, fun k hk => hsem.opened hw hexec (.inr hk)⟩
    · obtain ⟨r, hr, -⟩ | ⟨c₁, hc₁, rfl | ⟨h, -⟩ | ⟨h, -⟩⟩ := getElem?_step hj
      · cases hr
      · obtain ⟨m, hm, hmade'⟩ := hs.paired c' (List.mem_of_getElem? hc₁)
        exact ⟨m, hm, fun k hk => hsem.opened hw hexec (.inl (hmade' k hk))⟩
      · exact absurd (Move.advance.inj h).symm hij
      · cases h
  · rcases hsem.new hw hok hs.inv hexec hk with hk | hk | hk
    · rcases hs.owed k hk with hdone | ⟨c', hc', hclose⟩
      · exact .inl (hsem.kept hw hok hs.inv hexec (.inl hdone))
      · obtain ⟨j, hj⟩ := List.mem_iff_getElem?.1 hc'
        by_cases hij : j = i
        · subst hij
          obtain rfl := Option.some.inj (hi.symm.trans hj)
          rw [hpending] at hclose
          exact .inl (hsem.kept hw hok hs.inv hexec (.inr hclose))
        · refine .inr ⟨c', List.mem_of_getElem? (getElem?_step_of_ne hj ?_ nofun), hclose⟩
          exact fun h => hij (Move.advance.inj h).symm
    · exact .inr ⟨_, List.mem_of_getElem? hown, hnext.pending.trans hk⟩
    · exact .inl hk

/-- **What is made is done or about to be closed, after any move that is allowed.** -/
theorem tidy_step (hsem : Settles P opens closes made done I ok sem)
    (hstart : ∀ r, (start r).Paired P opens closes none) (hs : s.Tidy P opens closes made done I)
    (ho : s.Allows ok closes o) : (s.step start sem e o).Tidy P opens closes made done I := by
  cases o with
  | issue r => exact tidy_of_shared hstart hs rfl fun i c h => by rcases h with h | h <;> cases h
  | advance i =>
    rcases hi : s.calls[i]? with _ | c
    · refine tidy_of_shared hstart hs ?_ fun j c h hc => ?_
      · rw [step, hi]
        rfl
      · rcases h with h | h
        · rw [Move.advance.inj h, hc] at hi
          cases hi
        · cases h
    · obtain ⟨m, hm, hmade⟩ := hs.paired c (List.mem_of_getElem? hi)
      rcases Prog.paired_advance hsem.succeeds hm s.shared with ⟨rfl, hsame, hnext⟩ | ⟨w, n, hw, hP, rfl, hexec, hnext⟩
      · refine tidy_of_shared hstart hs ((shared_advance hi).trans hsame) fun j c' h hc' => ?_
        obtain rfl : i = j := by rcases h with h | h <;> cases h; rfl
        obtain rfl := Option.some.inj (hi.symm.trans hc')
        refine ⟨hm.pending, fun c' hc' => ?_⟩
        obtain rfl := Option.some.inj ((getElem?_advance hi).symm.trans hc')
        exact hnext
      · have hexecutes : w ∈ s.executes (.advance i : Move ρ) := by
          rw [executes, hi]
          exact hw
        have hshared : (s.step start sem e (.advance i)).shared = _ := shared_advance hi
        rw [← hshared] at hexec
        exact tidy_of_exec hsem hs hi hw hP (ho.1 w hexecutes) hmade hexec hnext
  | interrupt i =>
    refine tidy_of_shared hstart hs rfl fun j c h hc => ?_
    obtain rfl : i = j := by rcases h with h | h <;> cases h; rfl
    obtain ⟨m, hm, -⟩ := hs.paired c (List.mem_of_getElem? hc)
    have hnone : c.rest.pending.bind closes = none := by
      rw [Option.bind_eq_none_iff]
      intro w hw
      refine ho.2 w ?_
      rw [failing, hc]
      exact hw
    refine ⟨hnone, fun c' hc' => ?_⟩
    rw [step, List.getElem?_modify, hc] at hc'
    obtain rfl := Option.some.inj (hc'.symm.trans (congrArg some (if_pos rfl)))
    rw [hm.pending] at hnone
    subst hnone
    exact Prog.paired_interrupt hm e

/-- **When no call is in progress, what has been made is done.** -/
theorem Tidy.done_of_quiet (h : s.Tidy P opens closes made done I) (hs : s.Quiet) {k : κ} (hk : made k s.shared) :
    done k s.shared := by
  refine (h.owed k hk).resolve_right ?_
  rintro ⟨c, hc, hpending⟩
  obtain ⟨m, hm, -⟩ := h.paired c hc
  rw [hm.pending, hm.eq_none_of_finished (hs c hc)] at hpending
  cases hpending

end Calls

end Lumiere.Core
