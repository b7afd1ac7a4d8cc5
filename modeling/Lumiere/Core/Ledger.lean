/-
What the calls of a run owe, counted: a statement opens something that the next statement of its call closes, unless
that one fails or the call is interrupted before.

- `Prog.Linked P opens closes p m`: a program of statements that satisfy P, each of which closes what the one before has
  opened. What one opens may depend on how many rows it affected; `m` is open when `p` begins.
- `Calls.effects`, `Calls.failures`: the statements of a run that took effect, and those that did not. `effects_run`:
  what each effect keeps true of the effects so far and the state holds at the end of a run.
- `Calls.conserved`: over a run, what was opened was closed, was lost with a statement that failed, or is about to be
  closed.
-/
import Lumiere.Core.Calls

namespace Lumiere.Core

section Modify

variable {α : Type*} {q : α → Bool} {f : α → α}

theorem modify_of_none {l : List α} {i : ℕ} (h : l[i]? = none) : l.modify i f = l := by
  apply List.ext_getElem?
  intro j
  rw [List.getElem?_modify]
  by_cases hij : i = j
  · simp [← hij, h]
  · simp [hij]

theorem countP_modify {l : List α} {i : ℕ} {a : α} (h : l[i]? = some a) :
    (l.modify i f).countP q + (if q a then 1 else 0) = l.countP q + if q (f a) then 1 else 0 := by
  induction l generalizing i with
  | nil => simp at h
  | cons b l ih =>
    cases i with
    | zero =>
      obtain rfl : b = a := by simpa using h
      rw [List.modify_zero_cons, List.countP_cons, List.countP_cons]
      omega
    | succ i =>
      have htail := ih (by simpa using h)
      rw [List.modify_succ_cons, List.countP_cons, List.countP_cons]
      omega

end Modify

namespace Prog

variable {σ ω ε α β κ : Type}

/-! ## One program -/

/-- no transaction writes -/
def Linked (P : ω → Prop) (opens : ω → ℕ → Option κ) (closes : ω → Option κ) {α : Type} :
    Prog σ ω ε α → Option κ → Prop
  | .ret _, m => m = none
  | .fail _, m => m = none
  | .query next, m => m = none ∧ ∀ s, (next s).Linked P opens closes none
  | .exec w next, m => P w ∧ closes w = m ∧ ∀ n, (next n).Linked P opens closes (opens w n)
  | .tx body next, m => m = none ∧ body.ReadOnly ∧ ∀ b, (next b).Linked P opens closes none

/-- the next step takes effect, with so many rows affected -/
def effect (sem : ω → σ → Except ε (ℕ × σ)) (s : σ) : Prog σ ω ε α → Option (ω × ℕ)
  | .exec w _ =>
    match sem w s with
    | .ok r => some (w, r.1)
    | .error _ => none
  | _ => none

/-- the next step fails -/
def failure (sem : ω → σ → Except ε (ℕ × σ)) (s : σ) : Prog σ ω ε α → Option ω
  | .exec w _ =>
    match sem w s with
    | .ok _ => none
    | .error _ => some w
  | _ => none

variable {P : ω → Prop} {opens : ω → ℕ → Option κ} {closes : ω → Option κ} {p : Prog σ ω ε α}
  {f : α → Prog σ ω ε β} {m : Option κ}

theorem linked_pure (a : α) : (pure a : Prog σ ω ε α).Linked P opens closes none := rfl

theorem linked_bind (hp : p.Linked P opens closes m) (hf : ∀ a, (f a).Linked P opens closes none) :
    (p >>= f).Linked P opens closes m := by
  show (p.bind f).Linked P opens closes m
  induction p generalizing m with
  | ret a =>
    obtain rfl : m = none := hp
    exact hf a
  | fail e => exact hp
  | query next ih => exact ⟨hp.1, fun s => ih s (hp.2 s) hf⟩
  | exec w next ih => exact ⟨hp.1, hp.2.1, fun n => ih n (hp.2.2 n) hf⟩
  | tx body next _ ih => exact ⟨hp.1, hp.2.1, fun b => ih b (hp.2.2 b) hf⟩

theorem ReadOnly.linked (hp : p.ReadOnly) : p.Linked P opens closes none := by
  induction p with
  | ret a => rfl
  | fail e => rfl
  | query next ih => exact ⟨rfl, fun s => ih s (hp s)⟩
  | exec w next ih => exact hp.1.elim
  | tx body next _ ih => exact ⟨rfl, hp.1, fun b => ih b (hp.2 b)⟩

theorem linked_failIf_bind {c : Prop} [Decidable c] {e : ε} {g : Unit → Prog σ ω ε α}
    (hg : ¬ c → (g ()).Linked P opens closes none) : (failIf c e >>= g).Linked P opens closes none := by
  unfold failIf
  split_ifs with hc
  · rfl
  · exact hg hc

/-- the rest closes what a statement opens, and the statement what is open -/
theorem linked_execute_bind {w : ω} {g : Unit → Prog σ ω ε α} (hw : P w)
    (hg : ∀ n, (g ()).Linked P opens closes (opens w n)) : (execute w >>= g).Linked P opens closes (closes w) :=
  ⟨hw, rfl, hg⟩

/-- a statement that opens nothing -/
theorem linked_execute {w : ω} (hw : P w) (hopen : ∀ n, opens w n = none) :
    (execute w : Prog σ ω ε Unit).Linked P opens closes (closes w) :=
  ⟨hw, rfl, hopen⟩

/-- the rest closes what a statement opens -/
theorem linked_affected_bind {w : ω} {g : ℕ → Prog σ ω ε α} (hw : P w) (hclose : closes w = none)
    (hg : ∀ n, (g n).Linked P opens closes (opens w n)) : (affected w >>= g).Linked P opens closes none :=
  ⟨hw, hclose, hg⟩

/-- what is open is what the next statement closes -/
theorem Linked.pending (hp : p.Linked P opens closes m) : p.pending.bind closes = m := by
  cases p with
  | ret a => exact Eq.symm hp
  | fail e => exact Eq.symm hp
  | query next => exact hp.1.symm
  | exec w next => exact hp.2.1
  | tx body next => exact hp.1.symm

theorem linked_interrupt (hp : p.Linked P opens closes m) (e : ε) : (p.interrupt e).Linked P opens closes none := by
  cases p with
  | ret a => rfl
  | _ => rfl

variable {sem : ω → σ → Except ε (ℕ × σ)}

/-- a step closes what is open or loses it, and may open something -/
theorem linked_advance (sem : ω → σ → Except ε (ℕ × σ)) (hp : p.Linked P opens closes m) (s : σ) :
    (p.advance sem s).1.Linked P opens closes ((p.effect sem s).bind fun r => opens r.1 r.2) ∧
      (m = (p.effect sem s).bind (fun r => closes r.1) ∧ (p.failure sem s).bind closes = none ∨
        m = (p.failure sem s).bind closes ∧ (p.effect sem s).bind (fun r => closes r.1) = none) := by
  cases p with
  | ret a => exact ⟨rfl, .inl ⟨hp, rfl⟩⟩
  | fail e => exact ⟨rfl, .inl ⟨hp, rfl⟩⟩
  | query next => exact ⟨hp.2 s, .inl ⟨hp.1, rfl⟩⟩
  | exec w next =>
    rw [advance, effect, failure]
    rcases sem w s with e | ⟨n, t⟩
    · exact ⟨rfl, .inr ⟨hp.2.1.symm, rfl⟩⟩
    · exact ⟨hp.2.2 n, .inl ⟨hp.2.1.symm, rfl⟩⟩
  | tx body next =>
    refine ⟨?_, .inl ⟨hp.1, rfl⟩⟩
    rw [advance]
    rcases body.run sem s with ⟨e | b, t⟩
    · rfl
    · exact hp.2.2 b

theorem advance_of_effect (hp : p.Linked P opens closes m) {w : ω} {n : ℕ} {s : σ} (h : p.effect sem s = some (w, n)) :
    P w ∧ sem w s = .ok (n, (p.advance sem s).2) := by
  cases p with
  | exec w' next =>
    rw [effect] at h
    rw [advance]
    rcases hsem : sem w' s with e | ⟨n', t⟩
    · rw [hsem] at h
      cases h
    · rw [hsem] at h
      cases h
      exact ⟨hp.1, hsem⟩
  | _ => cases h

/-- a step that has no effect leaves the state alone -/
theorem advance_of_no_effect {s : σ} (hp : p.Linked P opens closes m) (h : p.effect sem s = none) :
    (p.advance sem s).2 = s := by
  cases p with
  | exec w next =>
    rw [effect] at h
    rw [advance]
    rcases hsem : sem w s with e | ⟨n, t⟩
    · rfl
    · rw [hsem] at h
      cases h
  | tx body next =>
    rw [advance]
    rcases hbody : body.run sem s with ⟨e | b, t⟩
    · rfl
    · exact hp.2.1.eq_of_run hbody
  | _ => rfl

end Prog

/-! ## Calls -/

namespace Calls

variable {ρ σ ω ε κ : Type} (start : ρ → Prog σ ω ε Unit) (sem : ω → σ → Except ε (ℕ × σ)) (e : ε)

/-- the statement of a move that takes effect -/
def effect (s : Calls ρ σ ω ε) : Move ρ → Option (ω × ℕ)
  | .issue _ => none
  | .advance i => s.calls[i]?.bind fun c => c.rest.effect sem s.shared
  | .interrupt _ => none

/-- the statement of a move that fails, or that it makes fail -/
def failure (s : Calls ρ σ ω ε) : Move ρ → Option ω
  | .issue _ => none
  | .advance i => s.calls[i]?.bind fun c => c.rest.failure sem s.shared
  | .interrupt i => s.calls[i]?.bind fun c => c.rest.pending

def effects : Calls ρ σ ω ε → List (Move ρ) → List (ω × ℕ)
  | _, [] => []
  | s, o :: moves => (s.effect sem o).toList ++ effects (s.step start sem e o) moves

def failures : Calls ρ σ ω ε → List (Move ρ) → List ω
  | _, [] => []
  | s, o :: moves => (s.failure sem o).toList ++ failures (s.step start sem e o) moves

/-- what the calls are about to close -/
def owed (closes : ω → Option κ) (s : Calls ρ σ ω ε) : List κ := s.calls.filterMap fun c => c.rest.pending.bind closes

def AllLinked (P : ω → Prop) (opens : ω → ℕ → Option κ) (closes : ω → Option κ) (s : Calls ρ σ ω ε) : Prop :=
  ∀ c ∈ s.calls, ∃ m, c.rest.Linked P opens closes m

variable {start sem e} {P : ω → Prop} {opens : ω → ℕ → Option κ} {closes : ω → Option κ} {s : Calls ρ σ ω ε}
  {o : Move ρ}

theorem allLinked_step (hstart : ∀ r, o = .issue r → (start r).Linked P opens closes none)
    (hs : s.AllLinked P opens closes) :
    (s.step start sem e o).AllLinked P opens closes := by
  intro c' hc'
  obtain ⟨k, hk⟩ := List.mem_iff_getElem?.mp hc'
  obtain ⟨r, hr, rfl⟩ | ⟨c, hc, rfl | ⟨-, rfl, -⟩ | ⟨-, rfl⟩⟩ := getElem?_step hk
  · exact ⟨none, hstart r hr⟩
  · exact hs c' (List.mem_of_getElem? hc)
  · obtain ⟨m, hm⟩ := hs c (List.mem_of_getElem? hc)
    exact ⟨_, (Prog.linked_advance sem hm s.shared).1⟩
  · obtain ⟨m, hm⟩ := hs c (List.mem_of_getElem? hc)
    exact ⟨_, Prog.linked_interrupt hm e⟩

/-- a move has one effect on the state, or none -/
theorem shared_step_cases (start : ρ → Prog σ ω ε Unit) (e : ε) (o : Move ρ) (hs : s.AllLinked P opens closes) :
    (∃ w n, s.effect sem o = some (w, n) ∧ P w ∧ sem w s.shared = .ok (n, (s.step start sem e o).shared)) ∨
      s.effect sem o = none ∧ (s.step start sem e o).shared = s.shared := by
  cases o with
  | issue r => exact .inr ⟨rfl, rfl⟩
  | interrupt i => exact .inr ⟨rfl, rfl⟩
  | advance i =>
    rw [effect]
    rcases hi : s.calls[i]? with _ | c
    · refine .inr ⟨rfl, ?_⟩
      rw [step, hi]
      rfl
    · rw [shared_advance hi, Option.bind_some]
      obtain ⟨m, hm⟩ := hs c (List.mem_of_getElem? hi)
      cases heffect : c.rest.effect sem s.shared with
      | none => exact .inr ⟨rfl, Prog.advance_of_no_effect hm heffect⟩
      | some r => exact .inl ⟨r.1, r.2, rfl, Prog.advance_of_effect hm heffect⟩

/-- **What each effect keeps holds of all of them.** -/
theorem effects_run {R : List (ω × ℕ) → σ → Prop} (done : List (ω × ℕ)) {moves : List (Move ρ)}
    (hstart : ∀ r, .issue r ∈ moves → (start r).Linked P opens closes none)
    (hsem : ∀ {done w n t t'}, P w → R done t → sem w t = .ok (n, t') → R (done ++ [(w, n)]) t')
    (hs : s.AllLinked P opens closes) (h : R done s.shared) :
    R (done ++ s.effects start sem e moves) (run (step start sem e) s moves).shared := by
  induction moves generalizing s done with
  | nil => simpa [effects] using h
  | cons o moves ih =>
    have hs' : (s.step start sem e o).AllLinked P opens closes :=
      allLinked_step (fun r hr => hstart r (hr ▸ List.mem_cons_self)) hs
    rw [effects, run_cons, ← List.append_assoc]
    apply ih _ (fun r hr => hstart r (List.mem_cons_of_mem o hr)) hs'
    obtain ⟨w, n, heffect, hw, hok⟩ | ⟨heffect, hshared⟩ := shared_step_cases start e o hs
    · rw [heffect]
      exact hsem hw h hok
    · rw [heffect, hshared]
      simpa using h

/-! ## Conservation -/

theorem countP_owed (q : κ → Bool) (s : Calls ρ σ ω ε) :
    (s.owed closes).countP q = s.calls.countP fun c => (c.rest.pending.bind closes).any q := by
  rw [owed, List.countP_filterMap]
  apply List.countP_congr
  intro c _
  cases c.rest.pending.bind closes <;> simp

/-- what a move opens is new, and what it closes or loses was owed -/
theorem conserved_step (sem : ω → σ → Except ε (ℕ × σ)) (e : ε) (o : Move ρ)
    (hstart : ∀ r, o = .issue r → (start r).Linked P opens closes none) (hs : s.AllLinked P opens closes)
    (q : κ → Bool) :
    (if ((s.effect sem o).bind fun r => opens r.1 r.2).any q then 1 else 0) + (s.owed closes).countP q =
      (if ((s.effect sem o).bind fun r => closes r.1).any q then 1 else 0) +
        (if ((s.failure sem o).bind closes).any q then 1 else 0) + ((s.step start sem e o).owed closes).countP q := by
  cases o with
  | issue r =>
    have hnew : (start r).pending.bind closes = none := (hstart r rfl).pending
    simp [effect, failure, countP_owed, step, hnew]
  | advance i =>
    rw [effect, failure, countP_owed, countP_owed, step]
    rcases hi : s.calls[i]? with _ | c
    · simp [modify_of_none hi]
    · obtain ⟨m, hm⟩ := hs c (List.mem_of_getElem? hi)
      obtain ⟨hnext, hclosed⟩ := Prog.linked_advance sem hm s.shared
      have hcount := countP_modify (q := fun c : Call ρ σ ω ε => (c.rest.pending.bind closes).any q)
        (f := Call.map fun p => (p.advance sem s.shared).1) hi
      have hafter := hnext.pending
      simp only [Call.map, hm.pending, hafter] at hcount
      simp only [Option.bind_some]
      rcases hclosed with ⟨rfl, hlost⟩ | ⟨rfl, hclosed⟩
      · simp only [hlost, Option.any_none, Bool.false_eq_true, if_false] at hcount ⊢
        omega
      · simp only [hclosed, Option.any_none, Bool.false_eq_true, if_false] at hcount ⊢
        omega
  | interrupt i =>
    rw [effect, failure, countP_owed, countP_owed, step]
    rcases hi : s.calls[i]? with _ | c
    · simp [modify_of_none hi]
    · obtain ⟨m, hm⟩ := hs c (List.mem_of_getElem? hi)
      have hcount := countP_modify (q := fun c : Call ρ σ ω ε => (c.rest.pending.bind closes).any q)
        (f := Call.map (Prog.interrupt e)) hi
      have hafter := (Prog.linked_interrupt hm e).pending
      simp only [Call.map, hafter, Option.any_none, Bool.false_eq_true, if_false] at hcount
      simp only [Option.bind_none, Option.any_none, Option.bind_some, Bool.false_eq_true, if_false]
      omega

/-- **Nothing is lost but with a statement that fails, and nothing is done twice.** -/
theorem conserved (sem : ω → σ → Except ε (ℕ × σ)) (e : ε) {moves : List (Move ρ)}
    (hstart : ∀ r, .issue r ∈ moves → (start r).Linked P opens closes none)
    (hs : s.AllLinked P opens closes) (q : κ → Bool) :
    ((s.effects start sem e moves).filterMap fun r => opens r.1 r.2).countP q + (s.owed closes).countP q =
      ((s.effects start sem e moves).filterMap fun r => closes r.1).countP q +
        ((s.failures start sem e moves).filterMap closes).countP q +
          ((run (step start sem e) s moves).owed closes).countP q := by
  have hfirst : ∀ {α : Type} (x : Option α) (f : α → Option κ),
      (x.toList.filterMap f).countP q = if (x.bind f).any q then 1 else 0 := by
    intro α x f
    cases x with
    | none => rfl
    | some a => cases h : f a <;> simp [h, List.countP_cons]
  induction moves generalizing s with
  | nil => simp [effects, failures]
  | cons o moves ih =>
    have hfrom : ∀ r, o = .issue r → (start r).Linked P opens closes none :=
      fun r hr => hstart r (hr ▸ List.mem_cons_self)
    have hs' : (s.step start sem e o).AllLinked P opens closes := allLinked_step hfrom hs
    have hstep := conserved_step sem e o hfrom hs q
    have hrest := ih (fun r hr => hstart r (List.mem_cons_of_mem o hr)) hs'
    rw [effects, failures, run_cons, List.filterMap_append, List.filterMap_append, List.filterMap_append,
      List.countP_append, List.countP_append, List.countP_append, hfirst, hfirst, hfirst]
    omega

end Calls

end Lumiere.Core
