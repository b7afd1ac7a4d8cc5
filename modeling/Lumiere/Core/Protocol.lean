/-
Programs that follow a protocol: an automaton over statements and what they report. A task is a program together with the
state to which its statements have led.

- `Prog.Follows`: a program executes only statements that the protocol has, and ends only where it may.
- `Followed.next_cases`: a step of a task reads, fails or executes a statement of the protocol.
- `run_rest`: without their states the tasks are the programs.
-/
import Lumiere.Core.Interleaving

namespace Lumiere.Core

variable {σ ω ε α β κ : Type}

/-- an automaton over the statements ω -/
structure Protocol (ω κ : Type) where
  /-- where a statement that reports this number leads, if it is allowed -/
  after : κ → ω → ℕ → Option κ
  /-- where a program may end or fail -/
  ends : κ → Prop

namespace Prog

/-! ## One program -/

/-- what the program reads satisfies `I` -/
def Follows (P : Protocol ω κ) (I : σ → Prop) {α : Type} : Prog σ ω ε α → κ → Prop
  | .ret _, k => P.ends k
  | .fail _, k => P.ends k
  | .query next, k => ∀ s, I s → (next s).Follows P I k
  | .exec w next, k => ∀ n, ∃ k', P.after k w n = some k' ∧ (next n).Follows P I k'
  | .tx body next, k => P.ends k ∧ body.ReadOnly ∧ ∀ b, (next b).Follows P I k

variable {P : Protocol ω κ} {I : σ → Prop} {p : Prog σ ω ε α} {f : α → Prog σ ω ε β} {k k' : κ} {w : ω}

theorem ReadOnly.follows_bind (hp : p.ReadOnly) (hk : P.ends k) (hf : ∀ a, (f a).Follows P I k) :
    (p >>= f).Follows P I k := by
  show (p.bind f).Follows P I k
  induction p with
  | ret a => exact hf a
  | fail e => exact hk
  | query next ih => exact fun s _ => ih s (hp s) hf
  | exec w next ih => exact hp.1.elim
  | tx body next _ ih => exact ⟨hk, hp.1, fun b => ih b (hp.2 b) hf⟩

theorem follows_execute_bind {g : Unit → Prog σ ω ε β} (hw : ∀ n, P.after k w n = some k')
    (hg : (g ()).Follows P I k') : (execute w >>= g).Follows P I k :=
  fun n => ⟨k', hw n, hg⟩

theorem follows_interrupt (hp : p.Follows P I k) (hk : P.ends k) (e : ε) : (p.interrupt e).Follows P I k := by
  cases p with
  | ret a => exact hp
  | _ => exact hk

/-- where a program may not end, it has not ended -/
theorem Follows.finished_eq_false (hp : p.Follows P I k) (hk : ¬ P.ends k) : p.finished = false := by
  cases p with
  | ret a => exact absurd hp hk
  | fail e => exact absurd hp hk
  | _ => rfl

theorem finished_interrupt (p : Prog σ ω ε α) (e : ε) : (p.interrupt e).finished = true := by
  cases p <;> rfl

theorem advance_of_finished {sem : ω → σ → Except ε (ℕ × σ)} (hp : p.finished = true) (s : σ) :
    p.advance sem s = (p, s) := by
  cases p with
  | ret a => rfl
  | fail e => rfl
  | _ => cases hp

end Prog

/-! ## A program and its state -/

structure Followed (σ ω ε α κ : Type) where
  rest : Prog σ ω ε α
  state : κ

namespace Followed

variable (P : Protocol ω κ) (sem : ω → σ → Except ε (ℕ × σ))

/-- the state after the next statement -/
def moved (t : Followed σ ω ε α κ) (s : σ) : κ :=
  match t.rest.pending with
  | none => t.state
  | some w =>
    match sem w s with
    | .ok (n, _) => (P.after t.state w n).getD t.state
    | .error _ => t.state

def next (t : Followed σ ω ε α κ) (s : σ) : Followed σ ω ε α κ × σ :=
  (⟨(t.rest.advance sem s).1, t.moved P sem s⟩, (t.rest.advance sem s).2)

def stop (e : ε) (t : Followed σ ω ε α κ) : Followed σ ω ε α κ := { t with rest := t.rest.interrupt e }

variable {P sem} {I : σ → Prop} {t t' : Followed σ ω ε α κ} {s s' : σ}

def Follows (P : Protocol ω κ) (I : σ → Prop) (t : Followed σ ω ε α κ) : Prop := t.rest.Follows P I t.state

/-- **A step of a task.** It changes neither the shared state nor its own, or executes a statement of the protocol. -/
theorem next_cases (hfail : ∀ k w n k' s e, P.after k w n = some k' → sem w s = .error e → P.ends k)
    (ht : t.Follows P I) (hs : I s) (h : t.next P sem s = (t', s')) :
    (s' = s ∧ t'.state = t.state ∧ t'.Follows P I) ∨
      ∃ w n, t.rest.pending = some w ∧ sem w s = .ok (n, s') ∧ P.after t.state w n = some t'.state ∧ t'.Follows P I := by
  obtain ⟨p, k⟩ := t
  obtain ⟨rfl, rfl⟩ := Prod.mk.inj h
  cases p with
  | ret a => exact .inl ⟨rfl, rfl, ht⟩
  | fail e => exact .inl ⟨rfl, rfl, ht⟩
  | query next => exact .inl ⟨rfl, rfl, ht s hs⟩
  | exec w next =>
    simp only [Follows, moved, Prog.pending, Prog.advance] at ht ⊢
    rcases hexec : sem w s with e | ⟨n, s'⟩
    · obtain ⟨k', hk', -⟩ := ht 0
      exact .inl ⟨rfl, rfl, hfail k w 0 k' s e hk' hexec⟩
    · obtain ⟨k', hk', hnext⟩ := ht n
      refine .inr ⟨w, n, rfl, hexec, ?_⟩
      simp only [hk', Option.getD_some, true_and]
      exact hnext
  | tx body next =>
    obtain ⟨hk, hbody, hnext⟩ := ht
    refine .inl ?_
    simp only [Follows, moved, Prog.pending, Prog.advance, true_and]
    rcases hrun : body.run sem s with ⟨e | b, s'⟩
    · exact ⟨rfl, hk⟩
    · obtain rfl := hbody.eq_of_run hrun
      exact ⟨rfl, hnext b⟩

/-- **Without the states, the programs.** -/
theorem run_rest {ι ν : Type} [DecidableEq ι] (e : ε) (env : σ → ν → σ) (s : Pool ι (Followed σ ω ε α κ) σ)
    (ts : List (Turn ι ν)) :
    run (Pool.stepProg sem e env) (s.map Followed.rest) ts =
      (run (Pool.step (Followed.next P sem) (Followed.stop e) env) s ts).map Followed.rest :=
  Pool.run_map Followed.rest (fun _ _ => rfl) (fun _ => rfl) s ts

end Followed

end Lumiere.Core
