/-
Tasks that run side by side over a shared state. A turn advances one task by one atomic command, lets its pending command
come back with an error, or is something that happens outside the tasks (time passing).

- `Prog.advance`: the first command of a program, together with the computation up to the next one. `run_advance`: a
  program alone is its commands one after the other.
- `Pool.step`: the pool, for any notion of task. Programs are one; the stages of a program, named by the command that
  comes next, are another.
- `run_map`: a map between two notions of task that commutes with a turn commutes with every run.
- `send`, `advance_exec`: a stage that sends one command.
- `sole_step`: at most one task satisfies a predicate, if one that comes to satisfy it is alone.
-/
import Lumiere.Core.Prog
import Lumiere.Core.Run
import Mathlib.Logic.Function.Basic

namespace Lumiere.Core

namespace Prog

variable {σ ω ε α : Type}

def advance (sem : ω → σ → Except ε (ℕ × σ)) : Prog σ ω ε α → σ → Prog σ ω ε α × σ
  | .ret a, s => (.ret a, s)
  | .fail e, s => (.fail e, s)
  | .query next, s => (next s, s)
  | .exec w next, s =>
    match sem w s with
    | .ok (n, s') => (next n, s')
    | .error e => (.fail e, s)
  | .tx body next, s =>
    match body.run sem s with
    | (.ok b, s') => (next b, s')
    | (.error e, _) => (.fail e, s)

/-- the pending command fails -/
def interrupt (e : ε) : Prog σ ω ε α → Prog σ ω ε α
  | .ret a => .ret a
  | .fail e' => .fail e'
  | _ => .fail e

/-- the program has returned a value -/
def succeeded : Prog σ ω ε α → Bool
  | .ret _ => true
  | _ => false

def finished : Prog σ ω ε α → Bool
  | .ret _ | .fail _ => true
  | _ => false

theorem advance_select_bind {β : Type} (sem : ω → σ → Except ε (ℕ × σ)) (f : σ → β) (k : β → Prog σ ω ε α) (s : σ) :
    (select f >>= k).advance sem s = (k (f s), s) := rfl

theorem run_advance (sem : ω → σ → Except ε (ℕ × σ)) (p : Prog σ ω ε α) (s : σ) :
    (p.advance sem s).1.run sem (p.advance sem s).2 = p.run sem s := by
  cases p with
  | ret a => rfl
  | fail e => rfl
  | query next => rfl
  | exec w next =>
    rw [advance, run_exec]
    rcases sem w s with e | ⟨n, s'⟩ <;> rfl
  | tx body next =>
    rw [advance, run_tx]
    rcases body.run sem s with ⟨e | b, s'⟩ <;> rfl

end Prog

structure Pool (ι : Type*) (τ : Type*) (σ : Type*) where
  task : ι → τ
  shared : σ

inductive Turn (ι κ : Type) where
  | advance (i : ι)
  | interrupt (i : ι)
  | outside (k : κ)
deriving DecidableEq, Repr

namespace Pool

variable {ι κ σ : Type} {τ τ' : Type*} [DecidableEq ι]

def step (next : τ → σ → τ × σ) (stop : τ → τ) (env : σ → κ → σ) (s : Pool ι τ σ) : Turn ι κ → Pool ι τ σ
  | .advance i => ⟨Function.update s.task i (next (s.task i) s.shared).1, (next (s.task i) s.shared).2⟩
  | .interrupt i => { s with task := Function.update s.task i (stop (s.task i)) }
  | .outside k => { s with shared := env s.shared k }

/-- the turns of programs -/
def stepProg {ω ε α : Type} (sem : ω → σ → Except ε (ℕ × σ)) (e : ε) (env : σ → κ → σ) :
    Pool ι (Prog σ ω ε α) σ → Turn ι κ → Pool ι (Prog σ ω ε α) σ :=
  step (Prog.advance sem) (Prog.interrupt e) env

def map (f : τ → τ') (s : Pool ι τ σ) : Pool ι τ' σ := ⟨fun i => f (s.task i), s.shared⟩

/-- **Two notions of task that agree on every turn agree on every run.** -/
theorem run_map {next : τ → σ → τ × σ} {next' : τ' → σ → τ' × σ} {stop : τ → τ} {stop' : τ' → τ'} {env : σ → κ → σ}
    (f : τ → τ') (hnext : ∀ t s, next' (f t) s = (f (next t s).1, (next t s).2)) (hstop : ∀ t, stop' (f t) = f (stop t))
    (s : Pool ι τ σ) (ts : List (Turn ι κ)) :
    run (step next' stop' env) (s.map f) ts = (run (step next stop env) s ts).map f := by
  have hupdate : ∀ (g : ι → τ) i t, Function.update (fun j => f (g j)) i (f t) = fun j => f (Function.update g i t j) := by
    intro g i t
    funext j
    by_cases hj : j = i
    · subst hj
      simp
    · simp [hj]
  induction ts generalizing s with
  | nil => rfl
  | cons t ts ih =>
    rw [run_cons, run_cons, ← ih]
    congr 1
    cases t with
    | advance i => simp only [step, map, hnext, hupdate]
    | interrupt i => simp only [step, map, hstop, hupdate]
    | outside k => rfl

section Send

variable {ω ε α : Type} {τ : Type}

/-- a command, and the stage that follows if it does not fail -/
def send (sem : ω → σ → Except ε (ℕ × σ)) (failed : ε → τ) (w : ω) (t : τ) (s : σ) : τ × σ :=
  match sem w s with
  | .ok (_, s') => (t, s')
  | .error e => (failed e, s)

theorem send_cases {sem : ω → σ → Except ε (ℕ × σ)} {failed : ε → τ} {w : ω} {t t' : τ} {s s' : σ}
    (h : send sem failed w t s = (t', s')) :
    (t' = t ∧ ∃ n, sem w s = .ok (n, s')) ∨ ∃ e, t' = failed e ∧ s' = s := by
  rw [send] at h
  rcases hw : sem w s with e | ⟨n, s₁⟩
  · rw [hw] at h
    obtain ⟨rfl, rfl⟩ := Prod.mk.inj h
    exact .inr ⟨e, rfl, rfl⟩
  · rw [hw] at h
    obtain ⟨rfl, rfl⟩ := Prod.mk.inj h
    exact .inl ⟨rfl, n, rfl⟩

theorem advance_exec {sem : ω → σ → Except ε (ℕ × σ)} {failed : ε → τ} (prog : τ → Prog σ ω ε α)
    (hfailed : ∀ e, prog (failed e) = .fail e) (w : ω) (t : τ) {k : ℕ → Prog σ ω ε α} (hk : ∀ n, k n = prog t) (s : σ) :
    (Prog.exec w k).advance sem s = (prog (send sem failed w t s).1, (send sem failed w t s).2) := by
  rw [Prog.advance, send]
  rcases sem w s with e | ⟨n, s'⟩
  · exact Prod.ext (hfailed e).symm rfl
  · exact Prod.ext (hk n) rfl

end Send

section Turns

variable {next : τ → σ → τ × σ} {stop : τ → τ} {env : σ → κ → σ} {s : Pool ι τ σ} {i : ι} {t : τ} {x : σ}

theorem advance_shared (h : next (s.task i) s.shared = (t, x)) : (step next stop env s (.advance i)).shared = x := by
  rw [step, h]

theorem advance_task (h : next (s.task i) s.shared = (t, x)) (j : ι) :
    (step next stop env s (.advance i)).task j = if j = i then t else s.task j := by
  rw [step, h]
  exact Function.update_apply ..

theorem advance_own (h : next (s.task i) s.shared = (t, x)) : (step next stop env s (.advance i)).task i = t :=
  (advance_task h i).trans (if_pos rfl)

theorem advance_other {j : ι} (hj : j ≠ i) : (step next stop env s (.advance i)).task j = s.task j :=
  Function.update_of_ne hj ..

theorem interrupt_task (j : ι) :
    (step next stop env s (.interrupt i)).task j = if j = i then stop (s.task i) else s.task j :=
  Function.update_apply ..

theorem interrupt_own : (step next stop env s (.interrupt i)).task i = stop (s.task i) :=
  (interrupt_task i).trans (if_pos rfl)

theorem interrupt_other {j : ι} (hj : j ≠ i) : (step next stop env s (.interrupt i)).task j = s.task j :=
  (interrupt_task j).trans (if_neg hj)

end Turns

section Sole

variable {s s' : Pool ι τ σ} {i : ι} {P : τ → Prop}

omit [DecidableEq ι] in
/-- **At most one task.** A task that comes to satisfy P finds no other one that does. -/
theorem sole_step (hothers : ∀ j, j ≠ i → s'.task j = s.task j) (hone : ∀ j k, P (s.task j) → P (s.task k) → j = k)
    (hsole : P (s'.task i) → ∀ j, j ≠ i → ¬ P (s.task j)) (j k : ι) (hj : P (s'.task j)) (hk : P (s'.task k)) :
    j = k := by
  by_cases hji : j = i
  · by_cases hki : k = i
    · exact hji.trans hki.symm
    · rw [hothers k hki] at hk
      exact absurd hk (hsole (hji ▸ hj) k hki)
  · rw [hothers j hji] at hj
    by_cases hki : k = i
    · exact absurd hj (hsole (hki ▸ hk) j hji)
    · rw [hothers k hki] at hk
      exact hone j k hj hk

end Sole

end Pool

end Lumiere.Core
