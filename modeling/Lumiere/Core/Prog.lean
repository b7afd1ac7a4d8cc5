/-
Request handlers as programs over a database: reads of the state σ, statements ω that each take effect on their own,
and transactions. An error stops the program and leaves what was already written; inside a transaction it takes the
transaction's writes back.

- `Prog.run`: the program alone, statement by statement, under the meaning `sem` of a single statement.
- `Issues P p`: every statement that `p` can issue satisfies P, whatever it reads. `issues_run`: an invariant that
  every such statement keeps holds when `p` has run.
- `ReadOnly p`: `p` issues no statement. `run_readOnly`.
- `run_bind_inv`: sequencing, where the second program may rely on what the first one returned.
-/
import Mathlib.Data.List.Basic
import Mathlib.Tactic.SplitIfs

namespace Lumiere.Core

inductive Prog (σ ω ε : Type) : Type → Type 1 where
  | ret {α : Type} (a : α) : Prog σ ω ε α
  | fail {α : Type} (e : ε) : Prog σ ω ε α
  | query {α : Type} (next : σ → Prog σ ω ε α) : Prog σ ω ε α
  /-- the statement reports the number of rows it affected -/
  | exec {α : Type} (w : ω) (next : ℕ → Prog σ ω ε α) : Prog σ ω ε α
  | tx {α β : Type} (body : Prog σ ω ε β) (next : β → Prog σ ω ε α) : Prog σ ω ε α

namespace Prog

variable {σ ω ε α β γ : Type}

def bind : Prog σ ω ε α → (α → Prog σ ω ε β) → Prog σ ω ε β
  | .ret a, f => f a
  | .fail e, _ => .fail e
  | .query next, f => .query fun s => (next s).bind f
  | .exec w next, f => .exec w fun n => (next n).bind f
  | .tx body next, f => .tx body fun b => (next b).bind f

instance : Monad (Prog σ ω ε) where
  pure := .ret
  bind := bind

theorem bind_bind (p : Prog σ ω ε α) (f : α → Prog σ ω ε β) (g : β → Prog σ ω ε γ) :
    (p >>= f) >>= g = p >>= fun a => f a >>= g := by
  show (p.bind f).bind g = p.bind fun a => (f a).bind g
  induction p with
  | ret a => rfl
  | fail e => rfl
  | query next ih => exact congrArg query (funext fun s => ih s f)
  | exec w next ih => exact congrArg (exec w) (funext fun n => ih n f)
  | tx body next _ ih => exact congrArg (tx body) (funext fun b => ih b f)

def select (f : σ → α) : Prog σ ω ε α := .query fun s => .ret (f s)

/-- a statement whose count of affected rows is read -/
def affected (w : ω) : Prog σ ω ε ℕ := .exec w .ret

def execute (w : ω) : Prog σ ω ε Unit := .exec w fun _ => .ret ()

def atomically (p : Prog σ ω ε α) : Prog σ ω ε α := .tx p .ret

def orFail (e : ε) : Option α → Prog σ ω ε α
  | some a => .ret a
  | none => .fail e

def failIf (c : Prop) [Decidable c] (e : ε) : Prog σ ω ε Unit := if c then .fail e else .ret ()

/-- the program if the condition holds, nothing otherwise -/
def when (c : Prop) [Decidable c] (p : Prog σ ω ε Unit) : Prog σ ω ε Unit := if c then p else .ret ()

def ofExcept : Except ε α → Prog σ ω ε α
  | .ok a => .ret a
  | .error e => .fail e

/-- a program over a part of a larger state -/
def lift {σ' ω' : Type} (get : σ' → σ) (f : ω → ω') {α : Type} : Prog σ ω ε α → Prog σ' ω' ε α
  | .ret a => .ret a
  | .fail e => .fail e
  | .query next => .query fun s => (next (get s)).lift get f
  | .exec w next => .exec (f w) fun n => (next n).lift get f
  | .tx body next => .tx (body.lift get f) fun b => (next b).lift get f

/-! ## Running alone -/

section Run

variable (sem : ω → σ → Except ε (ℕ × σ))

def run {α : Type} : Prog σ ω ε α → σ → Except ε α × σ
  | .ret a, s => (.ok a, s)
  | .fail e, s => (.error e, s)
  | .query next, s => (next s).run s
  | .exec w next, s =>
    match sem w s with
    | .ok (n, s') => (next n).run s'
    | .error e => (.error e, s)
  | .tx body next, s =>
    match body.run s with
    | (.ok b, s') => (next b).run s'
    | (.error e, _) => (.error e, s)

variable {sem} {s s' : σ} {p : Prog σ ω ε α} {f : α → Prog σ ω ε β}

theorem run_ret (a : α) (s : σ) : (ret a : Prog σ ω ε α).run sem s = (.ok a, s) := rfl

theorem run_exec (w : ω) (next : ℕ → Prog σ ω ε α) (s : σ) :
    (exec w next).run sem s =
      match sem w s with
      | .ok (n, s') => (next n).run sem s'
      | .error e => (.error e, s) := by
  rw [run]

theorem run_tx (body : Prog σ ω ε β) (next : β → Prog σ ω ε α) (s : σ) :
    (tx body next).run sem s =
      match body.run sem s with
      | (.ok b, s') => (next b).run sem s'
      | (.error e, _) => (.error e, s) := by
  rw [run]

@[simp] theorem run_pure (a : α) : (pure a : Prog σ ω ε α).run sem s = (.ok a, s) := rfl

@[simp] theorem run_fail (e : ε) : (fail e : Prog σ ω ε α).run sem s = (.error e, s) := rfl

@[simp] theorem run_select (f : σ → α) : (select f : Prog σ ω ε α).run sem s = (.ok (f s), s) := rfl

@[simp] theorem run_orFail_some (e : ε) (a : α) : (orFail e (some a) : Prog σ ω ε α).run sem s = (.ok a, s) := rfl

@[simp] theorem run_orFail_none (e : ε) : (orFail e none : Prog σ ω ε α).run sem s = (.error e, s) := rfl

@[simp] theorem run_ofExcept (r : Except ε α) : (ofExcept r : Prog σ ω ε α).run sem s = (r, s) := by
  cases r <;> rfl

theorem run_failIf {c : Prop} [Decidable c] {e : ε} :
    (failIf c e : Prog σ ω ε Unit).run sem s = (if c then .error e else .ok (), s) := by
  rw [failIf]
  split_ifs <;> rfl

theorem failIf_eq_ok {c : Prop} [Decidable c] {e : ε} {u : Unit} :
    (failIf c e : Prog σ ω ε Unit).run sem s = (.ok u, s') ↔ ¬ c ∧ s' = s := by
  rw [run_failIf, Prod.mk.injEq]
  by_cases hc : c <;> simp [hc, eq_comm]

theorem orFail_eq_ok {e : ε} {o : Option α} {a : α} :
    (orFail e o : Prog σ ω ε α).run sem s = (.ok a, s') ↔ o = some a ∧ s' = s := by
  cases o <;> simp [eq_comm]

theorem run_bind (p : Prog σ ω ε α) (f : α → Prog σ ω ε β) (s : σ) :
    (p >>= f).run sem s =
      match p.run sem s with
      | (.ok a, s') => (f a).run sem s'
      | (.error e, s') => (.error e, s') := by
  show (p.bind f).run sem s = _
  induction p generalizing s with
  | ret a => rfl
  | fail e => rfl
  | query next ih => exact ih s f s
  | exec w next ih =>
    rw [bind, run_exec, run_exec]
    rcases sem w s with e | ⟨n, s'⟩
    · rfl
    · exact ih n f s'
  | tx body next _ ih =>
    rw [bind, run_tx, run_tx]
    rcases body.run sem s with ⟨e | b, s'⟩
    · rfl
    · exact ih b f s'

theorem run_bind_of_ok {a : α} (h : p.run sem s = (.ok a, s')) : (p >>= f).run sem s = (f a).run sem s' := by
  rw [run_bind, h]

theorem run_bind_of_error {e : ε} (h : p.run sem s = (.error e, s')) : (p >>= f).run sem s = (.error e, s') := by
  rw [run_bind, h]

theorem run_bind_eq_ok {b : β} {t : σ} :
    (p >>= f).run sem s = (.ok b, t) ↔
      ∃ a s', p.run sem s = (.ok a, s') ∧ (f a).run sem s' = (.ok b, t) := by
  rw [run_bind]
  rcases p.run sem s with ⟨e | a, s'⟩
  · simp
  · constructor
    · exact fun h => ⟨a, s', rfl, h⟩
    · rintro ⟨a', t', h, hf⟩
      cases h
      exact hf

theorem execute_eq_ok {w : ω} {u : Unit} :
    (execute w : Prog σ ω ε Unit).run sem s = (.ok u, s') ↔ ∃ n, sem w s = .ok (n, s') := by
  rw [execute, run_exec]
  rcases sem w s with e | ⟨n, t⟩
  · simp
  · simp only [run_ret, Prod.mk.injEq, true_and, Except.ok.injEq]
    exact ⟨fun h => ⟨n, rfl, h⟩, fun ⟨_, _, h⟩ => h⟩

/-- a statement that fails writes nothing -/
theorem run_execute_cases (sem : ω → σ → Except ε (ℕ × σ)) (w : ω) (s : σ) :
    (∃ n s', sem w s = .ok (n, s') ∧ (execute w : Prog σ ω ε Unit).run sem s = (.ok (), s')) ∨
      ∃ e, (execute w : Prog σ ω ε Unit).run sem s = (.error e, s) := by
  rw [execute, run_exec]
  rcases sem w s with e | ⟨n, s'⟩
  · exact .inr ⟨e, rfl⟩
  · exact .inl ⟨n, s', rfl, rfl⟩

theorem affected_eq_ok {w : ω} {n : ℕ} :
    (affected w : Prog σ ω ε ℕ).run sem s = (.ok n, s') ↔ sem w s = .ok (n, s') := by
  rw [affected, run_exec]
  rcases sem w s with e | ⟨m, t⟩
  · simp
  · simp [run_ret]

theorem run_execute_inv {I : σ → Prop} {w : ω} (hs : I s) (h : ∀ n s', sem w s = .ok (n, s') → I s') :
    I ((execute w : Prog σ ω ε Unit).run sem s).2 := by
  rw [execute, run_exec]
  rcases hw : sem w s with e | ⟨n, s'⟩
  · exact hs
  · exact h n s' hw

theorem run_bind_inv {I : σ → Prop} (hp : I (p.run sem s).2)
    (hf : ∀ a s', p.run sem s = (.ok a, s') → I s' → I ((f a).run sem s').2) : I ((p >>= f).run sem s).2 := by
  rw [run_bind]
  rcases h : p.run sem s with ⟨e | a, s'⟩
  · rwa [h] at hp
  · rw [h] at hp
    exact hf a s' h hp

theorem atomically_eq_ok {a : α} :
    (atomically p).run sem s = (.ok a, s') ↔ p.run sem s = (.ok a, s') := by
  rw [atomically, run_tx]
  rcases p.run sem s with ⟨e | b, t⟩
  · simp
  · simp [run_ret]

theorem run_atomically_inv {I : σ → Prop} (hs : I s) (hp : ∀ a s', p.run sem s = (.ok a, s') → I s') :
    I ((atomically p).run sem s).2 := by
  rw [atomically, run_tx]
  rcases h : p.run sem s with ⟨e | a, s'⟩
  · exact hs
  · exact hp a s' h

/-- a program over a part of the state, which `u` puts back, runs on the part -/
theorem run_lift {σ' ω' : Type} {get : σ' → σ} {u : σ' → σ → σ'} {f : ω → ω'} {sem : ω → σ → Except ε (ℕ × σ)}
    {sem' : ω' → σ' → Except ε (ℕ × σ')} (hget : ∀ s x, get (u s x) = x) (hset : ∀ s, u s (get s) = s)
    (hsetset : ∀ s x y, u (u s x) y = u s y)
    (hsem : ∀ w s, sem' (f w) s = (sem w (get s)).map fun r => (r.1, u s r.2)) (p : Prog σ ω ε α) (s : σ') :
    (p.lift get f).run sem' s = ((p.run sem (get s)).1, u s (p.run sem (get s)).2) := by
  induction p generalizing s with
  | ret a => exact Prod.ext rfl (hset s).symm
  | fail e => exact Prod.ext rfl (hset s).symm
  | query next ih => exact ih (get s) s
  | exec w next ih =>
    rw [lift, run_exec, run_exec, hsem]
    rcases sem w (get s) with e | ⟨n, x⟩
    · exact Prod.ext rfl (hset s).symm
    · rw [Except.map]
      dsimp only
      rw [ih n, hget, hsetset]
  | tx body next ihb ih =>
    rw [lift, run_tx, run_tx, ihb]
    rcases body.run sem (get s) with ⟨e | b, x⟩
    · exact Prod.ext rfl (hset s).symm
    · dsimp only
      rw [ih b, hget, hsetset]

/-- the program alone ends without an error -/
def succeeds (sem : ω → σ → Except ε (ℕ × σ)) (p : Prog σ ω ε α) (s : σ) : Bool :=
  match (p.run sem s).1 with
  | .ok _ => true
  | .error _ => false

theorem succeeds_iff : p.succeeds sem s = true ↔ ∃ a s', p.run sem s = (.ok a, s') := by
  rw [succeeds]
  rcases p.run sem s with ⟨e | a, s'⟩ <;> simp

theorem succeeds_of_run {a : α} (h : p.run sem s = (.ok a, s')) : p.succeeds sem s = true := by
  rw [succeeds, h]

end Run

/-! ## The statements of a program -/

def Issues (P : ω → Prop) {α : Type} : Prog σ ω ε α → Prop
  | .ret _ => True
  | .fail _ => True
  | .query next => ∀ s, (next s).Issues P
  | .exec w next => P w ∧ ∀ n, (next n).Issues P
  | .tx body next => body.Issues P ∧ ∀ b, (next b).Issues P

section Issues

variable {P Q : ω → Prop} {p : Prog σ ω ε α} {f : α → Prog σ ω ε β}

theorem issues_pure (a : α) : (pure a : Prog σ ω ε α).Issues P := trivial

theorem issues_fail (e : ε) : (fail e : Prog σ ω ε α).Issues P := trivial

theorem issues_select (f : σ → α) : (select f : Prog σ ω ε α).Issues P := fun _ => trivial

theorem issues_execute {w : ω} (h : P w) : (execute w : Prog σ ω ε Unit).Issues P := ⟨h, fun _ => trivial⟩

theorem issues_affected {w : ω} (h : P w) : (affected w : Prog σ ω ε ℕ).Issues P := ⟨h, fun _ => trivial⟩

theorem issues_atomically (h : p.Issues P) : (atomically p).Issues P := ⟨h, fun _ => trivial⟩

theorem issues_orFail (e : ε) (a : Option α) : (orFail e a : Prog σ ω ε α).Issues P := by
  cases a <;> trivial

theorem issues_failIf (c : Prop) [Decidable c] (e : ε) : (failIf c e : Prog σ ω ε Unit).Issues P := by
  rw [failIf]
  split_ifs <;> trivial

theorem issues_when {c : Prop} [Decidable c] {p : Prog σ ω ε Unit} (h : c → p.Issues P) : (when c p).Issues P := by
  rw [when]
  split_ifs with hc
  · exact h hc
  · trivial

theorem issues_ofExcept (r : Except ε α) : (ofExcept r : Prog σ ω ε α).Issues P := by
  cases r <;> trivial

theorem issues_bind (hp : p.Issues P) (hf : ∀ a, (f a).Issues P) : (p >>= f).Issues P := by
  show (p.bind f).Issues P
  induction p with
  | ret a => exact hf a
  | fail e => trivial
  | query next ih => exact fun s => ih s (hp s) hf
  | exec w next ih => exact ⟨hp.1, fun n => ih n (hp.2 n) hf⟩
  | tx body next _ ih => exact ⟨hp.1, fun b => ih b (hp.2 b) hf⟩

theorem issues_forM {xs : List β} {body : β → Prog σ ω ε PUnit} (h : ∀ x ∈ xs, (body x).Issues P) :
    (xs.forM body).Issues P := by
  induction xs with
  | nil => trivial
  | cons x xs ih =>
    exact issues_bind (h x List.mem_cons_self) fun _ => ih fun y hy => h y (List.mem_cons_of_mem x hy)

theorem issues_forM_option {o : Option β} {body : β → Prog σ ω ε PUnit} (h : ∀ x ∈ o, (body x).Issues P) :
    (o.forM body).Issues P := by
  cases o with
  | none => trivial
  | some x => exact h x rfl

theorem issues_lift {σ' ω' : Type} {get : σ' → σ} {f : ω → ω'} {P : ω' → Prop} {p : Prog σ ω ε α}
    (hp : p.Issues fun w => P (f w)) : (p.lift get f).Issues P := by
  induction p with
  | ret a => trivial
  | fail e => trivial
  | query next ih => exact fun s => ih (get s) (hp (get s))
  | exec w next ih => exact ⟨hp.1, fun n => ih n (hp.2 n)⟩
  | tx body next ihb ih => exact ⟨ihb hp.1, fun b => ih b (hp.2 b)⟩

theorem Issues.mono (h : ∀ w, P w → Q w) (hp : p.Issues P) : p.Issues Q := by
  induction p with
  | ret a => trivial
  | fail e => trivial
  | query next ih => exact fun s => ih s (hp s)
  | exec w next ih => exact ⟨h w hp.1, fun n => ih n (hp.2 n)⟩
  | tx body next ihb ih => exact ⟨ihb hp.1, fun b => ih b (hp.2 b)⟩

theorem issues_true (p : Prog σ ω ε α) : p.Issues fun _ => True := by
  induction p with
  | ret a => trivial
  | fail e => trivial
  | query next ih => exact ih
  | exec w next ih => exact ⟨trivial, ih⟩
  | tx body next ihb ih => exact ⟨ihb, ih⟩

/-- **An invariant of the statements is an invariant of the program.** -/
theorem issues_run {sem : ω → σ → Except ε (ℕ × σ)} {I : σ → Prop}
    (hsem : ∀ w s n s', P w → I s → sem w s = .ok (n, s') → I s') (hp : p.Issues P) {s : σ} (hs : I s) :
    I (p.run sem s).2 := by
  induction p generalizing s with
  | ret a => exact hs
  | fail e => exact hs
  | query next ih => exact ih s (hp s) hs
  | exec w next ih =>
    rw [run_exec]
    rcases h : sem w s with e | ⟨n, s'⟩
    · exact hs
    · exact ih n (hp.2 n) (hsem w s n s' hp.1 hs h)
  | tx body next ihb ih =>
    rw [run_tx]
    rcases h : body.run sem s with ⟨e | b, s'⟩
    · exact hs
    · have hb := ihb hp.1 hs
      rw [h] at hb
      exact ih b (hp.2 b) hb

end Issues

/-- the program writes nothing -/
def ReadOnly (p : Prog σ ω ε α) : Prop := p.Issues fun _ => False

theorem run_readOnly {sem : ω → σ → Except ε (ℕ × σ)} {p : Prog σ ω ε α} (h : p.ReadOnly) (s : σ) :
    (p.run sem s).2 = s :=
  issues_run (I := fun t => t = s) (fun _ _ _ _ hw => hw.elim) h rfl

theorem ReadOnly.eq_of_run {sem : ω → σ → Except ε (ℕ × σ)} {p : Prog σ ω ε α} (h : p.ReadOnly) {s s' : σ}
    {r : Except ε α} (hrun : p.run sem s = (r, s')) : s' = s := by
  rw [← run_readOnly h s, hrun]

theorem run_bind_of_readOnly {sem : ω → σ → Except ε (ℕ × σ)} {I : σ → Prop} {p : Prog σ ω ε α}
    {f : α → Prog σ ω ε β} {s : σ} (h : p.ReadOnly) (hs : I s)
    (hf : ∀ a, p.run sem s = (.ok a, s) → I ((f a).run sem s).2) : I ((p >>= f).run sem s).2 := by
  refine run_bind_inv ((run_readOnly h s).symm ▸ hs) fun a s' hp _ => ?_
  obtain rfl := h.eq_of_run hp
  exact hf a hp

theorem ReadOnly.issues {P : ω → Prop} {p : Prog σ ω ε α} (h : p.ReadOnly) : p.Issues P :=
  Issues.mono (fun _ hw => hw.elim) h

end Prog

end Lumiere.Core
