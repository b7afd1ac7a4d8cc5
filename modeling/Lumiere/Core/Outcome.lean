/-
How a program ends. `p.Ends sem s Q E`: run alone from s, the program returns a value and a state of which Q holds, or
fails with an error in a state of which E holds. A run ends in one way, so every rule is an equivalence, and what has to
hold at the start is found by going back through the statements.

- `ends_iff`: the definition in terms of runs.
- `ends_bind`: sequencing. `ends_execute`: a statement that fails leaves the state alone.
- `ends_checked`: checks that only read come first, and whatever they refuse is in order.
- `ends_succeeds`, `ends_passes`, `ends_executes`, `ends_commits`: a part of a program that must not fail.
- `allOrNothing_iff`: an error leaves the state related to the one before, as an outcome.
-/
import Lumiere.Core.Prog

namespace Lumiere.Core.Prog

variable {σ ω ε α β : Type}

def Ends (sem : ω → σ → Except ε (ℕ × σ)) (p : Prog σ ω ε α) (s : σ) (Q : α → σ → Prop) (E : ε → σ → Prop) : Prop :=
  match p.run sem s with
  | (.ok a, s') => Q a s'
  | (.error e, s') => E e s'

/-- whenever the program fails, the state before and the state it leaves are related -/
def AllOrNothing (sem : ω → σ → Except ε (ℕ × σ)) (same : σ → σ → Prop) (p : Prog σ ω ε α) (s : σ) : Prop :=
  ∀ e s', p.run sem s = (.error e, s') → same s s'

variable {sem : ω → σ → Except ε (ℕ × σ)} {p : Prog σ ω ε α} {f : α → Prog σ ω ε β} {s s' : σ}
  {Q : α → σ → Prop} {E : ε → σ → Prop} {R : β → σ → Prop}

theorem ends_of_ok {a : α} (h : p.run sem s = (.ok a, s')) : p.Ends sem s Q E ↔ Q a s' := by
  rw [Ends, h]

theorem ends_of_error {e : ε} (h : p.run sem s = (.error e, s')) : p.Ends sem s Q E ↔ E e s' := by
  rw [Ends, h]

theorem ends_iff : p.Ends sem s Q E ↔
    (∀ a s', p.run sem s = (.ok a, s') → Q a s') ∧ ∀ e s', p.run sem s = (.error e, s') → E e s' := by
  rcases h : p.run sem s with ⟨e | a, s'⟩
  · rw [ends_of_error h]
    simp
  · rw [ends_of_ok h]
    simp

theorem allOrNothing_iff {same : σ → σ → Prop} :
    p.AllOrNothing sem same s ↔ p.Ends sem s (fun _ _ => True) fun _ s' => same s s' := by
  rw [ends_iff, and_iff_right (fun _ _ _ => trivial)]
  exact Iff.rfl

theorem succeeds_iff_ends : p.succeeds sem s = true ↔ p.Ends sem s (fun _ _ => True) fun _ _ => False := by
  rw [succeeds, Ends]
  rcases p.run sem s with ⟨e | a, s'⟩ <;> simp

/-- where it does not matter how the program ends -/
theorem ends_state {P : σ → Prop} : p.Ends sem s (fun _ => P) (fun _ => P) ↔ P (p.run sem s).2 := by
  rw [Ends]
  rcases p.run sem s with ⟨e | a, s'⟩ <;> exact Iff.rfl

/-! ## Rules -/

theorem ends_bind : (p >>= f).Ends sem s R E ↔ p.Ends sem s (fun a s' => (f a).Ends sem s' R E) E := by
  rcases h : p.run sem s with ⟨e | a, s'⟩
  · rw [ends_of_error h, ends_of_error (run_bind_of_error h)]
  · rw [ends_of_ok h, Ends, run_bind_of_ok h]
    exact Iff.rfl

/-- a rest that only reads -/
theorem ends_bind_readOnly {P : σ → Prop} (hf : ∀ a, (f a).ReadOnly) :
    (p >>= f).Ends sem s (fun _ => P) (fun _ => P) ↔ p.Ends sem s (fun _ => P) (fun _ => P) := by
  rw [ends_bind]
  rcases h : p.run sem s with ⟨e | a, s'⟩
  · rw [ends_of_error h, ends_of_error h]
  · rw [ends_of_ok h, ends_of_ok h, ends_state, run_readOnly (hf a)]

theorem ends_select {g : σ → α} : (select g : Prog σ ω ε α).Ends sem s Q E ↔ Q (g s) s := Iff.rfl

theorem ends_orFail {e : ε} {o : Option α} :
    (orFail e o : Prog σ ω ε α).Ends sem s Q E ↔ (o = none → E e s) ∧ ∀ a, o = some a → Q a s := by
  cases o with
  | none => simp [ends_of_error (run_orFail_none e)]
  | some a => simp [ends_of_ok (run_orFail_some e a)]

section Unit

variable {Q : Unit → σ → Prop}

theorem ends_failIf {c : Prop} [Decidable c] {e : ε} :
    (failIf c e : Prog σ ω ε Unit).Ends sem s Q E ↔ (c → E e s) ∧ (¬ c → Q () s) := by
  rw [Ends, run_failIf]
  by_cases hc : c <;> simp [hc]

theorem ends_when {c : Prop} [Decidable c] {p : Prog σ ω ε Unit} :
    (when c p).Ends sem s Q E ↔ (c → p.Ends sem s Q E) ∧ (¬ c → Q () s) := by
  rw [when]
  by_cases hc : c
  · simp [hc]
  · simp only [hc, false_imp_iff, not_false_iff, true_imp_iff, true_and]
    exact Iff.rfl

theorem ends_execute {w : ω} :
    (execute w : Prog σ ω ε Unit).Ends sem s Q E ↔
      (∀ n s', sem w s = .ok (n, s') → Q () s') ∧ ∀ e, sem w s = .error e → E e s := by
  rw [Ends, execute, run_exec]
  rcases sem w s with e | ⟨n, s'⟩
  · simp
  · simp [run_ret]

end Unit

/-- checks that may refuse anything, before the rest -/
theorem ends_checked (hp : p.ReadOnly) (hE : ∀ e, E e s) :
    (p >>= f).Ends sem s R E ↔ ∀ a, p.run sem s = (.ok a, s) → (f a).Ends sem s R E := by
  rw [ends_bind, ends_iff]
  constructor
  · exact fun h a hrun => h.1 a s hrun
  · intro h
    constructor
    · intro a s' hrun
      obtain rfl := hp.eq_of_run hrun
      exact h a hrun
    · intro e s' hrun
      obtain rfl := hp.eq_of_run hrun
      exact hE e

/-- the same where the checks return nothing -/
theorem ends_guarded {p : Prog σ ω ε Unit} {f : Unit → Prog σ ω ε β} (hp : p.ReadOnly) (hE : ∀ e, E e s) :
    (p >>= f).Ends sem s R E ↔ (p.succeeds sem s = true → (f ()).Ends sem s R E) := by
  rw [ends_checked hp hE, succeeds_iff]
  constructor
  · rintro h ⟨_, s', hrun⟩
    obtain rfl := hp.eq_of_run hrun
    exact h () hrun
  · exact fun h a hrun => h ⟨a, s, hrun⟩

/-- checks that must not refuse -/
theorem ends_succeeds {p : Prog σ ω ε Unit} {Q : Unit → σ → Prop} (hp : p.ReadOnly) :
    p.Ends sem s Q (fun _ _ => False) ↔ p.succeeds sem s = true ∧ Q () s := by
  rcases h : p.run sem s with ⟨e | _, s'⟩
  · rw [ends_of_error h, succeeds, h]
    simp
  · obtain rfl := hp.eq_of_run h
    rw [ends_of_ok h, succeeds, h]
    simp

theorem ends_passes {c : Prop} [Decidable c] {e : ε} {Q : Unit → σ → Prop} :
    (failIf c e : Prog σ ω ε Unit).Ends sem s Q (fun _ _ => False) ↔ ¬ c ∧ Q () s := by
  rw [ends_failIf]
  by_cases hc : c <;> simp [hc]

/-- a statement that must not fail, whose effect is known -/
theorem ends_executes {w : ω} {c : Prop} {n : ℕ} {s₁ : σ} {Q : Unit → σ → Prop}
    (h : ∀ n' s', sem w s = .ok (n', s') ↔ c ∧ n' = n ∧ s' = s₁) :
    (execute w : Prog σ ω ε Unit).Ends sem s Q (fun _ _ => False) ↔ c ∧ Q () s₁ := by
  rw [ends_execute]
  constructor
  · intro hends
    obtain ⟨hok, herror⟩ := hends
    cases hw : sem w s with
    | error e => exact (herror e hw).elim
    | ok r =>
      obtain ⟨hc, -, hs⟩ := (h r.1 r.2).1 hw
      exact ⟨hc, hs ▸ hok r.1 r.2 hw⟩
  · intro hc
    have hw := (h n s₁).2 ⟨hc.1, rfl, rfl⟩
    refine ⟨fun n' s' hw' => ?_, fun e he => ?_⟩
    · rw [((h n' s').1 hw').2.2]
      exact hc.2
    · rw [hw] at he
      cases he

/-- a transaction that must commit -/
theorem ends_commits {Q : α → σ → Prop} :
    (atomically p).Ends sem s Q (fun _ _ => False) ↔ p.Ends sem s Q fun _ _ => False := by
  rcases h : p.run sem s with ⟨e | a, s'⟩
  · have htx : (atomically p).run sem s = (.error e, s) := by rw [atomically, run_tx, h]
    rw [ends_of_error h, ends_of_error htx]
  · have htx : (atomically p).run sem s = (.ok a, s') := by
      rw [atomically, run_tx, h]
      rfl
    rw [ends_of_ok h, ends_of_ok htx]

end Lumiere.Core.Prog
