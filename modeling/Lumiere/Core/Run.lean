/-
Runs of a total step function. A machine is a state type σ, an operation type ω and `step : σ → ω → σ`; an operation
that is not enabled leaves the state alone. A trace is a list of operations.

- `run_inv`: an invariant kept by every step holds at the end of every trace.
- `Every step ok s ops`: every operation of the trace is taken in a state where `ok` allows it. `run_inv_of_every`
  is the same rule for an invariant that only allowed steps keep.
- `run_good_or_bad`: a state that a forbidden operation spoils for ever.
- `every_of_prefixes`: if a step that is not allowed always shows, a run in which nothing shows is allowed.
- `every_iff_prefixes`: an invariant that exactly the allowed steps keep holds all along exactly in the allowed runs.
- `outputs`: the answers of a machine that also answers.
- `run_last`: what operations only set and clear is decided by the last of them.
- `every_append`: an allowed trace is allowed on every prefix and from every intermediate state.
- `Occurs step P s ops`: some operation of the trace is taken where `P` describes it. `occurs_of_run`: what holds at the
  end and not at the start was brought about by some operation.

The processes of a concrete run are numbered, by `Fin n` with a small `n`.
-/
import Mathlib.Algebra.Ring.Nat
import Mathlib.Data.List.Basic

namespace Lumiere.Core

instance numbered_one : NeZero 1 := ⟨by decide⟩

instance numbered_two : NeZero 2 := ⟨by decide⟩

instance numbered_three : NeZero 3 := ⟨by decide⟩

instance numbered_four : NeZero 4 := ⟨by decide⟩

variable {σ : Type*} {ω : Type}

def run (step : σ → ω → σ) (s : σ) (ops : List ω) : σ := ops.foldl step s

@[simp] theorem run_nil (step : σ → ω → σ) (s : σ) : run step s [] = s := rfl

@[simp] theorem run_cons (step : σ → ω → σ) (s : σ) (o : ω) (ops : List ω) :
    run step s (o :: ops) = run step (step s o) ops := rfl

theorem run_append (step : σ → ω → σ) (s : σ) (l m : List ω) : run step s (l ++ m) = run step (run step s l) m := by
  simp [run, List.foldl_append]

theorem run_snoc (step : σ → ω → σ) (s : σ) (l : List ω) (o : ω) :
    run step s (l ++ [o]) = step (run step s l) o := by
  simp [run_append]

/-- the answers to a list of requests, each of which may change the state -/
def outputs {α : Type} (serve : σ → ω → α × σ) : σ → List ω → List α
  | _, [] => []
  | s, o :: ops => (serve s o).1 :: outputs serve (serve s o).2 ops

theorem length_outputs {α : Type} (serve : σ → ω → α × σ) (s : σ) (ops : List ω) :
    (outputs serve s ops).length = ops.length := by
  induction ops generalizing s with
  | nil => rfl
  | cons o ops ih => exact congrArg (· + 1) (ih _)

theorem outputs_append {α : Type} (serve : σ → ω → α × σ) (s : σ) (l m : List ω) :
    outputs serve s (l ++ m) = outputs serve s l ++ outputs serve (run (fun s o => (serve s o).2) s l) m := by
  induction l generalizing s with
  | nil => rfl
  | cons o l ih => exact congrArg ((serve s o).1 :: ·) (ih _)

/-- every operation of the trace is allowed in the state in which it is taken -/
def Every (step : σ → ω → σ) (ok : σ → ω → Prop) : σ → List ω → Prop
  | _, [] => True
  | s, o :: ops => ok s o ∧ Every step ok (step s o) ops

instance Every.decide {step : σ → ω → σ} {ok : σ → ω → Prop} [∀ s o, Decidable (ok s o)] :
    ∀ (s : σ) (ops : List ω), Decidable (Every step ok s ops)
  | _, [] => isTrue trivial
  | s, o :: ops => @instDecidableAnd _ _ _ (Every.decide (step s o) ops)

theorem every_append {step : σ → ω → σ} {ok : σ → ω → Prop} (s : σ) (l m : List ω) :
    Every step ok s (l ++ m) ↔ Every step ok s l ∧ Every step ok (run step s l) m := by
  induction l generalizing s with
  | nil => simp [Every]
  | cons o l ih => simp [Every, ih, and_assoc]

theorem Every.mono {step : σ → ω → σ} {ok ok' : σ → ω → Prop} (h : ∀ s o, ok s o → ok' s o) {s : σ} {ops : List ω}
    (hs : Every step ok s ops) : Every step ok' s ops := by
  induction ops generalizing s with
  | nil => trivial
  | cons o ops ih => exact ⟨h s o hs.1, ih hs.2⟩

theorem Every.and {step : σ → ω → σ} {ok ok' : σ → ω → Prop} {s : σ} {ops : List ω} (h : Every step ok s ops)
    (h' : Every step ok' s ops) : Every step (fun s o => ok s o ∧ ok' s o) s ops := by
  induction ops generalizing s with
  | nil => trivial
  | cons o ops ih => exact ⟨⟨h.1, h'.1⟩, ih h.2 h'.2⟩

/-- a condition on the operations alone -/
theorem every_of_forall {step : σ → ω → σ} {p : ω → Prop} {s : σ} {ops : List ω} (h : ∀ o ∈ ops, p o) :
    Every step (fun _ o => p o) s ops := by
  induction ops generalizing s with
  | nil => trivial
  | cons o ops ih => exact ⟨h o List.mem_cons_self, ih fun o' ho' => h o' (List.mem_cons_of_mem o ho')⟩

theorem run_inv {step : σ → ω → σ} {I : σ → Prop} (hstep : ∀ s o, I s → I (step s o)) {s : σ} (h : I s)
    (ops : List ω) : I (run step s ops) := by
  induction ops generalizing s with
  | nil => exact h
  | cons o ops ih => exact ih (hstep s o h)

theorem run_inv_of_every {step : σ → ω → σ} {ok : σ → ω → Prop} {I : σ → Prop}
    (hstep : ∀ s o, ok s o → I s → I (step s o)) {s : σ} (h : I s) {ops : List ω} (hops : Every step ok s ops) :
    I (run step s ops) := by
  induction ops generalizing s with
  | nil => exact h
  | cons o ops ih => exact ih (hstep s o hops.1 h) hops.2

/-- the invariant holds wherever an operation is taken -/
theorem Every.with_inv {step : σ → ω → σ} {ok : σ → ω → Prop} {I : σ → Prop}
    (hstep : ∀ s o, ok s o → I s → I (step s o)) {s : σ} (h : I s) {ops : List ω} (hops : Every step ok s ops) :
    Every step (fun s o => ok s o ∧ I s) s ops := by
  induction ops generalizing s with
  | nil => trivial
  | cons o ops ih => exact ⟨⟨hops.1, h⟩, ih (hstep s o hops.1 h) hops.2⟩

/-- if no step but an allowed one leads to I, a run that stays in I is allowed -/
theorem every_of_prefixes {step : σ → ω → σ} {ok : σ → ω → Prop} {I : σ → Prop}
    (hstep : ∀ s o, I (step s o) → ok s o) {s : σ} {ops : List ω}
    (h : ∀ l, l <+: ops → I (run step s l)) : Every step ok s ops := by
  induction ops generalizing s with
  | nil => trivial
  | cons o ops ih =>
    refine ⟨hstep s o (h [o] ⟨ops, rfl⟩), ih fun l hl => ?_⟩
    exact h (o :: l) ((List.prefix_cons_inj o).2 hl)

/-- **An invariant that exactly the allowed operations keep.** -/
theorem every_iff_prefixes {step : σ → ω → σ} {ok : σ → ω → Prop} {I : σ → Prop} {ops : List ω}
    (hstep : ∀ o ∈ ops, ∀ s, I s → (I (step s o) ↔ ok s o)) {s : σ} (h : I s) :
    (∀ l, l <+: ops → I (run step s l)) ↔ Every step ok s ops := by
  induction ops generalizing s with
  | nil => exact iff_of_true (fun l hl => by rwa [List.prefix_nil.1 hl]) trivial
  | cons o ops ih =>
    have hlater : ∀ o' ∈ ops, ∀ s, I s → (I (step s o') ↔ ok s o') :=
      fun o' ho' => hstep o' (List.mem_cons_of_mem o ho')
    constructor
    · intro hall
      have hfirst : I (step s o) := hall [o] ⟨ops, rfl⟩
      refine ⟨(hstep o List.mem_cons_self s h).1 hfirst, (ih hlater hfirst).1 fun l hl => ?_⟩
      exact hall (o :: l) ((List.prefix_cons_inj o).2 hl)
    · rintro ⟨ho, hops⟩ l hl
      cases l with
      | nil => exact h
      | cons o' l =>
        obtain ⟨rfl, htail⟩ := List.cons_prefix_cons.1 hl
        exact (ih hlater ((hstep o' List.mem_cons_self s h).2 ho)).2 hops l htail

theorem Every.of_prefix {step : σ → ω → σ} {ok : σ → ω → Prop} {s : σ} {l ops : List ω} (h : Every step ok s ops)
    (hl : l <+: ops) : Every step ok s l := by
  obtain ⟨m, rfl⟩ := hl
  exact ((every_append s l m).1 h).1

/-- some operation of the trace satisfies `P` in the state in which it is taken -/
def Occurs (step : σ → ω → σ) (P : σ → ω → Prop) : σ → List ω → Prop
  | _, [] => False
  | s, o :: ops => P s o ∨ Occurs step P (step s o) ops

/-- what does not become true by other operations was true, or was made true -/
theorem occurs_of_run {step : σ → ω → σ} {I Q : σ → Prop} {P : σ → ω → Prop} (hinv : ∀ s o, I s → I (step s o))
    (hstep : ∀ s o, I s → Q (step s o) → Q s ∨ P s o) {s : σ} (h : I s) {ops : List ω} (hrun : Q (run step s ops)) :
    Q s ∨ Occurs step P s ops := by
  induction ops generalizing s with
  | nil => exact .inl hrun
  | cons o ops ih =>
    rcases ih (hinv s o h) hrun with hfirst | hlater
    · exact (hstep s o h hfirst).imp_right .inl
    · exact .inr (.inr hlater)

theorem Occurs.mono {step : σ → ω → σ} {P P' : σ → ω → Prop} (h : ∀ s o, P s o → P' s o) {s : σ} {ops : List ω}
    (hs : Occurs step P s ops) : Occurs step P' s ops := by
  induction ops generalizing s with
  | nil => exact hs
  | cons o ops ih => exact hs.imp (h s o) ih

theorem occurs_const {step : σ → ω → σ} {P : ω → Prop} {s : σ} {ops : List ω} :
    Occurs step (fun _ => P) s ops ↔ ∃ o ∈ ops, P o := by
  induction ops generalizing s with
  | nil => simp [Occurs]
  | cons o ops ih => simp [Occurs, ih]

/-- **The last operation that sets or clears `Q` decides.** -/
theorem run_last {step : σ → ω → σ} {Q : σ → Prop} {Sets Clears : σ → ω → Prop}
    (hstep : ∀ s o, Q (step s o) ↔ Sets s o ∨ Q s ∧ ¬ Clears s o) (s : σ) (ops : List ω) :
    Q (run step s ops) ↔ Q s ∧ ¬ Occurs step Clears s ops ∨ ∃ l o m, ops = l ++ o :: m ∧
      Sets (run step s l) o ∧ ¬ Occurs step Clears (run step s (l ++ [o])) m := by
  induction ops generalizing s with
  | nil => simp [Occurs]
  | cons o ops ih =>
    rw [run_cons, ih, hstep, Occurs, not_or]
    constructor
    · rintro (⟨hsets | ⟨hq, hclears⟩, hops⟩ | ⟨l, o', m, rfl, hsets, hm⟩)
      · exact .inr ⟨[], o, ops, rfl, hsets, hops⟩
      · exact .inl ⟨hq, hclears, hops⟩
      · exact .inr ⟨o :: l, o', m, rfl, hsets, hm⟩
    · rintro (⟨hq, hclears, hops⟩ | ⟨l, o', m, heq, hsets, hm⟩)
      · exact .inl ⟨.inr ⟨hq, hclears⟩, hops⟩
      · cases l with
        | nil =>
          obtain ⟨rfl, rfl⟩ := List.cons.inj heq
          exact .inl ⟨.inl hsets, hm⟩
        | cons a l =>
          obtain ⟨rfl, rfl⟩ := List.cons.inj heq
          exact .inr ⟨l, o', m, rfl, hsets, hm⟩

/-- operations that set and clear `Q` in any state -/
theorem run_last_iff {step : σ → ω → σ} {Q : σ → Prop} {Sets Clears : ω → Prop}
    (hstep : ∀ s o, Q (step s o) ↔ Sets o ∨ Q s ∧ ¬ Clears o) {s : σ} (hs : ¬ Q s) (ops : List ω) :
    Q (run step s ops) ↔ ∃ l o m, ops = l ++ o :: m ∧ Sets o ∧ ∀ o' ∈ m, ¬ Clears o' := by
  rw [run_last hstep]
  simp [hs, occurs_const]

/-- **Until the first operation that is not allowed.** If a good state becomes bad for ever at the first such operation,
where a run ends says whether all of it was allowed. -/
theorem run_good_or_bad {step : σ → ω → σ} {ok : σ → ω → Prop} {Good Bad : σ → Prop}
    (hgood : ∀ s o, Good s → ok s o → Good (step s o)) (hbreak : ∀ s o, Good s → ¬ ok s o → Bad (step s o))
    (hbad : ∀ s o, Bad s → Bad (step s o)) {s : σ} (h : Good s) (ops : List ω) :
    Every step ok s ops ∧ Good (run step s ops) ∨ ¬ Every step ok s ops ∧ Bad (run step s ops) := by
  induction ops generalizing s with
  | nil => exact .inl ⟨trivial, h⟩
  | cons o ops ih =>
    by_cases ho : ok s o
    · rcases ih (hgood s o h ho) with ⟨hops, hrun⟩ | ⟨hops, hrun⟩
      · exact .inl ⟨⟨ho, hops⟩, hrun⟩
      · exact .inr ⟨fun hall => hops hall.2, hrun⟩
    · exact .inr ⟨fun hall => ho hall.1, run_inv hbad (hbreak s o h ho) ops⟩

end Lumiere.Core
