/-
Invariants of programs that run side by side, each statement and each transaction an atomic step of its own.

- `Keeps sem ok I p`: every statement and every whole transaction of `p` keeps the invariant I, where `ok` allows the
  statement. `run_keeps`: then every interleaving of such programs keeps it.
- `Owes settles k p`: however `p` goes on, a statement that settles `k` comes before its end. `Balanced`: a statement
  after which `k` is wrong leaves a program that owes `k`. `run_settling`: in every interleaving each `k` is right or
  owed by some task. `Settling.right`: what nobody owes is right, as when all tasks have finished.
-/
import Lumiere.Core.Pool

namespace Lumiere.Core

namespace Prog

variable {σ ω ε α β : Type}

/-- the statement that comes next -/
def pending : Prog σ ω ε α → Option ω
  | .exec w _ => some w
  | _ => none

/-! ## One program -/

section Keeps

variable (sem : ω → σ → Except ε (ℕ × σ)) (ok : ω → σ → Prop) (I : σ → Prop)

def Keeps {α : Type} : Prog σ ω ε α → Prop
  | .ret _ => True
  | .fail _ => True
  | .query next => ∀ s, (next s).Keeps
  | .exec w next => (∀ s n s', ok w s → I s → sem w s = .ok (n, s') → I s') ∧ ∀ n, (next n).Keeps
  | .tx body next => (∀ s b s', I s → body.run sem s = (.ok b, s') → I s') ∧ ∀ b, (next b).Keeps

variable {sem ok I} {p : Prog σ ω ε α} {f : α → Prog σ ω ε β} {s : σ}

theorem keeps_bind (hp : p.Keeps sem ok I) (hf : ∀ a, (f a).Keeps sem ok I) : (p >>= f).Keeps sem ok I := by
  show (p.bind f).Keeps sem ok I
  induction p with
  | ret a => exact hf a
  | fail e => trivial
  | query next ih => exact fun s => ih s (hp s) hf
  | exec w next ih => exact ⟨hp.1, fun n => ih n (hp.2 n) hf⟩
  | tx body next _ ih => exact ⟨hp.1, fun b => ih b (hp.2 b) hf⟩

theorem ReadOnly.keeps (hp : p.ReadOnly) : p.Keeps sem ok I := by
  induction p with
  | ret a => trivial
  | fail e => trivial
  | query next ih => exact fun s => ih s (hp s)
  | exec w next ih => exact hp.1.elim
  | tx body next _ ih =>
    refine ⟨fun s b s' hs h => ?_, fun b => ih b (hp.2 b)⟩
    obtain rfl := ReadOnly.eq_of_run hp.1 h
    exact hs

theorem keeps_execute {w : ω} (h : ∀ s n s', ok w s → I s → sem w s = .ok (n, s') → I s') :
    (execute w : Prog σ ω ε Unit).Keeps sem ok I := ⟨h, fun _ => trivial⟩

theorem keeps_affected {w : ω} (h : ∀ s n s', ok w s → I s → sem w s = .ok (n, s') → I s') :
    (affected w : Prog σ ω ε ℕ).Keeps sem ok I := ⟨h, fun _ => trivial⟩

theorem keeps_atomically (h : ∀ s b s', I s → p.run sem s = (.ok b, s') → I s') : (atomically p).Keeps sem ok I :=
  ⟨h, fun _ => trivial⟩

theorem keeps_forM {xs : List β} {body : β → Prog σ ω ε PUnit} (h : ∀ x ∈ xs, (body x).Keeps sem ok I) :
    (xs.forM body).Keeps sem ok I := by
  induction xs with
  | nil => trivial
  | cons x xs ih =>
    exact keeps_bind (h x List.mem_cons_self) fun _ => ih fun y hy => h y (List.mem_cons_of_mem x hy)

theorem keeps_advance (hp : p.Keeps sem ok I) (s : σ) : (p.advance sem s).1.Keeps sem ok I := by
  cases p with
  | ret a => trivial
  | fail e => trivial
  | query next => exact hp s
  | exec w next =>
    rw [advance]
    rcases sem w s with e | ⟨n, s'⟩
    · trivial
    · exact hp.2 n
  | tx body next =>
    rw [advance]
    rcases body.run sem s with ⟨e | b, s'⟩
    · trivial
    · exact hp.2 b

theorem inv_advance (hp : p.Keeps sem ok I) (hs : I s) (hok : ∀ w ∈ p.pending, ok w s) : I (p.advance sem s).2 := by
  cases p with
  | ret a => exact hs
  | fail e => exact hs
  | query next => exact hs
  | exec w next =>
    rw [advance]
    rcases h : sem w s with e | ⟨n, s'⟩
    · exact hs
    · exact hp.1 s n s' (hok w rfl) hs h
  | tx body next =>
    rw [advance]
    rcases h : body.run sem s with ⟨e | b, s'⟩
    · exact hs
    · exact hp.1 s b s' hs h

theorem keeps_interrupt (e : ε) : (p.interrupt e).Keeps sem ok I := by
  cases p <;> trivial

end Keeps

section Balanced

variable {κ : Type} (settles : ω → κ → Prop) (sem : ω → σ → Except ε (ℕ × σ)) (I : σ → Prop) (Right : κ → σ → Prop)

def Owes (k : κ) {α : Type} : Prog σ ω ε α → Prop
  | .ret _ => False
  | .fail _ => False
  | .query next => ∀ s, (next s).Owes k
  | .exec w next => settles w k ∨ ∀ n, (next n).Owes k
  | .tx _ _ => False

def Balanced {α : Type} : Prog σ ω ε α → Prop
  | .ret _ => True
  | .fail _ => True
  | .query next => ∀ s, (next s).Balanced
  | .exec w next =>
    (∀ s n s', I s → sem w s = .ok (n, s') →
      I s' ∧ ∀ k, Right k s ∨ settles w k → Right k s' ∨ (next n).Owes settles k) ∧ ∀ n, (next n).Balanced
  | .tx body next =>
    (∀ s b s', I s → body.run sem s = (.ok b, s') → I s' ∧ ∀ k, Right k s → Right k s') ∧ ∀ b, (next b).Balanced

variable {settles sem I Right} {p : Prog σ ω ε α} {f : α → Prog σ ω ε β} {s : σ} {k : κ}

theorem owes_bind (hp : p.Owes settles k) : (p >>= f).Owes settles k := by
  show (p.bind f).Owes settles k
  induction p with
  | ret a => exact hp.elim
  | fail e => exact hp.elim
  | query next ih => exact fun s => ih s (hp s)
  | exec w next ih => exact hp.imp_right fun h n => ih n (h n)
  | tx body next _ _ => exact hp.elim

theorem balanced_bind (hp : p.Balanced settles sem I Right) (hf : ∀ a, (f a).Balanced settles sem I Right) :
    (p >>= f).Balanced settles sem I Right := by
  show (p.bind f).Balanced settles sem I Right
  induction p with
  | ret a => exact hf a
  | fail e => trivial
  | query next ih => exact fun s => ih s (hp s) hf
  | exec w next ih =>
    refine ⟨fun s n s' hs h => ?_, fun n => ih n (hp.2 n) hf⟩
    obtain ⟨hs', hright⟩ := hp.1 s n s' hs h
    exact ⟨hs', fun k hk => (hright k hk).imp_right owes_bind⟩
  | tx body next _ ih => exact ⟨hp.1, fun b => ih b (hp.2 b) hf⟩

theorem ReadOnly.balanced (hp : p.ReadOnly) : p.Balanced settles sem I Right := by
  induction p with
  | ret a => trivial
  | fail e => trivial
  | query next ih => exact fun s => ih s (hp s)
  | exec w next ih => exact hp.1.elim
  | tx body next _ ih =>
    refine ⟨fun s b s' hs h => ?_, fun b => ih b (hp.2 b)⟩
    obtain rfl := ReadOnly.eq_of_run hp.1 h
    exact ⟨hs, fun _ => id⟩

theorem balanced_atomically
    (h : ∀ s b s', I s → p.run sem s = (.ok b, s') → I s' ∧ ∀ k, Right k s → Right k s') :
    (atomically p).Balanced settles sem I Right := ⟨h, fun _ => trivial⟩

/-- a statement that does not fail leaves every `k` right or owed by the program itself, if it was -/
theorem balanced_advance (hp : p.Balanced settles sem I Right) (hs : I s)
    (hok : ∀ w ∈ p.pending, ∃ r, sem w s = .ok r) :
    (p.advance sem s).1.Balanced settles sem I Right ∧ I (p.advance sem s).2 ∧
      ∀ k, Right k s ∨ p.Owes settles k → Right k (p.advance sem s).2 ∨ (p.advance sem s).1.Owes settles k := by
  cases p with
  | ret a => exact ⟨trivial, hs, fun _ => id⟩
  | fail e => exact ⟨trivial, hs, fun _ => id⟩
  | query next => exact ⟨hp s, hs, fun _ => Or.imp_right fun h => h s⟩
  | exec w next =>
    obtain ⟨⟨n, s'⟩, h⟩ := hok w rfl
    obtain ⟨hs', hright⟩ := hp.1 s n s' hs h
    rw [advance, h]
    refine ⟨hp.2 n, hs', fun k hk => ?_⟩
    rcases hk with hk | hk | hk
    · exact hright k (.inl hk)
    · exact hright k (.inr hk)
    · exact .inr (hk n)
  | tx body next =>
    rw [advance]
    rcases h : body.run sem s with ⟨e | b, s'⟩
    · exact ⟨trivial, hs, fun _ => Or.imp_right False.elim⟩
    · obtain ⟨hs', hright⟩ := hp.1 s b s' hs h
      exact ⟨hp.2 b, hs', fun k hk => .inl (hright k (hk.resolve_right id))⟩

theorem not_owes_of_finished (hp : p.finished = true) : ¬ p.Owes settles k := by
  cases p with
  | ret a => exact id
  | fail e => exact id
  | query next => cases hp
  | exec w next => cases hp
  | tx body next => cases hp

end Balanced

end Prog

/-! ## Any number of programs -/

namespace Pool

variable {ι κ σ ω ε α : Type} [DecidableEq ι] {sem : ω → σ → Except ε (ℕ × σ)} {e : ε} {env : σ → κ → σ}
  {s : Pool ι (Prog σ ω ε α) σ} {ts : List (Turn ι κ)}

theorem stepProg_task (i j : ι) :
    (stepProg sem e env s (.advance i : Turn ι κ)).task j =
      if j = i then ((s.task i).advance sem s.shared).1 else s.task j :=
  Function.update_apply ..

/-- the statement that a turn executes -/
def executes (s : Pool ι (Prog σ ω ε α) σ) : Turn ι κ → Option ω
  | .advance i => (s.task i).pending
  | _ => none

/-- the statement that the turn executes is allowed where it is executed -/
def Allows (ok : ω → σ → Prop) (s : Pool ι (Prog σ ω ε α) σ) (t : Turn ι κ) : Prop := ∀ w ∈ s.executes t, ok w s.shared

instance {ok : ω → σ → Prop} [∀ w x, Decidable (ok w x)] (s : Pool ι (Prog σ ω ε α) σ) (t : Turn ι κ) :
    Decidable (Allows ok s t) :=
  inferInstanceAs (Decidable (∀ w ∈ s.executes t, ok w s.shared))

/-- no pending command is made to fail, and the statement that is executed succeeds -/
def Smooth (sem : ω → σ → Except ε (ℕ × σ)) (s : Pool ι (Prog σ ω ε α) σ) : Turn ι κ → Prop
  | .interrupt _ => False
  | t => Allows (fun w x => (sem w x).isOk = true) s t

instance (s : Pool ι (Prog σ ω ε α) σ) : (t : Turn ι κ) → Decidable (Smooth sem s t)
  | .advance i => inferInstanceAs (Decidable (Allows (fun w x => (sem w x).isOk = true) s (.advance i : Turn ι κ)))
  | .interrupt _ => inferInstanceAs (Decidable False)
  | .outside k => inferInstanceAs (Decidable (Allows (fun w x => (sem w x).isOk = true) s (.outside k : Turn ι κ)))

/-- **An invariant of every statement and of every transaction is an invariant of every interleaving.** -/
theorem run_keeps {ok : ω → σ → Prop} {I : σ → Prop} (htask : ∀ i, (s.task i).Keeps sem ok I) (hs : I s.shared)
    (henv : ∀ x k, I x → I (env x k)) (hts : Every (stepProg sem e env) (Allows ok) s ts) :
    I (run (stepProg sem e env) s ts).shared := by
  refine (run_inv_of_every (I := fun s => (∀ i, (s.task i).Keeps sem ok I) ∧ I s.shared) ?_ ⟨htask, hs⟩ hts).2
  rintro s t ht ⟨htask, hs⟩
  cases t with
  | advance i =>
    refine ⟨fun j => ?_, Prog.inv_advance (htask i) hs ht⟩
    rw [stepProg_task]
    split_ifs
    · exact Prog.keeps_advance (htask i) s.shared
    · exact htask j
  | interrupt i =>
    refine ⟨fun j => ?_, hs⟩
    rw [stepProg, interrupt_task]
    split_ifs
    · exact Prog.keeps_interrupt e
    · exact htask j
  | outside k => exact ⟨htask, henv _ k hs⟩

section Balanced

variable {δ : Type} {settles : ω → δ → Prop} {I : σ → Prop} {Right : δ → σ → Prop}

/-- every task is balanced, and what is not right is owed -/
structure Settling (settles : ω → δ → Prop) (sem : ω → σ → Except ε (ℕ × σ)) (I : σ → Prop) (Right : δ → σ → Prop)
    (s : Pool ι (Prog σ ω ε α) σ) : Prop where
  balanced : ∀ i, (s.task i).Balanced settles sem I Right
  inv : I s.shared
  owed : ∀ k, Right k s.shared ∨ ∃ i, (s.task i).Owes settles k

theorem run_settling (hs : s.Settling settles sem I Right) (hts : Every (stepProg sem e env) (Smooth sem) s ts)
    (henv : ∀ x k, I x → I (env x k) ∧ ∀ l, Right l x → Right l (env x k)) :
    (run (stepProg sem e env) s ts).Settling settles sem I Right := by
  refine run_inv_of_every (fun s t ht hs => ?_) hs hts
  cases t with
  | advance i =>
    have hok : ∀ w ∈ (s.task i).pending, ∃ r, sem w s.shared = .ok r := fun w hw => by
      have h := ht w hw
      rcases h' : sem w s.shared with e' | r
      · simp only [h'] at h
        cases h
      · exact ⟨r, rfl⟩
    obtain ⟨hi, hinv, hright⟩ := Prog.balanced_advance (hs.balanced i) hs.inv hok
    refine ⟨fun j => ?_, hinv, fun k => ?_⟩
    · rw [stepProg_task]
      split_ifs
      · exact hi
      · exact hs.balanced j
    · -- what another task owes it still owes
      by_cases hk : Right k s.shared ∨ (s.task i).Owes settles k
      · refine (hright k hk).imp_right fun h => ⟨i, ?_⟩
        rw [stepProg_task, if_pos rfl]
        exact h
      · rw [not_or] at hk
        obtain ⟨j, hj⟩ := (hs.owed k).resolve_left hk.1
        refine .inr ⟨j, ?_⟩
        rw [stepProg_task, if_neg]
        · exact hj
        · rintro rfl
          exact hk.2 hj
  | interrupt i => exact ht.elim
  | outside k =>
    obtain ⟨hinv, hright⟩ := henv s.shared k hs.inv
    exact ⟨hs.balanced, hinv, fun l => (hs.owed l).imp_left (hright l)⟩

omit [DecidableEq ι] in
/-- **When no task owes anything, everything is right.** -/
theorem Settling.right (hs : s.Settling settles sem I Right) {k : δ} (h : ∀ i, ¬ (s.task i).Owes settles k) :
    Right k s.shared := by
  refine (hs.owed k).resolve_right ?_
  rintro ⟨i, hi⟩
  exact h i hi

end Balanced

end Pool

end Lumiere.Core
