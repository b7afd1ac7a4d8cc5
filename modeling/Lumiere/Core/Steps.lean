/-
The statements that one run of a program executes. `Issues` speaks of every statement that a program can issue, whatever
it reads; `AllSteps` of those that it executes from one state, each together with the state in which it is executed. A
transaction that fails executes nothing.

- `allSteps_inv`: an invariant that the allowed statements keep holds when the run is over.
- `allSteps_bind`: sequencing. `Issues.allSteps`: programs whose statements are always allowed.
- `Shows sem P I p`: the converse, a run that ends in I was allowed. `shows_bind`, `shows_bind_of_back`.
-/
import Lumiere.Core.Prog

namespace Lumiere.Core.Prog

variable {σ ω ε α β : Type}

def AllSteps (sem : ω → σ → Except ε (ℕ × σ)) (P : ω → σ → Prop) {α : Type} : Prog σ ω ε α → σ → Prop
  | .ret _, _ => True
  | .fail _, _ => True
  | .query next, s => (next s).AllSteps sem P s
  | .exec w next, s =>
    match sem w s with
    | .ok (n, s') => P w s ∧ (next n).AllSteps sem P s'
    | .error _ => True
  | .tx body next, s =>
    match body.run sem s with
    | (.ok b, s') => body.AllSteps sem P s ∧ (next b).AllSteps sem P s'
    | (.error _, _) => True

variable {sem : ω → σ → Except ε (ℕ × σ)} {P Q : ω → σ → Prop} {p : Prog σ ω ε α} {f : α → Prog σ ω ε β} {s s' : σ}

instance AllSteps.decide [∀ w s, Decidable (P w s)] {α : Type} :
    (p : Prog σ ω ε α) → (s : σ) → Decidable (p.AllSteps sem P s)
  | .ret _, _ => isTrue trivial
  | .fail _, _ => isTrue trivial
  | .query next, s => AllSteps.decide (next s) s
  | .exec w next, s =>
    match h : sem w s with
    | .ok (n, s') =>
      have := AllSteps.decide (next n) s'
      decidable_of_iff (P w s ∧ (next n).AllSteps sem P s') (by rw [AllSteps, h])
    | .error _ => isTrue (by rw [AllSteps, h]; trivial)
  | .tx body next, s =>
    match h : body.run sem s with
    | (.ok b, s') =>
      have := AllSteps.decide body s
      have := AllSteps.decide (next b) s'
      decidable_of_iff (body.AllSteps sem P s ∧ (next b).AllSteps sem P s') (by rw [AllSteps, h])
    | (.error _, _) => isTrue (by rw [AllSteps, h]; trivial)

theorem allSteps_pure (a : α) : (pure a : Prog σ ω ε α).AllSteps sem P s := trivial

theorem allSteps_fail (e : ε) : (fail e : Prog σ ω ε α).AllSteps sem P s := trivial

theorem allSteps_bind :
    (p >>= f).AllSteps sem P s ↔
      p.AllSteps sem P s ∧ ∀ a s', p.run sem s = (.ok a, s') → (f a).AllSteps sem P s' := by
  show (p.bind f).AllSteps sem P s ↔ _
  induction p generalizing s with
  | ret a => simp [bind, run_ret, AllSteps]
  | fail e => simp [bind, AllSteps]
  | query next ih => exact ih s
  | exec w next ih =>
    rw [bind, AllSteps, AllSteps, run_exec]
    rcases sem w s with e | ⟨n, s'⟩
    · simp
    · simp only [ih, and_assoc]
  | tx body next _ ih =>
    rw [bind, AllSteps, AllSteps, run_tx]
    rcases body.run sem s with ⟨e | b, s'⟩
    · simp
    · simp only [ih, and_assoc]

theorem AllSteps.mono (h : ∀ w s, P w s → Q w s) (hp : p.AllSteps sem P s) : p.AllSteps sem Q s := by
  induction p generalizing s with
  | ret a => trivial
  | fail e => trivial
  | query next ih => exact ih s hp
  | exec w next ih =>
    rw [AllSteps] at hp ⊢
    rcases hexec : sem w s with e | ⟨n, s'⟩
    · trivial
    · simp only [hexec] at hp
      exact ⟨h w s hp.1, ih n hp.2⟩
  | tx body next ihb ih =>
    rw [AllSteps] at hp ⊢
    rcases hrun : body.run sem s with ⟨e | b, s'⟩
    · trivial
    · simp only [hrun] at hp
      exact ⟨ihb hp.1, ih b hp.2⟩

theorem AllSteps.and (hp : p.AllSteps sem P s) (hq : p.AllSteps sem Q s) :
    p.AllSteps sem (fun w s => P w s ∧ Q w s) s := by
  induction p generalizing s with
  | ret a => trivial
  | fail e => trivial
  | query next ih => exact ih s hp hq
  | exec w next ih =>
    rw [AllSteps] at hp hq ⊢
    rcases hexec : sem w s with e | ⟨n, s'⟩
    · trivial
    · simp only [hexec] at hp hq
      exact ⟨⟨hp.1, hq.1⟩, ih n hp.2 hq.2⟩
  | tx body next ihb ih =>
    rw [AllSteps] at hp hq ⊢
    rcases hrun : body.run sem s with ⟨e | b, s'⟩
    · trivial
    · simp only [hrun] at hp hq
      exact ⟨ihb hp.1 hq.1, ih b hp.2 hq.2⟩

theorem Issues.allSteps (hp : p.Issues fun w => ∀ s, P w s) : p.AllSteps sem P s := by
  induction p generalizing s with
  | ret a => trivial
  | fail e => trivial
  | query next ih => exact ih s (hp s)
  | exec w next ih =>
    rw [AllSteps]
    rcases sem w s with e | ⟨n, s'⟩
    · trivial
    · exact ⟨hp.1 s, ih n (hp.2 n)⟩
  | tx body next ihb ih =>
    rw [AllSteps]
    rcases body.run sem s with ⟨e | b, s'⟩
    · trivial
    · exact ⟨ihb hp.1, ih b (hp.2 b)⟩

theorem ReadOnly.allSteps (hp : p.ReadOnly) : p.AllSteps sem P s := Issues.allSteps hp.issues

theorem allSteps_execute_iff {w : ω} :
    (execute w : Prog σ ω ε Unit).AllSteps sem P s ↔ ∀ r, sem w s = .ok r → P w s := by
  rw [execute, AllSteps]
  rcases sem w s with e | ⟨n, s'⟩
  · simp
  · exact ⟨fun h _ _ => h.1, fun h => ⟨h _ rfl, trivial⟩⟩

theorem allSteps_execute {w : ω} (h : P w s) : (execute w : Prog σ ω ε Unit).AllSteps sem P s :=
  allSteps_execute_iff.2 fun _ _ => h

theorem allSteps_affected {w : ω} (h : P w s) : (affected w : Prog σ ω ε ℕ).AllSteps sem P s := by
  rw [affected, AllSteps]
  rcases sem w s with e | ⟨n, s'⟩
  · trivial
  · exact ⟨h, trivial⟩

/-- a transaction executes nothing unless it commits -/
theorem allSteps_atomically (h : ∀ a s', p.run sem s = (.ok a, s') → p.AllSteps sem P s) :
    (atomically p).AllSteps sem P s := by
  rw [atomically, AllSteps]
  rcases hp : p.run sem s with ⟨e | a, s'⟩
  · trivial
  · exact ⟨h a s' hp, trivial⟩

/-- after a program that only reads, the state is the same -/
theorem allSteps_bind_of_readOnly (hp : p.ReadOnly)
    (hf : ∀ a, p.run sem s = (.ok a, s) → (f a).AllSteps sem P s) : (p >>= f).AllSteps sem P s := by
  refine allSteps_bind.2 ⟨hp.allSteps, fun a s' h => ?_⟩
  obtain rfl := hp.eq_of_run h
  exact hf a h

/-- the runs of two programs end in the same state and execute the same statements -/
structure Alike (sem : ω → σ → Except ε (ℕ × σ)) (s : σ) (p : Prog σ ω ε α) (q : Prog σ ω ε β) : Prop where
  state : (p.run sem s).2 = (q.run sem s).2
  steps : ∀ P, p.AllSteps sem P s ↔ q.AllSteps sem P s

theorem Alike.trans {γ : Type} {q : Prog σ ω ε β} {r : Prog σ ω ε γ} (h : Alike sem s p q) (h' : Alike sem s q r) :
    Alike sem s p r :=
  ⟨h.state.trans h'.state, fun P => (h.steps P).trans (h'.steps P)⟩

/-- a program that begins with checks is refused by one of them, or they pass and it goes on as `q` -/
theorem alike_bind_of_readOnly {γ : Type} {q : Prog σ ω ε γ} {C : Prop} (hp : p.ReadOnly)
    (hf : ∀ a, p.run sem s = (.ok a, s) →
      Alike sem s (f a) (pure () : Prog σ ω ε Unit) ∨ C ∧ Alike sem s (f a) q) :
    Alike sem s (p >>= f) (pure () : Prog σ ω ε Unit) ∨ C ∧ Alike sem s (p >>= f) q := by
  rcases hrun : p.run sem s with ⟨e | a, s'⟩
  · obtain rfl := hp.eq_of_run hrun
    refine .inl ⟨?_, fun P => ⟨fun _ => allSteps_pure _, fun _ => allSteps_bind.2 ⟨hp.allSteps, fun a t ht => ?_⟩⟩⟩
    · rw [run_bind_of_error hrun, run_pure]
    · rw [hrun] at ht
      cases ht
  · obtain rfl := hp.eq_of_run hrun
    have hrest : Alike sem s' (p >>= f) (f a) := by
      refine ⟨by rw [run_bind_of_ok hrun], fun P => ⟨fun h => (allSteps_bind.1 h).2 a _ hrun, fun h => ?_⟩⟩
      refine allSteps_bind.2 ⟨hp.allSteps, fun b t ht => ?_⟩
      rw [hrun] at ht
      obtain ⟨hb, rfl⟩ := Prod.mk.inj ht
      exact Except.ok.inj hb ▸ h
    exact (hf a hrun).imp hrest.trans fun h => ⟨h.1, hrest.trans h.2⟩

/-- a loop whose body is allowed in every state that its own runs lead to -/
theorem allSteps_forM {I : σ → Prop} {xs : List β} {body : β → Prog σ ω ε PUnit}
    (hbody : ∀ x ∈ xs, ∀ s, I s → (body x).AllSteps sem P s)
    (hkeep : ∀ x ∈ xs, ∀ s u s', I s → (body x).run sem s = (.ok u, s') → I s') (hs : I s) :
    (xs.forM body).AllSteps sem P s := by
  induction xs generalizing s with
  | nil => trivial
  | cons x xs ih =>
    have hx := List.mem_cons_self (a := x) (l := xs)
    refine allSteps_bind.2 ⟨hbody x hx s hs, fun u s' h => ?_⟩
    exact ih (fun y hy => hbody y (List.mem_cons_of_mem x hy)) (fun y hy => hkeep y (List.mem_cons_of_mem x hy))
      (hkeep x hx s u s' hs h)

/-- a program over a part of the statements -/
theorem allSteps_lift {ω' : Type} {f : ω → ω'} {sem' : ω' → σ → Except ε (ℕ × σ)} {P : ω' → σ → Prop}
    (hsem : ∀ w s, sem' (f w) s = sem w s) :
    (p.lift id f).AllSteps sem' P s ↔ p.AllSteps sem (fun w => P (f w)) s := by
  have hmap : ∀ w s, sem' (f w) s = (sem w (id s)).map fun r => (r.1, r.2) := fun w s => by
    rw [hsem, id]
    rcases sem w s with e | r <;> rfl
  have hrun : ∀ {β : Type} (q : Prog σ ω ε β) (s : σ), (q.lift id f).run sem' s = q.run sem s := fun q s =>
    run_lift (u := fun _ x => x) (fun _ _ => rfl) (fun _ => rfl) (fun _ _ _ => rfl) hmap q s
  induction p generalizing s with
  | ret a => exact Iff.rfl
  | fail e => exact Iff.rfl
  | query next ih => exact ih s
  | exec w next ih =>
    rw [lift, AllSteps, AllSteps, hsem]
    rcases sem w s with e | ⟨n, s'⟩
    · exact Iff.rfl
    · simp only [ih]
  | tx body next ihb ih =>
    rw [lift, AllSteps, AllSteps, hrun]
    rcases body.run sem s with ⟨e | b, s'⟩
    · exact Iff.rfl
    · simp only [ihb, ih]

/-- **An invariant that the allowed statements keep holds when the run is over.** -/
theorem allSteps_inv {I : σ → Prop} (hsem : ∀ w s n s', P w s → I s → sem w s = .ok (n, s') → I s')
    (hp : p.AllSteps sem P s) (hs : I s) : I (p.run sem s).2 := by
  induction p generalizing s with
  | ret a => exact hs
  | fail e => exact hs
  | query next ih => exact ih s hp hs
  | exec w next ih =>
    rw [AllSteps] at hp
    rw [run_exec]
    rcases h : sem w s with e | ⟨n, s'⟩
    · exact hs
    · simp only [h] at hp
      exact ih n hp.2 (hsem w s n s' hp.1 hs h)
  | tx body next ihb ih =>
    rw [AllSteps] at hp
    rw [run_tx]
    rcases h : body.run sem s with ⟨e | b, s'⟩
    · exact hs
    · simp only [h] at hp
      have hb := ihb hp.1 hs
      rw [h] at hb
      exact ih b hp.2 hb

/-- the invariant holds wherever a statement is executed -/
theorem AllSteps.with_inv {I : σ → Prop} (hsem : ∀ w s n s', P w s → I s → sem w s = .ok (n, s') → I s')
    (hp : p.AllSteps sem P s) (hs : I s) :
    p.AllSteps sem (fun w s => P w s ∧ I s ∧ ∃ r, sem w s = .ok r) s := by
  induction p generalizing s with
  | ret a => trivial
  | fail e => trivial
  | query next ih => exact ih s hp hs
  | exec w next ih =>
    rw [AllSteps] at hp ⊢
    rcases hexec : sem w s with e | ⟨n, s'⟩
    · trivial
    · simp only [hexec] at hp
      exact ⟨⟨hp.1, hs, _, rfl⟩, ih n hp.2 (hsem w s n s' hp.1 hs hexec)⟩
  | tx body next ihb ih =>
    rw [AllSteps] at hp ⊢
    rcases hrun : body.run sem s with ⟨e | b, s'⟩
    · trivial
    · simp only [hrun] at hp
      have hb := allSteps_inv hsem hp.1 hs
      rw [hrun] at hb
      exact ⟨ihb hp.1 hs, ih b hp.2 hb⟩

/-! ## Statements that show in the outcome -/

/-- if the run ends in I, all its statements were allowed -/
def Shows (sem : ω → σ → Except ε (ℕ × σ)) (P : ω → σ → Prop) (I : σ → Prop) (p : Prog σ ω ε α) : Prop :=
  ∀ s, I (p.run sem s).2 → p.AllSteps sem P s

section Shows

variable {I : σ → Prop}

theorem shows_of_issues (hp : p.Issues fun w => ∀ s, P w s) : p.Shows sem P I := fun _ _ => hp.allSteps

theorem shows_execute {w : ω} (h : ∀ s n s', sem w s = .ok (n, s') → I s' → P w s) :
    (execute w : Prog σ ω ε Unit).Shows sem P I := by
  intro s hI
  refine allSteps_execute_iff.2 fun r hexec => h s r.1 r.2 hexec ?_
  rwa [(execute_eq_ok (u := ())).2 ⟨r.1, hexec⟩] at hI

/-- before the statement in question all are allowed -/
theorem shows_bind (hp : p.Issues fun w => ∀ s, P w s) (hf : ∀ a, (f a).Shows sem P I) : (p >>= f).Shows sem P I := by
  intro s h
  refine allSteps_bind.2 ⟨hp.allSteps, fun a s' hrun => hf a s' ?_⟩
  rwa [run_bind_of_ok hrun] at h

/-- after it, what is executed does not lead to I from elsewhere -/
theorem shows_bind_of_back (hp : p.Shows sem P I)
    (hf : ∀ a, (f a).Issues fun w => (∀ s, P w s) ∧ ∀ s n s', sem w s = .ok (n, s') → I s' → I s) :
    (p >>= f).Shows sem P I := by
  intro s h
  refine allSteps_bind.2 ⟨hp s ?_, fun a s' _ => ((hf a).mono fun _ hw => hw.1).allSteps⟩
  rw [run_bind] at h
  rcases hrun : p.run sem s with ⟨e | a, s'⟩
  · rwa [hrun] at h
  · rw [hrun] at h
    exact issues_run (I := fun t => I t → I s') (fun w t n t' hw ht hexec ht' => ht (hw.2 t n t' hexec ht')) (hf a) id h

/-- statements that each show in the outcome, and do not lead to I from elsewhere -/
theorem shows_of_back
    (hp : p.Issues fun w => ∀ s n s', sem w s = .ok (n, s') → I s' → P w s ∧ I s) : p.Shows sem P I := by
  suffices h : ∀ s, I (p.run sem s).2 → p.AllSteps sem P s ∧ I s from fun s hs => (h s hs).1
  induction p with
  | ret a => exact fun s hs => ⟨allSteps_pure a, hs⟩
  | fail e => exact fun s hs => ⟨allSteps_fail e, hs⟩
  | query next ih =>
    intro s hs
    rw [AllSteps]
    exact ih s (hp s) s hs
  | exec w next ih =>
    intro s hs
    rw [run_exec] at hs
    rw [AllSteps]
    rcases hexec : sem w s with e | ⟨n, s'⟩
    · rw [hexec] at hs
      exact ⟨trivial, hs⟩
    · rw [hexec] at hs
      obtain ⟨hrest, hs'⟩ := ih n (hp.2 n) s' hs
      obtain ⟨hw, hs⟩ := hp.1 s n s' hexec hs'
      exact ⟨⟨hw, hrest⟩, hs⟩
  | tx body next ihb ih =>
    intro s hs
    rw [run_tx] at hs
    rw [AllSteps]
    rcases hrun : body.run sem s with ⟨e | b, s'⟩
    · rw [hrun] at hs
      exact ⟨trivial, hs⟩
    · rw [hrun] at hs
      obtain ⟨hrest, hs'⟩ := ih b (hp.2 b) s' hs
      obtain ⟨hbody, hs⟩ := ihb hp.1 s (by rwa [hrun])
      exact ⟨⟨hbody, hrest⟩, hs⟩

theorem shows_bind_readOnly (hp : p.Shows sem P I) (hf : ∀ a, (f a).ReadOnly) : (p >>= f).Shows sem P I :=
  shows_bind_of_back hp fun a => (hf a).issues

theorem shows_forM_option {o : Option β} {body : β → Prog σ ω ε PUnit} (h : ∀ x, (body x).Shows sem P I) :
    (o.forM body).Shows sem P I := by
  rcases o with _ | x
  · exact shows_of_issues (issues_pure _)
  · exact h x

end Shows

-- the checks below a goal would otherwise run the program
attribute [irreducible] AllSteps

end Lumiere.Core.Prog
