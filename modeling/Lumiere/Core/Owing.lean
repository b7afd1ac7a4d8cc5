/-
Calls that owe something: a statement of a call may leave work that only its own later statements do, and other calls go
on meanwhile.

- `Prog.Repays P opens settles D p`: a program of statements that satisfy P. What one opens the rest settles, however it
  goes on, unless it is left to what follows the program, as D says.
- `Calls.Repaying`: whatever is not right is owed by some call. `repaying_step`: a move keeps this, unless it interrupts
  a call that owes something. `Repaying.right_of_quiet`: when no call is in progress, everything is right.
-/
import Lumiere.Core.Paired

namespace Lumiere.Core

namespace Prog

variable {σ ω ε α β κ : Type}

/-! ## One program -/

/-- a program that returns, unless one of its statements fails -/
def Straight {α : Type} : Prog σ ω ε α → Prop
  | .ret _ => True
  | .fail _ => False
  | .query next => ∀ s, (next s).Straight
  | .exec _ next => ∀ n, (next n).Straight
  | .tx _ _ => False

def Repays (P : ω → Prop) (opens settles : ω → κ → Prop) (D : κ → Prop) {α : Type} : Prog σ ω ε α → Prop
  | .ret _ => True
  | .fail _ => True
  | .query next => ∀ s, (next s).Repays P opens settles D
  | .exec w next => P w ∧ (∀ k, opens w k → D k ∨ ∀ n, (next n).Owes settles k) ∧
    ∀ n, (next n).Repays P opens settles D
  | .tx body next => body.ReadOnly ∧ ∀ b, (next b).Repays P opens settles D

variable {P : ω → Prop} {opens settles : ω → κ → Prop} {D D' : κ → Prop} {k : κ} {p : Prog σ ω ε α}
  {f : α → Prog σ ω ε β}

theorem straight_when {c : Prop} [Decidable c] {w : ω} : (when c (execute w) : Prog σ ω ε Unit).Straight := by
  unfold when
  split_ifs
  · intro n
    trivial
  · trivial

theorem straight_bind (hp : p.Straight) (hf : ∀ a, (f a).Straight) : (p >>= f).Straight := by
  show (p.bind f).Straight
  induction p with
  | ret a => exact hf a
  | fail e => exact hp.elim
  | query next ih => exact fun s => ih s (hp s) hf
  | exec w next ih => exact fun n => ih n (hp n) hf
  | tx body next _ _ => exact hp.elim

theorem straight_forM {xs : List β} {body : β → Prog σ ω ε PUnit} (h : ∀ x ∈ xs, (body x).Straight) :
    (xs.forM body).Straight := by
  induction xs with
  | nil => trivial
  | cons x xs ih =>
    apply straight_bind (h x List.mem_cons_self)
    intro _
    exact ih fun y hy => h y (List.mem_cons_of_mem x hy)

/-- what follows a straight program is reached -/
theorem owes_bind_right (hp : p.Straight) (hf : ∀ a, (f a).Owes settles k) : (p >>= f).Owes settles k := by
  show (p.bind f).Owes settles k
  induction p with
  | ret a => exact hf a
  | fail e => exact hp.elim
  | query next ih => exact fun s => ih s (hp s) hf
  | exec w next ih => exact .inr fun n => ih n (hp n) hf
  | tx body next _ _ => exact hp.elim

theorem owes_execute {w : ω} (h : settles w k) : (execute w : Prog σ ω ε Unit).Owes settles k := .inl h

theorem owes_execute_bind {w : ω} {g : Unit → Prog σ ω ε α} (h : (g ()).Owes settles k) :
    (execute w >>= g).Owes settles k :=
  .inr fun _ => h

theorem repays_pure (a : α) : (pure a : Prog σ ω ε α).Repays P opens settles D := trivial

theorem ReadOnly.repays (hp : p.ReadOnly) : p.Repays P opens settles D := by
  induction p with
  | ret a => trivial
  | fail e => trivial
  | query next ih => exact fun s => ih s (hp s)
  | exec w next ih => exact hp.1.elim
  | tx body next _ ih => exact ⟨hp.1, fun b => ih b (hp.2 b)⟩

/-- what the first program leaves open is settled by the second -/
theorem repays_bind_of_owes (hp : p.Repays P opens settles D') (hstraight : p.Straight)
    (howes : ∀ a k, D' k → (f a).Owes settles k) (hf : ∀ a, (f a).Repays P opens settles D) :
    (p >>= f).Repays P opens settles D := by
  show (p.bind f).Repays P opens settles D
  induction p with
  | ret a => exact hf a
  | fail e => trivial
  | query next ih => exact fun s => ih s (hp s) (hstraight s) howes hf
  | exec w next ih =>
    refine ⟨hp.1, ?_, fun n => ih n (hp.2.2 n) (hstraight n) howes hf⟩
    intro k hk
    refine .inr fun n => ?_
    rcases hp.2.1 k hk with hD | hnext
    · exact owes_bind_right (hstraight n) fun a => howes a k hD
    · exact owes_bind (hnext n)
  | tx body next _ _ => exact hstraight.elim

theorem repays_bind (hp : p.Repays P opens settles D) (hf : ∀ a, (f a).Repays P opens settles D) :
    (p >>= f).Repays P opens settles D := by
  show (p.bind f).Repays P opens settles D
  induction p with
  | ret a => exact hf a
  | fail e => trivial
  | query next ih => exact fun s => ih s (hp s) hf
  | exec w next ih =>
    refine ⟨hp.1, ?_, fun n => ih n (hp.2.2 n) hf⟩
    intro k hk
    exact (hp.2.1 k hk).imp_right fun hnext n => owes_bind (hnext n)
  | tx body next _ ih => exact ⟨hp.1, fun b => ih b (hp.2 b) hf⟩

theorem repays_execute {w : ω} (hw : P w) (hopen : ∀ k, opens w k → D k) :
    (execute w : Prog σ ω ε Unit).Repays P opens settles D :=
  ⟨hw, fun k hk => .inl (hopen k hk), fun _ => trivial⟩

/-- a statement whose work the rest does -/
theorem repays_execute_bind {w : ω} {g : Unit → Prog σ ω ε α} (hw : P w)
    (howes : ∀ k, opens w k → (g ()).Owes settles k) (hg : (g ()).Repays P opens settles D) : (execute w >>= g).Repays P opens settles D :=
  ⟨hw, fun k hk => .inr fun _ => howes k hk, fun _ => hg⟩

theorem repays_when {c : Prop} [Decidable c] {q : Prog σ ω ε Unit} (h : c → q.Repays P opens settles D) :
    (when c q).Repays P opens settles D := by
  unfold when
  split_ifs with hc
  · exact h hc
  · trivial

theorem repays_forM_option {o : Option β} {body : β → Prog σ ω ε PUnit} (h : ∀ x, (body x).Repays P opens settles D) :
    (o.forM body).Repays P opens settles D := by
  cases o with
  | none => trivial
  | some x => exact h x

theorem repays_forM {xs : List β} {body : β → Prog σ ω ε PUnit} (h : ∀ x ∈ xs, (body x).Repays P opens settles D) :
    (xs.forM body).Repays P opens settles D := by
  induction xs with
  | nil => trivial
  | cons x xs ih =>
    apply repays_bind (h x List.mem_cons_self)
    intro _
    exact ih fun y hy => h y (List.mem_cons_of_mem x hy)

theorem repays_interrupt (e : ε) : (p.interrupt e).Repays P opens settles D := by
  cases p <;> trivial

variable {sem : ω → σ → Except ε (ℕ × σ)} {s : σ}

/-- a step executes the next statement, or leaves everything as it is -/
theorem repays_advance (hsem : ∀ w s, P w → ∃ r, sem w s = .ok r) (hp : p.Repays P opens settles fun _ => False)
    (s : σ) :
    (p.advance sem s).1.Repays P opens settles (fun _ => False) ∧
      ((p.advance sem s).2 = s ∧ (∀ k, p.Owes settles k → (p.advance sem s).1.Owes settles k) ∨
        ∃ w n, p.pending = some w ∧ P w ∧ sem w s = .ok (n, (p.advance sem s).2) ∧
          (∀ k, p.Owes settles k → settles w k ∨ (p.advance sem s).1.Owes settles k) ∧
          ∀ k, opens w k → (p.advance sem s).1.Owes settles k) := by
  cases p with
  | ret a => exact ⟨trivial, .inl ⟨rfl, fun _ => id⟩⟩
  | fail e => exact ⟨trivial, .inl ⟨rfl, fun _ => id⟩⟩
  | query next => exact ⟨hp s, .inl ⟨rfl, fun _ hk => hk s⟩⟩
  | exec w next =>
    obtain ⟨hw, hopen, hnext⟩ := hp
    obtain ⟨⟨n, t⟩, hexec⟩ := hsem w s hw
    rw [advance, hexec]
    refine ⟨hnext n, .inr ⟨w, n, rfl, hw, hexec, ?_, ?_⟩⟩
    · intro k hk
      exact hk.imp_right fun hk => hk n
    · intro k hk
      exact (hopen k hk).resolve_left id n
  | tx body next =>
    obtain ⟨hbody, hnext⟩ := hp
    rw [advance]
    rcases hrun : body.run sem s with ⟨e | b, t⟩
    · exact ⟨trivial, .inl ⟨rfl, fun _ hk => hk⟩⟩
    · obtain rfl := hbody.eq_of_run hrun
      exact ⟨hnext b, .inl ⟨rfl, fun _ hk => hk.elim⟩⟩

end Prog

/-! ## Calls -/

def Move.isInterrupt {ρ : Type} : Move ρ → Bool
  | .interrupt _ => true
  | _ => false

namespace Calls

variable {ρ σ ω ε κ : Type}

structure Repaying (P : ω → Prop) (opens settles : ω → κ → Prop) (I : σ → Prop) (Right : κ → σ → Prop)
    (s : Calls ρ σ ω ε) : Prop where
  repays : ∀ c ∈ s.calls, c.rest.Repays P opens settles fun _ => False
  inv : I s.shared
  owed : ∀ k, Right k s.shared ∨ ∃ c ∈ s.calls, c.rest.Owes settles k

/-- what the statements do, where `ok` allows them -/
structure Pays (P : ω → Prop) (opens settles : ω → κ → Prop) (I : σ → Prop) (Right : κ → σ → Prop) (ok : ω → σ → Prop)
    (sem : ω → σ → Except ε (ℕ × σ)) : Prop where
  succeeds : ∀ w s, P w → ∃ r, sem w s = .ok r
  inv : ∀ {w s n t}, P w → ok w s → I s → sem w s = .ok (n, t) → I t
  right : ∀ {w s n t k}, P w → ok w s → I s → sem w s = .ok (n, t) → Right k s ∨ settles w k → Right k t ∨ opens w k

/-- the move executes an allowed statement, and interrupts no call that owes something -/
def Spares (ok : ω → σ → Prop) (settles : ω → κ → Prop) (s : Calls ρ σ ω ε) : Move ρ → Prop
  | .issue _ => True
  | .advance i => ∀ w ∈ s.executes (.advance i), ok w s.shared
  | .interrupt i => ∀ c ∈ s.calls[i]?, ∀ k, ¬ c.rest.Owes settles k

variable {P : ω → Prop} {opens settles : ω → κ → Prop} {I : σ → Prop} {Right : κ → σ → Prop} {ok : ω → σ → Prop}
  {start : ρ → Prog σ ω ε Unit} {sem : ω → σ → Except ε (ℕ × σ)} {e : ε} {s : Calls ρ σ ω ε} {o : Move ρ}

/-- no interruption -/
theorem spares_of_executes (h : o.isInterrupt = false) (hok : ∀ w ∈ s.executes o, ok w s.shared) :
    s.Spares ok settles o := by
  cases o with
  | issue r => trivial
  | advance i => exact hok
  | interrupt i => cases h

/-- the programs of the calls after a move -/
theorem repays_step (hsem : ∀ w s, P w → ∃ r, sem w s = .ok r)
    (hstart : ∀ r, (start r).Repays P opens settles fun _ => False)
    (hs : ∀ c ∈ s.calls, c.rest.Repays P opens settles fun _ => False) :
    ∀ c ∈ (s.step start sem e o).calls, c.rest.Repays P opens settles fun _ => False := by
  intro c' hc'
  obtain ⟨i, hi⟩ := List.mem_iff_getElem?.mp hc'
  obtain ⟨r, -, rfl⟩ | ⟨c, hc, rfl | ⟨-, rfl, -⟩ | ⟨-, rfl⟩⟩ := getElem?_step hi
  · exact hstart r
  · exact hs c' (List.mem_of_getElem? hc)
  · exact (Prog.repays_advance hsem (hs c (List.mem_of_getElem? hc)) s.shared).1
  · exact Prog.repays_interrupt e

/-- **Whatever is not right is owed, after any move that is allowed.** -/
theorem repaying_step (hsem : Pays P opens settles I Right ok sem)
    (hstart : ∀ r, (start r).Repays P opens settles fun _ => False) (hs : s.Repaying P opens settles I Right)
    (ho : s.Spares ok settles o) : (s.step start sem e o).Repaying P opens settles I Right := by
  have hrepays : ∀ c ∈ (s.step start sem e o).calls, c.rest.Repays P opens settles fun _ => False :=
    repays_step hsem.succeeds hstart hs.repays
  -- a call that the move is not about owes what it owed
  have hother : ∀ i, o ≠ .advance i → o ≠ .interrupt i → ∀ c k, s.calls[i]? = some c → c.rest.Owes settles k →
      ∃ c' ∈ (s.step start sem e o).calls, c'.rest.Owes settles k := by
    intro i hadvance hinterrupt c k hc hk
    exact ⟨c, List.mem_of_getElem? (getElem?_step_of_ne hc hadvance hinterrupt), hk⟩
  cases o with
  | issue r =>
    refine ⟨hrepays, hs.inv, fun k => (hs.owed k).imp_right ?_⟩
    intro howed
    obtain ⟨c, hc, hk⟩ := howed
    obtain ⟨i, hi⟩ := List.mem_iff_getElem?.mp hc
    exact hother i (by simp) (by simp) c k hi hk
  | interrupt i =>
    refine ⟨hrepays, hs.inv, fun k => (hs.owed k).imp_right ?_⟩
    intro howed
    obtain ⟨c, hc, hk⟩ := howed
    obtain ⟨j, hj⟩ := List.mem_iff_getElem?.mp hc
    by_cases hij : i = j
    · subst hij
      exact absurd hk (ho c hj k)
    · exact hother j (by simp) (by simpa using hij) c k hj hk
  | advance i =>
    cases hi : s.calls[i]? with
    | none =>
      have hsame : s.step start sem e (.advance i) = s := by
        rw [step, hi, List.modify_eq_self (List.getElem?_eq_none_iff.mp hi)]
        rfl
      rwa [hsame]
    | some c =>
      have hown : (s.step start sem e (.advance i)).calls[i]? = some _ := getElem?_advance hi
      have hshared : (s.step start sem e (.advance i)).shared = _ := shared_advance hi
      obtain ⟨-, hadvance⟩ := Prog.repays_advance hsem.succeeds (hs.repays c (List.mem_of_getElem? hi)) s.shared
      rcases hadvance with ⟨hsame, howes⟩ | ⟨w, n, hpending, hP, hexec, howes, hopens⟩
      · rw [hsame] at hshared
        refine ⟨hrepays, hshared ▸ hs.inv, fun k => ?_⟩
        rw [hshared]
        refine (hs.owed k).imp_right ?_
        intro howed
        obtain ⟨c', hc', hk⟩ := howed
        obtain ⟨j, hj⟩ := List.mem_iff_getElem?.mp hc'
        by_cases hij : i = j
        · subst hij
          obtain rfl := Option.some.inj (hi.symm.trans hj)
          exact ⟨_, List.mem_of_getElem? hown, howes k hk⟩
        · exact hother j (by simpa using hij) (by simp) c' k hj hk
      · rw [← hshared] at hexec
        have hok : ok w s.shared := by
          apply ho w
          rw [executes, hi]
          exact hpending
        refine ⟨hrepays, hsem.inv hP hok hs.inv hexec, fun k => ?_⟩
        have hright : Right k s.shared ∨ settles w k → Right k (s.step start sem e (.advance i)).shared ∨
            ∃ c' ∈ (s.step start sem e (.advance i)).calls, c'.rest.Owes settles k := by
          intro hk
          refine (hsem.right hP hok hs.inv hexec hk).imp_right ?_
          intro hopen
          exact ⟨_, List.mem_of_getElem? hown, hopens k hopen⟩
        rcases hs.owed k with hk | ⟨c', hc', hk⟩
        · exact hright (.inl hk)
        · obtain ⟨j, hj⟩ := List.mem_iff_getElem?.mp hc'
          by_cases hij : i = j
          · subst hij
            obtain rfl := Option.some.inj (hi.symm.trans hj)
            rcases howes k hk with hsettles | hk
            · exact hright (.inr hsettles)
            · exact .inr ⟨_, List.mem_of_getElem? hown, hk⟩
          · exact .inr (hother j (by simpa using hij) (by simp) c' k hj hk)

/-- **When no call is in progress, everything is right.** -/
theorem Repaying.right_of_quiet (h : s.Repaying P opens settles I Right) (hs : s.Quiet) (k : κ) : Right k s.shared := by
  refine (h.owed k).resolve_right ?_
  intro howed
  obtain ⟨c, hc, hk⟩ := howed
  exact Prog.not_owes_of_finished (hs c hc) hk

end Calls

end Lumiere.Core
