/-
A copy of something that follows announcements. Each call about the thing writes to it, and announces what it wrote with
its next statement; the statements of other calls leave it, and the copy, alone.

- `Calls.InTurn`: no call about the thing begins while another one is in progress, and none is cut off between its write
  and its announcement.
- `Calls.following_step`: moves in turn keep the copy right, but for what a call in progress announces next.
- `Calls.Following.right`: when no call about the thing is in progress, the copy is right.
-/
import Lumiere.Core.Ledger
import Lumiere.Core.Paired

namespace Lumiere.Core.Calls

variable {ρ σ ω ε κ : Type}

/-! ## Statements -/

/-- the statement leaves the thing and its copy alone -/
def Neutral (Right : σ → Prop) (Ahead : κ → σ → Prop) (sem : ω → σ → Except ε (ℕ × σ)) (w : ω) : Prop :=
  ∀ s n t, sem w s = .ok (n, t) → (Right s → Right t) ∧ ∀ k, Ahead k s → Ahead k t

/-- the statement of a call: one about the thing puts the thing ahead of its copy by what it opens, and sets the copy right
by what it closes -/
structure Keeps (about : ρ → Prop) (opens closes : ω → Option κ) (Right : σ → Prop) (Ahead : κ → σ → Prop)
    (sem : ω → σ → Except ε (ℕ × σ)) (r : ρ) (w : ω) : Prop where
  other : ¬ about r → Neutral Right Ahead sem w
  write : about r → ∀ k ∈ opens w, ∀ s n t, sem w s = .ok (n, t) → Ahead k t
  announce : about r → ∀ k ∈ closes w, ∀ s n t, Ahead k s → sem w s = .ok (n, t) → Right t
  rest : about r → opens w = none → closes w = none → Neutral Right Ahead sem w

/-! ## Calls -/

/-- no call about the thing is in progress -/
def Idle (about : ρ → Prop) (s : Calls ρ σ ω ε) : Prop := ∀ c ∈ s.calls, about c.request → c.rest.finished = true

def InTurn (about : ρ → Prop) (closes : ω → Option κ) (s : Calls ρ σ ω ε) : Move ρ → Prop
  | .issue r => about r → s.Idle about
  | .advance _ => True
  | .interrupt i => ∀ c ∈ s.calls[i]?, about c.request → c.rest.pending.bind closes = none

instance (about : ρ → Prop) [DecidablePred about] (s : Calls ρ σ ω ε) : Decidable (s.Idle about) :=
  inferInstanceAs (Decidable (∀ c ∈ s.calls, about c.request → c.rest.finished = true))

instance (about : ρ → Prop) [DecidablePred about] (closes : ω → Option κ) (s : Calls ρ σ ω ε) :
    (o : Move ρ) → Decidable (s.InTurn about closes o)
  | .issue r => inferInstanceAs (Decidable (about r → s.Idle about))
  | .advance _ => isTrue trivial
  | .interrupt i =>
    inferInstanceAs (Decidable (∀ c ∈ s.calls[i]?, about c.request → c.rest.pending.bind closes = none))

structure Following (about : ρ → Prop) (opens closes : ω → Option κ) (Right : σ → Prop) (Ahead : κ → σ → Prop)
    (sem : ω → σ → Except ε (ℕ × σ)) (s : Calls ρ σ ω ε) : Prop where
  paired : ∀ c ∈ s.calls, ∃ m, c.rest.Paired (Keeps about opens closes Right Ahead sem c.request) opens closes m
  alone : ∀ {i j : ℕ} {c d : Call ρ σ ω ε}, s.calls[i]? = some c → s.calls[j]? = some d → about c.request →
    about d.request → c.rest.finished = false → d.rest.finished = false → i = j
  held : ∀ c ∈ s.calls, about c.request → ∀ k ∈ c.rest.pending.bind closes, Ahead k s.shared
  copied : Right s.shared ∨ ∃ c ∈ s.calls, about c.request ∧ (c.rest.pending.bind closes).isSome = true

variable {about : ρ → Prop} {opens closes : ω → Option κ} {Right : σ → Prop} {Ahead : κ → σ → Prop}
  {sem : ω → σ → Except ε (ℕ × σ)} {start : ρ → Prog σ ω ε Unit} {e : ε} {s : Calls ρ σ ω ε} {o : Move ρ}

theorem finished_of_advance {p : Prog σ ω ε Unit} {t : σ} (h : (p.advance sem t).1.finished = false) :
    p.finished = false := by
  cases p with
  | ret a => exact h
  | fail e => exact h
  | _ => rfl

theorem finished_interrupt (p : Prog σ ω ε Unit) : (p.interrupt e).finished = true := by
  cases p with
  | _ => rfl

theorem pending_of_finished {p : Prog σ ω ε Unit} (h : p.finished = true) : p.pending = none := by
  cases p with
  | ret a => rfl
  | fail e => rfl
  | _ => cases h

/-- when no call about the thing is in progress, the copy is right -/
theorem Following.right (h : s.Following about opens closes Right Ahead sem) (hidle : s.Idle about) :
    Right s.shared := by
  obtain hright | ⟨c, hc, habout, hpending⟩ := h.copied
  · exact hright
  · rw [pending_of_finished (hidle c hc habout)] at hpending
    cases hpending

theorem following_issue {r : ρ}
    (hstart : (start r).Paired (Keeps about opens closes Right Ahead sem r) opens closes none)
    (h : s.Following about opens closes Right Ahead sem) (hturn : about r → s.Idle about) :
    (s.step start sem e (.issue r)).Following about opens closes Right Ahead sem := by
  have hidle : ∀ {i : ℕ} {c : Call ρ σ ω ε}, about r → s.calls[i]? = some c → about c.request →
      c.rest.finished = false → False := by
    intro i c hr hc habout hfinished
    rw [hturn hr c (List.mem_of_getElem? hc) habout] at hfinished
    cases hfinished
  constructor
  · intro c hc
    rcases List.mem_append.mp hc with hc | hc
    · exact h.paired c hc
    · rw [List.mem_singleton.mp hc]
      exact ⟨none, hstart⟩
  · intro i j c d hi hj hc hd hcf hdf
    rw [step, List.getElem?_append] at hi hj
    split_ifs at hi hj with hil hjl hjl
    · exact h.alone hi hj hc hd hcf hdf
    · obtain rfl : d = ⟨r, start r⟩ := List.mem_singleton.mp (List.mem_of_getElem? hj)
      exact (hidle hd hi hc hcf).elim
    · obtain rfl : c = ⟨r, start r⟩ := List.mem_singleton.mp (List.mem_of_getElem? hi)
      exact (hidle hc hj hd hdf).elim
    · have hlen : ∀ {n : ℕ} {a : Call ρ σ ω ε}, [(⟨r, start r⟩ : Call ρ σ ω ε)][n]? = some a → n = 0 := by
        intro n a hn
        have hlt := (List.getElem?_eq_some_iff.mp hn).1
        simpa using hlt
      have hi0 := hlen hi
      have hj0 := hlen hj
      omega
  · intro c hc habout k hk
    rcases List.mem_append.mp hc with hc | hc
    · exact h.held c hc habout k hk
    · rw [List.mem_singleton.mp hc, hstart.pending] at hk
      cases hk
  · obtain hright | ⟨c, hc, hrest⟩ := h.copied
    · exact .inl hright
    · exact .inr ⟨c, List.mem_append_left _ hc, hrest⟩

/-- the calls after a move of the `i`-th, which stays in progress only if it was -/
theorem alone_of_modify {calls : List (Call ρ σ ω ε)} {i : ℕ} {f : Prog σ ω ε Unit → Prog σ ω ε Unit}
    (hf : ∀ p, (f p).finished = false → p.finished = false)
    (h : ∀ {i j : ℕ} {c d : Call ρ σ ω ε}, calls[i]? = some c → calls[j]? = some d → about c.request →
      about d.request → c.rest.finished = false → d.rest.finished = false → i = j)
    {j k : ℕ} {c d : Call ρ σ ω ε} (hj : (calls.modify i (Call.map f))[j]? = some c)
    (hk : (calls.modify i (Call.map f))[k]? = some d) (hc : about c.request) (hd : about d.request)
    (hcf : c.rest.finished = false) (hdf : d.rest.finished = false) : j = k := by
  have hbefore : ∀ {n : ℕ} {a : Call ρ σ ω ε}, (calls.modify i (Call.map f))[n]? = some a →
      a.rest.finished = false → ∃ b, calls[n]? = some b ∧ b.request = a.request ∧ b.rest.finished = false := by
    intro n a hn ha
    rw [List.getElem?_modify, Option.map_eq_map, Option.map_eq_some_iff] at hn
    obtain ⟨b, hb, rfl⟩ := hn
    refine ⟨b, hb, ?_, ?_⟩
    · split_ifs <;> rfl
    · split_ifs at ha
      · exact hf _ ha
      · exact ha
  obtain ⟨c', hc', hcr, hcf'⟩ := hbefore hj hcf
  obtain ⟨d', hd', hdr, hdf'⟩ := hbefore hk hdf
  exact h hc' hd' (hcr ▸ hc) (hdr ▸ hd) hcf' hdf'

section Modified

variable {i : ℕ} {c c' : Call ρ σ ω ε} {f : Prog σ ω ε Unit → Prog σ ω ε Unit}

theorem mem_modified (h : c' ∈ s.calls.modify i (Call.map f)) :
    (∃ c, s.calls[i]? = some c ∧ c' = c.map f) ∨ ∃ j, j ≠ i ∧ s.calls[j]? = some c' := by
  obtain ⟨j, hj⟩ := List.mem_iff_getElem?.mp h
  rw [List.getElem?_modify, Option.map_eq_map, Option.map_eq_some_iff] at hj
  obtain ⟨c, hc, rfl⟩ := hj
  by_cases hij : i = j
  · rw [if_pos hij]
    exact .inl ⟨c, hij ▸ hc, rfl⟩
  · rw [if_neg hij]
    exact .inr ⟨j, Ne.symm hij, hc⟩

theorem modified_mem (h : s.calls[i]? = some c) : c.map f ∈ s.calls.modify i (Call.map f) := by
  apply List.mem_iff_getElem?.mpr
  refine ⟨i, ?_⟩
  rw [List.getElem?_modify, h]
  simp

theorem mem_modified_of_ne {j : ℕ} (hij : j ≠ i) (h : s.calls[j]? = some c) : c ∈ s.calls.modify i (Call.map f) := by
  apply List.mem_iff_getElem?.mpr
  refine ⟨j, ?_⟩
  rw [List.getElem?_modify, h]
  simp [Ne.symm hij]

/-- the call that owes an announcement is another one -/
theorem exists_other (hown : (c.rest.pending.bind closes).isSome = true → about c.request → False)
    (hc : s.calls[i]? = some c) {d : Call ρ σ ω ε} (hd : d ∈ s.calls) (habout : about d.request)
    (hpending : (d.rest.pending.bind closes).isSome = true) : ∃ j, j ≠ i ∧ s.calls[j]? = some d := by
  obtain ⟨j, hj⟩ := List.mem_iff_getElem?.mp hd
  refine ⟨j, ?_, hj⟩
  rintro rfl
  obtain rfl : c = d := Option.some.inj (hc.symm.trans hj)
  exact hown hpending habout

end Modified

theorem following_interrupt {i : ℕ} (h : s.Following about opens closes Right Ahead sem)
    (hturn : s.InTurn about closes (.interrupt i)) :
    (s.step start sem e (.interrupt i)).Following about opens closes Right Ahead sem := by
  cases hi : s.calls[i]? with
  | none =>
    have hsame : s.step start sem e (.interrupt i) = s := by
      rw [step, modify_of_none hi]
    rw [hsame]
    exact h
  | some c =>
    have hpending : (c.rest.interrupt e).pending = none := pending_of_finished (finished_interrupt c.rest)
    constructor
    · intro c' hc'
      obtain ⟨c₀, hc₀, rfl⟩ | ⟨j, -, hj⟩ := mem_modified hc'
      · refine ⟨none, ?_⟩
        cases hrest : c₀.rest with
        | _ =>
          rw [Call.map, hrest]
          rfl
      · exact h.paired c' (List.mem_of_getElem? hj)
    · intro j k c' d' hj hk
      refine alone_of_modify ?_ h.alone hj hk
      intro p hp
      rw [finished_interrupt] at hp
      cases hp
    · intro c' hc' habout k hk
      obtain ⟨c₀, hc₀, rfl⟩ | ⟨j, -, hj⟩ := mem_modified hc'
      · rw [Call.map, pending_of_finished (finished_interrupt c₀.rest)] at hk
        cases hk
      · exact h.held c' (List.mem_of_getElem? hj) habout k hk
    · obtain hright | ⟨d, hd, habout, hisSome⟩ := h.copied
      · exact .inl hright
      · have hown : (c.rest.pending.bind closes).isSome = true → about c.request → False := by
          intro hsome hc
          rw [hturn c hi hc] at hsome
          cases hsome
        obtain ⟨j, hji, hj⟩ := exists_other hown hi hd habout hisSome
        exact .inr ⟨d, mem_modified_of_ne hji hj, habout, hisSome⟩

/-- the calls after a step of the `i`-th -/
theorem following_of_advance {i : ℕ} {c : Call ρ σ ω ε} {m : Option κ} (hi : s.calls[i]? = some c)
    (h : s.Following about opens closes Right Ahead sem)
    (hnext : (c.rest.advance sem s.shared).1.Paired (Keeps about opens closes Right Ahead sem c.request) opens closes m)
    (hown : about c.request → ∀ k ∈ m, Ahead k (c.rest.advance sem s.shared).2)
    (hothers : ∀ j d, j ≠ i → s.calls[j]? = some d → about d.request → ∀ k ∈ d.rest.pending.bind closes,
      Ahead k (c.rest.advance sem s.shared).2)
    (hcopied : Right (c.rest.advance sem s.shared).2 ∨ (about c.request ∧ m.isSome = true) ∨
      ∃ j d, j ≠ i ∧ s.calls[j]? = some d ∧ about d.request ∧ (d.rest.pending.bind closes).isSome = true) :
    (s.step start sem e (.advance i)).Following about opens closes Right Ahead sem := by
  have hshared : (s.step start sem e (.advance i)).shared = (c.rest.advance sem s.shared).2 := shared_advance hi
  constructor
  · intro c' hc'
    obtain ⟨c₀, hc₀, rfl⟩ | ⟨j, -, hj⟩ := mem_modified hc'
    · obtain rfl : c = c₀ := Option.some.inj (hi.symm.trans hc₀)
      exact ⟨m, hnext⟩
    · exact h.paired c' (List.mem_of_getElem? hj)
  · intro j k c' d' hj hk
    exact alone_of_modify (fun p => finished_of_advance) h.alone hj hk
  · intro c' hc' habout k hk
    rw [hshared]
    obtain ⟨c₀, hc₀, rfl⟩ | ⟨j, hji, hj⟩ := mem_modified hc'
    · obtain rfl : c = c₀ := Option.some.inj (hi.symm.trans hc₀)
      apply hown habout k
      rw [← hnext.pending]
      exact hk
    · exact hothers j c' hji hj habout k hk
  · rw [hshared]
    obtain hright | ⟨habout, hsome⟩ | ⟨j, d, hji, hj, habout, hsome⟩ := hcopied
    · exact .inl hright
    · refine .inr ⟨c.map fun p => (p.advance sem s.shared).1, modified_mem hi, habout, ?_⟩
      rw [Call.map, hnext.pending]
      exact hsome
    · exact .inr ⟨d, mem_modified_of_ne hji hj, habout, hsome⟩

theorem following_advance (hclose : ∀ w k s, closes w = some k → ∃ r, sem w s = .ok r) (i : ℕ)
    (h : s.Following about opens closes Right Ahead sem) :
    (s.step start sem e (.advance i)).Following about opens closes Right Ahead sem := by
  cases hi : s.calls[i]? with
  | none =>
    have hsame : s.step start sem e (.advance i) = s := by
      rw [step, modify_of_none hi, hi]
      rfl
    rw [hsame]
    exact h
  | some c =>
    obtain ⟨m, hm⟩ := h.paired c (List.mem_of_getElem? hi)
    have hown := hm.pending
    -- who owes the copy an announcement before the move
    have howed : Right s.shared ∨ (about c.request ∧ m.isSome = true) ∨
        ∃ j d, j ≠ i ∧ s.calls[j]? = some d ∧ about d.request ∧ (d.rest.pending.bind closes).isSome = true := by
      obtain hright | ⟨d, hd, habout, hsome⟩ := h.copied
      · exact .inl hright
      · obtain ⟨j, hj⟩ := List.mem_iff_getElem?.mp hd
        by_cases hji : j = i
        · subst hji
          obtain rfl : c = d := Option.some.inj (hi.symm.trans hj)
          exact .inr (.inl ⟨habout, hown ▸ hsome⟩)
        · exact .inr (.inr ⟨j, d, hji, hj, habout, hsome⟩)
    obtain ⟨rfl, hstay, hnext⟩ | ⟨w, n, hw, hkeeps, hclosed, hok, hnext⟩ := Prog.paired_advance hclose hm s.shared
    · -- nothing is written
      apply following_of_advance hi h hnext
      · intro _ k hk
        cases hk
      · intro j d _ hj habout k hk
        rw [hstay]
        exact h.held d (List.mem_of_getElem? hj) habout k hk
      · rw [hstay]
        exact howed
    · by_cases habout : about c.request
      · -- no other call about the thing is in progress
        have hbusy : c.rest.finished = false := by
          cases hfinished : c.rest.finished with
          | false => rfl
          | true =>
            rw [pending_of_finished hfinished] at hw
            cases hw
        have hquiet : ∀ j d, j ≠ i → s.calls[j]? = some d → about d.request → d.rest.pending = none := by
          intro j d hji hj hd
          apply pending_of_finished
          by_contra hfinished
          exact hji (h.alone hj hi hd habout (by simpa using hfinished) hbusy)
        apply following_of_advance hi h hnext
        · intro _ k hk
          exact hkeeps.write habout k hk s.shared n _ hok
        · intro j d hji hj hd k hk
          rw [hquiet j d hji hj hd] at hk
          cases hk
        · cases hopens : opens w with
          | some k => exact .inr (.inl ⟨habout, rfl⟩)
          | none =>
            left
            cases hm' : m with
            | some k =>
              have hahead : Ahead k s.shared := h.held c (List.mem_of_getElem? hi) habout k (hown.trans hm')
              exact hkeeps.announce habout k (hclosed.trans hm') s.shared n _ hahead hok
            | none =>
              obtain hright | ⟨-, hsome⟩ | ⟨j, d, hji, hj, hd, hsome⟩ := howed
              · exact (hkeeps.rest habout hopens (hclosed.trans hm') s.shared n _ hok).1 hright
              · rw [hm'] at hsome
                cases hsome
              · rw [hquiet j d hji hj hd] at hsome
                cases hsome
      · have hneutral := hkeeps.other habout s.shared n _ hok
        apply following_of_advance hi h hnext
        · intro hc
          exact absurd hc habout
        · intro j d _ hj hd k hk
          exact hneutral.2 k (h.held d (List.mem_of_getElem? hj) hd k hk)
        · obtain hright | ⟨hc, -⟩ | hother := howed
          · exact .inl (hneutral.1 hright)
          · exact absurd hc habout
          · exact .inr (.inr hother)

/-- **Moves in turn keep the copy right,** but for what a call in progress announces next. -/
theorem following_step (hclose : ∀ w k s, closes w = some k → ∃ r, sem w s = .ok r)
    (hstart : ∀ r, (start r).Paired (Keeps about opens closes Right Ahead sem r) opens closes none)
    (h : s.Following about opens closes Right Ahead sem) (hturn : s.InTurn about closes o) :
    (s.step start sem e o).Following about opens closes Right Ahead sem := by
  cases o with
  | issue r => exact following_issue (hstart r) h hturn
  | advance i => exact following_advance hclose i h
  | interrupt i => exact following_interrupt h hturn

end Lumiere.Core.Calls
