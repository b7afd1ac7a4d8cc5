/-
Requests that do not interfere. Part of the state is in view; some requests are kept in mind, the others only go on
beside them.

- `Prog.Determined sem I view p`: what `p` reads and what its statements do depends on what is in view.
- `Prog.Unheard sem I view p`: `p` leaves what is in view as it is.
- `Calls.undisturbed`: if the kept requests are determined and the others unheard, then in every run what is in view,
  and what becomes of the kept requests, is as if the others had done nothing. The invariant I is for both to rely on.
-/
import Lumiere.Core.Calls
import Mathlib.Data.List.Forall2

namespace Lumiere.Core

namespace Prog

variable {σ ω ε α β ν : Type}

/-! ## One program -/

section

variable (sem : ω → σ → Except ε (ℕ × σ)) (I : σ → Prop) (view : σ → ν)

def Unheard {α : Type} : Prog σ ω ε α → Prop
  | .ret _ => True
  | .fail _ => True
  | .query next => ∀ s, I s → (next s).Unheard
  | .exec w next => (∀ s n t, I s → sem w s = .ok (n, t) → I t ∧ view t = view s) ∧ ∀ n, (next n).Unheard
  | .tx body next => (∀ s b t, I s → body.run sem s = (.ok b, t) → I t ∧ view t = view s) ∧ ∀ b, (next b).Unheard

/-- two outcomes of a statement that agree in what is in view -/
inductive SameOutcome : Except ε (ℕ × σ) → Except ε (ℕ × σ) → Prop where
  | ok {n : ℕ} {s t : σ} (hs : I s) (ht : I t) (hview : view s = view t) : SameOutcome (.ok (n, s)) (.ok (n, t))
  | error (e : ε) : SameOutcome (.error e) (.error e)

/-- there are no transactions -/
def Determined {α : Type} : Prog σ ω ε α → Prop
  | .ret _ => True
  | .fail _ => True
  | .query next => (∀ s t, I s → I t → view s = view t → next s = next t) ∧ ∀ s, I s → (next s).Determined
  | .exec w next =>
    (∀ s t, I s → I t → view s = view t → SameOutcome I view (sem w s) (sem w t)) ∧ ∀ n, (next n).Determined
  | .tx _ _ => False

end

variable {sem : ω → σ → Except ε (ℕ × σ)} {I : σ → Prop} {view : σ → ν} {p : Prog σ ω ε α} {f : α → Prog σ ω ε β}
  {s t : σ}

theorem unheard_pure (a : α) : (pure a : Prog σ ω ε α).Unheard sem I view := trivial

theorem unheard_bind (hp : p.Unheard sem I view) (hf : ∀ a, (f a).Unheard sem I view) :
    (p >>= f).Unheard sem I view := by
  show (p.bind f).Unheard sem I view
  induction p with
  | ret a => exact hf a
  | fail e => trivial
  | query next ih => exact fun s hs => ih s (hp s hs) hf
  | exec w next ih => exact ⟨hp.1, fun n => ih n (hp.2 n) hf⟩
  | tx body next _ ih => exact ⟨hp.1, fun b => ih b (hp.2 b) hf⟩

theorem unheard_select_bind {g : σ → α} (hf : ∀ s, I s → (f (g s)).Unheard sem I view) :
    (select g >>= f).Unheard sem I view := hf

theorem unheard_failIf_bind {c : Prop} [Decidable c] {e : ε} {g : Unit → Prog σ ω ε β}
    (hg : ¬ c → (g ()).Unheard sem I view) : (failIf c e >>= g).Unheard sem I view := by
  rw [failIf]
  split_ifs with hc
  · trivial
  · exact hg hc

theorem unheard_orFail_bind {e : ε} {o : Option α} (hf : ∀ a, o = some a → (f a).Unheard sem I view) :
    (orFail e o >>= f).Unheard sem I view := by
  cases o with
  | none => trivial
  | some a => exact hf a rfl

theorem unheard_execute {w : ω} (h : ∀ s n t, I s → sem w s = .ok (n, t) → I t ∧ view t = view s) :
    (execute w : Prog σ ω ε Unit).Unheard sem I view := ⟨h, fun _ => trivial⟩

/-- an unheard program that runs alone -/
theorem unheard_run {a : α} (hp : p.Unheard sem I view) (hs : I s) (h : p.run sem s = (.ok a, t)) :
    I t ∧ view t = view s := by
  induction p generalizing s with
  | ret b =>
    obtain ⟨-, rfl⟩ := Prod.mk.inj h
    exact ⟨hs, rfl⟩
  | fail e => cases (Prod.mk.inj h).1
  | query next ih => exact ih s (hp s hs) hs h
  | exec w next ih =>
    rw [run_exec] at h
    rcases hw : sem w s with e | ⟨n, s'⟩
    · rw [hw] at h
      cases (Prod.mk.inj h).1
    · rw [hw] at h
      obtain ⟨hs', hview⟩ := hp.1 s n s' hs hw
      obtain ⟨ht, hview'⟩ := ih n (hp.2 n) hs' h
      exact ⟨ht, hview'.trans hview⟩
  | tx body next _ ih =>
    rw [run_tx] at h
    rcases hbody : body.run sem s with ⟨e | b, s'⟩
    · rw [hbody] at h
      cases (Prod.mk.inj h).1
    · rw [hbody] at h
      obtain ⟨hs', hview⟩ := hp.1 s b s' hs hbody
      obtain ⟨ht, hview'⟩ := ih b (hp.2 b) hs' h
      exact ⟨ht, hview'.trans hview⟩

theorem unheard_atomically (hp : p.Unheard sem I view) : (atomically p).Unheard sem I view :=
  ⟨fun _ _ _ hs h => unheard_run hp hs h, fun _ => trivial⟩

theorem unheard_forM_option {o : Option β} {body : β → Prog σ ω ε PUnit}
    (h : ∀ x, (body x).Unheard sem I view) : (o.forM body).Unheard sem I view := by
  cases o with
  | none => trivial
  | some x => exact h x

/-- a statement that does the same to what is in view alone -/
theorem sameOutcome_of_local {w : ω} {act : ν → Except ε (ℕ × ν)}
    (hact : ∀ s, I s → act (view s) = (fun r => (r.1, view r.2)) <$> sem w s)
    (hkeep : ∀ s n t, I s → sem w s = .ok (n, t) → I t) (hs : I s) (ht : I t) (hview : view s = view t) :
    SameOutcome I view (sem w s) (sem w t) := by
  have hsame := (hact s hs).symm.trans ((congrArg act hview).trans (hact t ht))
  rcases hl : sem w s with e | ⟨n, s'⟩
  · rcases hr : sem w t with e' | ⟨m, t'⟩
    · rw [hl, hr] at hsame
      obtain rfl := Except.error.inj hsame
      exact .error e
    · rw [hl, hr] at hsame
      cases hsame
  · rcases hr : sem w t with e' | ⟨m, t'⟩
    · rw [hl, hr] at hsame
      cases hsame
    · rw [hl, hr] at hsame
      obtain ⟨hn, hview'⟩ := Prod.mk.inj (Except.ok.inj hsame)
      obtain rfl : n = m := hn
      exact .ok (hkeep s n s' hs hl) (hkeep t n t' ht hr) hview'

theorem determined_pure (a : α) : (pure a : Prog σ ω ε α).Determined sem I view := trivial

theorem determined_bind (hp : p.Determined sem I view) (hf : ∀ a, (f a).Determined sem I view) :
    (p >>= f).Determined sem I view := by
  show (p.bind f).Determined sem I view
  induction p with
  | ret a => exact hf a
  | fail e => trivial
  | query next ih =>
    exact ⟨fun s t hs ht hview => congrArg (bind · f) (hp.1 s t hs ht hview), fun s hs => ih s (hp.2 s hs) hf⟩
  | exec w next ih => exact ⟨hp.1, fun n => ih n (hp.2 n) hf⟩
  | tx body next _ _ => exact hp.elim

theorem determined_select {g : σ → α} (h : ∀ s t, I s → I t → view s = view t → g s = g t) :
    (select g : Prog σ ω ε α).Determined sem I view :=
  ⟨fun s t hs ht hview => congrArg ret (h s t hs ht hview), fun _ _ => trivial⟩

theorem determined_failIf {c : Prop} [Decidable c] {e : ε} :
    (failIf c e : Prog σ ω ε Unit).Determined sem I view := by
  rw [failIf]
  split_ifs <;> trivial

theorem determined_orFail {e : ε} {o : Option α} : (orFail e o : Prog σ ω ε α).Determined sem I view := by
  cases o <;> trivial

theorem determined_execute {w : ω}
    (h : ∀ s t, I s → I t → view s = view t → SameOutcome I view (sem w s) (sem w t)) :
    (execute w : Prog σ ω ε Unit).Determined sem I view := ⟨h, fun _ => trivial⟩

theorem determined_forM_option {o : Option β} {body : β → Prog σ ω ε PUnit}
    (h : ∀ x ∈ o, (body x).Determined sem I view) : (o.forM body).Determined sem I view := by
  cases o with
  | none => trivial
  | some x => exact h x rfl

/-- a step of an unheard program -/
theorem unheard_advance (hp : p.Unheard sem I view) (hs : I s) :
    (p.advance sem s).1.Unheard sem I view ∧ I (p.advance sem s).2 ∧ view (p.advance sem s).2 = view s := by
  cases p with
  | ret a => exact ⟨trivial, hs, rfl⟩
  | fail e => exact ⟨trivial, hs, rfl⟩
  | query next => exact ⟨hp s hs, hs, rfl⟩
  | exec w next =>
    rw [advance]
    rcases h : sem w s with e | ⟨n, t⟩
    · exact ⟨trivial, hs, rfl⟩
    · exact ⟨hp.2 n, hp.1 s n t hs h⟩
  | tx body next =>
    rw [advance]
    rcases h : body.run sem s with ⟨e | b, t⟩
    · exact ⟨trivial, hs, rfl⟩
    · exact ⟨hp.2 b, hp.1 s b t hs h⟩

/-- a step of a determined program in two states that agree in what is in view -/
theorem determined_advance (hp : p.Determined sem I view) (hs : I s) (ht : I t) (hview : view s = view t) :
    (p.advance sem s).1 = (p.advance sem t).1 ∧ (p.advance sem s).1.Determined sem I view ∧
      I (p.advance sem s).2 ∧ I (p.advance sem t).2 ∧ view (p.advance sem s).2 = view (p.advance sem t).2 := by
  cases p with
  | ret a => exact ⟨rfl, trivial, hs, ht, hview⟩
  | fail e => exact ⟨rfl, trivial, hs, ht, hview⟩
  | query next => exact ⟨hp.1 s t hs ht hview, hp.2 s hs, hs, ht, hview⟩
  | exec w next =>
    have hsame := hp.1 s t hs ht hview
    rw [advance, advance]
    generalize sem w s = r, sem w t = r' at hsame
    cases hsame with
    | ok hs' ht' hview' => exact ⟨rfl, hp.2 _, hs', ht', hview'⟩
    | error e => exact ⟨rfl, trivial, hs, ht, hview⟩
  | tx body next => exact hp.elim

end Prog

/-! ## Calls -/

namespace Calls

variable {ρ σ ω ε ν : Type}

/-- the kept requests start as they do, the others do nothing -/
def only (kept : ρ → Prop) [DecidablePred kept] (start : ρ → Prog σ ω ε Unit) (r : ρ) : Prog σ ω ε Unit :=
  if kept r then start r else pure ()

/-- a call among all, and the same call where only kept ones do something -/
structure Alike (kept : ρ → Prop) (sem : ω → σ → Except ε (ℕ × σ)) (I : σ → Prop) (view : σ → ν)
    (c d : Call ρ σ ω ε) : Prop where
  request : c.request = d.request
  own : kept c.request → c.rest = d.rest ∧ c.rest.Determined sem I view
  other : ¬ kept c.request → c.rest.Unheard sem I view ∧ d.rest.finished = true

structure Undisturbed (kept : ρ → Prop) (sem : ω → σ → Except ε (ℕ × σ)) (I : σ → Prop) (view : σ → ν)
    (s t : Calls ρ σ ω ε) : Prop where
  calls : List.Forall₂ (Alike kept sem I view) s.calls t.calls
  left : I s.shared
  right : I t.shared
  same : view s.shared = view t.shared

variable {kept : ρ → Prop} {start : ρ → Prog σ ω ε Unit}
  {sem : ω → σ → Except ε (ℕ × σ)} {I : σ → Prop} {view : σ → ν} {e : ε} {s t : Calls ρ σ ω ε} {o : Move ρ}

theorem forall₂_modify {α : Type*} {R : α → α → Prop} {f g : α → α} {l l' : List α} (h : List.Forall₂ R l l')
    (hR : ∀ a b, R a b → R (f a) (g b)) (i : ℕ) : List.Forall₂ R (l.modify i f) (l'.modify i g) := by
  induction h generalizing i with
  | nil => simp
  | cons hab hl ih =>
    cases i with
    | zero => exact .cons (hR _ _ hab) hl
    | succ i => exact .cons hab (ih i)

theorem exists_of_forall₂ {α : Type*} {R : α → α → Prop} {l l' : List α} (h : List.Forall₂ R l l') {i : ℕ} {a : α}
    (hi : l[i]? = some a) : ∃ b, l'[i]? = some b ∧ R a b := by
  induction h generalizing i with
  | nil => cases hi
  | cons hab hl ih =>
    cases i with
    | zero =>
      obtain rfl := Option.some.inj hi
      exact ⟨_, rfl, hab⟩
    | succ i => exact ih hi

theorem Alike.advance {c d : Call ρ σ ω ε} (h : Alike kept sem I view c d) {a b : σ} (ha : I a) (hb : I b)
    (hview : view a = view b) :
    Alike kept sem I view (c.map fun p => (p.advance sem a).1) (d.map fun p => (p.advance sem b).1) ∧
      I (c.rest.advance sem a).2 ∧ I (d.rest.advance sem b).2 ∧
        view (c.rest.advance sem a).2 = view (d.rest.advance sem b).2 := by
  by_cases hkept : kept c.request
  · obtain ⟨hrest, hdet⟩ := h.own hkept
    have hrequest := h.request
    obtain ⟨r, p⟩ := c
    obtain ⟨r', q⟩ := d
    obtain rfl : p = q := hrest
    obtain ⟨hnext, hdet', ha', hb', hview'⟩ := Prog.determined_advance hdet ha hb hview
    exact ⟨⟨hrequest, fun _ => ⟨hnext, hdet'⟩, fun hn => absurd hkept hn⟩, ha', hb', hview'⟩
  · obtain ⟨hunheard, hdone⟩ := h.other hkept
    obtain ⟨hnext, ha', hview'⟩ := Prog.unheard_advance hunheard ha
    have hstill : d.rest.advance sem b = (d.rest, b) := by
      cases hrest : d.rest with
      | ret _ => rfl
      | fail _ => rfl
      | _ =>
        rw [hrest] at hdone
        cases hdone
    refine ⟨⟨h.request, fun hk => absurd hk hkept, ?_⟩, ha', ?_, ?_⟩
    · intro _
      refine ⟨hnext, ?_⟩
      rw [Call.map, hstill]
      exact hdone
    · rw [hstill]
      exact hb
    · rw [hstill, hview', hview]

theorem Alike.interrupt {c d : Call ρ σ ω ε} (h : Alike kept sem I view c d) :
    Alike kept sem I view (c.map (Prog.interrupt e)) (d.map (Prog.interrupt e)) := by
  refine ⟨h.request, ?_, ?_⟩
  · intro hkept
    obtain ⟨hrest, -⟩ := h.own hkept
    refine ⟨by rw [Call.map, Call.map, hrest], ?_⟩
    cases hc : c.rest with
    | _ =>
      rw [Call.map, hc]
      trivial
  · intro hkept
    constructor
    · cases hc : c.rest with
      | _ =>
        rw [Call.map, hc]
        trivial
    · cases hd : d.rest with
      | _ =>
        rw [Call.map, hd]
        rfl

variable [DecidablePred kept]

theorem undisturbed_step
    (hkept : ∀ r, o = .issue r → kept r → (start r).Determined sem I view)
    (hother : ∀ r, o = .issue r → ¬ kept r → (start r).Unheard sem I view)
    (h : Undisturbed kept sem I view s t) :
    Undisturbed kept sem I view (s.step start sem e o) (t.step (only kept start) sem e o) := by
  cases o with
  | issue r =>
    refine ⟨List.rel_append h.calls (.cons ⟨rfl, ?_, ?_⟩ .nil), h.left, h.right, h.same⟩
    · intro hk
      rw [only, if_pos hk]
      exact ⟨rfl, hkept r rfl hk⟩
    · intro hk
      rw [only, if_neg hk]
      exact ⟨hother r rfl hk, rfl⟩
  | advance i =>
    have hcalls : List.Forall₂ (Alike kept sem I view) _ _ :=
      forall₂_modify h.calls (fun c d (hcd : Alike kept sem I view c d) => (hcd.advance h.left h.right h.same).1) i
    cases hi : s.calls[i]? with
    | none =>
      have hi' : t.calls[i]? = none := by
        rw [List.getElem?_eq_none_iff] at hi ⊢
        exact h.calls.length_eq ▸ hi
      refine ⟨hcalls, ?_, ?_, ?_⟩
      · rw [step, hi]
        exact h.left
      · rw [step, hi']
        exact h.right
      · rw [step, step, hi, hi']
        exact h.same
    | some c =>
      obtain ⟨d, hd, hcd⟩ := exists_of_forall₂ h.calls hi
      obtain ⟨-, ha, hb, hview⟩ := hcd.advance h.left h.right h.same
      refine ⟨hcalls, ?_, ?_, ?_⟩
      · rw [shared_advance hi]
        exact ha
      · rw [shared_advance hd]
        exact hb
      · rw [shared_advance hi, shared_advance hd]
        exact hview
  | interrupt i =>
    refine ⟨?_, h.left, h.right, h.same⟩
    exact forall₂_modify h.calls (fun c d (hcd : Alike kept sem I view c d) => hcd.interrupt) i

/-- **The kept requests fare as if the others did nothing,** and so does what is in view. -/
theorem undisturbed (hI : I s.shared) (hidle : s.calls = []) {moves : List (Move ρ)}
    (hkept : ∀ r, .issue r ∈ moves → kept r → (start r).Determined sem I view)
    (hother : ∀ r, .issue r ∈ moves → ¬ kept r → (start r).Unheard sem I view) :
    Undisturbed kept sem I view (run (step start sem e) s moves) (run (step (only kept start) sem e) s moves) := by
  have hinit : Undisturbed kept sem I view s s := by
    refine ⟨?_, hI, hI, rfl⟩
    rw [hidle]
    exact .nil
  suffices h : ∀ t, Undisturbed kept sem I view s t →
      Undisturbed kept sem I view (run (step start sem e) s moves) (run (step (only kept start) sem e) t moves) from
    h s hinit
  clear hinit hI hidle
  induction moves generalizing s with
  | nil =>
    intro t h
    exact h
  | cons o moves ih =>
    intro t h
    refine ih (fun r hr => hkept r (List.mem_cons_of_mem o hr)) (fun r hr => hother r (List.mem_cons_of_mem o hr)) _
      (undisturbed_step ?_ ?_ h)
    · intro r hr
      exact hkept r (hr ▸ List.mem_cons_self)
    · intro r hr
      exact hother r (hr ▸ List.mem_cons_self)

end Calls

end Lumiere.Core
