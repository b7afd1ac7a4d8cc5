/-
Calls that are issued one after the other and run side by side over a shared state. A call is a request with the rest of
its program; the calls are listed in the order in which they were issued.

- `Calls.step`: a call is issued, its next command takes effect, or the command comes back with an error.
- `Calls.inv_step`: a call that keeps an invariant keeps it among other calls, if the statements are allowed.
- `Prog.EndsWith Q p`: `p` returns only right after a statement that satisfies Q. `endsWith_advance`.
- `Prog.FailsWith E p`: the errors of `p` itself, not of its statements, satisfy E. `failsWith_advance`.
-/
import Lumiere.Core.Interleaving

namespace Lumiere.Core

namespace Prog

variable {σ ω ε α β : Type}

/-! ## The last statement -/

def EndsWith (Q : ω → Prop) {α : Type} : Prog σ ω ε α → Prop
  | .ret _ => False
  | .fail _ => True
  | .query next => ∀ s, (next s).EndsWith Q
  | .exec w next => (Q w ∧ ∀ n, (next n).succeeded = true) ∨ ∀ n, (next n).EndsWith Q
  | .tx _ next => ∀ b, (next b).EndsWith Q

section EndsWith

variable {Q : ω → Prop} {p : Prog σ ω ε α} {f : α → Prog σ ω ε β}

theorem endsWith_execute {w : ω} (h : Q w) : (execute w : Prog σ ω ε Unit).EndsWith Q := .inl ⟨h, fun _ => rfl⟩

theorem endsWith_bind (hf : ∀ a, (f a).EndsWith Q) : (p >>= f).EndsWith Q := by
  show (p.bind f).EndsWith Q
  induction p with
  | ret a => exact hf a
  | fail e => trivial
  | query next ih => exact fun s => ih s hf
  | exec w next ih => exact .inr fun n => ih n hf
  | tx body next _ ih => exact fun b => ih b hf

/-- the program returns now, having executed the last statement, or goes on to execute it -/
theorem endsWith_advance (sem : ω → σ → Except ε (ℕ × σ)) (hp : p.EndsWith Q) (s : σ) :
    (p.advance sem s).1.EndsWith Q ∨
      (p.advance sem s).1.succeeded = true ∧ ∃ w n, Q w ∧ sem w s = .ok (n, (p.advance sem s).2) := by
  cases p with
  | ret a => exact hp.elim
  | fail e => exact .inl trivial
  | query next => exact .inl (hp s)
  | exec w next =>
    rw [advance]
    rcases h : sem w s with e | ⟨n, s'⟩
    · exact .inl trivial
    · rcases hp with ⟨hw, hnext⟩ | hnext
      · exact .inr ⟨hnext n, w, n, hw, h⟩
      · exact .inl (hnext n)
  | tx body next =>
    rw [advance]
    rcases body.run sem s with ⟨e | b, s'⟩
    · exact .inl trivial
    · exact .inl (hp b)

theorem not_endsWith_of_succeeded (hp : p.succeeded = true) : ¬ p.EndsWith Q := by
  cases p with
  | ret a => exact id
  | _ => cases hp

theorem endsWith_interrupt (hp : p.EndsWith Q) (e : ε) : (p.interrupt e).EndsWith Q := by
  cases p with
  | ret a => exact hp
  | _ => trivial

end EndsWith

/-! ## Errors of its own -/

def FailsWith (E : ε → Prop) {α : Type} : Prog σ ω ε α → Prop
  | .ret _ => True
  | .fail e => E e
  | .query next => ∀ s, (next s).FailsWith E
  | .exec _ next => ∀ n, (next n).FailsWith E
  | .tx body next => body.FailsWith E ∧ ∀ b, (next b).FailsWith E

section FailsWith

variable {E : ε → Prop} {sem : ω → σ → Except ε (ℕ × σ)} {p : Prog σ ω ε α} {f : α → Prog σ ω ε β}

theorem failsWith_failIf {c : Prop} [Decidable c] {e : ε} (h : c → E e) : (failIf c e : Prog σ ω ε Unit).FailsWith E := by
  rw [failIf]
  split_ifs with hc
  · exact h hc
  · trivial

theorem failsWith_orFail {e : ε} {a : Option α} (h : E e) : (orFail e a : Prog σ ω ε α).FailsWith E := by
  cases a with
  | none => exact h
  | some a => trivial

theorem failsWith_ofExcept {r : Except ε α} (h : ∀ e, r = .error e → E e) :
    (ofExcept r : Prog σ ω ε α).FailsWith E := by
  cases r with
  | error e => exact h e rfl
  | ok a => trivial

theorem failsWith_bind (hp : p.FailsWith E) (hf : ∀ a, (f a).FailsWith E) : (p >>= f).FailsWith E := by
  show (p.bind f).FailsWith E
  induction p with
  | ret a => exact hf a
  | fail e => exact hp
  | query next ih => exact fun s => ih s (hp s) hf
  | exec w next ih => exact fun n => ih n (hp n) hf
  | tx body next _ ih => exact ⟨hp.1, fun b => ih b (hp.2 b) hf⟩

theorem failsWith_run (hsem : ∀ w s e, sem w s = .error e → E e) (hp : p.FailsWith E) {s s' : σ} {e : ε}
    (h : p.run sem s = (.error e, s')) : E e := by
  induction p generalizing s s' with
  | ret a => cases h
  | fail e' =>
    obtain rfl := Except.error.inj (Prod.mk.inj h).1
    exact hp
  | query next ih => exact ih s (hp s) h
  | exec w next ih =>
    rw [run_exec] at h
    rcases hw : sem w s with e' | ⟨n, t⟩
    · rw [hw] at h
      obtain rfl := Except.error.inj (Prod.mk.inj h).1
      exact hsem w s e' hw
    · rw [hw] at h
      exact ih n (hp n) h
  | tx body next ihb ih =>
    rw [run_tx] at h
    rcases hb : body.run sem s with ⟨e' | b, t⟩
    · rw [hb] at h
      obtain rfl := Except.error.inj (Prod.mk.inj h).1
      exact ihb hp.1 hb
    · rw [hb] at h
      exact ih b (hp.2 b) h

theorem failsWith_advance (hsem : ∀ w s e, sem w s = .error e → E e) (hp : p.FailsWith E) (s : σ) :
    (p.advance sem s).1.FailsWith E := by
  cases p with
  | ret a => trivial
  | fail e => exact hp
  | query next => exact hp s
  | exec w next =>
    rw [advance]
    rcases hw : sem w s with e | ⟨n, s'⟩
    · exact hsem w s e hw
    · exact hp n
  | tx body next =>
    rw [advance]
    rcases hb : body.run sem s with ⟨e | b, s'⟩
    · exact failsWith_run hsem hp.1 hb
    · exact hp.2 b

theorem failsWith_interrupt {e : ε} (he : E e) (hp : p.FailsWith E) : (p.interrupt e).FailsWith E := by
  cases p with
  | ret a => trivial
  | fail e' => exact hp
  | _ => exact he

end FailsWith

theorem interrupt_of_succeeded {p : Prog σ ω ε α} (hp : p.succeeded = true) (e : ε) : p.interrupt e = p := by
  cases p with
  | ret a => rfl
  | _ => cases hp

theorem advance_of_succeeded {sem : ω → σ → Except ε (ℕ × σ)} {p : Prog σ ω ε α} (hp : p.succeeded = true) (s : σ) :
    p.advance sem s = (p, s) := by
  cases p with
  | ret a => rfl
  | _ => cases hp

end Prog

/-! ## Calls -/

/-- what a modification leaves alone -/
theorem map_modify {α β : Type*} {f : α → α} {g : α → β} (h : ∀ x, g (f x) = g x) (l : List α) (i : ℕ) :
    (l.modify i f).map g = l.map g := by
  refine List.ext_getElem? fun j => ?_
  rw [List.getElem?_map, List.getElem?_map, List.getElem?_modify, Option.map_eq_map, Option.map_map]
  refine congrArg (fun k => Option.map k _) (funext fun x => ?_)
  simp only [Function.comp]
  split_ifs
  · exact h x
  · rfl

structure Call (ρ σ ω ε : Type) where
  request : ρ
  rest : Prog σ ω ε Unit

def Call.map {ρ σ ω ε : Type} (f : Prog σ ω ε Unit → Prog σ ω ε Unit) (c : Call ρ σ ω ε) : Call ρ σ ω ε :=
  { c with rest := f c.rest }

structure Calls (ρ σ ω ε : Type) where
  calls : List (Call ρ σ ω ε)
  shared : σ

inductive Move (ρ : Type) where
  | issue (r : ρ)
  | advance (i : ℕ)
  | interrupt (i : ℕ)
deriving DecidableEq, Repr

namespace Calls

variable {ρ σ ω ε : Type} (start : ρ → Prog σ ω ε Unit) (sem : ω → σ → Except ε (ℕ × σ)) (e : ε)

def step (s : Calls ρ σ ω ε) : Move ρ → Calls ρ σ ω ε
  | .issue r => { s with calls := s.calls ++ [⟨r, start r⟩] }
  | .advance i =>
    { calls := s.calls.modify i (Call.map fun p => (p.advance sem s.shared).1)
      shared := (s.calls[i]?.map fun c => (c.rest.advance sem s.shared).2).getD s.shared }
  | .interrupt i => { s with calls := s.calls.modify i (Call.map (Prog.interrupt e)) }

/-- the statement that a move executes -/
def executes (s : Calls ρ σ ω ε) : Move ρ → Option ω
  | .advance i => s.calls[i]?.bind fun c => c.rest.pending
  | _ => none

def requests (s : Calls ρ σ ω ε) : List ρ := s.calls.map Call.request

/-- the requests issued after the `k`-th -/
def later (s : Calls ρ σ ω ε) (k : ℕ) : List ρ := s.requests.drop (k + 1)

section

variable {start sem e} {s : Calls ρ σ ω ε} {o : Move ρ} {k : ℕ}

/-- a call after a move: it is new, it has been left alone, or the move was its own -/
theorem getElem?_step {c' : Call ρ σ ω ε} (h : (s.step start sem e o).calls[k]? = some c') :
    (∃ r, o = .issue r ∧ c' = ⟨r, start r⟩) ∨
      ∃ c, s.calls[k]? = some c ∧ (c' = c ∨
        o = .advance k ∧ c' = c.map (fun p => (p.advance sem s.shared).1) ∧
          (s.step start sem e o).shared = (c.rest.advance sem s.shared).2 ∨
        o = .interrupt k ∧ c' = c.map (Prog.interrupt e)) := by
  cases o with
  | issue r =>
    rw [step, List.getElem?_append] at h
    split_ifs at h with hk
    · exact .inr ⟨c', h, .inl rfl⟩
    · exact .inl ⟨r, rfl, List.mem_singleton.1 (List.mem_of_getElem? h)⟩
  | advance i =>
    rw [step, List.getElem?_modify, Option.map_eq_map, Option.map_eq_some_iff] at h
    obtain ⟨c, hc, rfl⟩ := h
    refine .inr ⟨c, hc, ?_⟩
    split_ifs with hi
    · subst hi
      refine .inr (.inl ⟨rfl, rfl, ?_⟩)
      rw [step, hc]
      rfl
    · exact .inl rfl
  | interrupt i =>
    rw [step, List.getElem?_modify, Option.map_eq_map, Option.map_eq_some_iff] at h
    obtain ⟨c, hc, rfl⟩ := h
    refine .inr ⟨c, hc, ?_⟩
    split_ifs with hi
    · subst hi
      exact .inr (.inr ⟨rfl, rfl⟩)
    · exact .inl rfl

theorem requests_step :
    (s.step start sem e o).requests = s.requests ++
      match o with
      | .issue r => [r]
      | _ => [] := by
  cases o with
  | issue r => exact List.map_append
  | advance i => exact (map_modify (f := Call.map _) (g := Call.request) (fun _ => rfl) s.calls i).trans (List.append_nil _).symm
  | interrupt i => exact (map_modify (f := Call.map _) (g := Call.request) (fun _ => rfl) s.calls i).trans (List.append_nil _).symm

/-- a call that has returned stays as it is -/
theorem getElem?_step_of_succeeded {c : Call ρ σ ω ε} (hc : s.calls[k]? = some c) (h : c.rest.succeeded = true) :
    (s.step start sem e o).calls[k]? = some c := by
  cases o with
  | issue r => exact List.getElem?_append_left (List.getElem?_eq_some_iff.1 hc).1 ▸ hc
  | advance i =>
    rw [step, List.getElem?_modify, hc]
    split_ifs
    · exact congrArg some (congrArg (Call.mk c.request) (congrArg Prod.fst (Prog.advance_of_succeeded h s.shared)))
    · rfl
  | interrupt i =>
    rw [step, List.getElem?_modify, hc]
    split_ifs
    · exact congrArg some (congrArg (Call.mk c.request) (Prog.interrupt_of_succeeded h e))
    · rfl

theorem getElem?_step_of_ne {c : Call ρ σ ω ε} (hc : s.calls[k]? = some c) (hadvance : o ≠ .advance k)
    (hinterrupt : o ≠ .interrupt k) : (s.step start sem e o).calls[k]? = some c := by
  cases o with
  | issue r => exact List.getElem?_append_left (List.getElem?_eq_some_iff.1 hc).1 ▸ hc
  | advance i =>
    rw [step, List.getElem?_modify, hc]
    exact congrArg some (if_neg fun h => hadvance (congrArg Move.advance h))
  | interrupt i =>
    rw [step, List.getElem?_modify, hc]
    exact congrArg some (if_neg fun h => hinterrupt (congrArg Move.interrupt h))

theorem getElem?_advance {c : Call ρ σ ω ε} {i : ℕ} (hc : s.calls[i]? = some c) :
    (s.step start sem e (.advance i)).calls[i]? = some (c.map fun p => (p.advance sem s.shared).1) := by
  rw [step, List.getElem?_modify, hc]
  exact congrArg some (if_pos rfl)

theorem shared_advance {c : Call ρ σ ω ε} {i : ℕ} (hc : s.calls[i]? = some c) :
    (s.step start sem e (.advance i)).shared = (c.rest.advance sem s.shared).2 := by
  rw [step, hc]
  rfl

/-- a statement that succeeds has its effect -/
theorem shared_step {w : ω} {n : ℕ} {t : σ} (hw : w ∈ s.executes o) (h : sem w s.shared = .ok (n, t)) :
    (s.step start sem e o).shared = t := by
  cases o with
  | issue r => cases hw
  | advance i =>
    rw [executes] at hw
    rcases hi : s.calls[i]? with _ | ⟨r, p⟩
    · rw [hi] at hw
      cases hw
    · rw [hi] at hw
      rw [step, hi]
      cases p with
      | exec w' next =>
        obtain rfl : w' = w := Option.some.inj hw
        simp only [Option.map_some, Option.getD_some, Prog.advance, h]
      | _ => cases hw
  | interrupt i => cases hw

/-- what has been issued later stays so -/
theorem later_subset_step : s.later k ⊆ (s.step start sem e o).later k := by
  rw [later, later, requests_step, List.drop_append]
  exact List.subset_append_left _ _

/-- **Among any others, calls keep what each of them keeps, if the statements are allowed.** -/
theorem inv_step {ok : ω → σ → Prop} {I : σ → Prop} (hs : ∀ c ∈ s.calls, c.rest.Keeps sem ok I) (hI : I s.shared)
    (hok : ∀ w ∈ s.executes o, ok w s.shared) : I (s.step start sem e o).shared := by
  cases o with
  | issue r => exact hI
  | advance i =>
    rw [step]
    rcases hi : s.calls[i]? with _ | c
    · exact hI
    · refine Prog.inv_advance (hs c (List.mem_of_getElem? hi)) hI fun w hw => hok w ?_
      rw [executes, hi]
      exact hw
  | interrupt i => exact hI

theorem keeps_step {ok : ω → σ → Prop} {I : σ → Prop} (hstart : ∀ r, (start r).Keeps sem ok I)
    (hs : ∀ c ∈ s.calls, c.rest.Keeps sem ok I) : ∀ c ∈ (s.step start sem e o).calls, c.rest.Keeps sem ok I := by
  intro c' hc'
  obtain ⟨k, hk⟩ := List.mem_iff_getElem?.1 hc'
  obtain ⟨r, -, rfl⟩ | ⟨c, hc, rfl | ⟨-, rfl, -⟩ | ⟨-, rfl⟩⟩ := getElem?_step hk
  · exact hstart r
  · exact hs c' (List.mem_of_getElem? hc)
  · exact Prog.keeps_advance (hs c (List.mem_of_getElem? hc)) s.shared
  · exact Prog.keeps_interrupt e

end

end Calls

end Lumiere.Core
