/-
A history variable beside the state: it notes the statements that take effect, and the program does not see it.

- `recording sem note`: a statement on the state together with the note of it. `recorded p`: `p` over such states.
- `run_recorded`: the program runs as it did. `allSteps_recorded`: it executes the statements that it did.
- `recorded_bind`: sequencing.
-/
import Lumiere.Core.Steps

namespace Lumiere.Core.Prog

variable {σ ω ε η α β : Type}

def recording (sem : ω → σ → Except ε (ℕ × σ)) (note : ω → η → η) (w : ω) (s : σ × η) : Except ε (ℕ × (σ × η)) :=
  match sem w s.1 with
  | .ok (n, s') => .ok (n, s', note w s.2)
  | .error e => .error e

def recorded (p : Prog σ ω ε α) : Prog (σ × η) ω ε α := p.lift Prod.fst id

variable {sem : ω → σ → Except ε (ℕ × σ)} {note : ω → η → η} {p : Prog σ ω ε α} {f : α → Prog σ ω ε β} {P : ω → σ → Prop}

theorem recording_eq_ok {w : ω} {s s' : σ × η} {n : ℕ} :
    recording sem note w s = .ok (n, s') ↔ sem w s.1 = .ok (n, s'.1) ∧ s'.2 = note w s.2 := by
  rw [recording]
  rcases sem w s.1 with e | ⟨m, t⟩
  · simp
  · simp only [Except.ok.injEq, Prod.ext_iff]
    constructor
    · rintro ⟨hn, ht, hh⟩
      exact ⟨⟨hn, ht⟩, hh.symm⟩
    · rintro ⟨⟨hn, ht⟩, hh⟩
      exact ⟨hn, ht, hh.symm⟩

theorem recorded_bind :
    ((p >>= f).recorded : Prog (σ × η) ω ε β) = p.recorded >>= fun a => (f a).recorded := by
  show (p.bind f).recorded = p.recorded.bind fun a => (f a).recorded
  induction p with
  | ret a => rfl
  | fail e => rfl
  | query next ih => exact congrArg Prog.query (funext fun s => ih s.1)
  | exec w next ih => exact congrArg (Prog.exec w) (funext fun n => ih n)
  | tx body next _ ih => exact congrArg (Prog.tx body.recorded) (funext fun b => ih b)

theorem issues_recorded {Q : ω → Prop} (hp : p.Issues Q) : (p.recorded : Prog (σ × η) ω ε α).Issues Q := issues_lift hp

/-- **The program does not see the record.** -/
theorem run_recorded (sem : ω → σ → Except ε (ℕ × σ)) (note : ω → η → η) (p : Prog σ ω ε α) (s : σ × η) :
    ((p.recorded.run (recording sem note) s).1, (p.recorded.run (recording sem note) s).2.1) = p.run sem s.1 := by
  induction p generalizing s with
  | ret a => rfl
  | fail e => rfl
  | query next ih => exact ih s.1 s
  | exec w next ih =>
    rw [recorded, lift, run_exec, run_exec, recording, id]
    rcases sem w s.1 with e | ⟨n, s'⟩
    · rfl
    · exact ih n (s', note w s.2)
  | tx body next ihb ih =>
    have hbody := ihb s
    rw [recorded, lift, run_tx, run_tx, ← hbody]
    rcases hrun : body.recorded.run (recording sem note) s with ⟨e | b, s'⟩
    · rw [recorded] at hrun
      rw [hrun]
    · rw [recorded] at hrun
      rw [hrun]
      exact ih b s'

theorem allSteps_recorded (note : ω → η → η) (s : σ × η) (hp : p.AllSteps sem P s.1) :
    p.recorded.AllSteps (recording sem note) (fun w t => P w t.1) s := by
  induction p generalizing s with
  | ret a => exact allSteps_pure a
  | fail e => exact allSteps_fail e
  | query next ih =>
    rw [AllSteps] at hp
    rw [recorded, lift, AllSteps]
    exact ih s.1 s hp
  | exec w next ih =>
    rw [AllSteps] at hp
    rw [recorded, lift, AllSteps, recording, id]
    rcases hexec : sem w s.1 with e | ⟨n, s'⟩
    · trivial
    · simp only [hexec] at hp
      exact ⟨hp.1, ih n (s', note w s.2) hp.2⟩
  | tx body next ihb ih =>
    have hbody := run_recorded sem note body s
    rw [AllSteps, ← hbody] at hp
    rw [recorded, lift, AllSteps]
    rcases hrun : body.recorded.run (recording sem note) s with ⟨e | b, s'⟩
    · rw [recorded] at hrun
      simp only [hrun]
    · rw [hrun] at hp
      rw [recorded] at hrun
      simp only [hrun]
      exact ⟨ihb s hp.1, ih b s' hp.2⟩

end Lumiere.Core.Prog
