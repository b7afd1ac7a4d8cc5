/-
A machine for each key: an operation names a key, and reads and writes the state of that key only.

- `filter_outputs_keyed`: the answers to the operations on some keys are those of a run in which the others do not occur,
  from any state with the same at these keys.
- `outputs_keyed_of_forall`: operations on one key are a run of its machine.
-/
import Lumiere.Core.Run

namespace Lumiere.Core

variable {κ ν α : Type} {ω : Type} [DecidableEq κ]

def keyed (key : ω → κ) (serve : ν → ω → α × ν) (s : κ → ν) (o : ω) : α × (κ → ν) :=
  ((serve (s (key o)) o).1, Function.update s (key o) (serve (s (key o)) o).2)

variable {key : ω → κ} {serve : ν → ω → α × ν} {s s' : κ → ν} {o : ω}

theorem keyed_snd_of_ne {k : κ} (h : key o ≠ k) : (keyed key serve s o).2 k = s k :=
  Function.update_of_ne (Ne.symm h) _ _

theorem keyed_snd_self : (keyed key serve s o).2 (key o) = (serve (s (key o)) o).2 := Function.update_self ..

theorem filter_outputs_keyed (p : κ → Bool) (ops : List ω) (h : ∀ k, p k = true → s k = s' k) :
    ((ops.zip (outputs (keyed key serve) s ops)).filter fun x => p (key x.1)) =
      (ops.filter fun o => p (key o)).zip (outputs (keyed key serve) s' (ops.filter fun o => p (key o))) := by
  induction ops generalizing s s' with
  | nil => rfl
  | cons o ops ih =>
    rw [outputs, List.zip_cons_cons]
    by_cases ho : p (key o) = true
    · have hsame := h (key o) ho
      have hnext : ∀ k, p k = true → (keyed key serve s o).2 k = (keyed key serve s' o).2 k := by
        intro k hk
        by_cases hkey : key o = k
        · subst hkey
          rw [keyed_snd_self, keyed_snd_self, hsame]
        · rw [keyed_snd_of_ne hkey, keyed_snd_of_ne hkey, h k hk]
      have hanswer : (keyed key serve s o).1 = (keyed key serve s' o).1 := congrArg (fun v => (serve v o).1) hsame
      simp only [List.filter_cons, ho, if_true]
      rw [outputs, List.zip_cons_cons, ih hnext, hanswer]
    · simp only [List.filter_cons, ho]
      refine ih fun k hk => ?_
      rw [keyed_snd_of_ne fun hkey : key o = k => ho (hkey ▸ hk), h k hk]

theorem outputs_keyed_of_forall (k : κ) (ops : List ω) (h : ∀ o ∈ ops, key o = k) :
    outputs (keyed key serve) s ops = outputs serve (s k) ops := by
  induction ops generalizing s with
  | nil => rfl
  | cons o ops ih =>
    have ho := h o List.mem_cons_self
    subst ho
    rw [outputs, outputs, ih fun o' ho' => h o' (List.mem_cons_of_mem o ho'), keyed_snd_self]
    rfl

end Lumiere.Core
