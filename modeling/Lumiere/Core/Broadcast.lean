/-
A broadcast channel. Every receiver sees the values sent after it subscribed, in order. The channel is closed once no
clone of its sender is left, and a receiver of a closed channel still gets what is pending.

`ω` names the holders of the clones, each of which holds at most one. A receiver is the number of values sent before
it subscribed plus the number it has received.

- `recv_eq_ready`, `recv_eq_closed`, `recv_eq_pending`: when a receive succeeds, fails and waits.
-/
import Mathlib.Data.List.Basic

namespace Lumiere.Core

structure Broadcast (ω α : Type) where
  sent : List α
  senders : List ω

/-- the outcome of polling a receive -/
inductive Recv (α : Type) where
  | ready (a : α)
  | closed
  | pending
deriving DecidableEq, Repr

namespace Broadcast

variable {ω α : Type} (b : Broadcast ω α) (o : ω) (a : α) (p : ℕ)

/-- the channel nobody has opened -/
def empty : Broadcast ω α := ⟨[], []⟩

def clone : Broadcast ω α := { b with senders := o :: b.senders }

def drop [DecidableEq ω] : Broadcast ω α := { b with senders := b.senders.filter (· ≠ o) }

def send : Broadcast ω α := { b with sent := b.sent ++ [a] }

def subscribe : ℕ := b.sent.length

def recv : Recv α :=
  match b.sent[p]? with
  | some a => .ready a
  | none => match b.senders with
    | [] => .closed
    | _ :: _ => .pending

@[simp, grind =] theorem sent_empty : (empty : Broadcast ω α).sent = [] := rfl

@[simp, grind =] theorem sent_clone : (b.clone o).sent = b.sent := rfl

@[simp, grind =] theorem sent_drop [DecidableEq ω] : (b.drop o).sent = b.sent := rfl

@[simp, grind =] theorem sent_send : (b.send a).sent = b.sent ++ [a] := rfl

@[simp, grind =] theorem mem_senders_clone {o' : ω} : o' ∈ (b.clone o).senders ↔ o' = o ∨ o' ∈ b.senders := by
  simp [clone]

@[simp, grind =] theorem mem_senders_drop [DecidableEq ω] {o' : ω} : o' ∈ (b.drop o).senders ↔ o' ∈ b.senders ∧ o' ≠ o := by
  simp [drop]

@[simp, grind =] theorem senders_send : (b.send a).senders = b.senders := rfl

variable {b a p}

theorem recv_eq_ready : b.recv p = .ready a ↔ b.sent[p]? = some a := by
  unfold recv
  rcases h : b.sent[p]? with _ | a'
  · cases b.senders <;> simp
  · simp

theorem recv_eq_closed : b.recv p = .closed ↔ b.sent.length ≤ p ∧ b.senders = [] := by
  unfold recv
  rcases h : b.sent[p]? with _ | a'
  · rw [List.getElem?_eq_none_iff] at h
    cases b.senders <;> simp [h]
  · obtain ⟨hp, _⟩ := List.getElem?_eq_some_iff.1 h
    simp [Nat.not_le.2 hp]

theorem recv_eq_pending : b.recv p = .pending ↔ b.sent.length ≤ p ∧ b.senders ≠ [] := by
  unfold recv
  rcases h : b.sent[p]? with _ | a'
  · rw [List.getElem?_eq_none_iff] at h
    cases b.senders <;> simp [h]
  · obtain ⟨hp, _⟩ := List.getElem?_eq_some_iff.1 h
    simp [Nat.not_le.2 hp]

end Broadcast

end Lumiere.Core
