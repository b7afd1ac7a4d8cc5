/-
The tasks of `subscribe_and_forward` (`lumiere-gateway/src/handler.rs`). A listener subscribes at some time after it is
spawned, gets a copy of what is published from then on if its pattern matches, and takes its messages in order until it
is aborted or stops. What a message is, and where it was published, is a parameter.

- `mem_held_hear`, `mem_held_take`, `mem_held_stop`: where the messages are that no listener has taken yet.
-/
import Lumiere.Gateway.Subjects

namespace Lumiere.Gateway

open Lumiere.Routes

inductive Phase where
  | spawned
  | subscribed
  /-- aborted, or at its end -/
  | stopped
deriving DecidableEq, Repr

structure Listener (μ : Type) where
  pattern : Pattern
  phase : Phase
  inbox : List μ
deriving DecidableEq, Repr

abbrev Listeners (μ : Type) := List (Listener μ)

/-- `spawn_nats_listener` -/
def spawnListeners (μ : Type) (patterns : List Pattern) : Listeners μ := patterns.map fun p => ⟨p, .spawned, []⟩

namespace Listeners

variable {μ : Type} (ls : Listeners μ) (j : ℕ)

def subscribe : Listeners μ := ls.modify j fun l => if l.phase = .spawned then { l with phase := .subscribed } else l

/-- the subscriber is dropped with the messages that were not taken -/
def stop : Listeners μ := ls.modify j fun l => { l with phase := .stopped, inbox := [] }

def hear (subject : μ → Subject) (ds : List μ) : Listeners μ :=
  ls.map fun l =>
    if l.phase = .subscribed then { l with inbox := l.inbox ++ ds.filter fun d => l.pattern.matches (subject d) } else l

/-- the oldest message of a listener -/
def take : Option (μ × Listeners μ) :=
  match ls[j]? with
  | some ⟨pattern, .subscribed, d :: inbox⟩ => some (d, ls.set j ⟨pattern, .subscribed, inbox⟩)
  | _ => none

def patterns : List Pattern := ls.map Listener.pattern

/-- the messages that no listener has taken yet -/
def held : List μ := (ls.map Listener.inbox).flatten

/-- what the listeners that are subscribed listen on -/
def subscribed : List Pattern := (ls.filter fun l => l.phase = .subscribed).map Listener.pattern

def inbox : List μ := (ls[j]?.map Listener.inbox).getD []

/-- some listener that is subscribed gets what is published on the subject -/
def hears (subject : Subject) : Bool := ls.any fun l => l.phase = .subscribed && l.pattern.matches subject

section

variable {ls} {j} {d x : μ} {ls' : Listeners μ}

@[simp] theorem patterns_spawnListeners (patterns : List Pattern) :
    Listeners.patterns (spawnListeners μ patterns) = patterns := by
  simp [Listeners.patterns, spawnListeners, Function.comp_def]

@[simp] theorem held_spawnListeners (patterns : List Pattern) : Listeners.held (spawnListeners μ patterns) = [] := by
  simp [held, spawnListeners]

/-- a listener in a modified list is one of the old ones, or comes from one -/
theorem mem_modify {f : Listener μ → Listener μ} {l : Listener μ} (h : l ∈ ls.modify j f) :
    ∃ l₀ ∈ ls, l = l₀ ∨ l = f l₀ := by
  obtain ⟨i, hi⟩ := List.mem_iff_getElem?.1 h
  rw [List.getElem?_modify] at hi
  obtain ⟨l₀, hl₀, rfl⟩ := Option.map_eq_some_iff.1 hi
  refine ⟨l₀, List.mem_of_getElem? hl₀, ?_⟩
  split_ifs
  · exact .inr rfl
  · exact .inl rfl

theorem map_modify {α : Type} {f : Listener μ → Listener μ} {g : Listener μ → α} (hf : ∀ l, g (f l) = g l) :
    (ls.modify j f).map g = ls.map g := by
  apply List.ext_getElem?
  intro i
  rw [List.getElem?_map, List.getElem?_modify, List.getElem?_map]
  rcases ls[i]? with _ | l
  · rfl
  · simp only [Option.map_eq_map, Option.map_some]
    split_ifs
    · rw [hf]
    · rfl

@[simp] theorem patterns_subscribe : (ls.subscribe j).patterns = ls.patterns :=
  map_modify fun l => by split_ifs <;> rfl

@[simp] theorem patterns_stop : (ls.stop j).patterns = ls.patterns := map_modify fun _ => rfl

@[simp] theorem patterns_hear {subject : μ → Subject} {ds : List μ} : (ls.hear subject ds).patterns = ls.patterns := by
  rw [patterns, hear, List.map_map]
  refine List.map_congr_left fun l _ => ?_
  simp only [Function.comp]
  split_ifs <;> rfl

@[simp] theorem held_subscribe : (ls.subscribe j).held = ls.held := by
  rw [held, subscribe, map_modify fun l => by split_ifs <;> rfl, held]

theorem mem_held : x ∈ ls.held ↔ ∃ l ∈ ls, x ∈ l.inbox := by
  simp [held]

theorem mem_held_hear {subject : μ → Subject} {ds : List μ} :
    x ∈ (ls.hear subject ds).held ↔ x ∈ ls.held ∨ x ∈ ds ∧ ls.hears (subject x) = true := by
  simp only [mem_held, hear, hears, List.mem_map, List.any_eq_true, Bool.and_eq_true, decide_eq_true_eq]
  constructor
  · rintro ⟨-, ⟨l, hl, rfl⟩, hx⟩
    split_ifs at hx with hphase
    · rcases List.mem_append.1 hx with hx | hx
      · exact .inl ⟨l, hl, hx⟩
      · obtain ⟨hx, hmatches⟩ := List.mem_filter.1 hx
        exact .inr ⟨hx, l, hl, hphase, hmatches⟩
    · exact .inl ⟨l, hl, hx⟩
  · rintro (⟨l, hl, hx⟩ | ⟨hx, l, hl, hphase, hmatches⟩)
    · refine ⟨_, ⟨l, hl, rfl⟩, ?_⟩
      split_ifs
      · exact List.mem_append_left _ hx
      · exact hx
    · refine ⟨_, ⟨l, hl, rfl⟩, ?_⟩
      rw [if_pos hphase]
      exact List.mem_append_right _ (List.mem_filter.2 ⟨hx, hmatches⟩)

/-- what a listener hears is on a subject of the list -/
theorem matches_of_hears {subject : Subject} (h : ls.hears subject = true) :
    ∃ p ∈ ls.patterns, p.matches subject = true := by
  simp only [hears, List.any_eq_true, Bool.and_eq_true] at h
  obtain ⟨l, hl, -, hmatches⟩ := h
  exact ⟨l.pattern, List.mem_map_of_mem hl, hmatches⟩

theorem take_eq_some (h : ls.take j = some (d, ls')) :
    ∃ pattern inbox, ls[j]? = some ⟨pattern, .subscribed, d :: inbox⟩ ∧
      ls' = ls.set j ⟨pattern, .subscribed, inbox⟩ := by
  rw [take] at h
  split at h
  · next pattern d' inbox hl =>
    obtain ⟨rfl, rfl⟩ := Prod.mk.inj (Option.some.inj h)
    exact ⟨pattern, inbox, hl, rfl⟩
  · cases h

theorem patterns_take (h : ls.take j = some (d, ls')) : ls'.patterns = ls.patterns := by
  obtain ⟨pattern, inbox, hl, rfl⟩ := take_eq_some h
  obtain ⟨hj, hl⟩ := List.getElem?_eq_some_iff.1 hl
  have hlength : j < (ls.map Listener.pattern).length := by simpa using hj
  have hpattern : pattern = (ls.map Listener.pattern)[j] := by simp [hl]
  rw [patterns, List.map_set, patterns, hpattern, List.set_getElem_self]

theorem inbox_take (h : ls.take j = some (d, ls')) : ls'.inbox j = (ls.inbox j).tail := by
  obtain ⟨pattern, inbox, hl, rfl⟩ := take_eq_some h
  obtain ⟨hj, -⟩ := List.getElem?_eq_some_iff.1 hl
  rw [Listeners.inbox, Listeners.inbox, List.getElem?_set_self hj, hl]
  rfl

theorem mem_held_of_take (h : ls.take j = some (d, ls')) : d ∈ ls.held := by
  obtain ⟨pattern, inbox, hl, rfl⟩ := take_eq_some h
  exact mem_held.2 ⟨_, List.mem_of_getElem? hl, List.mem_cons_self⟩

theorem mem_held_take (h : ls.take j = some (d, ls')) (hx : x ∈ ls.held) : x = d ∨ x ∈ ls'.held := by
  obtain ⟨pattern, inbox, hl, rfl⟩ := take_eq_some h
  obtain ⟨l, hmem, hx⟩ := mem_held.1 hx
  obtain ⟨i, hi⟩ := List.mem_iff_getElem?.1 hmem
  obtain ⟨hj, -⟩ := List.getElem?_eq_some_iff.1 hl
  by_cases hij : j = i
  · subst hij
    rw [hl] at hi
    obtain rfl := Option.some.inj hi
    rcases List.mem_cons.1 hx with rfl | hx
    · exact .inl rfl
    · exact .inr (mem_held.2 ⟨_, List.mem_set hj _, hx⟩)
  · refine .inr (mem_held.2 ⟨l, ?_, hx⟩)
    rw [← List.getElem?_set_ne hij] at hi
    exact List.mem_of_getElem? hi

theorem mem_held_take_inv (h : ls.take j = some (d, ls')) (hx : x ∈ ls'.held) : x ∈ ls.held := by
  obtain ⟨pattern, inbox, hl, rfl⟩ := take_eq_some h
  obtain ⟨l, hmem, hx⟩ := mem_held.1 hx
  rcases List.mem_or_eq_of_mem_set hmem with hmem | rfl
  · exact mem_held.2 ⟨l, hmem, hx⟩
  · exact mem_held.2 ⟨_, List.mem_of_getElem? hl, List.mem_cons_of_mem d hx⟩

theorem mem_held_stop (hx : x ∈ ls.held) : x ∈ ls.inbox j ∨ x ∈ (ls.stop j).held := by
  obtain ⟨l, hmem, hx⟩ := mem_held.1 hx
  obtain ⟨i, hi⟩ := List.mem_iff_getElem?.1 hmem
  by_cases hij : j = i
  · subst hij
    exact .inl (by rw [inbox, hi]; exact hx)
  · refine .inr (mem_held.2 ⟨l, ?_, hx⟩)
    refine List.mem_of_getElem? (i := i) ?_
    rw [stop, List.getElem?_modify, hi]
    simp [hij]

theorem mem_held_stop_inv (hx : x ∈ (ls.stop j).held) : x ∈ ls.held := by
  obtain ⟨l, hmem, hx⟩ := mem_held.1 hx
  obtain ⟨l₀, hl₀, rfl | rfl⟩ := mem_modify hmem
  · exact mem_held.2 ⟨l, hl₀, hx⟩
  · cases hx

end

end Listeners

end Lumiere.Gateway
