/-
Requests under a token that expires. All callers share one token behind a read–write lock. A caller looks for a live one
under the read lock, looks again under the write lock, and only then asks the issuer for a new one, still under that lock.
A caller whose request is rejected for its token drops the shared one, under the write lock too, and starts over, once.
Between two turns the clock may move by any amount, and any caller may be cancelled, which frees its lock.

- `step_moves`: what a turn can do, branch by branch.
- `Kept`: the lock is held by at most one caller, and nothing changes the token while another is being asked for.
- `Called`: a caller is rejected at most once, and drops the token at most once.
- `Handed`: a token is handed out within its life; to a caller that starts over, one renewed after the caller's own drop.
- `renewals_le`: in every interleaving there is at most one renewal in each lifetime, and one more for each rejection.
-/
import Lumiere.Core.Run
import Mathlib.Data.List.Chain
import Mathlib.Data.List.Nodup
import Mathlib.Data.List.Perm.Subperm
import Mathlib.Logic.Function.Basic
import Mathlib.Tactic.Common

namespace Lumiere.Core.Bearer

/-! ## Tokens and callers -/

/-- how long a new token is used, and which responses reject it -/
structure Policy (ρ : Type) where
  life : ℕ
  rejects : ρ → Bool
  life_pos : 0 < life

structure CachedToken (τ : Type) where
  token : τ
  expiresAt : ℕ
deriving DecidableEq, Repr

/-- where a caller is; `retry` says that its request has been rejected before -/
inductive Stage (τ ρ ε : Type) where
  /-- about to take the read lock -/
  | start (retry : Bool)
  /-- about to take the write lock -/
  | queued (retry : Bool)
  /-- with the write lock, about to look again -/
  | locked (retry : Bool)
  /-- with the write lock, waiting for the issuer since then -/
  | asking (retry : Bool) (since : ℕ)
  | sending (retry : Bool) (token : τ)
  /-- about to take the write lock and drop the token -/
  | rejected
  | done (retry : Bool) (response : ρ)
  | failed (e : ε)
  | cancelled
deriving DecidableEq, Repr

/-- what happens to the shared token -/
inductive Change (ι τ : Type) where
  | renewed (asked stored : ℕ) (token : τ)
  | dropped (caller : ι) (time : ℕ)
deriving DecidableEq, Repr

structure Handout (ι τ : Type) where
  caller : ι
  retry : Bool
  token : τ
  time : ℕ
deriving DecidableEq, Repr

structure St (ι τ ρ ε : Type) where
  now : ℕ
  cached : Option (CachedToken τ)
  /-- who holds the write lock -/
  writer : Option ι
  stage : ι → Stage τ ρ ε
  /-- newest first, as the other lists -/
  changes : List (Change ι τ)
  handouts : List (Handout ι τ)
  rejections : List ι

inductive Op (ι τ ρ ε : Type) where
  | tick (n : ℕ)
  | advance (i : ι)
  /-- the issuer answers the caller -/
  | issued (i : ι) (result : Except ε τ)
  /-- the request of the caller is answered -/
  | answered (i : ι) (response : ρ)
  | cancel (i : ι)

namespace Stage

variable {τ ρ ε : Type}

/-- with the write lock -/
def holds : Stage τ ρ ε → Bool
  | .locked _ | .asking .. => true
  | _ => false

/-- on the way to a request; `retry` says to which -/
def trying (retry : Bool) : Stage τ ρ ε → Bool
  | .start r | .queued r | .locked r | .asking r _ | .sending r _ => r == retry
  | _ => false

def finished : Stage τ ρ ε → Bool
  | .done .. | .failed _ | .cancelled => true
  | _ => false

end Stage

variable {ι τ ρ ε : Type}

/-! ## Changes of the token -/

namespace Change

def began : Change ι τ → ℕ
  | .renewed asked .. => asked
  | .dropped _ time => time

def ended : Change ι τ → ℕ
  | .renewed _ stored _ => stored
  | .dropped _ time => time

/-- from when on the issuer may be asked again -/
def ready (life : ℕ) : Change ι τ → ℕ
  | .renewed _ stored _ => stored + life
  | .dropped _ time => time

def isRenewal : Change ι τ → Bool
  | .renewed .. => true
  | .dropped .. => false

/-- the one change can come right after the other -/
def Follows (life : ℕ) (newer older : Change ι τ) : Prop :=
  (if newer.isRenewal then older.ready life else older.ended) ≤ newer.began

theorem ready_le (life : ℕ) (c : Change ι τ) : c.ready life ≤ c.ended + life := by
  cases c with
  | renewed asked stored token => exact Nat.le_refl _
  | dropped i time => exact Nat.le_add_right time life

end Change

/-- the shared token, after these changes -/
def tokenAfter (life : ℕ) : List (Change ι τ) → Option (CachedToken τ)
  | .renewed _ stored token :: _ => some ⟨token, stored + life⟩
  | _ => none

/-- the issuer may be asked at that time -/
def Ready (life : ℕ) (changes : List (Change ι τ)) (time : ℕ) : Prop := ∀ c ∈ changes.head?, c.ready life ≤ time

/-- how often the issuer gave a token -/
def St.renewals (s : St ι τ ρ ε) : ℕ := s.changes.countP Change.isRenewal

/-- who has dropped the token -/
def droppers (changes : List (Change ι τ)) : List ι :=
  changes.filterMap fun c => match c with
    | .renewed .. => none
    | .dropped i _ => some i

/-! ## The machine -/

section Step

variable [DecidableEq ι]

namespace St

/-- the token, if it has not expired -/
def live (s : St ι τ ρ ε) : Option τ :=
  (s.cached.filter fun t => decide (s.now < t.expiresAt)).map CachedToken.token

def goto (s : St ι τ ρ ε) (i : ι) (stage : Stage τ ρ ε) : St ι τ ρ ε := { s with stage := Function.update s.stage i stage }

/-- the caller has a token and sends its request -/
def hand (s : St ι τ ρ ε) (i : ι) (retry : Bool) (token : τ) : St ι τ ρ ε :=
  { s.goto i (.sending retry token) with handouts := ⟨i, retry, token, s.now⟩ :: s.handouts }

end St

/-- nobody has called yet -/
def init (now : ℕ) : St ι τ ρ ε := ⟨now, none, none, fun _ => .start false, [], [], []⟩

def step (p : Policy ρ) (s : St ι τ ρ ε) : Op ι τ ρ ε → St ι τ ρ ε
  | .tick n => { s with now := s.now + n }
  | .advance i =>
    match s.stage i with
    | .start retry =>
      if s.writer.isSome then s
      else match s.live with
        | some token => s.hand i retry token
        | none => s.goto i (.queued retry)
    | .queued retry => if s.writer.isSome then s else { s.goto i (.locked retry) with writer := some i }
    | .locked retry =>
      match s.live with
      | some token => { s.hand i retry token with writer := none }
      | none => s.goto i (.asking retry s.now)
    | .rejected =>
      if s.writer.isSome then s
      else { s.goto i (.start true) with
        cached := none, changes := .dropped i s.now :: s.changes }
    | _ => s
  | .issued i result =>
    match s.stage i with
    | .asking retry since =>
      match result with
      | .ok token => { s.hand i retry token with
          cached := some ⟨token, s.now + p.life⟩, writer := none
          changes := .renewed since s.now token :: s.changes }
      | .error e => { s.goto i (.failed e) with writer := none }
    | _ => s
  | .answered i response =>
    match s.stage i with
    | .sending retry _ =>
      if p.rejects response && !retry then { s.goto i .rejected with rejections := i :: s.rejections }
      else s.goto i (.done retry response)
    | _ => s
  | .cancel i =>
    if (s.stage i).finished then s
    else { s.goto i .cancelled with writer := if (s.stage i).holds then none else s.writer }

/-! ## What a turn can do -/

inductive Moves (p : Policy ρ) (s : St ι τ ρ ε) : St ι τ ρ ε → Prop where
  | stay : Moves p s s
  | tick (n : ℕ) : Moves p s { s with now := s.now + n }
  | found {i retry token} (hi : s.stage i = .start retry) (hfree : s.writer = none) (hlive : s.live = some token) :
      Moves p s (s.hand i retry token)
  | queue {i retry} (hi : s.stage i = .start retry) : Moves p s (s.goto i (.queued retry))
  | lock {i retry} (hi : s.stage i = .queued retry) (hfree : s.writer = none) :
      Moves p s { s.goto i (.locked retry) with writer := some i }
  | again {i retry token} (hi : s.stage i = .locked retry) (hlive : s.live = some token) :
      Moves p s { s.hand i retry token with writer := none }
  | ask {i retry} (hi : s.stage i = .locked retry) (hlive : s.live = none) : Moves p s (s.goto i (.asking retry s.now))
  | drop {i} (hi : s.stage i = .rejected) (hfree : s.writer = none) :
      Moves p s { s.goto i (.start true) with
        cached := none, changes := .dropped i s.now :: s.changes }
  | renew {i retry since} (token : τ) (hi : s.stage i = .asking retry since) :
      Moves p s { s.hand i retry token with
        cached := some ⟨token, s.now + p.life⟩, writer := none, changes := .renewed since s.now token :: s.changes }
  | refuse {i retry since} (e : ε) (hi : s.stage i = .asking retry since) :
      Moves p s { s.goto i (.failed e) with writer := none }
  | reject {i token} (hi : s.stage i = .sending false token) :
      Moves p s { s.goto i .rejected with rejections := i :: s.rejections }
  | finish {i retry token response} (hi : s.stage i = .sending retry token)
      (haccepted : retry = false → p.rejects response = false) : Moves p s (s.goto i (.done retry response))
  | cancel {i} (writer : Option ι)
      (hwriter : if (s.stage i).holds then writer = none else writer = s.writer) :
      Moves p s { s.goto i .cancelled with writer }

theorem step_moves (p : Policy ρ) (s : St ι τ ρ ε) (o : Op ι τ ρ ε) : Moves p s (step p s o) := by
  cases o with
  | tick n => exact .tick n
  | advance i =>
    simp only [step]
    split
    · rename_i retry hi
      split_ifs with hw
      · exact .stay
      · have hfree : s.writer = none := by simpa using hw
        split
        · rename_i token hl
          exact .found hi hfree hl
        · exact .queue hi
    · rename_i retry hi
      split_ifs with hw
      · exact .stay
      · exact .lock hi (by simpa using hw)
    · rename_i retry hi
      split
      · rename_i token hl
        exact .again hi hl
      · rename_i hl
        exact .ask hi hl
    · rename_i hi
      split_ifs with hw
      · exact .stay
      · exact .drop hi (by simpa using hw)
    · exact .stay
  | issued i result =>
    simp only [step]
    split
    · rename_i retry since hi
      cases result with
      | ok token => exact .renew token hi
      | error e => exact .refuse e hi
    · exact .stay
  | answered i response =>
    simp only [step]
    split
    · rename_i retry token hi
      split_ifs with hr
      · simp only [Bool.and_eq_true, Bool.not_eq_true'] at hr
        obtain ⟨-, rfl⟩ := hr
        exact .reject hi
      · refine .finish hi ?_
        intro hretry
        simpa [hretry] using hr
    · exact .stay
  | cancel i =>
    simp only [step]
    split_ifs with hf hh
    · exact .stay
    · exact .cancel none (by rw [if_pos hh])
    · exact .cancel s.writer (by rw [if_neg hh])

end Step

/-! ## The lock and the changes under it -/

structure Kept (p : Policy ρ) (t₀ : ℕ) (s : St ι τ ρ ε) : Prop where
  locked : ∀ i, s.writer = some i ↔ (s.stage i).holds = true
  cached : s.cached = tokenAfter p.life s.changes
  chain : s.changes.IsChain (Change.Follows p.life)
  times : ∀ c ∈ s.changes, t₀ ≤ c.began ∧ c.began ≤ c.ended ∧ c.ended ≤ s.now
  asking : ∀ i retry since, s.stage i = .asking retry since → t₀ ≤ since ∧ since ≤ s.now ∧ Ready p.life s.changes since
  started : t₀ ≤ s.now

section Kept

variable {p : Policy ρ} {t₀ : ℕ} {s : St ι τ ρ ε}

/-- without a live token, the issuer may be asked -/
theorem Kept.ready (h : Kept p t₀ s) (hlive : s.live = none) : Ready p.life s.changes s.now := by
  intro c hc
  cases hl : s.changes with
  | nil => simp [hl] at hc
  | cons d rest =>
    obtain rfl : d = c := by simpa [hl] using hc
    have hcached := h.cached
    rw [hl] at hcached
    cases d with
    | renewed asked stored token =>
      simp only [St.live, hcached, tokenAfter] at hlive
      simpa [Change.ready] using hlive
    | dropped i time => exact (h.times _ (hl ▸ List.mem_cons_self)).2.2

theorem init_kept (p : Policy ρ) (t₀ : ℕ) : Kept p t₀ (init t₀ : St ι τ ρ ε) where
  locked i := by simp [init, Stage.holds]
  cached := rfl
  chain := List.isChain_nil
  times c hc := by simp [init] at hc
  asking i retry since hi := by simp [init] at hi
  started := Nat.le_refl _

theorem Kept.log (h : Kept p t₀ s) (handouts : List (Handout ι τ)) (rejections : List ι) :
    Kept p t₀ { s with handouts, rejections } :=
  ⟨h.locked, h.cached, h.chain, h.times, h.asking, h.started⟩

theorem Kept.tick (h : Kept p t₀ s) (n : ℕ) : Kept p t₀ { s with now := s.now + n } where
  locked := h.locked
  cached := h.cached
  chain := h.chain
  times := by
    intro c hc
    obtain ⟨hstart, hbegan, hended⟩ := h.times c hc
    exact ⟨hstart, hbegan, Nat.le_add_right_of_le hended⟩
  asking := by
    intro i retry since hi
    obtain ⟨hstart, hnow, hready⟩ := h.asking i retry since hi
    exact ⟨hstart, Nat.le_add_right_of_le hnow, hready⟩
  started := Nat.le_add_right_of_le h.started

/-- a change while nobody has the lock -/
theorem Kept.change (h : Kept p t₀ s) (hfree : s.writer = none) (c : Change ι τ)
    (hfollows : ∀ d ∈ s.changes.head?, c.Follows p.life d) (hstart : t₀ ≤ c.began) (hbegan : c.began ≤ c.ended)
    (hended : c.ended ≤ s.now) :
    Kept p t₀ { s with changes := c :: s.changes, cached := tokenAfter p.life (c :: s.changes) } where
  locked := h.locked
  cached := rfl
  chain := List.isChain_cons.mpr ⟨hfollows, h.chain⟩
  times := by
    intro d hd
    rcases List.mem_cons.mp hd with rfl | hd
    · exact ⟨hstart, hbegan, hended⟩
    · exact h.times d hd
  asking := by
    intro i retry since hi
    have hheld : s.writer = some i := (h.locked i).mpr (by rw [hi]; rfl)
    rw [hfree] at hheld
    cases hheld
  started := h.started

variable [DecidableEq ι]

/-- one caller goes on; it takes the lock or leaves it with its new stage -/
theorem Kept.goto (h : Kept p t₀ s) {i : ι} {stage : Stage τ ρ ε} {writer : Option ι}
    (hi : writer = some i ↔ stage.holds = true) (hother : ∀ j, j ≠ i → (writer = some j ↔ s.writer = some j))
    (hasking : ∀ retry since, stage = .asking retry since → since = s.now ∧ Ready p.life s.changes since) :
    Kept p t₀ { s.goto i stage with writer } where
  locked := by
    intro j
    by_cases hj : j = i
    · subst hj
      simpa [St.goto] using hi
    · simpa [St.goto, hj] using (hother j hj).trans (h.locked j)
  cached := h.cached
  chain := h.chain
  times := h.times
  asking := by
    intro j retry since hstage
    by_cases hj : j = i
    · subst hj
      obtain ⟨rfl, hready⟩ := hasking retry since (by simpa [St.goto] using hstage)
      exact ⟨h.started, Nat.le_refl _, hready⟩
    · exact h.asking j retry since (by simpa [St.goto, hj] using hstage)
  started := h.started

/-- who does not hold the lock goes on without it -/
theorem Kept.step_aside (h : Kept p t₀ s) {i : ι} {stage : Stage τ ρ ε} (hi : (s.stage i).holds = false)
    (hstage : stage.holds = false) : Kept p t₀ (s.goto i stage) := by
  refine h.goto ?_ (fun j _ => Iff.rfl) ?_
  · rw [h.locked i, hi, hstage]
  · intro retry since he
    rw [he] at hstage
    cases hstage

/-- who holds the lock leaves it -/
theorem Kept.leave (h : Kept p t₀ s) {i : ι} {stage : Stage τ ρ ε} (hi : (s.stage i).holds = true)
    (hstage : stage.holds = false) : Kept p t₀ { s.goto i stage with writer := none } := by
  have hheld : s.writer = some i := (h.locked i).mpr hi
  refine h.goto ?_ ?_ ?_
  · simp [hstage]
  · intro j hj
    simpa [hheld] using hj.symm
  · intro retry since he
    rw [he] at hstage
    cases hstage

/-- every turn keeps the lock and the order of the changes -/
theorem kept_step (s : St ι τ ρ ε) (o : Op ι τ ρ ε) (h : Kept p t₀ s) : Kept p t₀ (step p s o) := by
  have hmoves := step_moves p s o
  generalize step p s o = s' at hmoves
  cases hmoves with
  | stay => exact h
  | tick n => exact h.tick n
  | found hi hfree hlive => exact (h.step_aside (by rw [hi]; rfl) rfl).log _ _
  | queue hi => exact h.step_aside (by rw [hi]; rfl) rfl
  | lock hi hfree =>
    refine h.goto (by simp [Stage.holds]) ?_ ?_
    · intro j hj
      simpa [hfree] using hj.symm
    · intro retry since he
      cases he
  | again hi hlive => exact (h.leave (by rw [hi]; rfl) rfl).log _ _
  | ask hi hlive =>
    refine h.goto ?_ (fun j _ => Iff.rfl) ?_
    · rw [h.locked, hi]
      simp [Stage.holds]
    · intro retry since he
      cases he
      exact ⟨rfl, h.ready hlive⟩
  | drop hi hfree =>
    refine (h.step_aside (by rw [hi]; rfl) rfl).change hfree (.dropped _ s.now) ?_ h.started (Nat.le_refl _) (Nat.le_refl _)
    intro d hd
    exact (h.times d (List.mem_of_mem_head? hd)).2.2
  | @renew i retry since token hi =>
    obtain ⟨hstart, hnow, hready⟩ := h.asking i retry since hi
    exact ((h.leave (by rw [hi]; rfl) rfl).change rfl (.renewed since s.now token) hready hstart hnow
      (Nat.le_refl _)).log _ _
  | refuse e hi => exact h.leave (by rw [hi]; rfl) rfl
  | reject hi => exact (h.step_aside (by rw [hi]; rfl) rfl).log _ _
  | finish hi _ => exact h.step_aside (by rw [hi]; rfl) rfl
  | @cancel i writer hwriter =>
    cases hh : (s.stage i).holds with
    | true =>
      obtain rfl : writer = none := by simpa [hh] using hwriter
      exact h.leave hh rfl
    | false =>
      obtain rfl : writer = s.writer := by simpa [hh] using hwriter
      exact h.step_aside hh rfl

end Kept

/-! ## Rejections and drops -/

/-- a caller that has been rejected is not on the way to its first request, and one on the way to its second has
dropped the token -/
structure Called (s : St ι τ ρ ε) : Prop where
  rejections : s.rejections.Nodup
  drops : (droppers s.changes).Nodup
  dropped : ∀ i ∈ droppers s.changes, i ∈ s.rejections
  first : ∀ i, (s.stage i).trying false = true → i ∉ s.rejections
  second : ∀ i, (s.stage i).trying true = true → i ∈ droppers s.changes
  waiting : ∀ i, s.stage i = .rejected → i ∈ s.rejections ∧ i ∉ droppers s.changes

section Called

variable {p : Policy ρ} {s : St ι τ ρ ε}

@[simp] theorem droppers_renewed (asked stored : ℕ) (token : τ) (changes : List (Change ι τ)) :
    droppers (.renewed asked stored token :: changes) = droppers changes := rfl

@[simp] theorem droppers_dropped (i : ι) (time : ℕ) (changes : List (Change ι τ)) :
    droppers (.dropped i time :: changes) = i :: droppers changes := rfl

theorem init_called (t₀ : ℕ) : Called (init t₀ : St ι τ ρ ε) where
  rejections := List.nodup_nil
  drops := List.nodup_nil
  dropped i hi := by simp [init, droppers] at hi
  first i _ := by simp [init]
  second i hi := by simp [init, Stage.trying] at hi
  waiting i hi := by simp [init] at hi

variable [DecidableEq ι]

/-- one caller goes on, without being rejected and without dropping the token -/
theorem Called.goto (h : Called s) {s' : St ι τ ρ ε} {i : ι} {stage : Stage τ ρ ε}
    (hstage : s'.stage = Function.update s.stage i stage) (hrejections : s'.rejections = s.rejections)
    (hdroppers : droppers s'.changes = droppers s.changes) (hrejected : stage ≠ .rejected)
    (htrying : ∀ retry, stage.trying retry = true → (s.stage i).trying retry = true) : Called s' where
  rejections := hrejections ▸ h.rejections
  drops := hdroppers ▸ h.drops
  dropped := by
    rw [hrejections, hdroppers]
    exact h.dropped
  first := by
    intro j hj
    rw [hrejections]
    rw [hstage] at hj
    by_cases hji : j = i
    · subst hji
      exact h.first j (htrying false (by simpa using hj))
    · exact h.first j (by simpa [hji] using hj)
  second := by
    intro j hj
    rw [hdroppers]
    rw [hstage] at hj
    by_cases hji : j = i
    · subst hji
      exact h.second j (htrying true (by simpa using hj))
    · exact h.second j (by simpa [hji] using hj)
  waiting := by
    intro j hj
    rw [hrejections, hdroppers]
    rw [hstage] at hj
    by_cases hji : j = i
    · subst hji
      exact absurd (by simpa using hj) hrejected
    · exact h.waiting j (by simpa [hji] using hj)

theorem Called.reject (h : Called s) {i : ι} {token : τ} (hi : s.stage i = .sending false token) :
    Called { s.goto i .rejected with rejections := i :: s.rejections } := by
  have hfirst : i ∉ s.rejections := h.first i (by rw [hi]; rfl)
  have hnotdropped : i ∉ droppers s.changes := fun hmem => hfirst (h.dropped i hmem)
  refine ⟨List.nodup_cons.mpr ⟨hfirst, h.rejections⟩, h.drops, ?_, ?_, ?_, ?_⟩
  · intro j hj
    exact List.mem_cons_of_mem i (h.dropped j hj)
  · intro j hj
    by_cases hji : j = i
    · subst hji
      simp [St.goto, Stage.trying] at hj
    · simp only [List.mem_cons, hji, false_or]
      exact h.first j (by simpa [St.goto, hji] using hj)
  · intro j hj
    by_cases hji : j = i
    · subst hji
      simp [St.goto, Stage.trying] at hj
    · exact h.second j (by simpa [St.goto, hji] using hj)
  · intro j hj
    by_cases hji : j = i
    · subst hji
      exact ⟨List.mem_cons_self, hnotdropped⟩
    · obtain ⟨hmem, hnot⟩ := h.waiting j (by simpa [St.goto, hji] using hj)
      exact ⟨List.mem_cons_of_mem i hmem, hnot⟩

theorem Called.drop (h : Called s) {i : ι} (hi : s.stage i = .rejected) :
    Called { s.goto i (.start true) with cached := none, changes := .dropped i s.now :: s.changes } := by
  obtain ⟨hrejected, hnotdropped⟩ := h.waiting i hi
  refine ⟨h.rejections, List.nodup_cons.mpr ⟨hnotdropped, h.drops⟩, ?_, ?_, ?_, ?_⟩
  · intro j hj
    rcases List.mem_cons.mp hj with rfl | hj
    · exact hrejected
    · exact h.dropped j hj
  · intro j hj
    by_cases hji : j = i
    · subst hji
      simp [St.goto, Stage.trying] at hj
    · exact h.first j (by simpa [St.goto, hji] using hj)
  · intro j hj
    by_cases hji : j = i
    · subst hji
      exact List.mem_cons_self
    · exact List.mem_cons_of_mem i (h.second j (by simpa [St.goto, hji] using hj))
  · intro j hj
    by_cases hji : j = i
    · subst hji
      simp [St.goto] at hj
    · obtain ⟨hmem, hnot⟩ := h.waiting j (by simpa [St.goto, hji] using hj)
      refine ⟨hmem, ?_⟩
      simp only [droppers_dropped, List.mem_cons, hji, false_or]
      exact hnot

theorem called_step (s : St ι τ ρ ε) (o : Op ι τ ρ ε) (h : Called s) : Called (step p s o) := by
  have hmoves := step_moves p s o
  generalize step p s o = s' at hmoves
  cases hmoves with
  | stay => exact h
  | tick n => exact ⟨h.rejections, h.drops, h.dropped, h.first, h.second, h.waiting⟩
  | found hi _ _ | queue hi | lock hi _ | again hi _ | ask hi _ | renew _ hi =>
    refine h.goto rfl rfl rfl (by simp) ?_
    intro retry ht
    rw [hi]
    exact ht
  | drop hi _ => exact h.drop hi
  | reject hi => exact h.reject hi
  | refuse _ hi | finish hi _ | cancel writer _ =>
    refine h.goto rfl rfl rfl (by simp) ?_
    intro retry ht
    cases ht

end Called

/-! ## Handouts -/

/-- the token was renewed less than a lifetime before; on the second attempt, after the caller's drop -/
def Fresh (life : ℕ) (changes : List (Change ι τ)) (h : Handout ι τ) : Prop :=
  ∃ newer older asked stored, changes = newer ++ .renewed asked stored h.token :: older ∧
    stored ≤ h.time ∧ h.time < stored + life ∧ (h.retry = true → h.caller ∈ droppers older)

def Handed (p : Policy ρ) (s : St ι τ ρ ε) : Prop := ∀ h ∈ s.handouts, Fresh p.life s.changes h

section Handed

variable {p : Policy ρ} {t₀ : ℕ} {s : St ι τ ρ ε}

theorem Fresh.cons {life : ℕ} {changes : List (Change ι τ)} {h : Handout ι τ} (hfresh : Fresh life changes h)
    (c : Change ι τ) : Fresh life (c :: changes) h := by
  obtain ⟨newer, older, asked, stored, rfl, hrest⟩ := hfresh
  exact ⟨c :: newer, older, asked, stored, rfl, hrest⟩

/-- a live token comes from the last change -/
theorem Kept.live (h : Kept p t₀ s) {token : τ} (hlive : s.live = some token) :
    ∃ asked stored older, s.changes = .renewed asked stored token :: older ∧ stored ≤ s.now ∧ s.now < stored + p.life := by
  unfold St.live at hlive
  rw [h.cached] at hlive
  cases hl : s.changes with
  | nil => simp [hl, tokenAfter] at hlive
  | cons c older =>
    cases c with
    | dropped i time => simp [hl, tokenAfter] at hlive
    | renewed asked stored token' =>
      simp only [hl, tokenAfter, Option.map_eq_some_iff, Option.filter_eq_some_iff, decide_eq_true_eq] at hlive
      obtain ⟨t, ⟨ht, hnow⟩, rfl⟩ := hlive
      obtain rfl := Option.some.inj ht
      have htimes := h.times (.renewed asked stored token') (by rw [hl]; exact List.mem_cons_self)
      exact ⟨asked, stored, older, rfl, htimes.2.2, hnow⟩

theorem Kept.fresh (h : Kept p t₀ s) (hcalled : Called s) {i : ι} {retry : Bool} {token : τ}
    (hi : (s.stage i).trying retry = true) (hlive : s.live = some token) :
    Fresh p.life s.changes ⟨i, retry, token, s.now⟩ := by
  obtain ⟨asked, stored, older, hchanges, hstored, hnow⟩ := h.live hlive
  refine ⟨[], older, asked, stored, hchanges, hstored, hnow, ?_⟩
  intro hretry
  have hretry : retry = true := hretry
  subst hretry
  have hdropped := hcalled.second i hi
  rwa [hchanges, droppers_renewed] at hdropped

theorem Handed.hand {changes : List (Change ι τ)} {handouts : List (Handout ι τ)}
    (h : ∀ h ∈ handouts, Fresh p.life changes h) {new : Handout ι τ} (hnew : Fresh p.life changes new) :
    ∀ h ∈ new :: handouts, Fresh p.life changes h := by
  intro x hx
  rcases List.mem_cons.mp hx with rfl | hx
  · exact hnew
  · exact h x hx

variable [DecidableEq ι]

theorem handed_step (s : St ι τ ρ ε) (o : Op ι τ ρ ε) (hkept : Kept p t₀ s) (hcalled : Called s) (h : Handed p s) :
    Handed p (step p s o) := by
  have hmoves := step_moves p s o
  generalize step p s o = s' at hmoves
  cases hmoves with
  | stay | tick _ | queue _ | lock _ _ | ask _ _ | refuse _ _ | reject _ | finish _ _ | cancel _ _ => exact h
  | found hi hfree hlive => exact Handed.hand h (hkept.fresh hcalled (by rw [hi]; simp [Stage.trying]) hlive)
  | again hi hlive => exact Handed.hand h (hkept.fresh hcalled (by rw [hi]; simp [Stage.trying]) hlive)
  | drop hi hfree => exact fun x hx => (h x hx).cons _
  | @renew i retry since token hi =>
    refine Handed.hand (fun x hx => (h x hx).cons _) ?_
    refine ⟨[], s.changes, since, s.now, rfl, Nat.le_refl _, Nat.lt_add_of_pos_right p.life_pos, ?_⟩
    intro hretry
    have hretry : retry = true := hretry
    subst hretry
    exact hcalled.second i (by rw [hi]; rfl)

end Handed

/-! ## Whole runs -/

/-- each renewal but the last was used for a lifetime or dropped -/
theorem renewals_of_chain {life t₀ : ℕ} (c : Change ι τ) (changes : List (Change ι τ))
    (hchain : (c :: changes).IsChain (Change.Follows life))
    (htimes : ∀ d ∈ c :: changes, t₀ ≤ d.began ∧ d.began ≤ d.ended) :
    life * (c :: changes).countP Change.isRenewal + t₀ ≤ life * (droppers (c :: changes)).length + c.ready life := by
  induction changes generalizing c with
  | nil =>
    obtain ⟨hstart, hended⟩ := htimes c List.mem_cons_self
    cases c with
    | renewed asked stored token =>
      simp only [Change.began, Change.ended] at hstart hended
      simp only [List.countP_singleton, Change.isRenewal, droppers_renewed, Change.ready]
      simp [droppers]
      omega
    | dropped i time =>
      simp only [Change.began] at hstart
      simp only [List.countP_singleton, Change.isRenewal, droppers_dropped, Change.ready]
      simp [droppers]
      omega
  | cons d changes ih =>
    obtain ⟨hfollows, hrest⟩ := List.isChain_cons_cons.mp hchain
    have hcount := ih d hrest (fun e he => htimes e (List.mem_cons_of_mem c he))
    obtain ⟨-, hended⟩ := htimes c List.mem_cons_self
    have hready := d.ready_le life
    cases c with
    | renewed asked stored token =>
      simp only [Change.Follows, Change.isRenewal, if_true, Change.began, Change.ended] at hfollows hended
      rw [List.countP_cons_of_pos rfl, Nat.mul_succ, droppers_renewed, Change.ready]
      omega
    | dropped i time =>
      simp only [Change.Follows, Change.isRenewal, Bool.false_eq_true, if_false, Change.began] at hfollows
      rw [List.countP_cons_of_neg (by simp [Change.isRenewal]), droppers_dropped, List.length_cons, Nat.mul_succ,
        Change.ready]
      omega

section Runs

variable [DecidableEq ι]

theorem run_kept (p : Policy ρ) (t₀ : ℕ) (ops : List (Op ι τ ρ ε)) : Kept p t₀ (run (step p) (init t₀) ops) :=
  run_inv kept_step (init_kept p t₀) ops

theorem run_called (p : Policy ρ) (t₀ : ℕ) (ops : List (Op ι τ ρ ε)) : Called (run (step p) (init t₀) ops) :=
  run_inv called_step (init_called t₀) ops

/-- **Every token that is handed out is fresh**, in every interleaving. -/
theorem run_handed (p : Policy ρ) (t₀ : ℕ) (ops : List (Op ι τ ρ ε)) : Handed p (run (step p) (init t₀) ops) := by
  have hstep : ∀ (s : St ι τ ρ ε) o, Kept p t₀ s ∧ Called s ∧ Handed p s →
      Kept p t₀ (step p s o) ∧ Called (step p s o) ∧ Handed p (step p s o) := by
    intro s o h
    obtain ⟨hkept, hcalled, hhanded⟩ := h
    exact ⟨kept_step s o hkept, called_step s o hcalled, handed_step s o hkept hcalled hhanded⟩
  have hinit : Handed p (init t₀ : St ι τ ρ ε) := by
    intro h hh
    simp [init] at hh
  exact (run_inv hstep ⟨init_kept p t₀, init_called t₀, hinit⟩ ops).2.2

/-- **Renewals are few**, in every interleaving: one in each lifetime that has begun, and one for each rejection. -/
theorem renewals_le (p : Policy ρ) (t₀ : ℕ) (ops : List (Op ι τ ρ ε)) :
    let s := run (step p) (init t₀) ops
    p.life * s.renewals ≤ (s.now - t₀) + p.life * (1 + s.rejections.length) := by
  intro s
  have hkept : Kept p t₀ s := run_kept p t₀ ops
  have hcalled : Called s := run_called p t₀ ops
  have hdrops : (droppers s.changes).length ≤ s.rejections.length :=
    (hcalled.drops.subperm hcalled.dropped).length_le
  have hmul := Nat.mul_le_mul_left p.life hdrops
  unfold St.renewals
  rw [Nat.mul_add, Nat.mul_one]
  cases hl : s.changes with
  | nil => simp
  | cons c changes =>
    have hcount := renewals_of_chain c changes (hl ▸ hkept.chain) fun d hd => by
      obtain ⟨hstart, hbegan, -⟩ := hkept.times d (hl ▸ hd)
      exact ⟨hstart, hbegan⟩
    have hready := c.ready_le p.life
    have hended := (hkept.times c (hl ▸ List.mem_cons_self)).2.2
    rw [hl] at hmul
    omega

end Runs

end Lumiere.Core.Bearer
