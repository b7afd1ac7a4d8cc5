/-
An iteration over the keys of a store that others write to meanwhile, in the manner of SCAN. What it has collected goes
to a program, whose statements take effect among the writes of others.

- `Scanned`: what an iteration promises. The keys come in batches, in any order and perhaps more than once; a key that is
  there all the time comes in one of them.
- `Sweep.collected`: the program is given every matching key that stayed until the end of the iteration.
- `Sweep.untouched`, `Sweep.swept`: a program that removes the keys that it is given leaves the others alone, and of its
  own keys none that nobody has stored meanwhile.
- `Glob`: patterns by which the keys of an iteration are chosen.
-/
import Lumiere.Core.Interleaving
import Lumiere.Core.Run
import Mathlib.Data.List.Induction
import Mathlib.Logic.Function.Basic

namespace Lumiere.Core

/-! ## Stores -/

section Keyspace

variable {K V : Type} [DecidableEq K]

abbrev Keyspace (K V : Type) := K → Option V

/-- what others do to a key: they store a value, or remove the key -/
structure Change (K V : Type) where
  key : K
  value : Option V
deriving DecidableEq, Repr

def Change.apply (db : Keyspace K V) (c : Change K V) : Keyspace K V := Function.update db c.key c.value

def Keyspace.after (db : Keyspace K V) (cs : List (Change K V)) : Keyspace K V := cs.foldl Change.apply db

def Keyspace.remove (keys : List K) (db : Keyspace K V) : Keyspace K V := fun k => if k ∈ keys then none else db k

/-- the key is there all the time -/
def Stays (k : K) (db : Keyspace K V) (cs : List (Change K V)) : Prop := ∀ l, l <+: cs → (db.after l k).isSome = true

/-- nobody stores the key -/
def NeverSet (k : K) (cs : List (Change K V)) : Prop := ∀ c ∈ cs, c.key = k → c.value = none

variable {k : K} {db : Keyspace K V} {cs : List (Change K V)} {c : Change K V}

theorem Keyspace.after_snoc : db.after (cs ++ [c]) = c.apply (db.after cs) := by
  simp [Keyspace.after, List.foldl_append]

theorem Change.apply_key (db : Keyspace K V) : c.apply db c.key = c.value := by simp [Change.apply]

theorem Change.apply_of_ne (h : c.key ≠ k) (db : Keyspace K V) : c.apply db k = db k :=
  Function.update_of_ne (Ne.symm h) _ _

theorem stays_snoc : Stays k db (cs ++ [c]) ↔ Stays k db cs ∧ (db.after (cs ++ [c]) k).isSome = true := by
  constructor
  · intro h
    exact ⟨fun l hl => h l (hl.trans (List.prefix_append cs [c])), h _ List.prefix_rfl⟩
  · intro h l hl
    rcases List.prefix_concat_iff.mp hl with rfl | hl
    · exact h.2
    · exact h.1 l hl

omit [DecidableEq K] in
theorem neverSet_snoc : NeverSet k (cs ++ [c]) ↔ NeverSet k cs ∧ (c.key = k → c.value = none) := by
  simp [NeverSet, or_imp, forall_and]

/-- a key that nobody stores is there all the time, or gone in the end -/
theorem stays_or_gone (h : NeverSet k cs) : Stays k db cs ∨ db.after cs k = none := by
  induction cs using List.reverseRecOn with
  | nil =>
    cases hk : db k with
    | none => exact .inr hk
    | some v =>
      left
      intro l hl
      rw [List.prefix_nil.mp hl, Keyspace.after, List.foldl_nil, hk]
      rfl
  | append_singleton cs c ih =>
    obtain ⟨hcs, hc⟩ := neverSet_snoc.mp h
    cases hk : db.after (cs ++ [c]) k with
    | none => exact .inr rfl
    | some v =>
      left
      refine stays_snoc.mpr ⟨?_, by rw [hk]; rfl⟩
      apply (ih hcs).resolve_right
      intro hgone
      rw [Keyspace.after_snoc] at hk
      by_cases hck : c.key = k
      · rw [← hck, Change.apply_key, hc hck] at hk
        cases hk
      · rw [Change.apply_of_ne hck, hgone] at hk
        cases hk

end Keyspace

section Returns

variable {σ ω ε α β : Type} {P : β → Prop} {p : Prog σ ω ε α} {f : α → Prog σ ω ε β} {q : Prog σ ω ε β}

/-- what the program may return -/
def Prog.Returns (P : β → Prop) : Prog σ ω ε β → Prop
  | .ret b => P b
  | .fail _ => True
  | .query next => ∀ s, (next s).Returns P
  | .exec _ next => ∀ n, (next n).Returns P
  | .tx _ next => ∀ b, (next b).Returns P

theorem Prog.returns_bind (hf : ∀ a, (f a).Returns P) : (p >>= f).Returns P := by
  show (p.bind f).Returns P
  induction p with
  | ret a => exact hf a
  | fail e => trivial
  | query next ih => exact fun s => ih s hf
  | exec w next ih => exact fun n => ih n hf
  | tx body next _ ih => exact fun b => ih b hf

theorem Prog.returns_advance (sem : ω → σ → Except ε (ℕ × σ)) (hq : q.Returns P) (s : σ) :
    (q.advance sem s).1.Returns P := by
  cases q with
  | ret b => exact hq
  | fail e => trivial
  | query next => exact hq s
  | exec w next =>
    rw [Prog.advance]
    rcases sem w s with e | ⟨n, t⟩
    · trivial
    · exact hq n
  | tx body next =>
    rw [Prog.advance]
    rcases body.run sem s with ⟨e | b, t⟩
    · trivial
    · exact hq b

theorem Prog.returns_interrupt (hq : q.Returns P) (e : ε) : (q.interrupt e).Returns P := by
  cases q with
  | ret b => exact hq
  | _ => trivial

end Returns

/-- a loop of statements settles what one of them settles -/
theorem Prog.owes_forM_execute {σ ω ε β κ : Type} {settles : ω → κ → Prop} {k : κ} {xs : List β} {x : β} {w : β → ω}
    (hx : x ∈ xs) (h : settles (w x) k) :
    (xs.forM fun y => (execute (w y) : Prog σ ω ε PUnit)).Owes settles k := by
  induction xs with
  | nil => cases hx
  | cons y ys ih =>
    rcases List.mem_cons.mp hx with rfl | hmem
    · exact .inl h
    · exact .inr fun _ => ih hmem

/-! ## Sweeps -/

variable {K V ω ε α : Type} [DecidableEq K]

structure Sweep (K V ω ε α : Type) where
  /-- the keys collected so far, or the rest of the program -/
  state : List K ⊕ Prog (Keyspace K V) ω ε α
  db : Keyspace K V

namespace Sweep

inductive Op (K V ε : Type) where
  /-- the next cursor and a batch; the cursor 0 ends the iteration -/
  | reply (cursor : ℕ) (batch : List K)
  | advance
  | fail (e : ε)
  /-- somebody else writes -/
  | change (c : Change K V)
deriving DecidableEq, Repr

def Op.change? : Op K V ε → Option (Change K V)
  | .change c => some c
  | _ => none

def Op.batch : Op K V ε → List K
  | .reply _ batch => batch
  | _ => []

def Op.isLast : Op K V ε → Bool
  | .reply cursor _ => cursor = 0
  | _ => false

def changes (ops : List (Op K V ε)) : List (Change K V) := ops.filterMap Op.change?

def batches (ops : List (Op K V ε)) : List K := ops.flatMap Op.batch

def start (db : Keyspace K V) : Sweep K V ω ε α := ⟨.inl [], db⟩

/-- `next` is the program for the keys that have been collected -/
def step (next : List K → Prog (Keyspace K V) ω ε α)
    (sem : ω → Keyspace K V → Except ε (ℕ × Keyspace K V)) (s : Sweep K V ω ε α) : Op K V ε → Sweep K V ω ε α
  | .reply cursor batch =>
    match s.state with
    | .inl keys => { s with state := if cursor = 0 then .inr (next (keys ++ batch)) else .inl (keys ++ batch) }
    | .inr _ => s
  | .advance =>
    match s.state with
    | .inl _ => s
    | .inr p => ⟨.inr (p.advance sem s.db).1, (p.advance sem s.db).2⟩
  | .fail e =>
    match s.state with
    | .inl _ => { s with state := .inr (.fail e) }
    | .inr p => { s with state := .inr (p.interrupt e) }
  | .change c => { s with db := c.apply s.db }

/-- what an iteration promises, wherever it ends -/
structure Scanned (pat : K → Bool) (db : Keyspace K V) (ops : List (Op K V ε)) : Prop where
  matching : ∀ k ∈ batches ops, pat k = true
  complete : ∀ l batch, l ++ [.reply 0 batch] <+: ops → (∀ o ∈ l, o.isLast = false) →
    ∀ k, pat k = true → Stays k db (changes l) → k ∈ batches l ++ batch

variable {pat : K → Bool} {db : Keyspace K V} {ops l : List (Op K V ε)} {o : Op K V ε}
  {next : List K → Prog (Keyspace K V) ω ε α} {sem : ω → Keyspace K V → Except ε (ℕ × Keyspace K V)} {k : K}

omit [DecidableEq K] in
theorem changes_append (m : List (Op K V ε)) : changes (l ++ m) = changes l ++ changes m := List.filterMap_append

omit [DecidableEq K] in
@[simp] theorem changes_reply (cursor : ℕ) (batch : List K) :
    changes (l ++ [.reply cursor batch]) = changes l := by
  simp [changes, Op.change?]

omit [DecidableEq K] in
@[simp] theorem changes_advance : changes (l ++ [.advance]) = changes l := by simp [changes, Op.change?]

omit [DecidableEq K] in
@[simp] theorem changes_fail (e : ε) : changes (l ++ [.fail e]) = changes l := by simp [changes, Op.change?]

omit [DecidableEq K] in
@[simp] theorem changes_change (c : Change K V) : changes (l ++ [.change c]) = changes l ++ [c] := by
  simp [changes, Op.change?]

omit [DecidableEq K] in
theorem batches_snoc : batches (l ++ [o]) = batches l ++ o.batch := by simp [batches]

theorem Scanned.of_prefix (h : Scanned pat db ops) (hl : l <+: ops) : Scanned pat db l := by
  obtain ⟨m, rfl⟩ := hl
  refine ⟨?_, ?_⟩
  · intro k hk
    apply h.matching k
    rw [batches, List.flatMap_append]
    exact List.mem_append_left _ hk
  · intro l' batch hl'
    exact h.complete l' batch (hl'.trans (List.prefix_append l m))

theorem stays_of_prefix (h : Stays k db (changes ops)) (hl : l <+: ops) : Stays k db (changes l) :=
  fun m hm => h m (hm.trans (hl.filterMap Op.change?))

omit [DecidableEq K] in
/-- an iteration has one end -/
theorem eq_of_last {l l' m m' : List (Op K V ε)} {o o' : Op K V ε} (h : l' ++ o' :: m' = l ++ o :: m)
    (hl : ∀ o ∈ l, o.isLast = false) (hl' : ∀ o ∈ l', o.isLast = false) (ho : o.isLast = true)
    (ho' : o'.isLast = true) : l' = l ∧ o' = o := by
  obtain ⟨r, rfl, hr⟩ | ⟨r, rfl, hr⟩ := List.append_eq_append_iff.mp h
  · cases r with
    | nil => exact ⟨by simp, (List.cons.inj hr).1⟩
    | cons x r =>
      obtain rfl := (List.cons.inj hr).1
      rw [hl o' (by simp)] at ho'
      cases ho'
  · cases r with
    | nil => exact ⟨by simp, (List.cons.inj hr).1.symm⟩
    | cons x r =>
      obtain rfl := (List.cons.inj hr).1
      rw [hl' o (by simp)] at ho
      cases ho

/-- the promise of an iteration whose end is known -/
theorem scanned_of_last {l m : List (Op K V ε)} {batch : List K} (hl : ∀ o ∈ l, o.isLast = false)
    (hmatching : ∀ k ∈ batches (l ++ .reply 0 batch :: m), pat k = true)
    (hcomplete : ∀ k, pat k = true → Stays k db (changes l) → k ∈ batches l ++ batch) :
    Scanned pat db (l ++ .reply 0 batch :: m) := by
  refine ⟨hmatching, ?_⟩
  intro l' batch' hpre hl' k hk hstays
  obtain ⟨m', hm'⟩ := hpre
  rw [List.append_assoc] at hm'
  obtain ⟨rfl, hreply⟩ := eq_of_last hm' hl hl' rfl rfl
  cases hreply
  exact hcomplete k hk hstays

/-! ## The iteration -/

/-- while the iteration goes on, the keys are those of the batches -/
theorem iterating {keys : List K} (h : (run (step next sem) (start db) ops).state = .inl keys) :
    keys = batches ops ∧ (∀ o ∈ ops, o.isLast = false) ∧
      (run (step next sem) (start db) ops).db = db.after (changes ops) := by
  induction ops using List.reverseRecOn generalizing keys with
  | nil =>
    obtain rfl := Sum.inl.inj h
    exact ⟨rfl, by simp, rfl⟩
  | append_singleton l o ih =>
    rw [run_snoc] at h ⊢
    cases hs : (run (step next sem) (start db) l).state with
    | inr p =>
      exfalso
      cases o <;> simp [step, hs] at h
    | inl before =>
      obtain ⟨rfl, hlast, hdb⟩ := ih hs
      cases o with
      | reply cursor batch =>
        simp only [step, hs] at h
        split_ifs at h with hcursor
        obtain rfl := Sum.inl.inj h
        refine ⟨by rw [batches_snoc, Op.batch], ?_, ?_⟩
        · intro o ho
          rcases List.mem_append.mp ho with ho | ho
          · exact hlast o ho
          · rw [List.mem_singleton.mp ho]
            simp [Op.isLast, hcursor]
        · simp [step, hs, hdb]
      | advance =>
        simp only [step, hs] at h ⊢
        obtain rfl := Sum.inl.inj h
        refine ⟨by simp [batches_snoc, Op.batch], ?_, by simp [hdb]⟩
        simpa [Op.isLast, or_imp, forall_and] using hlast
      | fail e =>
        simp [step, hs] at h
      | change c =>
        simp only [step] at h ⊢
        rw [hs] at h
        obtain rfl := Sum.inl.inj h
        refine ⟨by simp [batches_snoc, Op.batch], ?_, ?_⟩
        · simpa [Op.isLast, or_imp, forall_and] using hlast
        · rw [hdb, changes_change, Keyspace.after_snoc]

/-- where a program runs, it has been given the keys of a complete iteration, unless that failed -/
theorem collected {p : Prog (Keyspace K V) ω ε α}
    (h : (run (step next sem) (start db) ops).state = .inr p) :
    (∃ e, p = .fail e) ∨ ∃ l batch m, ops = l ++ [.reply 0 batch] ++ m ∧ (∀ o ∈ l, o.isLast = false) ∧
      run (step next sem) (start db) (l ++ [.reply 0 batch]) =
        ⟨.inr (next (batches l ++ batch)), db.after (changes l)⟩ := by
  induction ops using List.reverseRecOn generalizing p with
  | nil => cases h
  | append_singleton l o ih =>
    cases hs : (run (step next sem) (start db) l).state with
    | inr before =>
      obtain ⟨e, rfl⟩ | ⟨l', batch, m, rfl, hlast, hrun⟩ := ih hs
      · left
        rw [run_snoc] at h
        cases o with
        | _ =>
          simp only [step, hs, Prog.advance, Prog.interrupt] at h
          exact ⟨_, (Sum.inr.inj h).symm⟩
      · exact .inr ⟨l', batch, m ++ [o], by simp, hlast, hrun⟩
    | inl keys =>
      obtain ⟨rfl, hlast, hdb⟩ := iterating hs
      rw [run_snoc] at h
      cases o with
      | reply cursor batch =>
        simp only [step, hs] at h
        split_ifs at h with hcursor
        subst hcursor
        refine .inr ⟨l, batch, [], by simp, hlast, ?_⟩
        rw [run_snoc, step, hs, hdb]
        rfl
      | advance =>
        simp only [step, hs] at h
        cases h
      | fail e =>
        simp only [step, hs] at h
        exact .inl ⟨e, (Sum.inr.inj h).symm⟩
      | change c =>
        simp only [step, hs] at h
        cases h

/-- what a run returns belongs to the keys that were collected -/
theorem returned {g : List K → α → Prop} (hnext : ∀ ks, (next ks).Returns (g ks)) {a : α}
    (h : (run (step next sem) (start db) ops).state = .inr (.ret a)) :
    ∃ l batch, l ++ [.reply 0 batch] <+: ops ∧ (∀ o ∈ l, o.isLast = false) ∧ g (batches l ++ batch) a := by
  obtain ⟨e, he⟩ | ⟨l, batch, m, rfl, hlast, hrun⟩ := collected h
  · cases he
  have hphase : ∀ (m : List (Op K V ε)) (p : Prog (Keyspace K V) ω ε α) (db : Keyspace K V),
      p.Returns (g (batches l ++ batch)) → (run (step next sem) ⟨.inr p, db⟩ m).state = .inr (.ret a) →
        g (batches l ++ batch) a := by
    intro m
    induction m with
    | nil =>
      intro p db hp hret
      obtain rfl := Sum.inr.inj hret
      exact hp
    | cons o m ih =>
      intro p db hp hret
      cases o with
      | reply cursor batch' => exact ih p db hp hret
      | advance => exact ih _ _ (Prog.returns_advance sem hp db) hret
      | fail e => exact ih _ _ (Prog.returns_interrupt hp e) hret
      | change c => exact ih p _ hp hret
  rw [run_append, hrun] at h
  exact ⟨l, batch, List.prefix_append _ m, hlast, hphase m _ _ (hnext _) h⟩

/-! ## Programs that read -/

/-- a program that answers in one step has answered in a state that comes after the iteration -/
theorem answered {f : List K → Keyspace K V → α} (hnext : ∀ ks db, (next ks).advance sem db = (.ret (f ks db), db))
    {a : α} (h : (run (step next sem) (start db) ops).state = .inr (.ret a)) :
    ∃ l batch m, l ++ [.reply 0 batch] ++ m <+: ops ∧ (∀ o ∈ l, o.isLast = false) ∧
      a = f (batches l ++ batch) (db.after (changes (l ++ m))) := by
  obtain ⟨e, he⟩ | ⟨l, batch, m, rfl, hlast, hrun⟩ := collected h
  · cases he
  suffices hphase : ∀ p, (run (step next sem) (start db) (l ++ [.reply 0 batch] ++ m)).state = .inr p →
      (p = next (batches l ++ batch) ∧
          (run (step next sem) (start db) (l ++ [.reply 0 batch] ++ m)).db = db.after (changes (l ++ m))) ∨
        (∃ e, p = .fail e) ∨ ∃ m', m' <+: m ∧ p = .ret (f (batches l ++ batch) (db.after (changes (l ++ m')))) by
    obtain ⟨hret, hdb⟩ | ⟨e, he⟩ | ⟨m', hm', hret⟩ := hphase _ h
    · refine ⟨l, batch, m, List.prefix_rfl, hlast, ?_⟩
      have hstep := hnext (batches l ++ batch) (db.after (changes (l ++ m)))
      rw [← hret] at hstep
      exact Prog.ret.inj (Prod.mk.inj hstep).1
    · cases he
    · exact ⟨l, batch, m', (List.prefix_append_right_inj _).mpr hm', hlast, Prog.ret.inj hret⟩
  clear h
  induction m using List.reverseRecOn with
  | nil =>
    intro p hp
    rw [List.append_nil, hrun] at hp
    refine .inl ⟨(Sum.inr.inj hp).symm, ?_⟩
    rw [List.append_nil, hrun, List.append_nil]
  | append_singleton m o ih =>
    intro p' hp'
    rw [← List.append_assoc, run_snoc] at hp' ⊢
    cases hs : (run (step next sem) (start db) (l ++ [.reply 0 batch] ++ m)).state with
    | inl keys =>
      exfalso
      obtain ⟨-, hnone, -⟩ := iterating hs
      have hreply := hnone (.reply 0 batch) (by simp)
      cases hreply
    | inr p =>
      have hp := ih p hs
      have hkeep : ∀ {q : Prog (Keyspace K V) ω ε α},
          ((∃ e, q = .fail e) ∨
            ∃ m', m' <+: m ∧ q = .ret (f (batches l ++ batch) (db.after (changes (l ++ m'))))) →
          (∃ e, q = .fail e) ∨
            ∃ m', m' <+: m ++ [o] ∧ q = .ret (f (batches l ++ batch) (db.after (changes (l ++ m')))) := by
        intro q hq
        refine hq.imp_right fun hret => ?_
        obtain ⟨m', hm', heq⟩ := hret
        exact ⟨m', hm'.trans (List.prefix_append m [o]), heq⟩
      cases o with
      | reply cursor batch' =>
        simp only [step, hs] at hp' ⊢
        obtain rfl := Sum.inr.inj hp'
        rw [← List.append_assoc, changes_reply]
        exact hp.imp_right hkeep
      | advance =>
        simp only [step, hs] at hp' ⊢
        obtain rfl := Sum.inr.inj hp'
        obtain ⟨rfl, hdb⟩ | ⟨e, rfl⟩ | ⟨m', hm', rfl⟩ := hp
        · refine .inr (.inr ⟨m, List.prefix_append m _, ?_⟩)
          rw [hnext, hdb]
        · exact .inr (.inl ⟨e, rfl⟩)
        · exact .inr (.inr ⟨m', hm'.trans (List.prefix_append m _), rfl⟩)
      | fail e =>
        simp only [step, hs] at hp' ⊢
        obtain rfl := Sum.inr.inj hp'
        rw [← List.append_assoc, changes_fail]
        cases p with
        | ret a => exact hp.imp_right hkeep
        | fail e' => exact .inr (.inl ⟨e', rfl⟩)
        | _ => exact .inr (.inl ⟨e, rfl⟩)
      | change c =>
        simp only [step] at hp' ⊢
        rw [hs] at hp'
        obtain rfl := Sum.inr.inj hp'
        rw [← List.append_assoc, changes_change, Keyspace.after_snoc]
        refine hp.imp ?_ hkeep
        intro hsame
        exact ⟨hsame.1, by rw [hsame.2]⟩

/-! ## Programs that remove keys -/

section Removing

variable {removed : ω → List K}
  (hsem : ∀ w db n db', sem w db = .ok (n, db') → db' = Keyspace.remove (removed w) db)

include hsem

/-- a step removes the key, or leaves it as it is -/
theorem issues_advance {p : Prog (Keyspace K V) ω ε α} {P : ω → Prop} (hp : p.Issues P) (db : Keyspace K V) (k : K) :
    (p.advance sem db).1.Issues P ∧
      ((p.advance sem db).2 k = db k ∨ (p.advance sem db).2 k = none ∧ ∃ w, P w ∧ k ∈ removed w) := by
  have hexec : ∀ w db' n db'', P w → (db' k = db k ∨ db' k = none ∧ ∃ w, P w ∧ k ∈ removed w) →
      sem w db' = .ok (n, db'') → db'' k = db k ∨ db'' k = none ∧ ∃ w, P w ∧ k ∈ removed w := by
    intro w db' n db'' hw hdb' h
    by_cases hk : k ∈ removed w
    · exact .inr ⟨by rw [hsem w db' n db'' h]; exact if_pos hk, w, hw, hk⟩
    · have hsame : db'' k = db' k := by
        rw [hsem w db' n db'' h]
        exact if_neg hk
      rw [hsame]
      exact hdb'
  cases p with
  | ret a => exact ⟨hp, .inl rfl⟩
  | fail e => exact ⟨hp, .inl rfl⟩
  | query next => exact ⟨hp db, .inl rfl⟩
  | exec w next =>
    rw [Prog.advance]
    rcases h : sem w db with e | ⟨n, db'⟩
    · exact ⟨trivial, .inl rfl⟩
    · exact ⟨hp.2 n, hexec w db n db' hp.1 (.inl rfl) h⟩
  | tx body next =>
    rw [Prog.advance]
    have hbody := Prog.issues_run hexec hp.1 (.inl rfl)
    rcases hrun : body.run sem db with ⟨e | b, db'⟩
    · exact ⟨trivial, .inl rfl⟩
    · rw [hrun] at hbody
      exact ⟨hp.2 b, hbody⟩

theorem owes_advance {p : Prog (Keyspace K V) ω ε α} (hp : p.Owes (fun w k => k ∈ removed w) k) (db : Keyspace K V) :
    (∃ e, (p.advance sem db).1 = .fail e) ∨ (p.advance sem db).2 k = none ∨
      (p.advance sem db).1.Owes (fun w k => k ∈ removed w) k := by
  cases p with
  | ret a => exact hp.elim
  | fail e => exact hp.elim
  | query next => exact .inr (.inr (hp db))
  | exec w next =>
    rw [Prog.advance]
    rcases h : sem w db with e | ⟨n, db'⟩
    · exact .inl ⟨e, rfl⟩
    · rcases hp with hw | hnext
      · refine .inr (.inl ?_)
        rw [hsem w db n db' h]
        exact if_pos hw
      · exact .inr (.inr (hnext n))
  | tx body next => exact hp.elim

variable (hissues : ∀ ks, (next ks).Issues fun w => removed w ⊆ ks)

include hissues

/-- what a run leaves of a key, and the keys that the program may still remove -/
theorem removing (h : Scanned pat db ops) (k : K) :
    ((run (step next sem) (start db) ops).db k = db.after (changes ops) k ∨
      (run (step next sem) (start db) ops).db k = none ∧ pat k = true) ∧
      ∀ p, (run (step next sem) (start db) ops).state = .inr p → p.Issues fun w => ∀ k ∈ removed w, pat k = true := by
  induction ops using List.reverseRecOn with
  | nil => exact ⟨.inl rfl, fun p hp => by cases hp⟩
  | append_singleton l o ih =>
    obtain ⟨hkey, hprog⟩ := ih (h.of_prefix (List.prefix_append l [o]))
    rw [run_snoc]
    cases hs : (run (step next sem) (start db) l).state with
    | inl keys =>
      obtain ⟨rfl, -, hdb⟩ := iterating hs
      cases o with
      | reply cursor batch =>
        refine ⟨by simpa [step, hs] using hkey, ?_⟩
        intro p hp
        simp only [step, hs] at hp
        split_ifs at hp with hcursor
        obtain rfl := Sum.inr.inj hp
        apply (hissues _).mono
        intro w hw k' hk'
        apply h.matching k'
        rw [batches_snoc]
        exact hw hk'
      | advance => exact ⟨by simpa [step, hs] using hkey, by simp [step, hs]⟩
      | fail e =>
        refine ⟨by simpa [step, hs] using hkey, ?_⟩
        intro p hp
        simp only [step, hs] at hp
        obtain rfl := Sum.inr.inj hp
        trivial
      | change c =>
        refine ⟨.inl ?_, by simp [step, hs]⟩
        simp only [step]
        rw [hdb, changes_change, Keyspace.after_snoc]
    | inr p =>
      have hp := hprog p hs
      cases o with
      | reply cursor batch =>
        refine ⟨by simpa [step, hs] using hkey, ?_⟩
        intro p' hp'
        simp only [step, hs] at hp'
        obtain rfl := Sum.inr.inj hp'
        exact hp
      | advance =>
        obtain ⟨hnext, hstep⟩ := issues_advance hsem hp (run (step next sem) (start db) l).db k
        simp only [step, hs, changes_advance]
        constructor
        · rcases hstep with hsame | ⟨hgone, w, hw, hk⟩
          · rw [hsame]
            exact hkey
          · exact .inr ⟨hgone, hw k hk⟩
        · intro p' hp'
          obtain rfl := Sum.inr.inj hp'
          exact hnext
      | fail e =>
        refine ⟨by simpa [step, hs] using hkey, ?_⟩
        intro p' hp'
        simp only [step, hs] at hp'
        obtain rfl := Sum.inr.inj hp'
        cases p with
        | ret a => exact hp
        | _ => trivial
      | change c =>
        simp only [step, changes_change, Keyspace.after_snoc]
        refine ⟨?_, fun p' hp' => hprog p' hp'⟩
        by_cases hck : c.key = k
        · left
          rw [← hck, Change.apply_key, Change.apply_key]
        · rw [Change.apply_of_ne hck, Change.apply_of_ne hck]
          exact hkey

/-- **The keys that do not match are left to the others.** -/
theorem untouched (h : Scanned pat db ops) (hk : pat k = false) :
    (run (step next sem) (start db) ops).db k = db.after (changes ops) k := by
  obtain hsame | ⟨-, hpat⟩ := (removing hsem hissues h k).1
  · exact hsame
  · rw [hk] at hpat
    cases hpat

variable (howes : ∀ ks, ∀ k ∈ ks, (next ks).Owes (fun w k => k ∈ removed w) k)

include howes

/-- **A matching key that nobody stores is gone** when the program returns. -/
theorem swept (h : Scanned pat db ops) (hk : pat k = true) (hset : NeverSet k (changes ops)) {a : α}
    (hdone : (run (step next sem) (start db) ops).state = .inr (.ret a)) :
    (run (step next sem) (start db) ops).db k = none := by
  suffices hinv : ∀ p, (run (step next sem) (start db) ops).state = .inr p →
      (∃ e, p = .fail e) ∨ (run (step next sem) (start db) ops).db k = none ∨
        p.Owes (fun w k => k ∈ removed w) k by
    obtain ⟨e, he⟩ | hgone | howe := hinv _ hdone
    · cases he
    · exact hgone
    · exact howe.elim
  clear hdone
  induction ops using List.reverseRecOn with
  | nil =>
    intro p hp
    cases hp
  | append_singleton l o ih =>
    have hl := h.of_prefix (List.prefix_append l [o])
    have hsetl : NeverSet k (changes l) := by
      intro c hc
      apply hset c
      rw [changes_append]
      exact List.mem_append_left _ hc
    intro p' hp'
    rw [run_snoc] at hp' ⊢
    cases hs : (run (step next sem) (start db) l).state with
    | inl keys =>
      obtain ⟨rfl, hlast, hdb⟩ := iterating hs
      cases o with
      | reply cursor batch =>
        simp only [step, hs] at hp' ⊢
        split_ifs at hp' with hcursor
        obtain rfl := Sum.inr.inj hp'
        subst hcursor
        right
        rcases stays_or_gone hsetl with hstays | hgone
        · exact .inr (howes _ k (h.complete l batch List.prefix_rfl hlast k hk hstays))
        · exact .inl (hdb ▸ hgone)
      | advance => simp [step, hs] at hp'
      | fail e =>
        simp only [step, hs] at hp'
        exact .inl ⟨e, (Sum.inr.inj hp').symm⟩
      | change c => simp [step, hs] at hp'
    | inr p =>
      have hp := ih hl hsetl p hs
      cases o with
      | reply cursor batch =>
        simp only [step, hs] at hp' ⊢
        obtain rfl := Sum.inr.inj hp'
        exact hp
      | advance =>
        simp only [step, hs] at hp' ⊢
        obtain rfl := Sum.inr.inj hp'
        obtain ⟨e, rfl⟩ | hgone | howe := hp
        · exact .inl ⟨e, rfl⟩
        · refine .inr (.inl ?_)
          obtain hsame | ⟨hnone, -⟩ := (issues_advance hsem ((removing hsem hissues hl k).2 p hs) _ k).2
          · rw [hsame, hgone]
          · exact hnone
        · exact owes_advance hsem howe _
      | fail e =>
        simp only [step, hs] at hp' ⊢
        obtain rfl := Sum.inr.inj hp'
        cases p with
        | ret a => exact hp
        | _ => exact .inl ⟨_, rfl⟩
      | change c =>
        simp only [step] at hp' ⊢
        rw [hs] at hp'
        obtain rfl := Sum.inr.inj hp'
        refine hp.imp_right (Or.imp_left fun hgone => ?_)
        by_cases hck : c.key = k
        · have hremoves : c.value = none := hset c (by simp) hck
          rw [← hck, Change.apply_key, hremoves]
        · rw [Change.apply_of_ne hck]
          exact hgone

end Removing

end Sweep

/-! ## Patterns of texts -/

/-- the characters that a pattern gives a meaning -/
def isSpecial (c : Char) : Bool := c ∈ ['*', '?', '[', ']', '^', '\\']

/-- a way to match keys, as far as a star at the end goes: it stands for any rest -/
structure Glob where
  accepts : String → String → Bool
  star : ∀ text key : String, (∀ c ∈ text.toList, isSpecial c = false) →
    (accepts (text ++ "*") key = true ↔ text.toList <+: key.toList)

theorem not_isSpecial_of_isDigit {c : Char} (h : c.isDigit = true) : isSpecial c = false := by
  rw [isSpecial, decide_eq_false_iff_not]
  intro hspecial
  simp only [List.mem_cons, List.not_mem_nil, or_false] at hspecial
  rcases hspecial with rfl | rfl | rfl | rfl | rfl | rfl <;> cases h

/-- a star at the end, and every other character for itself -/
def Glob.literal : Glob where
  accepts pattern key :=
    if pattern.toList.getLast? = some '*' then pattern.toList.dropLast.isPrefixOf key.toList else pattern = key
  star text key _ := by simp

end Lumiere.Core
