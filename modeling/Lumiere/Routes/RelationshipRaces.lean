/-
Requests about friends and blocks side by side. `create_relationship` looks for a block and for an incoming request, and
then writes in a statement of its own; a block may come in between, and the UPDATE that accepts a request takes every
row between the two users for one.

- `Respected`: friendship is symmetric, and a block that has succeeded is in force unless something was issued after it
  to remove it.
- `Fine`: a request is accepted while there is no block, and rows are deleted only where no block has succeeded or by
  what may remove it. `respected_of_fine`: runs of such steps.
- `accepted_over_block`: a block between the checks of an acceptance and its UPDATE.
-/
import Lumiere.Core.Calls
import Lumiere.Routes.Concurrent
import Lumiere.Routes.Relationships

namespace Lumiere.Routes

open Lumiere.Core Lumiere.Core.Prog Lumiere.Models Lumiere.Db

abbrev RelationshipCalls := Calls RelationshipRequest Social RelationshipSql AppError

/-- requests are issued at any time; `e` is the error of a command that is made to fail -/
def raceStep (e : AppError) : RelationshipCalls → Move RelationshipRequest → RelationshipCalls :=
  Calls.step RelationshipRequest.handle relate e

def noCalls (users : Table User.id) : RelationshipCalls := ⟨[], noRelationships users⟩

/-! ## What is claimed, and of which steps -/

/-- a `remove_relationship` or `block_user` between the users -/
def RelationshipRequest.removes (a b : ℤ) : RelationshipRequest → Bool
  | .create .. => false
  | .remove x y | .block x y _ => decide (Between x y a b)

def RelationshipRequest.blocks (a b : ℤ) : RelationshipRequest → Bool
  | .block x y _ => decide (Between x y a b)
  | _ => false

structure Respected (a b : ℤ) (s : RelationshipCalls) : Prop where
  symmetric : s.shared.rel a b = some 1 ↔ s.shared.rel b a = some 1
  inForce : ∀ k c x y body, s.calls[k]? = some c → c.request = .block x y body → Between x y a b →
    c.rest.succeeded = true → (∀ r ∈ s.later k, r.removes a b = false) → s.shared.rel x y = some 2

/-- the statement may be executed between the users -/
def FineAt (a b : ℤ) (s : RelationshipCalls) : RelationshipSql → Prop
  | .acceptRequest x y => Between x y a b → s.shared.rel a b ≠ some 2 ∧ s.shared.rel b a ≠ some 2
  | .deleteRelationship x y => Between x y a b → ∀ k < s.calls.length, ∀ c ∈ s.calls[k]?,
      c.request.blocks a b = true → c.rest.succeeded = true → ∃ r ∈ s.later k, r.removes a b = true
  | _ => True

instance (a b : ℤ) (s : RelationshipCalls) : (w : RelationshipSql) → Decidable (FineAt a b s w)
  | .acceptRequest x y =>
    inferInstanceAs (Decidable (Between x y a b → s.shared.rel a b ≠ some 2 ∧ s.shared.rel b a ≠ some 2))
  | .deleteRelationship x y =>
    inferInstanceAs (Decidable (Between x y a b → ∀ k < s.calls.length, ∀ c ∈ s.calls[k]?,
      c.request.blocks a b = true → c.rest.succeeded = true → ∃ r ∈ s.later k, r.removes a b = true))
  | .insertRequest .. | .insertBlock .. => inferInstanceAs (Decidable True)

def Fine (a b : ℤ) (s : RelationshipCalls) (o : Move RelationshipRequest) : Prop := ∀ w ∈ s.executes o, FineAt a b s w

instance (a b : ℤ) (s : RelationshipCalls) (o : Move RelationshipRequest) : Decidable (Fine a b s o) :=
  inferInstanceAs (Decidable (∀ w ∈ s.executes o, FineAt a b s w))

variable {a b x y : ℤ} {s s' : Social} {w : RelationshipSql} {n : ℕ}

/-! ## Statements -/

/-- two users with a block between them have no row but blocks; else they have both rows or none -/
def Coherent (p q : Option ℤ) : Prop :=
  (p = none ∨ p = some 2) ∧ (q = none ∨ q = some 2) ∨
    p = some 4 ∧ q = some 3 ∨ p = some 3 ∧ q = some 4 ∨ p = some 1 ∧ q = some 1

theorem Coherent.symm {p q : Option ℤ} (h : Coherent p q) : Coherent q p := by
  rcases h with ⟨hp, hq⟩ | ⟨hp, hq⟩ | ⟨hp, hq⟩ | ⟨hp, hq⟩
  · exact .inl ⟨hq, hp⟩
  · exact .inr (.inr (.inl ⟨hq, hp⟩))
  · exact .inr (.inl ⟨hq, hp⟩)
  · exact .inr (.inr (.inr ⟨hq, hp⟩))

theorem Coherent.symmetric {p q : Option ℤ} (h : Coherent p q) : p = some 1 ↔ q = some 1 := by
  rcases h with ⟨rfl | rfl, rfl | rfl⟩ | ⟨rfl, rfl⟩ | ⟨rfl, rfl⟩ | ⟨rfl, rfl⟩ <;> decide

theorem Coherent.of_none {q : Option ℤ} (h : Coherent none q) : q = none ∨ q = some 2 := by
  rcases h with ⟨-, hq⟩ | ⟨hp, -⟩ | ⟨hp, -⟩ | ⟨hp, -⟩
  · exact hq
  all_goals cases hp

/-- no request is accepted over a block -/
def AcceptsNoBlock (a b : ℤ) (w : RelationshipSql) (s : Social) : Prop :=
  ∀ x y, w = .acceptRequest x y → Between x y a b → s.rel a b ≠ some 2 ∧ s.rel b a ≠ some 2

theorem exec_coherent (hab : a ≠ b) (h : w.exec s = .ok (n, s')) (hw : AcceptsNoBlock a b w s)
    (hs : Coherent (s.rel a b) (s.rel b a)) : Coherent (s'.rel a b) (s'.rel b a) := by
  by_cases hpair : Between w.users.1 w.users.2 a b
  · rw [exec_rel h, exec_rel h]
    cases w with
    | acceptRequest x y =>
      replace hpair : Between x y a b := hpair
      obtain ⟨hp, hq⟩ := hw x y rfl hpair
      rw [RelationshipSql.after, RelationshipSql.after, if_pos hpair, if_pos hpair.symm]
      rcases hs with ⟨hnone | hblock, hnone' | hblock'⟩ | ⟨h₁, h₂⟩ | ⟨h₁, h₂⟩ | ⟨h₁, h₂⟩
      · rw [hnone, hnone']
        exact .inl ⟨.inl rfl, .inl rfl⟩
      · exact absurd hblock' hq
      · exact absurd hblock hp
      · exact absurd hblock hp
      all_goals
        rw [h₁, h₂]
        exact .inr (.inr (.inr ⟨rfl, rfl⟩))
    | deleteRelationship x y =>
      replace hpair : Between x y a b := hpair
      rw [RelationshipSql.after, RelationshipSql.after, if_pos hpair, if_pos hpair.symm]
      exact .inl ⟨.inl rfl, .inl rfl⟩
    | insertRequest x y =>
      rcases hpair with ⟨rfl, rfl⟩ | ⟨rfl, rfl⟩
      · exact .inr (.inl (by simp [RelationshipSql.after, hab.symm]))
      · exact .inr (.inr (.inl (by simp [RelationshipSql.after, hab, hab.symm])))
    | insertBlock x y =>
      have hvacant : s.rel x y = none := exec_vacant h (x, y) List.mem_cons_self
      rcases hpair with ⟨rfl, rfl⟩ | ⟨rfl, rfl⟩
      · rw [hvacant] at hs
        refine .inl ⟨.inr (by simp [RelationshipSql.after]), ?_⟩
        simpa [RelationshipSql.after, hab.symm] using hs.of_none
      · rw [hvacant] at hs
        refine .inl ⟨?_, .inr (by simp [RelationshipSql.after])⟩
        simpa [RelationshipSql.after, hab] using hs.symm.of_none
  · rw [exec_rel_of_not_between h hpair, exec_rel_of_not_between h fun hpair' => hpair hpair'.symm]
    exact hs

/-- a statement that neither accepts nor deletes between the users -/
def SparesBlock (x y : ℤ) (w : RelationshipSql) (_ : Social) : Prop :=
  ∀ x' y', w = .acceptRequest x' y' ∨ w = .deleteRelationship x' y' → ¬ Between x' y' x y

theorem exec_block (h : w.exec s = .ok (n, s')) (hw : SparesBlock x y w s) (hs : s.rel x y = some 2) :
    s'.rel x y = some 2 := by
  rw [exec_rel h]
  cases w with
  | acceptRequest x' y' => rwa [RelationshipSql.after, if_neg (hw x' y' (.inl rfl))]
  | deleteRelationship x' y' => rwa [RelationshipSql.after, if_neg (hw x' y' (.inr rfl))]
  | insertRequest x' y' =>
    have hvacant := exec_vacant h
    rw [RelationshipSql.after]
    split_ifs with hout hin
    · obtain ⟨rfl, rfl⟩ := hout
      rw [hvacant (x, y) (by simp [RelationshipSql.vacant])] at hs
      cases hs
    · obtain ⟨rfl, rfl⟩ := hin
      rw [hvacant (x, y) (by simp [RelationshipSql.vacant])] at hs
      cases hs
    · exact hs
  | insertBlock x' y' =>
    rw [RelationshipSql.after]
    split_ifs
    · rfl
    · exact hs

/-! ## Programs -/

/-- the handlers have no transaction: what their statements keep, they keep -/
theorem keeps_handle {ok : RelationshipSql → Social → Prop} {I : Social → Prop}
    (hI : ∀ w s n s', ok w s → I s → relate w s = .ok (n, s') → I s') (r : RelationshipRequest) :
    r.handle.Keeps relate ok I := by
  have hexecute : ∀ w, (execute w : SocialHandler Unit).Keeps relate ok I := fun w => keeps_execute (hI w)
  have hfailIf : ∀ {c : Prop} [Decidable c] {e : AppError}, (failIf c e : SocialHandler Unit).Keeps relate ok I :=
    ReadOnly.keeps (issues_failIf _ _)
  cases r with
  | create auth body =>
    refine keeps_bind readOnly_createRelationshipChecks.keeps fun ⟨targetId, incoming⟩ => ?_
    cases incoming with
    | true => exact hexecute _
    | false => exact keeps_bind (ReadOnly.keeps (issues_select _)) fun _ => keeps_bind hfailIf fun _ => hexecute _
  | remove auth targetId => exact keeps_bind (keeps_affected (hI _)) fun _ => hfailIf
  | block auth targetId body =>
    exact keeps_bind hfailIf fun _ => keeps_bind hfailIf fun _ => keeps_bind readOnly_requireUser.keeps fun _ =>
      keeps_bind (hexecute _) fun _ => hexecute _

theorem endsWith_blockUser {auth targetId : ℤ} {body : BlockRequest} :
    (blockUser auth targetId body).EndsWith (· = .insertBlock auth targetId) :=
  endsWith_bind fun _ => endsWith_bind fun _ => endsWith_bind fun _ => endsWith_bind fun _ => endsWith_execute rfl

/-! ## Steps -/

structure RaceInv (a b : ℤ) (s : RelationshipCalls) : Prop where
  keeps : ∀ {ok I}, (∀ w t n t', ok w t → I t → relate w t = .ok (n, t') → I t') →
    ∀ c ∈ s.calls, c.rest.Keeps relate ok I
  coherent : Coherent (s.shared.rel a b) (s.shared.rel b a)
  blocks : ∀ k c x y body, s.calls[k]? = some c → c.request = .block x y body → Between x y a b →
    c.rest.EndsWith (· = .insertBlock x y) ∨ c.rest.succeeded = true ∧
      (s.shared.rel x y = some 2 ∨ ∃ r ∈ s.later k, r.removes a b = true)

theorem RaceInv.respected {s : RelationshipCalls} (h : RaceInv a b s) : Respected a b s where
  symmetric := h.coherent.symmetric
  inForce := by
    intro k c x y body hc hreq hpair hsucceeded hnone
    rcases h.blocks k c x y body hc hreq hpair with hends | ⟨-, hrow | ⟨r, hr, hremoves⟩⟩
    · exact absurd hends (not_endsWith_of_succeeded hsucceeded)
    · exact hrow
    · rw [hnone r hr] at hremoves
      cases hremoves

/-- a block that is in force stays so, unless the one that deletes it may do so -/
theorem step_block (e : AppError) {s : RelationshipCalls} {o : Move RelationshipRequest} (h : RaceInv a b s)
    (ho : Fine a b s o) {k : ℕ} {c : Call RelationshipRequest Social RelationshipSql AppError}
    (hc : s.calls[k]? = some c) (hblocks : c.request.blocks a b = true) (hsucceeded : c.rest.succeeded = true)
    (hpair : Between x y a b) (hrow : s.shared.rel x y = some 2) :
    (raceStep e s o).shared.rel x y = some 2 ∨ ∃ r ∈ s.later k, r.removes a b = true := by
  by_cases hdelete : ∃ x' y', .deleteRelationship x' y' ∈ s.executes o ∧ Between x' y' a b
  · obtain ⟨x', y', hexecutes, hpair'⟩ := hdelete
    refine .inr (ho _ hexecutes hpair' k ?_ c hc hblocks hsucceeded)
    exact (List.getElem?_eq_some_iff.1 hc).1
  · refine .inl (Calls.inv_step (?_ : ∀ c ∈ s.calls, c.rest.Keeps relate (SparesBlock x y) fun t => t.rel x y = some 2) hrow ?_)
    · exact h.keeps fun w t n t' hw ht hexec => exec_block (relate_eq_ok.1 hexec) hw ht
    · intro w hw x' y' hkind hpair'
      have hsame : Between x' y' a b := hpair'.trans hpair
      rcases hkind with rfl | rfl
      · obtain ⟨hp, hq⟩ := ho _ hw hsame
        rcases hpair with ⟨rfl, rfl⟩ | ⟨rfl, rfl⟩
        · exact hp hrow
        · exact hq hrow
      · exact hdelete ⟨x', y', hw, hsame⟩

theorem raceStep_inv (e : AppError) (hab : a ≠ b) {s : RelationshipCalls} {o : Move RelationshipRequest}
    (ho : Fine a b s o) (h : RaceInv a b s) : RaceInv a b (raceStep e s o) where
  keeps := fun hI => Calls.keeps_step (keeps_handle hI) (h.keeps hI)
  coherent := by
    refine Calls.inv_step (I := fun t => Coherent (t.rel a b) (t.rel b a))
      (?_ : ∀ c ∈ s.calls, c.rest.Keeps relate (AcceptsNoBlock a b) _) h.coherent ?_
    · exact h.keeps fun w t n t' hw ht hexec => exec_coherent hab (relate_eq_ok.1 hexec) hw ht
    · rintro w hw x y rfl hpair
      exact ho _ hw hpair
  blocks := by
    intro k c' x y body hc' hreq hpair
    obtain ⟨r, rfl, rfl⟩ | ⟨c, hc, hcases⟩ := Calls.getElem?_step hc'
    · obtain rfl : r = .block x y body := hreq
      exact .inl endsWith_blockUser
    have hreq' : c.request = .block x y body := by
      rcases hcases with rfl | ⟨-, rfl, -⟩ | ⟨-, rfl⟩ <;> exact hreq
    rcases h.blocks k c x y body hc hreq' hpair with hends | ⟨hsucceeded, hforce⟩
    · rcases hcases with rfl | ⟨-, rfl, hshared⟩ | ⟨-, rfl⟩
      · exact .inl hends
      · rcases endsWith_advance relate hends s.shared with hends' | ⟨hsucceeded, w, n, rfl, hexec⟩
        · exact .inl hends'
        · refine .inr ⟨hsucceeded, .inl ?_⟩
          rw [raceStep, hshared, exec_rel (relate_eq_ok.1 hexec)]
          exact if_pos ⟨rfl, rfl⟩
      · exact .inl (endsWith_interrupt hends e)
    · obtain rfl : c = c' := Option.some.inj ((Calls.getElem?_step_of_succeeded hc hsucceeded).symm.trans hc')
      refine .inr ⟨hsucceeded, ?_⟩
      have hlater : (∃ r ∈ s.later k, r.removes a b = true) → ∃ r ∈ (raceStep e s o).later k, r.removes a b = true := by
        rintro ⟨r, hr, hremoves⟩
        exact ⟨r, Calls.later_subset_step hr, hremoves⟩
      rcases hforce with hrow | hexcuse
      · have hblocks : c.request.blocks a b = true := by
          rw [hreq, RelationshipRequest.blocks]
          exact decide_eq_true hpair
        exact (step_block e h ho hc hblocks hsucceeded hpair hrow).imp_right hlater
      · exact .inr (hlater hexcuse)

/-! ## Runs -/

/-- **In every run of such steps friendship is symmetric, and every block that has succeeded is in force unless a
removal or a block was issued after it.** -/
theorem respected_of_fine (users : Table User.id) (e : AppError) (hab : a ≠ b) {ops : List (Move RelationshipRequest)}
    (hops : Every (raceStep e) (Fine a b) (noCalls users) ops) :
    Respected a b (Core.run (raceStep e) (noCalls users) ops) := by
  refine (run_inv_of_every (I := RaceInv a b) (fun s o ho h => raceStep_inv e hab ho h) ?_ hops).respected
  refine ⟨fun _ c hc => ?_, .inl ⟨.inl rfl, .inl rfl⟩, fun k c x y body hc => ?_⟩
  · cases hc
  · cases hc

/-- user 2 sends a request, which user 1 accepts and then blocks user 2; the acceptance and the block overlap -/
def acceptThenBlock : List (Move RelationshipRequest) :=
  .issue (.create 2 ⟨none, some 1⟩) :: List.replicate 6 (.advance 0) ++
    .issue (.create 1 ⟨none, some 2⟩) :: List.replicate 4 (.advance 1) ++
      [.issue (.block 1 2 ⟨2⟩), .advance 2, .advance 1, .advance 2, .advance 2]

/-- user 2 takes the request back by a block, after the checks of the acceptance and before its UPDATE -/
def blockWithinAccept : List (Move RelationshipRequest) :=
  .issue (.create 2 ⟨none, some 1⟩) :: List.replicate 6 (.advance 0) ++
    .issue (.create 1 ⟨none, some 2⟩) :: List.replicate 4 (.advance 1) ++
      .issue (.block 2 1 ⟨2⟩) :: List.replicate 3 (.advance 2) ++ [.advance 1]

theorem respected_acceptThenBlock :
    Respected 1 2 (Core.run (raceStep (.internal "")) (noCalls adaAndBob) acceptThenBlock) :=
  respected_of_fine adaAndBob (.internal "") (by decide) (by decide)

/-- **All requests have returned success, the last of them a block that is gone: one user has the other for a friend, who
has no row at all.** -/
theorem accepted_over_block :
    let s := Core.run (raceStep (.internal "")) (noCalls adaAndBob) blockWithinAccept
    (∀ c ∈ s.calls, c.rest.succeeded = true) ∧ s.requests.getLast? = some (.block 2 1 ⟨2⟩) ∧
      s.shared.rel 2 1 = some 1 ∧ s.shared.rel 1 2 = none := by
  decide

end Lumiere.Routes
