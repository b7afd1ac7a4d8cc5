/-
Friends and blocks (`lumiere-server/src/routes/users.rs`). Every statement commits on its own.

- `relationshipStep`: a request, alone. `relationshipStep_cases`: what it can have done.
- `Standing`: the six ways in which two users can stand.
- `relationships_consent`: two users always stand in one of them, and friends have both asked for it.
-/
import Lumiere.Core.Run
import Lumiere.Db.Relationships
import Lumiere.Routes.Access

namespace Lumiere.Routes

open Lumiere.Core Lumiere.Core.Prog Lumiere.Models Lumiere.Db

/-! ## Handlers -/

abbrev SocialHandler := Prog Social RelationshipSql AppError

/-- a statement as the handlers see it -/
def relate (w : RelationshipSql) (s : Social) : Except AppError (ℕ × Social) :=
  match w.exec s with
  | .ok r => .ok r
  | .error e => .error (dbErr e)

theorem relate_eq_ok {w : RelationshipSql} {s : Social} {r : ℕ × Social} : relate w s = .ok r ↔ w.exec s = .ok r := by
  rw [relate]
  rcases w.exec s with e | r' <;> simp

structure CreateRelationshipRequest where
  username : Option String
  userId : Option ℤ
deriving DecidableEq, Repr

def resolveTarget (body : CreateRelationshipRequest) : SocialHandler ℤ :=
  match body.userId, body.username with
  | some userId, _ => pure userId
  | none, some username => do
    let row ← select fun s => s.users.find? fun u => u.username = username && u.deletedAt.isNone
    let user ← orFail (.notFound "User not found") row
    pure user.id
  | none, none => fail (.badRequest "Must provide username or user_id")

def requireUser (targetId : ℤ) : SocialHandler Unit := do
  let targetExists ← select fun s => s.users.any fun u => u.id = targetId && u.deletedAt.isNone
  failIf (!targetExists) (.notFound "User not found")

/-- the target, and whether it has sent a request -/
def createRelationshipChecks (auth : ℤ) (body : CreateRelationshipRequest) : SocialHandler (ℤ × Bool) := do
  let targetId ← resolveTarget body
  failIf (targetId = auth) (.badRequest "Cannot send friend request to yourself")
  when body.userId.isSome (requireUser targetId)
  let blocked ← select fun s => s.isRelated targetId auth 2
  failIf blocked (.badRequest "Cannot send friend request to this user")
  let weBlocked ← select fun s => s.isRelated auth targetId 2
  failIf weBlocked (.badRequest "You have blocked this user. Unblock them first.")
  let incoming ← select fun s => s.isRelated auth targetId 3
  pure (targetId, incoming)

def acceptOrRequest (auth targetId : ℤ) (incoming : Bool) : SocialHandler Unit :=
  if incoming then execute (.acceptRequest auth targetId)
  else do
    let existing ← select fun s => s.relationships.any fun r => r.userId = auth && r.targetId = targetId
    failIf existing (.alreadyExists "Relationship already exists")
    execute (.insertRequest auth targetId)

def createRelationship (auth : ℤ) (body : CreateRelationshipRequest) : SocialHandler Unit := do
  let (targetId, incoming) ← createRelationshipChecks auth body
  acceptOrRequest auth targetId incoming

def removeRelationship (auth targetId : ℤ) : SocialHandler Unit := do
  let rowsAffected ← affected (.deleteRelationship auth targetId)
  failIf (rowsAffected = 0) (.notFound "Relationship not found")

structure BlockRequest where
  type : ℤ
deriving DecidableEq, Repr

def blockUser (auth targetId : ℤ) (body : BlockRequest) : SocialHandler Unit := do
  failIf (body.type ≠ 2) (.badRequest "Only type 2 (block) is supported via PUT")
  failIf (targetId = auth) (.badRequest "Cannot block yourself")
  requireUser targetId
  execute (.deleteRelationship auth targetId)
  execute (.insertBlock auth targetId)

/-! ## Requests one at a time -/

inductive RelationshipRequest where
  | create (auth : ℤ) (body : CreateRelationshipRequest)
  | remove (auth targetId : ℤ)
  | block (auth targetId : ℤ) (body : BlockRequest)
deriving DecidableEq, Repr

def RelationshipRequest.handle : RelationshipRequest → SocialHandler Unit
  | .create auth body => createRelationship auth body
  | .remove auth targetId => removeRelationship auth targetId
  | .block auth targetId body => blockUser auth targetId body

def relationshipStep (s : Social) (r : RelationshipRequest) : Social := (r.handle.run relate s).2

/-- `a` sends or accepts a request to `b`, with success -/
def Befriends (a b : ℤ) (s : Social) (r : RelationshipRequest) : Prop :=
  ∃ body, r = .create a body ∧ ((resolveTarget body).run relate s).1 = .ok b ∧
    ((createRelationship a body).run relate s).1 = .ok ()

variable {s s' : Social} {auth targetId : ℤ} {body : CreateRelationshipRequest}

theorem readOnly_resolveTarget : (resolveTarget body).ReadOnly := by
  rw [resolveTarget]
  split
  · exact issues_pure _
  · exact issues_bind (issues_select _) fun _ => issues_bind (issues_orFail _ _) fun _ => issues_pure _
  · exact issues_fail _

theorem readOnly_requireUser : (requireUser targetId).ReadOnly := issues_bind (issues_select _) fun _ => issues_failIf _ _

theorem readOnly_createRelationshipChecks : (createRelationshipChecks auth body).ReadOnly :=
  issues_bind readOnly_resolveTarget fun _ => issues_bind (issues_failIf _ _) fun _ =>
    issues_bind (issues_when fun _ => readOnly_requireUser) fun _ =>
      issues_bind (issues_select _) fun _ => issues_bind (issues_failIf _ _) fun _ =>
        issues_bind (issues_select _) fun _ => issues_bind (issues_failIf _ _) fun _ =>
          issues_bind (issues_select _) fun _ => issues_pure _

/-- what the checks have found out -/
theorem createRelationshipChecks_eq_ok {incoming : Bool}
    (h : (createRelationshipChecks auth body).run relate s = (.ok (targetId, incoming), s')) :
    ((resolveTarget body).run relate s).1 = .ok targetId ∧ auth ≠ targetId ∧ s.rel targetId auth ≠ some 2 ∧
      s.rel auth targetId ≠ some 2 ∧ (incoming = true ↔ s.rel auth targetId = some 3) := by
  obtain ⟨t, s₁, htarget, h₁⟩ := run_bind_eq_ok.1 h
  obtain rfl := readOnly_resolveTarget.eq_of_run htarget
  obtain ⟨_, s₂, hself, h₂⟩ := run_bind_eq_ok.1 h₁
  obtain ⟨hne, rfl⟩ := failIf_eq_ok.1 hself
  obtain ⟨_, s₃, hexists, h₃⟩ := run_bind_eq_ok.1 h₂
  obtain rfl := ReadOnly.eq_of_run (issues_when fun _ => readOnly_requireUser) hexists
  rw [run_bind_of_ok (run_select _)] at h₃
  obtain ⟨_, s₄, hblocked, h₄⟩ := run_bind_eq_ok.1 h₃
  obtain ⟨hnot, rfl⟩ := failIf_eq_ok.1 hblocked
  rw [run_bind_of_ok (run_select _)] at h₄
  obtain ⟨_, s₅, hweBlocked, h₅⟩ := run_bind_eq_ok.1 h₄
  obtain ⟨hweNot, rfl⟩ := failIf_eq_ok.1 hweBlocked
  rw [run_bind_of_ok (run_select _), run_pure, Prod.mk.injEq, Except.ok.injEq, Prod.mk.injEq] at h₅
  obtain ⟨⟨rfl, rfl⟩, rfl⟩ := h₅
  rw [htarget]
  exact ⟨rfl, Ne.symm hne, fun hrel => hnot (isRelated_iff.2 hrel), fun hrel => hweNot (isRelated_iff.2 hrel),
    isRelated_iff⟩

/-- the last statement of `create_relationship` is its only write -/
theorem run_acceptOrRequest (s : Social) (auth targetId : ℤ) (incoming : Bool) :
    (∃ e, (acceptOrRequest auth targetId incoming).run relate s = (.error e, s)) ∨
      ∃ n s', (acceptOrRequest auth targetId incoming).run relate s = (.ok (), s') ∧
        (incoming = true ∧ (RelationshipSql.acceptRequest auth targetId).exec s = .ok (n, s') ∨
          (RelationshipSql.insertRequest auth targetId).exec s = .ok (n, s')) := by
  cases incoming with
  | true =>
    rcases run_execute_cases relate (.acceptRequest auth targetId) s with ⟨n, s', hexec, hrun⟩ | ⟨e, hrun⟩
    · exact .inr ⟨n, s', hrun, .inl ⟨rfl, relate_eq_ok.1 hexec⟩⟩
    · exact .inl ⟨e, hrun⟩
  | false =>
    rw [acceptOrRequest, if_neg Bool.false_ne_true, run_bind_of_ok (run_select _), run_bind, run_failIf]
    split_ifs
    · exact .inl ⟨_, rfl⟩
    · rcases run_execute_cases relate (.insertRequest auth targetId) s with ⟨n, s', hexec, hrun⟩ | ⟨e, hrun⟩
      · exact .inr ⟨n, s', hrun, .inr (relate_eq_ok.1 hexec)⟩
      · exact .inl ⟨e, hrun⟩

/-- what `create_relationship` can have done -/
theorem createStep_cases (s : Social) (auth : ℤ) (body : CreateRelationshipRequest) :
    relationshipStep s (.create auth body) = s ∨
      ∃ targetId n, auth ≠ targetId ∧ Befriends auth targetId s (.create auth body) ∧ s.rel targetId auth ≠ some 2 ∧
        (s.rel auth targetId = some 3 ∧ (RelationshipSql.acceptRequest auth targetId).exec s =
            .ok (n, relationshipStep s (.create auth body)) ∨
          (RelationshipSql.insertRequest auth targetId).exec s = .ok (n, relationshipStep s (.create auth body))) := by
  rw [relationshipStep, RelationshipRequest.handle]
  rcases hchecks : (createRelationshipChecks auth body).run relate s with ⟨e | ⟨targetId, incoming⟩, s₁⟩
  · obtain rfl := readOnly_createRelationshipChecks.eq_of_run hchecks
    rw [createRelationship, run_bind_of_error hchecks]
    exact .inl rfl
  · obtain rfl := readOnly_createRelationshipChecks.eq_of_run hchecks
    obtain ⟨htarget, hne, hblocked, -, hincoming⟩ := createRelationshipChecks_eq_ok hchecks
    have hcreate : (createRelationship auth body).run relate s₁ =
        (acceptOrRequest auth targetId incoming).run relate s₁ := run_bind_of_ok hchecks
    rcases run_acceptOrRequest s₁ auth targetId incoming with ⟨e, hrun⟩ | ⟨n, s', hrun, hwrite⟩
    · rw [hcreate, hrun]
      exact .inl rfl
    · rw [hcreate, hrun]
      refine .inr ⟨targetId, n, hne, ⟨body, rfl, htarget, by rw [hcreate, hrun]⟩, hblocked, ?_⟩
      exact hwrite.imp_left (And.imp_left hincoming.1)

/-- `remove_relationship` deletes before it looks at what it has deleted -/
theorem removeStep (s : Social) (auth targetId : ℤ) :
    ∃ n, (RelationshipSql.deleteRelationship auth targetId).exec s =
      .ok (n, relationshipStep s (.remove auth targetId)) := by
  refine ⟨s.relationships.count (Relationship.isBetween auth targetId), ?_⟩
  rw [relationshipStep, RelationshipRequest.handle, removeRelationship, run_bind_of_ok (affected_eq_ok.2 rfl), run_failIf]
  rfl

/-- `block_user` gets past its checks -/
def Blockable (s : Social) (auth targetId : ℤ) (body : BlockRequest) : Prop :=
  body.type = 2 ∧ targetId ≠ auth ∧ (s.users.any fun u => u.id = targetId && u.deletedAt.isNone) = true

instance (s : Social) (auth targetId : ℤ) (body : BlockRequest) : Decidable (Blockable s auth targetId body) :=
  inferInstanceAs (Decidable (_ ∧ _ ∧ _))

/-- what `block_user` can have done -/
theorem blockStep_cases (s : Social) (auth targetId : ℤ) (body : BlockRequest) :
    ¬ Blockable s auth targetId body ∧ relationshipStep s (.block auth targetId body) = s ∨
      Blockable s auth targetId body ∧ ∃ n₁ s₁,
        (RelationshipSql.deleteRelationship auth targetId).exec s = .ok (n₁, s₁) ∧
          (relationshipStep s (.block auth targetId body) = s₁ ∨ ∃ n₂,
            (RelationshipSql.insertBlock auth targetId).exec s₁ =
              .ok (n₂, relationshipStep s (.block auth targetId body))) := by
  rw [relationshipStep, RelationshipRequest.handle, blockUser, run_bind, run_failIf]
  split_ifs with htype
  · exact .inl ⟨fun h => htype h.1, rfl⟩
  dsimp only
  rw [run_bind, run_failIf]
  split_ifs with hself
  · exact .inl ⟨fun h => h.2.1 hself, rfl⟩
  dsimp only
  rw [requireUser, bind_bind, run_bind_of_ok (run_select _), run_bind, run_failIf]
  split_ifs with hexists
  · refine .inl ⟨fun h => ?_, rfl⟩
    rw [h.2.2] at hexists
    cases hexists
  dsimp only
  refine .inr ⟨⟨not_not.1 htype, hself, by simpa using hexists⟩, ?_⟩
  rcases run_execute_cases relate (.deleteRelationship auth targetId) s with ⟨n₁, s₁, hdelete, hrun⟩ | ⟨e, hrun⟩
  · rw [run_bind_of_ok hrun]
    refine ⟨n₁, s₁, relate_eq_ok.1 hdelete, ?_⟩
    rcases run_execute_cases relate (.insertBlock auth targetId) s₁ with ⟨n₂, s₂, hinsert, hrun⟩ | ⟨e, hrun⟩
    · rw [hrun]
      exact .inr ⟨n₂, relate_eq_ok.1 hinsert⟩
    · rw [hrun]
      exact .inl rfl
  · cases hrun

/-- what a request can have done -/
theorem relationshipStep_cases (s : Social) (r : RelationshipRequest) :
    relationshipStep s r = s ∨
      (∃ auth targetId n, auth ≠ targetId ∧ Befriends auth targetId s r ∧ s.rel targetId auth ≠ some 2 ∧
        (s.rel auth targetId = some 3 ∧
            (RelationshipSql.acceptRequest auth targetId).exec s = .ok (n, relationshipStep s r) ∨
          (RelationshipSql.insertRequest auth targetId).exec s = .ok (n, relationshipStep s r))) ∨
      (∃ auth targetId n,
        (RelationshipSql.deleteRelationship auth targetId).exec s = .ok (n, relationshipStep s r)) ∨
      ∃ auth targetId n₁ n₂ s₁, auth ≠ targetId ∧
        (RelationshipSql.deleteRelationship auth targetId).exec s = .ok (n₁, s₁) ∧
          (RelationshipSql.insertBlock auth targetId).exec s₁ = .ok (n₂, relationshipStep s r) := by
  cases r with
  | create auth body =>
    rcases createStep_cases s auth body with hsame | ⟨targetId, n, h⟩
    · exact .inl hsame
    · exact .inr (.inl ⟨auth, targetId, n, h⟩)
  | remove auth targetId =>
    obtain ⟨n, hdelete⟩ := removeStep s auth targetId
    exact .inr (.inr (.inl ⟨auth, targetId, n, hdelete⟩))
  | block auth targetId body =>
    rcases blockStep_cases s auth targetId body with ⟨-, hsame⟩ | ⟨hblockable, n₁, s₁, hdelete, hrest⟩
    · exact .inl hsame
    · rcases hrest with hsame | ⟨n₂, hinsert⟩
      · rw [← hsame] at hdelete
        exact .inr (.inr (.inl ⟨auth, targetId, n₁, hdelete⟩))
      · exact .inr (.inr (.inr ⟨auth, targetId, n₁, n₂, s₁, hblockable.2.1.symm, hdelete, hinsert⟩))

/-! ## Two users -/

/-- how a user stands to another -/
inductive Standing where
  | strangers
  | requesting
  | requested
  | friends
  | blocking
  | blocked
deriving DecidableEq, Repr

/-- the row to the other user, and the row back -/
def Standing.rows : Standing → Option ℤ × Option ℤ
  | .strangers => (none, none)
  | .requesting => (some 4, some 3)
  | .requested => (some 3, some 4)
  | .friends => (some 1, some 1)
  | .blocking => (some 2, none)
  | .blocked => (none, some 2)

def Standing.flip : Standing → Standing
  | .requesting => .requested
  | .requested => .requesting
  | .blocking => .blocked
  | .blocked => .blocking
  | st => st

theorem Standing.rows_flip (st : Standing) : st.flip.rows = st.rows.swap := by
  cases st <;> rfl

structure Consistent (s : Social) : Prop where
  irreflexive : ∀ a, s.rel a a = none
  standing : ∀ a b, a ≠ b → ∃ st : Standing, st.rows = (s.rel a b, s.rel b a)

/-- a request that has arrived has been sent -/
theorem Consistent.sent {a b : ℤ} (h : Consistent s) (hab : a ≠ b) (hincoming : s.rel a b = some 3) :
    s.rel b a = some 4 := by
  obtain ⟨st, hst⟩ := h.standing a b hab
  rw [hincoming] at hst
  cases st with
  | requested => exact (Prod.mk.inj hst).2.symm
  | _ => cases (Prod.mk.inj hst).1

theorem Consistent.friends {a b : ℤ} (h : Consistent s) (hab : a ≠ b) (hfriends : s.rel a b = some 1) :
    s.rel b a = some 1 := by
  obtain ⟨st, hst⟩ := h.standing a b hab
  rw [hfriends] at hst
  cases st with
  | friends => exact (Prod.mk.inj hst).2.symm
  | _ => cases (Prod.mk.inj hst).1

/-- one pair of users stands anew, all others as before -/
theorem Consistent.of_pair {x y : ℤ} (h : Consistent s) (hxy : x ≠ y)
    (hother : ∀ a b, ¬ Between x y a b → s'.rel a b = s.rel a b) (st : Standing)
    (hst : st.rows = (s'.rel x y, s'.rel y x)) : Consistent s' := by
  constructor
  · intro a
    have hself : ¬ Between x y a a := by
      rintro (⟨rfl, h⟩ | ⟨h, rfl⟩)
      · exact hxy h
      · exact hxy h
    rw [hother a a hself]
    exact h.irreflexive a
  · intro a b hab
    by_cases hpair : Between x y a b
    · rcases hpair with ⟨rfl, rfl⟩ | ⟨rfl, rfl⟩
      · exact ⟨st, hst⟩
      · exact ⟨st.flip, by rw [st.rows_flip, hst, Prod.swap]⟩
    · rw [hother a b hpair, hother b a fun hpair' => hpair hpair'.symm]
      exact h.standing a b hab

theorem delete_consistent {x y : ℤ} {n : ℕ} (h : Consistent s)
    (hexec : (RelationshipSql.deleteRelationship x y).exec s = .ok (n, s')) : Consistent s' := by
  have hrel := exec_rel hexec
  simp only [RelationshipSql.after] at hrel
  constructor
  · intro a
    rw [hrel]
    split_ifs
    · rfl
    · exact h.irreflexive a
  · intro a b hab
    rw [hrel, hrel]
    by_cases hpair : Between x y a b
    · rw [if_pos hpair, if_pos hpair.symm]
      exact ⟨.strangers, rfl⟩
    · rw [if_neg hpair, if_neg fun hpair' => hpair hpair'.symm]
      exact h.standing a b hab

theorem relationshipStep_consistent (h : Consistent s) (r : RelationshipRequest) : Consistent (relationshipStep s r) := by
  rcases relationshipStep_cases s r with hsame | ⟨auth, targetId, n, hne, -, -, ⟨hincoming, haccept⟩ | hrequest⟩ |
    ⟨auth, targetId, n, hdelete⟩ | ⟨auth, targetId, n₁, n₂, s₁, hne, hdelete, hblock⟩
  · rw [hsame]
    exact h
  · have hsent := h.sent hne hincoming
    refine h.of_pair hne (fun _ _ => exec_rel_of_not_between haccept) .friends ?_
    rw [exec_rel haccept, exec_rel haccept]
    simp [RelationshipSql.after, Standing.rows, Between, hincoming, hsent]
  · refine h.of_pair hne (fun _ _ => exec_rel_of_not_between hrequest) .requesting ?_
    rw [exec_rel hrequest, exec_rel hrequest]
    simp [RelationshipSql.after, Standing.rows, hne, Ne.symm hne]
  · exact delete_consistent h hdelete
  · have hback : s₁.rel targetId auth = none := by
      rw [exec_rel hdelete]
      exact if_pos (.inr ⟨rfl, rfl⟩)
    refine (delete_consistent h hdelete).of_pair hne (fun _ _ => exec_rel_of_not_between hblock) .blocking ?_
    rw [exec_rel hblock, exec_rel hblock]
    simp [RelationshipSql.after, Standing.rows, hne, hback]

/-! ## Consent -/

/-- `a` has asked `b` to be friends -/
def Asked (a b : ℤ) (s : Social) : Prop := s.rel a b = some 4 ∨ s.rel a b = some 1

/-- only `a` asks for `a` -/
theorem relationshipStep_asked {a b : ℤ} (h : Consistent s) (hab : a ≠ b) {r : RelationshipRequest}
    (hasked : Asked a b (relationshipStep s r)) : Asked a b s ∨ Befriends a b s r := by
  rcases relationshipStep_cases s r with hsame | ⟨auth, targetId, n, hne, hbefriends, -, ⟨hincoming, haccept⟩ | hrequest⟩ |
    ⟨auth, targetId, n, hdelete⟩ | ⟨auth, targetId, n₁, n₂, s₁, hne, hdelete, hblock⟩
  · rw [hsame] at hasked
    exact .inl hasked
  · by_cases hpair : Between auth targetId a b
    · rcases hpair with ⟨rfl, rfl⟩ | ⟨rfl, rfl⟩
      · exact .inr hbefriends
      · exact .inl (.inl (h.sent hne hincoming))
    · rw [Asked, exec_rel_of_not_between haccept hpair] at hasked
      exact .inl hasked
  · by_cases hpair : Between auth targetId a b
    · rcases hpair with ⟨rfl, rfl⟩ | ⟨rfl, rfl⟩
      · exact .inr hbefriends
      · rw [Asked, exec_rel hrequest] at hasked
        simp [RelationshipSql.after, hab] at hasked
    · rw [Asked, exec_rel_of_not_between hrequest hpair] at hasked
      exact .inl hasked
  · rw [Asked, exec_rel hdelete, RelationshipSql.after] at hasked
    split_ifs at hasked
    · simp at hasked
    · exact .inl hasked
  · rw [Asked, exec_rel hblock, RelationshipSql.after] at hasked
    split_ifs at hasked
    · simp at hasked
    · rw [exec_rel hdelete, RelationshipSql.after] at hasked
      split_ifs at hasked
      · simp at hasked
      · exact .inl hasked

def noRelationships (users : Table User.id) : Social := ⟨users, .empty⟩

theorem noRelationships_consistent (users : Table User.id) : Consistent (noRelationships users) :=
  ⟨fun _ => rfl, fun _ _ _ => ⟨.strangers, rfl⟩⟩

/-- **No row relates a user to itself, two users always stand in one of the six ways, and friends have each befriended
the other since any moment at which there was no row between them.** -/
theorem relationships_consent (users : Table User.id) (rs : List RelationshipRequest) :
    let s := run relationshipStep (noRelationships users) rs
    (∀ row ∈ s.relationships.rows, row.userId ≠ row.targetId) ∧
      ∀ a b, a ≠ b → (∃ st : Standing, st.rows = (s.rel a b, s.rel b a)) ∧
        (s.rel a b = some 1 → ∀ l m, rs = l ++ m →
          let s₀ := run relationshipStep (noRelationships users) l
          s₀.rel a b = none → s₀.rel b a = none →
            Occurs relationshipStep (Befriends a b) s₀ m ∧ Occurs relationshipStep (Befriends b a) s₀ m) := by
  intro s
  have hrun : ∀ rs, Consistent (run relationshipStep (noRelationships users) rs) :=
    run_inv (I := Consistent) (fun _ r h => relationshipStep_consistent h r) (noRelationships_consistent users)
  have hs := hrun rs
  refine ⟨fun row hrow hself => ?_, fun a b hab => ⟨hs.standing a b hab, ?_⟩⟩
  · have hrel : s.rel row.userId row.targetId = some row.type := rel_eq_some.2 hrow
    rw [← hself, hs.irreflexive] at hrel
    cases hrel
  · intro hfriends l m hrs s₀ hab₀ hba₀
    have hoccurs : ∀ {x y}, x ≠ y → s₀.rel x y = none → s.rel x y = some 1 →
        Occurs relationshipStep (Befriends x y) s₀ m := by
      intro x y hxy hnone hfriend
      have hend : Asked x y (run relationshipStep s₀ m) := by
        rw [← run_append, ← hrs]
        exact .inr hfriend
      have hstart : ¬ Asked x y s₀ := by simp [Asked, hnone]
      refine (occurs_of_run (I := Consistent) (Q := Asked x y) ?_ ?_ (hrun l) hend).resolve_left hstart
      · intro _ r h
        exact relationshipStep_consistent h r
      · intro _ r h
        exact relationshipStep_asked h hxy
    exact ⟨hoccurs hab hab₀ hfriends, hoccurs hab.symm hba₀ (hs.friends hab hfriends)⟩

end Lumiere.Routes
