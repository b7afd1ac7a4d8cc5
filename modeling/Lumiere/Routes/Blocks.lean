/-
Who can lift a block (`lumiere-server/src/routes/users.rs`). `remove_relationship` and `block_user` delete the rows
between two users in both directions, whoever asks, and a block is a row in one of them.

- `createStep_spares`, `removeStep_iff`, `blockStep_iff`: what one request of another user makes of the row of a block.
- `refused_create`, `refused_dm`: what the row stands in the way of.
- `block_stands_iff`: a block stands all along a run of requests by other users exactly if none of them is a removal by
  the blocked user, or a block that it places in turn.
- `unblocked_oneself`: the blocked user deletes the block and sends a request.
-/
import Lumiere.Routes.DirectMessages
import Lumiere.Routes.Relationships

namespace Lumiere.Routes

open Lumiere.Core Lumiere.Core.Prog Lumiere.Models Lumiere.Db

def RelationshipRequest.auth : RelationshipRequest → ℤ
  | .create auth _ | .remove auth _ | .block auth _ _ => auth

/-- the request lifts the block that `v` has placed on `u` -/
def LiftsBlock (u v : ℤ) (s : Social) : RelationshipRequest → Prop
  | .create _ _ => False
  | .remove auth targetId => auth = u ∧ targetId = v
  | .block auth targetId body => auth = u ∧ targetId = v ∧ Blockable s auth targetId body

instance (u v : ℤ) (s : Social) (r : RelationshipRequest) : Decidable (LiftsBlock u v s r) := by
  cases r <;> unfold LiftsBlock <;> infer_instance

variable {s s' : Social} {u v auth targetId : ℤ} {n : ℕ}

/-! ## One request -/

theorem createStep_spares (hblock : s.rel v u = some 2) (body : CreateRelationshipRequest) :
    (relationshipStep s (.create auth body)).rel v u = some 2 := by
  rcases createStep_cases s auth body with hsame | ⟨targetId, n, _, _, hfree, hwrite⟩
  · rw [hsame]
    exact hblock
  · -- the statement is not about this pair, or the checks would have found the block
    have hpair : ¬ Between auth targetId v u := by
      intro hpair
      rcases hwrite with ⟨hincoming, -⟩ | hinsert
      · rcases hpair with ⟨rfl, rfl⟩ | ⟨rfl, rfl⟩
        · rw [hblock] at hincoming
          cases hincoming
        · exact hfree hblock
      · have hvacant := exec_vacant hinsert
        simp only [RelationshipSql.vacant, List.forall_mem_cons] at hvacant
        rcases hpair with ⟨rfl, rfl⟩ | ⟨rfl, rfl⟩
        · rw [hblock] at hvacant
          cases hvacant.1
        · rw [hblock] at hvacant
          cases hvacant.2.1
    rcases hwrite with ⟨-, haccept⟩ | hinsert
    · rw [exec_rel_of_not_between haccept hpair]
      exact hblock
    · rw [exec_rel_of_not_between hinsert hpair]
      exact hblock

/-- a deletion by another user than the blocker -/
theorem delete_block (hauth : auth ≠ v) (hblock : s.rel v u = some 2)
    (h : (RelationshipSql.deleteRelationship auth targetId).exec s = .ok (n, s')) :
    s'.rel v u = if auth = u ∧ targetId = v then none else some 2 := by
  rw [exec_rel h, RelationshipSql.after, hblock]
  refine if_congr ?_ rfl rfl
  constructor
  · intro hpair
    rcases hpair with ⟨hv, -⟩ | ⟨hv, hu⟩
    · exact absurd hv.symm hauth
    · exact ⟨hu.symm, hv.symm⟩
  · rintro ⟨hu, hv⟩
    exact .inr ⟨hv.symm, hu.symm⟩

theorem removeStep_iff (hauth : auth ≠ v) (hblock : s.rel v u = some 2) :
    (relationshipStep s (.remove auth targetId)).rel v u = some 2 ↔ ¬ (auth = u ∧ targetId = v) := by
  obtain ⟨n, hdelete⟩ := removeStep s auth targetId
  rw [delete_block hauth hblock hdelete]
  split_ifs with h <;> simp [h]

theorem blockStep_iff {body : BlockRequest} (hauth : auth ≠ v) (hblock : s.rel v u = some 2) :
    (relationshipStep s (.block auth targetId body)).rel v u = some 2 ↔
      ¬ (auth = u ∧ targetId = v ∧ Blockable s auth targetId body) := by
  rcases blockStep_cases s auth targetId body with ⟨hnot, hsame⟩ | ⟨hblockable, n₁, s₁, hdelete, hrest⟩
  · rw [hsame]
    exact iff_of_true hblock fun h => hnot h.2.2
  · -- the new block is a row of the user who places it
    have hrel : (relationshipStep s (.block auth targetId body)).rel v u = s₁.rel v u := by
      rcases hrest with hsame | ⟨n₂, hinsert⟩
      · rw [hsame]
      · rw [exec_rel hinsert, RelationshipSql.after, if_neg fun h => hauth h.1.symm]
    rw [hrel, delete_block hauth hblock hdelete]
    split_ifs with h
    · exact iff_of_false (by simp) fun h' => h' ⟨h.1, h.2, hblockable⟩
    · exact iff_of_true rfl fun h' => h ⟨h'.1, h'.2.1⟩

theorem relationshipStep_block {r : RelationshipRequest} (hauth : r.auth ≠ v) (hblock : s.rel v u = some 2) :
    (relationshipStep s r).rel v u = some 2 ↔ ¬ LiftsBlock u v s r := by
  cases r with
  | create auth body => exact iff_of_true (createStep_spares hblock body) fun h => h
  | remove auth targetId => exact removeStep_iff hauth hblock
  | block auth targetId body => exact blockStep_iff hauth hblock

/-! ## What the block stands in the way of -/

/-- a request of the blocked user to be friends is refused -/
theorem refused_create (hblock : s.rel v u = some 2) {body : CreateRelationshipRequest}
    (htarget : ((resolveTarget body).run relate s).1 = .ok v) :
    ∃ e, (createRelationship u body).run relate s = (.error e, s) := by
  rcases hchecks : (createRelationshipChecks u body).run relate s with ⟨e | ⟨target, incoming⟩, s₁⟩
  · obtain rfl := readOnly_createRelationshipChecks.eq_of_run hchecks
    exact ⟨e, run_bind_of_error hchecks⟩
  · obtain ⟨htarget', -, hfree, -⟩ := createRelationshipChecks_eq_ok hchecks
    rw [htarget, Except.ok.injEq] at htarget'
    rw [← htarget'] at hfree
    exact absurd hblock hfree

/-- a direct message of the blocked user is refused -/
theorem refused_dm {db : DmDb} (hrel : db.relationships = s.relationships) (huv : u ≠ v) (hblock : s.rel v u = some 2)
    (channelId : ℤ) (now : DateTime) {body : CreateDmRequest} (hbody : body.ids = .ok [v]) :
    (createDmChannel u channelId now body).run dmStatement db =
      (.error (.forbidden "Cannot send DM to this user"), db) := by
  have hids : dmRecipientIds u body = .ok [v] := by
    rw [dmRecipientIds, bind_eq_ok]
    exact ⟨[v], hbody, by simp [Ne.symm huv]⟩
  have hblocked : (db.relationships.any fun r => r.userId = v && r.targetId = u && r.type = 2) = true := by
    rw [hrel]
    exact isRelated_iff.2 hblock
  have hfind : (findDm u [v]).run dmStatement db = (.error (.forbidden "Cannot send DM to this user"), db) := by
    rw [findDm, run_bind_of_ok (run_select _), hblocked]
    rfl
  have hlist : (ofExcept (.ok [v]) : DmHandler (List ℤ)).run dmStatement db = (.ok [v], db) := rfl
  rw [createDmChannel, hids, run_bind_of_ok hlist]
  exact run_bind_of_error hfind

/-- the block is there, and the blocked user can neither be a friend of the blocker nor write to it -/
structure BlockStands (u v : ℤ) (s : Social) : Prop where
  row : s.rel v u = some 2
  friends : ∀ body, ((resolveTarget body).run relate s).1 = .ok v →
    ∃ e, (createRelationship u body).run relate s = (.error e, s)
  dm : ∀ db : DmDb, db.relationships = s.relationships → ∀ channelId now body, body.ids = .ok [v] →
    (createDmChannel u channelId now body).run dmStatement db =
      (.error (.forbidden "Cannot send DM to this user"), db)

theorem blockStands_iff (hs : Consistent s) : BlockStands u v s ↔ s.rel v u = some 2 := by
  constructor
  · exact BlockStands.row
  · intro hblock
    have huv : u ≠ v := by
      intro huv
      rw [huv, hs.irreflexive] at hblock
      cases hblock
    exact ⟨hblock, fun body => refused_create hblock, fun db hrel channelId now body =>
      refused_dm hrel huv hblock channelId now⟩

/-! ## Runs -/

/-- **A block stands through the requests of others exactly if the blocked user neither removes it nor blocks.** -/
theorem block_stands_iff (users : Table User.id) (past rs : List RelationshipRequest) (u v : ℤ)
    (hblock : (run relationshipStep (noRelationships users) past).rel v u = some 2) (hothers : ∀ r ∈ rs, r.auth ≠ v) :
    (∀ l, l <+: rs → BlockStands u v (run relationshipStep (run relationshipStep (noRelationships users) past) l)) ↔
      Every relationshipStep (fun s r => ¬ LiftsBlock u v s r)
        (run relationshipStep (noRelationships users) past) rs := by
  have hstep : ∀ r ∈ rs, ∀ s : Social, s.rel v u = some 2 →
      ((relationshipStep s r).rel v u = some 2 ↔ ¬ LiftsBlock u v s r) := by
    intro r hr s hs
    exact relationshipStep_block (hothers r hr) hs
  rw [← every_iff_prefixes hstep hblock]
  refine forall_congr' fun l => imp_congr_right fun _ => blockStands_iff ?_
  rw [← run_append]
  exact run_inv (I := Consistent) (fun _ r h => relationshipStep_consistent h r) (noRelationships_consistent users) _

/-! ## A block -/

/-- user 1 blocks user 2 -/
def adaBlocks : List RelationshipRequest := [.block 1 2 ⟨2⟩]

def blockUsers : Table User.id := ⟨[dmUser 1, dmUser 2], by decide⟩

theorem block_stands_iff_adaBlocks :
    Every relationshipStep (fun s r => ¬ LiftsBlock 2 1 s r)
        (run relationshipStep (noRelationships blockUsers) adaBlocks) [.create 2 ⟨none, some 1⟩] ∧
      BlockStands 2 1 (run relationshipStep (noRelationships blockUsers) (adaBlocks ++ [.create 2 ⟨none, some 1⟩])) := by
  have hevery : Every relationshipStep (fun s r => ¬ LiftsBlock 2 1 s r)
      (run relationshipStep (noRelationships blockUsers) adaBlocks) [.create 2 ⟨none, some 1⟩] := by
    decide
  have hall := (block_stands_iff blockUsers adaBlocks [.create 2 ⟨none, some 1⟩] 2 1 (by decide) (by decide)).2 hevery
  exact ⟨hevery, hall _ List.prefix_rfl⟩

/-- **The blocked user removes the block, and its request to be friends goes through.** -/
theorem unblocked_oneself :
    let s := run relationshipStep (noRelationships blockUsers) adaBlocks
    s.rel 1 2 = some 2 ∧
      (relationshipStep s (.remove 2 1)).rel 1 2 = none ∧
      ((createRelationship 2 ⟨none, some 1⟩).run relate (relationshipStep s (.remove 2 1))).1.isOk = true ∧
      (relationshipStep s (.block 2 1 ⟨2⟩)).rel 1 2 = none := by
  decide

end Lumiere.Routes
