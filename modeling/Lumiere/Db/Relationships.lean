/-
The `relationships` table (`migrations/postgres/20260329000001_initial.sql`) and the statements of
`lumiere-server/src/routes/users.rs` that write it. A row relates one user to another and has a type: 1 friend, 2 block,
3 incoming request, 4 outgoing request. `created_at` is left out.

- `Social.rel`: the table as a function, the type of the row from one user to another.
- `exec_rel`: what each statement makes of it.
-/
import Lumiere.Db.Postgres

namespace Lumiere.Db

open Lumiere.Core Lumiere.Models

structure Relationship where
  userId : ℤ
  targetId : ℤ
  type : ℤ
deriving DecidableEq, Repr

def Relationship.key (r : Relationship) : ℤ × ℤ := (r.userId, r.targetId)

structure Social where
  users : Table User.id
  relationships : Table Relationship.key

namespace Social

variable (s : Social)

def hasUser (userId : ℤ) : Bool := s.users.any fun u => u.id = userId

/-- `EXISTS(SELECT 1 FROM relationships WHERE user_id = $1 AND target_id = $2 AND type = ..)` -/
def isRelated (userId targetId type : ℤ) : Bool :=
  s.relationships.any fun r => r.userId = userId && r.targetId = targetId && r.type = type

def rel (userId targetId : ℤ) : Option ℤ :=
  (s.relationships.find? fun r => r.key = (userId, targetId)).map Relationship.type

end Social

/-- the row is one of the two rows between the users -/
def Relationship.isBetween (userId targetId : ℤ) (r : Relationship) : Bool :=
  (r.userId = userId && r.targetId = targetId) || (r.userId = targetId && r.targetId = userId)

/-! ## Statements -/

inductive RelationshipSql where
  /-- `UPDATE relationships SET type = 1`, both rows -/
  | acceptRequest (userId targetId : ℤ)
  /-- `DELETE FROM relationships`, both rows -/
  | deleteRelationship (userId targetId : ℤ)
  /-- `INSERT INTO relationships VALUES ($1, $2, 4), ($2, $1, 3)` -/
  | insertRequest (userId targetId : ℤ)
  /-- `INSERT INTO relationships VALUES ($1, $2, 2)` -/
  | insertBlock (userId targetId : ℤ)
deriving DecidableEq, Repr

/-- the foreign keys of a new row -/
def Social.requiresUsers (s : Social) (userId targetId : ℤ) : Except DbError Unit := do
  requires (.foreignKey "relationships" "relationships_user_id_fkey") (s.hasUser userId)
  requires (.foreignKey "relationships" "relationships_target_id_fkey") (s.hasUser targetId)

/-- `SET type = 1` on both rows -/
def befriend (t : Table Relationship.key) (userId targetId : ℤ) : Table Relationship.key :=
  t.updateWhere (Relationship.isBetween userId targetId) (fun r => { r with type := 1 }) fun _ => rfl

/-- the number of rows affected, and the state afterwards -/
def RelationshipSql.exec (s : Social) : RelationshipSql → Except DbError (ℕ × Social)
  | .acceptRequest userId targetId =>
    .ok (s.relationships.count (Relationship.isBetween userId targetId),
      { s with relationships := befriend s.relationships userId targetId })
  | .deleteRelationship userId targetId =>
    .ok (s.relationships.count (Relationship.isBetween userId targetId),
      { s with relationships := s.relationships.deleteWhere (Relationship.isBetween userId targetId) })
  | .insertRequest userId targetId => do
    let outgoing ← unique "relationships_pkey" s.relationships ⟨userId, targetId, 4⟩
    let relationships ← unique "relationships_pkey" outgoing ⟨targetId, userId, 3⟩
    s.requiresUsers userId targetId
    .ok (2, { s with relationships })
  | .insertBlock userId targetId => do
    let relationships ← unique "relationships_pkey" s.relationships ⟨userId, targetId, 2⟩
    s.requiresUsers userId targetId
    .ok (1, { s with relationships })

/-! ## The table as a function -/

variable {s s' : Social} {n : ℕ} {a b x y t : ℤ}

theorem rel_eq_some : s.rel a b = some t ↔ ⟨a, b, t⟩ ∈ s.relationships := by
  rw [Social.rel, Option.map_eq_some_iff]
  constructor
  · rintro ⟨⟨userId, targetId, type⟩, hfind, rfl⟩
    obtain ⟨hmem, hkey⟩ := Table.find?_key.1 hfind
    obtain ⟨rfl, rfl⟩ := Prod.mk.inj hkey
    exact hmem
  · intro hmem
    exact ⟨_, Table.find?_key.2 ⟨hmem, rfl⟩, rfl⟩

theorem isRelated_iff : s.isRelated a b t = true ↔ s.rel a b = some t := by
  rw [rel_eq_some, Social.isRelated, Table.any_eq_true]
  constructor
  · rintro ⟨⟨userId, targetId, type⟩, hmem, h⟩
    simp only [Bool.and_eq_true, decide_eq_true_eq] at h
    obtain ⟨⟨rfl, rfl⟩, rfl⟩ := h
    exact hmem
  · intro hmem
    exact ⟨_, hmem, by simp⟩

/-- the two users, in either order -/
def Between (x y a b : ℤ) : Prop := a = x ∧ b = y ∨ a = y ∧ b = x

instance : Decidable (Between x y a b) := inferInstanceAs (Decidable (a = x ∧ b = y ∨ a = y ∧ b = x))

theorem isBetween_iff : Relationship.isBetween x y ⟨a, b, t⟩ = true ↔ Between x y a b := by
  simp [Relationship.isBetween, Between]

theorem Between.symm (h : Between x y a b) : Between x y b a := by
  rcases h with ⟨rfl, rfl⟩ | ⟨rfl, rfl⟩
  · exact .inr ⟨rfl, rfl⟩
  · exact .inl ⟨rfl, rfl⟩

theorem Between.trans {x' y' : ℤ} (h : Between x' y' x y) (h' : Between x y a b) : Between x' y' a b := by
  rcases h' with ⟨rfl, rfl⟩ | ⟨rfl, rfl⟩
  · exact h
  · exact h.symm

/-- what a statement that succeeds makes of the types -/
def RelationshipSql.after (rel : ℤ → ℤ → Option ℤ) (a b : ℤ) : RelationshipSql → Option ℤ
  | .acceptRequest x y => if Between x y a b then (rel a b).map fun _ => 1 else rel a b
  | .deleteRelationship x y => if Between x y a b then none else rel a b
  | .insertRequest x y => if a = x ∧ b = y then some 4 else if a = y ∧ b = x then some 3 else rel a b
  | .insertBlock x y => if a = x ∧ b = y then some 2 else rel a b

/-- the two users of the rows that the statement writes -/
def RelationshipSql.users : RelationshipSql → ℤ × ℤ
  | .acceptRequest x y | .deleteRelationship x y | .insertRequest x y | .insertBlock x y => (x, y)

theorem after_of_not_between {w : RelationshipSql} {rel : ℤ → ℤ → Option ℤ} (h : ¬ Between w.users.1 w.users.2 a b) :
    w.after rel a b = rel a b := by
  rw [Between, not_or] at h
  cases w with
  | acceptRequest x y => exact if_neg fun hab => hab.elim h.1 h.2
  | deleteRelationship x y => exact if_neg fun hab => hab.elim h.1 h.2
  | insertRequest x y => exact (if_neg h.1).trans (if_neg h.2)
  | insertBlock x y => exact if_neg h.1

/-- the pairs of which a statement that succeeds finds no row -/
def RelationshipSql.vacant : RelationshipSql → List (ℤ × ℤ)
  | .insertRequest x y => [(x, y), (y, x)]
  | .insertBlock x y => [(x, y)]
  | _ => []

theorem mem_befriend {table : Table Relationship.key} {r : Relationship} :
    r ∈ befriend table x y ↔ ∃ r' ∈ table, (if r'.isBetween x y then { r' with type := 1 } else r') = r :=
  Table.mem_updateWhere

theorem rel_insert {row : Relationship} {t' : Table Relationship.key} (h : s.relationships.insert? row = some t') :
    s.rel row.userId row.targetId = none ∧
      ∀ a b, Social.rel { s with relationships := t' } a b =
        if a = row.userId ∧ b = row.targetId then some row.type else s.rel a b := by
  obtain ⟨hnew, hmem⟩ := Table.insert?_eq_some h
  have hnone : s.rel row.userId row.targetId = none := by
    rw [Option.eq_none_iff_forall_ne_some]
    intro t ht
    exact hnew _ (rel_eq_some.1 ht) rfl
  refine ⟨hnone, fun a b => Option.ext fun t => ?_⟩
  rw [rel_eq_some, hmem]
  split_ifs with hab
  · obtain ⟨rfl, rfl⟩ := hab
    rw [Option.some.injEq]
    constructor
    · rintro (hold | hrow)
      · exact (hnew _ hold rfl).elim
      · rw [← hrow]
    · rintro rfl
      exact .inr rfl
  · rw [rel_eq_some]
    refine or_iff_left ?_
    rintro rfl
    exact hab ⟨rfl, rfl⟩

theorem exec_vacant {w : RelationshipSql} (h : w.exec s = .ok (n, s')) : ∀ p ∈ w.vacant, s.rel p.1 p.2 = none := by
  intro p hp
  cases w with
  | acceptRequest x y => cases hp
  | deleteRelationship x y => cases hp
  | insertRequest x y =>
    simp only [RelationshipSql.exec, bind_eq_ok, unique_eq_ok] at h
    obtain ⟨outgoing, houtgoing, relationships, hincoming, -⟩ := h
    obtain ⟨hnone, hafter⟩ := rel_insert houtgoing
    simp only [RelationshipSql.vacant, List.mem_cons, List.not_mem_nil, or_false] at hp
    rcases hp with rfl | rfl
    · exact hnone
    · have hnone' := (rel_insert (s := { s with relationships := outgoing }) hincoming).1
      rw [hafter] at hnone'
      split_ifs at hnone' with hsame
      exact hnone'
  | insertBlock x y =>
    simp only [RelationshipSql.exec, bind_eq_ok, unique_eq_ok] at h
    obtain ⟨relationships, hinsert, -⟩ := h
    obtain rfl := List.mem_singleton.1 hp
    exact (rel_insert hinsert).1

theorem exec_rel {w : RelationshipSql} (h : w.exec s = .ok (n, s')) (a b : ℤ) : s'.rel a b = w.after s.rel a b := by
  cases w with
  | acceptRequest x y =>
    obtain ⟨-, rfl⟩ := Prod.mk.inj (Except.ok.inj h)
    refine Option.ext fun t => rel_eq_some.trans (mem_befriend.trans ?_)
    rw [RelationshipSql.after]
    split_ifs with hab
    · rw [Option.map_eq_some_iff]
      constructor
      · rintro ⟨⟨userId, targetId, type⟩, hmem, hrow⟩
        split_ifs at hrow with hbetween
        · cases hrow
          exact ⟨type, rel_eq_some.2 hmem, rfl⟩
        · cases hrow
          exact absurd (isBetween_iff.2 hab) hbetween
      · rintro ⟨type, hrel, rfl⟩
        exact ⟨_, rel_eq_some.1 hrel, if_pos (isBetween_iff.2 hab)⟩
    · constructor
      · rintro ⟨⟨userId, targetId, type⟩, hmem, hrow⟩
        split_ifs at hrow with hbetween
        · cases hrow
          exact absurd (isBetween_iff.1 hbetween) hab
        · cases hrow
          exact rel_eq_some.2 hmem
      · intro hrel
        exact ⟨_, rel_eq_some.1 hrel, if_neg fun hbetween => hab (isBetween_iff.1 hbetween)⟩
  | deleteRelationship x y =>
    obtain ⟨-, rfl⟩ := Prod.mk.inj (Except.ok.inj h)
    refine Option.ext fun t => ?_
    rw [rel_eq_some, RelationshipSql.after, Table.mem_deleteWhere, ← rel_eq_some, ← Bool.not_eq_true, isBetween_iff]
    split_ifs with hab <;> simp [hab]
  | insertRequest x y =>
    simp only [RelationshipSql.exec, bind_eq_ok, unique_eq_ok, Except.ok.injEq, Prod.mk.injEq] at h
    obtain ⟨outgoing, houtgoing, relationships, hincoming, _, -, -, rfl⟩ := h
    obtain ⟨hnone, hincoming⟩ := rel_insert (s := { s with relationships := outgoing }) hincoming
    obtain ⟨-, houtgoing⟩ := rel_insert houtgoing
    rw [hincoming a b, RelationshipSql.after, houtgoing a b]
    by_cases hout : a = x ∧ b = y
    · by_cases hin : a = y ∧ b = x
      · -- both rows would have the same key
        obtain ⟨rfl, rfl⟩ := hout
        rw [houtgoing, if_pos ⟨hin.1.symm, hin.2.symm⟩] at hnone
        cases hnone
      · rw [if_neg hin, if_pos hout, if_pos hout]
    · rw [if_neg hout, if_neg hout]
  | insertBlock x y =>
    simp only [RelationshipSql.exec, bind_eq_ok, unique_eq_ok, Except.ok.injEq, Prod.mk.injEq] at h
    obtain ⟨relationships, hinsert, _, -, -, rfl⟩ := h
    exact (rel_insert hinsert).2 a b

/-- the rows of other pairs stay -/
theorem exec_rel_of_not_between {w : RelationshipSql} (h : w.exec s = .ok (n, s'))
    (hab : ¬ Between w.users.1 w.users.2 a b) : s'.rel a b = s.rel a b := by
  rw [exec_rel h, after_of_not_between hab]

end Lumiere.Db
