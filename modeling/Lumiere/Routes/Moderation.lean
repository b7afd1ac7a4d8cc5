/-
Moderation of the owner (`lumiere-server/src/routes/servers.rs`). `kick_member` and `create_ban` refuse the owner as a
target before they compare roles; `update_member` only compares roles, and an owner may hold no role but @everyone.

- `kickMember_owner`, `createBan_owner`: refused, and nothing is written.
- `updateMember_owner_iff`: when an update of the owner is refused and changes nothing.
- `owner_unmoderated_iff`: over runs, the owner is out of reach exactly if no update of the owner gets through.
- `owner_renamed`: a member with a higher role renames the owner.
-/
import Lumiere.Routes.MemberEdits

namespace Lumiere.Routes

open Lumiere.Core Lumiere.Core.Prog Lumiere.Models Lumiere.Db

variable {pg : Postgres} {auth serverId userId : ℤ}

theorem ends_respond {α : Type} {h : Handler α} {Q : Unit → Postgres → Prop} {E : AppError → Postgres → Prop} :
    (respond h).Ends statement pg Q E ↔ h.Ends statement pg (fun _ => Q ()) E := by
  rw [respond, ends_bind]
  exact Iff.rfl

/-! ## The three requests -/

/-- the request fails and leaves the member as it was -/
def LeavesAlone (serverId userId : ℤ) (pg : Postgres) (h : Handler Unit) : Prop :=
  h.Ends statement pg (fun _ _ => False) fun _ pg' => SameMember serverId userId pg pg'

theorem refuseOwner_fails {e : AppError} (howner : pg.isOwner serverId userId = true) :
    (refuseOwner serverId userId e).succeeds statement pg = false := by
  rw [refuseOwner, Prog.succeeds, run_bind_of_ok (run_select _), howner]
  rfl

theorem kickMember_owner (howner : pg.isOwner serverId userId = true) :
    LeavesAlone serverId userId pg (kickMember auth serverId userId) := by
  have hsame : ∀ e : AppError, (fun _ pg' => SameMember serverId userId pg pg') e pg := fun _ => SameMember.refl
  rw [LeavesAlone, kickMember, ends_guarded readOnly_requirePermissions hsame, ends_guarded readOnly_refuseOwner hsame,
    refuseOwner_fails howner]
  intro _ h
  cases h

theorem createBan_owner {reason : Option String} (howner : pg.isOwner serverId userId = true) :
    LeavesAlone serverId userId pg (createBan auth serverId userId reason) := by
  have hsame : ∀ e : AppError, (fun _ pg' => SameMember serverId userId pg pg') e pg := fun _ => SameMember.refl
  rw [LeavesAlone, createBan, ends_guarded readOnly_requirePermissions hsame, ends_guarded readOnly_refuseOwner hsame,
    refuseOwner_fails howner]
  intro _ h
  cases h

/-- nobody who may make the request gets through with it, and what it writes is there already -/
def OwnerOutOfReach (pg : Postgres) (auth serverId userId : ℤ) (body : UpdateMemberRequest) : Prop :=
  MayEdit pg auth serverId userId body → ∀ nickname, body.storedNickname = .ok nickname →
    ¬ Completes pg serverId userId body ∧ Unaffected pg serverId userId body nickname

theorem updateMember_owner_iff {body : UpdateMemberRequest} :
    LeavesAlone serverId userId pg (respond (updateMember auth serverId userId body)) ↔
      OwnerOutOfReach pg auth serverId userId body := by
  rw [LeavesAlone, ends_respond, ends_updateMember (fun _ => SameMember.refl) (fun _ _ _ _ _ => Iff.rfl)
    fun _ _ _ hedited => edited_same hedited, OwnerOutOfReach]
  refine forall₃_congr fun _ _ _ => ?_
  by_cases hcompletes : Completes pg serverId userId body <;> simp [hcompletes]

/-! ## Runs -/

/-- the request moderates the user, for the actor -/
def Moderates (auth serverId userId : ℤ) : Request → Prop
  | .updateMember a s u _ | .kickMember a s u | .createBan a s u _ => a = auth ∧ s = serverId ∧ u = userId
  | _ => False

/-- no actor but the owner moderates the owner -/
def OwnerUnmoderated (verifyPassword : String → String → Except String Bool) (pg : Postgres) : Op → Prop
  | .request r => ∀ auth serverId userId, Moderates auth serverId userId r → pg.isOwner serverId userId = true →
    pg.isOwner serverId auth = false → LeavesAlone serverId userId pg (r.handle verifyPassword)
  | .elsewhere _ => True

/-- if it is an update of the owner by somebody else, it does not get through -/
def KeepsOff (pg : Postgres) : Op → Prop
  | .request (.updateMember auth serverId userId body) => pg.isOwner serverId userId = true →
    pg.isOwner serverId auth = false → OwnerOutOfReach pg auth serverId userId body
  | _ => True

theorem ownerUnmoderated_iff (verifyPassword : String → String → Except String Bool) (pg : Postgres) (op : Op) :
    OwnerUnmoderated verifyPassword pg op ↔ KeepsOff pg op := by
  cases op with
  | elsewhere w => exact Iff.rfl
  | request r =>
    cases r with
    | updateMember auth serverId userId body =>
      rw [KeepsOff, ← updateMember_owner_iff]
      constructor
      · exact fun h => h auth serverId userId ⟨rfl, rfl, rfl⟩
      · rintro h _ _ _ ⟨rfl, rfl, rfl⟩
        exact h
    | kickMember auth serverId userId =>
      refine iff_of_true ?_ trivial
      rintro _ _ _ ⟨rfl, rfl, rfl⟩ howner -
      exact kickMember_owner howner
    | createBan auth serverId userId reason =>
      refine iff_of_true ?_ trivial
      rintro _ _ _ ⟨rfl, rfl, rfl⟩ howner -
      exact createBan_owner howner
    | _ => exact iff_of_true (fun _ _ _ h => h.elim) trivial

/-- **In a run nobody but the owner moderates the owner, exactly if no update of the owner by somebody else gets
through.** -/
theorem owner_unmoderated_iff (verifyPassword : String → String → Except String Bool) (users : Table User.id)
    (ops : List Op) :
    Every (step verifyPassword) (OwnerUnmoderated verifyPassword) (noServers users) ops ↔
      Every (step verifyPassword) KeepsOff (noServers users) ops :=
  ⟨Every.mono fun pg op => (ownerUnmoderated_iff verifyPassword pg op).1,
    Every.mono fun pg op => (ownerUnmoderated_iff verifyPassword pg op).2⟩

/-! ## An owner renamed -/

/-- member 2 of server 100 has a role with MANAGE_NICKNAMES, its owner has @everyone only -/
def renamers : Postgres := Core.run (step fun _ _ => .ok true) twoMembers
  [.request (.createRole 1 100 ⟨"names", none, none, none, some "512"⟩ 110 ⟨0⟩),
   .request (.updateMember 1 100 2 ⟨none, some [110], none⟩)]

/-- member 2 renames the owner -/
def renameOwner : Request := .updateMember 2 100 1 ⟨some (some "bo"), none, none⟩

/-- **A member who does not own the server renames its owner.** -/
theorem owner_renamed :
    renamers.isOwner 100 1 = true ∧ renamers.isOwner 100 2 = false ∧
      (renameOwner.handle fun _ _ => .ok true).succeeds statement renamers = true ∧
      (memberAt renamers 100 1).map ServerMember.nickname = some none ∧
      (memberAt (step (fun _ _ => .ok true) renamers (.request renameOwner)) 100 1).map ServerMember.nickname =
        some (some "bo") := by
  decide

end Lumiere.Routes
