/-
The role hierarchy (`update_role`, `reorder_roles`). Both handlers compare the current position of every role that the
body names with the actor's rank, and then write the positions of the body as they are.

- `Moves S f`: what a request does to the positions, where `f` gives a role of S its new one. The last entry of a role
  counts.
- `within_rank_iff`: a successful request of a non-owner keeps within the actor's rank exactly if every new position is
  below it. An actor of rank `i32::MAX` is taken for the owner, and the roles at its own position are not protected.
- `climbed`: a moderator lifts one of its own roles above the administrators.
-/
import Lumiere.Routes.Escalation

namespace Lumiere.Routes

open Lumiere.Core Lumiere.Core.Prog Lumiere.Models Lumiere.Db

variable {pg pg' : Postgres} {w : Sql} {n : ℕ} {S auth : ℤ}

/-! ## Positions -/

/-- a role as the hierarchy sees it: id, server and position -/
def ranks (pg : Postgres) : List (ℤ × ℤ × ℤ) := pg.roles.rows.map fun r => (r.id, r.serverId, r.position)

theorem mem_ranks {id serverId position : ℤ} : (id, serverId, position) ∈ ranks pg ↔
    ∃ r ∈ pg.roles, r.id = id ∧ r.serverId = serverId ∧ r.position = position := by
  simp only [ranks, List.mem_map, Prod.mk.injEq, Table.mem_rows]

/-- the highest role position of the user in the server -/
def rank (pg : Postgres) (serverId userId : ℤ) : ℤ := (pg.highestPosition serverId userId).getD 0

/-- a position of a role that the user has in the server -/
def HeldAt (pg : Postgres) (serverId userId position : ℤ) : Prop :=
  ∃ m ∈ pg.memberRoles, m.serverId = serverId ∧ m.userId = userId ∧ ∃ s, (m.roleId, s, position) ∈ ranks pg

theorem mem_positions {userId position : ℤ} :
    position ∈ ((pg.memberRoles.select fun m => m.serverId = S && m.userId = userId).flatMap fun m =>
      (pg.roles.select fun r => r.id = m.roleId).map Role.position) ↔ HeldAt pg S userId position := by
  simp only [List.mem_flatMap, Table.mem_select, Bool.and_eq_true, decide_eq_true_eq, List.mem_map, HeldAt, mem_ranks,
    and_assoc]
  grind

theorem rank_of_none {userId : ℤ} (h : ∀ p, ¬ HeldAt pg S userId p) : rank pg S userId = 0 := by
  rw [rank, Postgres.highestPosition, List.max?_eq_none_iff.2]
  · rfl
  · exact List.eq_nil_iff_forall_not_mem.2 fun p hp => h p (mem_positions.1 hp)

theorem le_rank {userId p : ℤ} (h : HeldAt pg S userId p) : p ≤ rank pg S userId := by
  have hmem := mem_positions.2 h
  rw [rank, Postgres.highestPosition]
  rcases hmax : List.max? _ with _ | m
  · rw [List.max?_eq_none_iff.1 hmax] at hmem
    cases hmem
  · exact (List.max?_eq_some_iff.1 hmax).2 p hmem

theorem heldAt_rank {userId p : ℤ} (h : HeldAt pg S userId p) : HeldAt pg S userId (rank pg S userId) := by
  have hmem := mem_positions.2 h
  rw [rank, Postgres.highestPosition]
  rcases hmax : List.max? _ with _ | m
  · rw [List.max?_eq_none_iff.1 hmax] at hmem
    cases hmem
  · exact mem_positions.1 (List.max?_eq_some_iff.1 hmax).1

/-! ## What a request does to them -/

def movedTo (S : ℤ) (f : ℤ → Option ℤ) : ℤ × ℤ × ℤ → ℤ × ℤ × ℤ
  | (id, serverId, position) => (id, serverId, if serverId = S then (f id).getD position else position)

structure Moves (S : ℤ) (f : ℤ → Option ℤ) (pg pg' : Postgres) : Prop where
  memberRoles : pg'.memberRoles = pg.memberRoles
  ranks : ranks pg' = (ranks pg).map (movedTo S f)

theorem Moves.refl : Moves S (fun _ => none) pg pg where
  memberRoles := rfl
  ranks := by
    refine (List.map_id'' (fun x => ?_) _).symm
    simp [movedTo]

/-- the later position counts -/
theorem Moves.trans {pg₁ : Postgres} {f g : ℤ → Option ℤ} (h : Moves S f pg pg₁) (h' : Moves S g pg₁ pg') :
    Moves S (fun id => (g id).or (f id)) pg pg' where
  memberRoles := h'.memberRoles.trans h.memberRoles
  ranks := by
    rw [h'.ranks, h.ranks, List.map_map]
    refine List.map_congr_left fun ⟨id, serverId, position⟩ _ => ?_
    simp only [Function.comp, movedTo]
    split_ifs
    · rcases g id with _ | p <;> rfl
    · rfl

theorem exec_moves (h : Sql.exec pg w = .ok (n, pg')) {roleId : ℤ} {position : Option ℤ}
    (hw : (∃ changes, w = .updateRole roleId S changes ∧ changes.position = position) ∨
      ∃ p, w = .updateRolePosition p roleId S ∧ position = some p) :
    Moves S (fun id => if id = roleId then position else none) pg pg' := by
  rcases hw with ⟨changes, rfl, rfl⟩ | ⟨p, rfl, rfl⟩
  · refine ⟨exec_memberRoles h, ?_⟩
    simp only [Sql.exec, bind_eq_ok, pure_eq_ok, Prod.mk.injEq] at h
    obtain ⟨c, hc, -, rfl⟩ := h
    simp only [RoleChanges.checked, bind_eq_ok, pure_eq_ok] at hc
    obtain ⟨_, -, _, -, rfl⟩ := hc
    rw [ranks, ranks, Table.updateWhere, List.map_map, List.map_map]
    refine List.map_congr_left fun r _ => ?_
    simp only [Function.comp, movedTo, Bool.and_eq_true, decide_eq_true_eq]
    split_ifs <;> simp_all [RoleChanges.apply]
  · refine ⟨exec_memberRoles h, ?_⟩
    simp only [Sql.exec, Except.ok.injEq, Prod.mk.injEq] at h
    obtain ⟨-, rfl⟩ := h
    rw [ranks, ranks, Table.updateWhere, List.map_map, List.map_map]
    refine List.map_congr_left fun r _ => ?_
    simp only [Function.comp, movedTo, Bool.and_eq_true, decide_eq_true_eq]
    split_ifs <;> simp_all

/-! ## The two handlers -/

theorem run_getActorHighestPosition (howner : pg.isOwner S auth = false) :
    (getActorHighestPosition S auth).run statement pg = (.ok (rank pg S auth), pg) := by
  rw [getActorHighestPosition, run_bind_of_ok (run_select _), howner]
  rfl

/-- the role has a lower position than the actor, or the actor's position is taken for the owner's -/
def Guarded (pg : Postgres) (S auth : ℤ) (r : Role) : Prop := r.position < rank pg S auth ∨ rank pg S auth = 2147483647

theorem updateRole_moves {roleId : ℤ} {body : UpdateRoleRequest} {u : RoleResponse} (howner : pg.isOwner S auth = false)
    (h : (updateRole auth S roleId body).run statement pg = (.ok u, pg')) :
    Moves S (fun id => if id = roleId then body.position else none) pg pg' ∧
      ∃ r ∈ pg.roles, r.id = roleId ∧ r.serverId = S ∧ Guarded pg S auth r := by
  obtain ⟨_, pg₁, hperms, h₁⟩ := run_bind_eq_ok.1 h
  obtain rfl := readOnly_requirePermissions.eq_of_run hperms
  rw [run_bind_of_ok (run_getActorHighestPosition howner)] at h₁
  obtain ⟨role, pg₂, hrole, h₂⟩ := run_bind_eq_ok.1 h₁
  obtain ⟨hmem, hid, hserver, rfl⟩ := serverRole_eq_ok hrole
  obtain ⟨_, pg₃, hguard, h₃⟩ := run_bind_eq_ok.1 h₂
  obtain ⟨hguard, rfl⟩ := failIf_eq_ok.1 hguard
  obtain ⟨_, pg₄, hempty, h₄⟩ := run_bind_eq_ok.1 h₃
  obtain ⟨-, rfl⟩ := failIf_eq_ok.1 hempty
  obtain ⟨permissions, pg₅, hparse, h₅⟩ := run_bind_eq_ok.1 h₄
  obtain rfl := readOnly_parseOptional.eq_of_run hparse
  obtain ⟨_, pg₆, hbits, h₆⟩ := run_bind_eq_ok.1 h₅
  obtain rfl := ReadOnly.eq_of_run (issues_forM_option fun _ _ => readOnly_refuseForbiddenBits) hbits
  obtain ⟨_, pg₇, hexec, h₇⟩ := run_bind_eq_ok.1 h₆
  obtain ⟨n, hexec⟩ := execute_eq_ok.1 hexec
  obtain rfl := readOnly_fetchRole.eq_of_run h₇
  refine ⟨exec_moves (statement_eq_ok.1 hexec) (.inl ⟨_, rfl, rfl⟩), role, hmem, hid, hserver, ?_⟩
  rw [not_and_or, not_le, not_not] at hguard
  exact hguard

/-- the position that a reordering gives to a role: that of its last entry -/
def lastPosition (body : List RolePositionUpdate) (id : ℤ) : Option ℤ :=
  (body.reverse.find? fun update => update.id = id).map RolePositionUpdate.position

theorem lastPosition_cons (update : RolePositionUpdate) (body : List RolePositionUpdate) (id : ℤ) :
    lastPosition (update :: body) id =
      (lastPosition body id).or (if id = update.id then some update.position else none) := by
  rw [lastPosition, List.reverse_cons, List.find?_append, lastPosition]
  rcases body.reverse.find? _ with _ | u
  · by_cases h : id = update.id
    · simp [h]
    · simp [h, Ne.symm h]
  · rfl

theorem writes_moves {body : List RolePositionUpdate} {u : PUnit}
    (h : (body.forM fun update => execute (.updateRolePosition update.position update.id S) : Handler PUnit).run
      statement pg = (.ok u, pg')) : Moves S (lastPosition body) pg pg' := by
  induction body generalizing pg with
  | nil =>
    obtain ⟨-, rfl⟩ := Prod.mk.inj h
    exact Moves.refl
  | cons update body ih =>
    obtain ⟨_, pg₁, hexec, hrest⟩ := run_bind_eq_ok.1 h
    obtain ⟨n, hexec⟩ := execute_eq_ok.1 hexec
    have hfirst := exec_moves (statement_eq_ok.1 hexec) (.inr ⟨_, rfl, rfl⟩)
    rw [funext (lastPosition_cons update body)]
    exact hfirst.trans (ih hrest)

theorem checks_guard {body : List RolePositionUpdate} {p : ℤ} {u : PUnit}
    (h : (body.forM fun update => do
      let role ← serverRole update.id S
      failIf (p ≤ role.position) (.forbidden "Cannot reorder roles at or above your highest role position")
        : Handler PUnit).run statement pg = (.ok u, pg')) :
    ∀ update ∈ body, ∃ r ∈ pg.roles, r.id = update.id ∧ r.serverId = S ∧ r.position < p := by
  induction body generalizing pg with
  | nil => exact fun _ hupdate => absurd hupdate List.not_mem_nil
  | cons update body ih =>
    obtain ⟨_, pg₁, hcheck, hrest⟩ := run_bind_eq_ok.1 h
    obtain ⟨role, pg₂, hrole, hguard⟩ := run_bind_eq_ok.1 hcheck
    obtain ⟨hmem, hid, hserver, rfl⟩ := serverRole_eq_ok hrole
    obtain ⟨hbelow, rfl⟩ := failIf_eq_ok.1 hguard
    intro x hx
    rcases List.mem_cons.1 hx with rfl | hx
    · exact ⟨role, hmem, hid, hserver, not_le.1 hbelow⟩
    · exact ih hrest x hx

theorem reorderRoles_moves {body : List RolePositionUpdate} {u : List RoleResponse} (howner : pg.isOwner S auth = false)
    (h : (reorderRoles auth S body).run statement pg = (.ok u, pg')) :
    Moves S (lastPosition body) pg pg' ∧ (rank pg S auth = 2147483647 ∨
      ∀ update ∈ body, ∃ r ∈ pg.roles, r.id = update.id ∧ r.serverId = S ∧ r.position < rank pg S auth) := by
  obtain ⟨_, pg₁, hperms, h₁⟩ := run_bind_eq_ok.1 h
  obtain rfl := readOnly_requirePermissions.eq_of_run hperms
  rw [run_bind_of_ok (run_getActorHighestPosition howner)] at h₁
  obtain ⟨_, pg₂, hchecks, h₂⟩ := run_bind_eq_ok.1 h₁
  obtain rfl := ReadOnly.eq_of_run (issues_when fun _ => issues_forM fun _ _ =>
    issues_bind readOnly_serverRole fun _ => issues_failIf _ _) hchecks
  obtain ⟨_, pg₃, hwrites, h₃⟩ := run_bind_eq_ok.1 h₂
  obtain rfl := readOnly_getRoles.eq_of_run h₃
  refine ⟨writes_moves hwrites, or_iff_not_imp_left.2 fun hmax => ?_⟩
  rw [when, if_pos hmax] at hchecks
  exact checks_guard hchecks

/-! ## Within the actor's rank -/

/-- the request is one of the two, by the actor on the server -/
def Repositions (auth S : ℤ) : Request → Prop
  | .updateRole a s _ _ | .reorderRoles a s _ => a = auth ∧ s = S
  | _ => False

/-- the position that the request gives to a role -/
def givenPosition : Request → ℤ → Option ℤ
  | .updateRole _ _ roleId body, id => if id = roleId then body.position else none
  | .reorderRoles _ _ body, id => lastPosition body id
  | _, _ => none

/-- every role that has moved was below the actor's highest position and still is; the actor has not risen -/
structure WithinRank (S auth : ℤ) (pg pg' : Postgres) : Prop where
  roles : ∀ r ∈ pg.roles, r.serverId = S → ∀ r' ∈ pg'.roles, r'.id = r.id → r'.position ≠ r.position →
    r.position < rank pg S auth ∧ r'.position < rank pg S auth
  actor : rank pg' S auth ≤ rank pg S auth

/-- every new position is below the actor's; at `i32::MAX`, where the guards are skipped, the old one is too -/
def GivesBelow (pg : Postgres) (S auth : ℤ) (r : Request) : Prop :=
  ∀ role ∈ pg.roles, role.serverId = S → ∀ p ∈ givenPosition r role.id, p ≠ role.position →
    p < rank pg S auth ∧ (rank pg S auth = 2147483647 → role.position < 2147483647)

instance (pg : Postgres) (S auth : ℤ) (r : Request) : Decidable (GivesBelow pg S auth r) :=
  inferInstanceAs (Decidable (∀ role ∈ pg.roles.rows, role.serverId = S → ∀ p ∈ givenPosition r role.id,
    p ≠ role.position → p < rank pg S auth ∧ (rank pg S auth = 2147483647 → role.position < 2147483647)))

theorem repositions_moves {verifyPassword : String → String → Except String Bool} {r : Request}
    (howner : pg.isOwner S auth = false) (hr : Repositions auth S r)
    (hok : (r.handle verifyPassword).succeeds statement pg = true) :
    Moves S (givenPosition r) pg (step verifyPassword pg (.request r)) ∧
      ∀ role ∈ pg.roles, role.serverId = S → givenPosition r role.id ≠ none → Guarded pg S auth role := by
  obtain ⟨_, pg', hrun⟩ := succeeds_iff.1 hok
  rw [step, hrun]
  cases r with
  | updateRole a s roleId body =>
    obtain ⟨rfl, rfl⟩ := hr
    obtain ⟨u, pg₁, hhandle, hresponse⟩ := run_bind_eq_ok.1 hrun
    obtain ⟨-, rfl⟩ := Prod.mk.inj hresponse
    obtain ⟨hmoves, r, hmem, hid, -, hguard⟩ := updateRole_moves howner hhandle
    refine ⟨hmoves, fun role hrole _ hgiven => ?_⟩
    have hsame : role.id = roleId := by
      by_contra hne
      exact hgiven (if_neg hne)
    rwa [Table.eq_of_key_eq hrole hmem (hsame.trans hid.symm)]
  | reorderRoles a s body =>
    obtain ⟨rfl, rfl⟩ := hr
    obtain ⟨u, pg₁, hhandle, hresponse⟩ := run_bind_eq_ok.1 hrun
    obtain ⟨-, rfl⟩ := Prod.mk.inj hresponse
    obtain ⟨hmoves, hguard⟩ := reorderRoles_moves howner hhandle
    refine ⟨hmoves, fun role hrole _ hgiven => ?_⟩
    rcases hguard with hmax | hguard
    · exact .inr hmax
    · obtain ⟨update, hfind⟩ := Option.ne_none_iff_exists'.1 (mt Option.map_eq_none_iff.2 hgiven)
      have hupdate := List.mem_reverse.1 (List.mem_of_find?_eq_some hfind)
      obtain ⟨r, hmem, hid, -, hbelow⟩ := hguard update hupdate
      have hsame : update.id = role.id := by simpa using List.find?_some hfind
      rw [Table.eq_of_key_eq hrole hmem (hsame.symm.trans hid.symm)]
      exact .inl hbelow
  | _ => exact hr.elim

/-- a role after the request -/
theorem Moves.role {f : ℤ → Option ℤ} (h : Moves S f pg pg') {r r' : Role} (hr : r ∈ pg.roles) (hr' : r' ∈ pg'.roles)
    (hid : r'.id = r.id) (hserver : r.serverId = S) : r'.position = (f r.id).getD r.position := by
  have hmem : movedTo S f (r.id, r.serverId, r.position) ∈ Routes.ranks pg' := by
    rw [h.ranks]
    exact List.mem_map_of_mem (mem_ranks.2 ⟨r, hr, rfl, rfl, rfl⟩)
  obtain ⟨r'', hr'', hid'', -, hposition⟩ := mem_ranks.1 hmem
  rw [Table.eq_of_key_eq hr' hr'' (hid.trans hid''.symm), hposition, if_pos hserver]

theorem Moves.exists_role {f : ℤ → Option ℤ} (h : Moves S f pg pg') {r : Role} (hr : r ∈ pg.roles) :
    ∃ r' ∈ pg'.roles, r'.id = r.id := by
  have hmem : movedTo S f (r.id, r.serverId, r.position) ∈ Routes.ranks pg' := by
    rw [h.ranks]
    exact List.mem_map_of_mem (mem_ranks.2 ⟨r, hr, rfl, rfl, rfl⟩)
  obtain ⟨r', hr', hid, -⟩ := mem_ranks.1 hmem
  exact ⟨r', hr', hid⟩

/-- the positions that the actor holds come from those it held -/
theorem Moves.heldAt {f : ℤ → Option ℤ} (h : Moves S f pg pg') {p : ℤ} (hp : HeldAt pg' S auth p) :
    ∃ q, HeldAt pg S auth q ∧ (p = q ∨ ∃ r ∈ pg.roles, r.serverId = S ∧ q = r.position ∧ p ∈ f r.id) := by
  obtain ⟨m, hm, hserver, huser, s, hrank⟩ := hp
  rw [h.memberRoles] at hm
  rw [h.ranks, List.mem_map] at hrank
  obtain ⟨⟨id, s', q⟩, hmem, hmoved⟩ := hrank
  obtain ⟨rfl, hrest⟩ := Prod.mk.inj hmoved
  obtain ⟨rfl, hp⟩ := Prod.mk.inj hrest
  refine ⟨q, ⟨m, hm, hserver, huser, s', hmem⟩, ?_⟩
  split_ifs at hp with hs
  · rcases hf : f m.roleId with _ | x
    · rw [hf] at hp
      exact .inl hp.symm
    · rw [hf] at hp
      obtain ⟨r, hr, hid, hrs, hq⟩ := mem_ranks.1 hmem
      exact .inr ⟨r, hr, hrs.trans hs, hq.symm, by rw [hid, hf, ← hp]; rfl⟩
  · exact .inl hp.symm

theorem Moves.exists_heldAt {f : ℤ → Option ℤ} (h : Moves S f pg pg') {q : ℤ} (hq : HeldAt pg S auth q) :
    ∃ p, HeldAt pg' S auth p := by
  obtain ⟨m, hm, hserver, huser, s, hrank⟩ := hq
  refine ⟨(movedTo S f (m.roleId, s, q)).2.2, m, ?_, hserver, huser, s, ?_⟩
  · rw [h.memberRoles]
    exact hm
  · rw [h.ranks]
    exact List.mem_map_of_mem hrank

/-- **Nobody climbs exactly if every new position is below the actor's.** -/
theorem within_rank_iff (verifyPassword : String → String → Except String Bool) (pg : Postgres) (S auth : ℤ)
    (r : Request) (howner : pg.isOwner S auth = false) (hr : Repositions auth S r)
    (hok : (r.handle verifyPassword).succeeds statement pg = true) :
    WithinRank S auth pg (step verifyPassword pg (.request r)) ↔ GivesBelow pg S auth r := by
  obtain ⟨hmoves, hguard⟩ := repositions_moves howner hr hok
  constructor
  · intro h role hrole hserver p hp hne
    obtain ⟨role', hrole', hid⟩ := hmoves.exists_role hrole
    have hposition := hmoves.role hrole hrole' hid hserver
    rw [Option.mem_def.1 hp, Option.getD_some] at hposition
    obtain ⟨hold, hnew⟩ := h.roles role hrole hserver role' hrole' hid (hposition ▸ hne)
    exact ⟨hposition ▸ hnew, fun hmax => hmax ▸ hold⟩
  · intro h
    refine ⟨fun role hrole hserver role' hrole' hid hmoved => ?_, ?_⟩
    · rw [hmoves.role hrole hrole' hid hserver] at hmoved ⊢
      rcases hgiven : givenPosition r role.id with _ | p
      · rw [hgiven] at hmoved
        exact absurd rfl hmoved
      · rw [hgiven] at hmoved
        obtain ⟨hnew, hmax⟩ := h role hrole hserver p hgiven hmoved
        refine ⟨?_, hnew⟩
        rcases hguard role hrole hserver (by simp [hgiven]) with hold | hrank
        · exact hold
        · exact hrank ▸ hmax hrank
    · by_cases hheld : ∃ p, HeldAt (step verifyPassword pg (.request r)) S auth p
      · obtain ⟨p, hp⟩ := hheld
        obtain ⟨q, hq, hsame | ⟨role, hrole, hserver, rfl, hgiven⟩⟩ := hmoves.heldAt (heldAt_rank hp)
        · exact hsame.le.trans (le_rank hq)
        · by_cases hne : rank (step verifyPassword pg (.request r)) S auth = role.position
          · exact hne.le.trans (le_rank hq)
          · exact (h role hrole hserver _ hgiven hne).1.le
      · have hbefore : ∀ q, ¬ HeldAt pg S auth q := fun q hq => hheld (hmoves.exists_heldAt hq)
        rw [rank_of_none (not_exists.1 hheld), rank_of_none hbefore]

/-! ## A moderator -/

/-- member 2, whose highest role has position 1, gives the @everyone role of the server a position -/
def liftEveryone (position : ℤ) : Request := .reorderRoles 2 100 [⟨100, 0⟩, ⟨100, position⟩]

/-- **A successful request lifts a role above the actor, and the actor with it.** -/
theorem climbed :
    moderated.isOwner 100 2 = false ∧ rank moderated 100 2 = 1 ∧
      (∃ r ∈ moderated.roles.rows, r.id = 100 ∧ r.serverId = 100 ∧ r.position = 0) ∧
      ((liftEveryone 7).handle fun _ _ => .ok true).succeeds statement moderated = true ∧
      (∃ r ∈ (step (fun _ _ => .ok true) moderated (.request (liftEveryone 7))).roles.rows,
        r.id = 100 ∧ r.serverId = 100 ∧ r.position = 7) ∧
      rank (step (fun _ _ => .ok true) moderated (.request (liftEveryone 7))) 100 2 = 7 := by
  decide

/-- below its own position the actor may move a role -/
theorem within_rank_lowered :
    WithinRank 100 2 moderated (step (fun _ _ => .ok true) moderated (.request (liftEveryone (-1)))) :=
  (within_rank_iff (fun _ _ => .ok true) moderated 100 2 (liftEveryone (-1)) (by decide) ⟨rfl, rfl⟩ (by decide)).2
    (by decide)

end Lumiere.Routes
