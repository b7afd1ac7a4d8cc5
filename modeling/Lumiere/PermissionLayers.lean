/-
The layers of `compute_permissions` as a law on single bits, and the @everyone role as one of the listed roles.

- `layered_permissions`: member over roles over @everyone, for every list of roles and of overrides. The order of the
  roles and their repetitions do not matter, and no overrides are an empty list of them.
- `everyone_neutral_iff`: listing the @everyone role changes nothing exactly if no bit that its override allows is lost
  to the roles' denials. In the role layer its allow is applied after every role's deny.
- `everyone_listed`: a muted member, who can speak again.
-/
import Lumiere.Permissions

namespace Lumiere

open Permissions

section Layers

variable {memberRoleIds memberRoleIds' : List ℤ} {everyoneRolePermissions : BitVec 64}
  {rolePermissions : List (ℤ × BitVec 64)} {overrides : List PermissionOverride} {p : Permissions} {b : ℕ}

/-- the bit is one of the @everyone role or of a listed role -/
def InUnion (memberRoleIds : List ℤ) (everyoneRolePermissions : BitVec 64) (rolePermissions : List (ℤ × BitVec 64))
    (b : ℕ) : Prop :=
  everyoneRolePermissions.getLsbD b = true ∨
    ∃ roleId ∈ memberRoleIds, ∃ r, rolePermissions.find? (fun r => r.1 = roleId) = some r ∧ r.2.getLsbD b = true

theorem mem_base_iff : b ∈ basePermissions memberRoleIds everyoneRolePermissions rolePermissions ↔
    b ∈ all ∧ InUnion memberRoleIds everyoneRolePermissions rolePermissions b := mem_basePermissions

theorem base_congr (h : ∀ id, id ∈ memberRoleIds' ↔ id ∈ memberRoleIds) :
    basePermissions memberRoleIds' everyoneRolePermissions rolePermissions =
      basePermissions memberRoleIds everyoneRolePermissions rolePermissions := by
  refine ext fun b => ?_
  rw [mem_base_iff, mem_base_iff, InUnion, InUnion]
  simp only [h]

theorem roleOverrides_congr (h : ∀ id, id ∈ memberRoleIds' ↔ id ∈ memberRoleIds) :
    roleOverrides memberRoleIds' overrides = roleOverrides memberRoleIds overrides := by
  refine Prod.ext (ext fun b => ?_) (ext fun b => ?_)
  · rw [mem_roleOverrides_fst, mem_roleOverrides_fst]
    simp only [h]
  · rw [mem_roleOverrides_snd, mem_roleOverrides_snd]
    simp only [h]

theorem compute_congr {isOwner : Bool} {channelOverrides : Option (List PermissionOverride)} {memberId serverId : ℤ}
    (h : ∀ id, id ∈ memberRoleIds' ↔ id ∈ memberRoleIds) :
    computePermissions isOwner memberRoleIds' everyoneRolePermissions rolePermissions channelOverrides memberId
        serverId =
      computePermissions isOwner memberRoleIds everyoneRolePermissions rolePermissions channelOverrides memberId
        serverId := by
  rw [computePermissions, computePermissions, base_congr h]
  simp only [roleOverrides_congr h]

/-- a layer in which nobody denies or allows anything -/
theorem layer_empty (h : p ⊆ all) : (p &&& ~~~empty) ||| empty = p := by
  refine ext fun b => ?_
  simp only [mem_or, mem_and, mem_not, not_mem_empty, not_false_eq_true, true_and, or_false, and_iff_left_iff_imp]
  exact h b

theorem roleOverrides_nil : roleOverrides memberRoleIds [] = (empty, empty) := by
  refine Prod.ext (ext fun b => ?_) (ext fun b => ?_)
  · rw [mem_roleOverrides_fst]
    simp [overrideOf, Allows]
  · rw [mem_roleOverrides_snd]
    simp [overrideOf, Denies]

theorem compute_nil {isOwner : Bool} {memberId serverId : ℤ} :
    computePermissions isOwner memberRoleIds everyoneRolePermissions rolePermissions (some []) memberId serverId =
      computePermissions isOwner memberRoleIds everyoneRolePermissions rolePermissions none memberId serverId := by
  have hall : basePermissions memberRoleIds everyoneRolePermissions rolePermissions ⊆ all :=
    fun b hb => (mem_base_iff.1 hb).1
  have hnone : ∀ targetId targetType, overrideOf [] targetId targetType = none := fun _ _ => rfl
  simp only [computePermissions, roleOverrides_nil, hnone, applyOverride, layer_empty hall]

/-- **Member over roles over @everyone.** The id of the server may be among the listed ones or not. -/
theorem layered_permissions (memberRoleIds : List ℤ) (everyoneRolePermissions : BitVec 64)
    (rolePermissions : List (ℤ × BitVec 64)) (channelOverrides : Option (List PermissionOverride))
    (memberId serverId : ℤ) (hadmin : ¬ InUnion memberRoleIds everyoneRolePermissions rolePermissions 0) :
    let compute := fun ids overrides =>
      computePermissions false ids everyoneRolePermissions rolePermissions overrides memberId serverId
    let role := fun id => overrideOf (channelOverrides.getD []) id 0
    let member := overrideOf (channelOverrides.getD []) memberId 1
    (∀ b ∈ all, b ∈ compute memberRoleIds channelOverrides ↔
      Allows b member ∨ ¬ Denies b member ∧
        ((∃ id ∈ memberRoleIds, Allows b (role id)) ∨ (∀ id ∈ memberRoleIds, ¬ Denies b (role id)) ∧
          (Allows b (role serverId) ∨ ¬ Denies b (role serverId) ∧
            InUnion memberRoleIds everyoneRolePermissions rolePermissions b))) ∧
      (∀ ids, (∀ id, id ∈ ids ↔ id ∈ memberRoleIds) →
        ∀ overrides, compute ids overrides = compute memberRoleIds overrides) ∧
      compute memberRoleIds none = compute memberRoleIds (some []) := by
  intro compute role member
  refine ⟨fun b hb => ?_, fun ids h overrides => compute_congr h, compute_nil.symm⟩
  have hbase : ¬ administrator ⊆ basePermissions memberRoleIds everyoneRolePermissions rolePermissions := by
    rw [← contains_iff, contains_administrator, mem_base_iff]
    exact fun h => hadmin h.2
  have hsome : compute memberRoleIds channelOverrides = compute memberRoleIds (some (channelOverrides.getD [])) := by
    cases channelOverrides with
    | none => exact compute_nil.symm
    | some overrides => rfl
  have hlaw : b ∈ compute memberRoleIds (some (channelOverrides.getD [])) ↔ _ := mem_computePermissions hbase hb
  rw [mem_base_iff, and_iff_right hb] at hlaw
  rw [hsome]
  refine hlaw.trans ?_
  simp only [not_exists, not_and]
  exact Iff.rfl

end Layers

/-- role 2 denies SEND_MESSAGES in the channel, and the member is allowed it -/
def sendOverrides : List PermissionOverride := [⟨2, 0, empty, sendMessages⟩, ⟨7, 1, sendMessages, empty⟩]

theorem layered_permissions_member :
    (14 ∈ computePermissions false [2] defaultEveryone.bits [(2, 0#64)] (some sendOverrides) 7 1) ∧
      computePermissions false [2, 2] defaultEveryone.bits [(2, 0#64)] (some sendOverrides) 7 1 =
        computePermissions false [2] defaultEveryone.bits [(2, 0#64)] (some sendOverrides) 7 1 :=
  have h := layered_permissions [2] defaultEveryone.bits [(2, 0#64)] (some sendOverrides) 7 1
    (by simp [InUnion]; decide)
  ⟨(h.1 14 (by decide)).2 (.inl ⟨_, rfl, by decide⟩), h.2.1 [2, 2] (by simp) _⟩

/-! ## The @everyone role as a listed role -/

section Everyone

variable {before after : List ℤ} {everyoneRolePermissions : BitVec 64} {rolePermissions : List (ℤ × BitVec 64)}
  {overrides : List PermissionOverride} {p q : Permissions} {b : ℕ} {memberId serverId : ℤ}

/-- what the @everyone override allows is neither lost to the denials of the listed roles nor restored or decided later;
`~~~` leaves the declared bits that are not denied -/
def Neutral (memberRoleIds : List ℤ) (overrides : List PermissionOverride) (memberId serverId : ℤ) : Prop :=
  ∀ b, Allows b (overrideOf overrides serverId 0) →
    b ∈ ~~~(roleOverrides memberRoleIds overrides).2 ∨ b ∈ (roleOverrides memberRoleIds overrides).1 ∨
      ∃ ov ∈ overrideOf overrides memberId 1, b ∈ ov.allow ∨ b ∉ ~~~ov.deny

/-- listing the @everyone role again adds no bits to the union -/
theorem base_everyone (hrole : ∀ r ∈ rolePermissions.find? (fun r => r.1 = serverId), r.2 = everyoneRolePermissions) :
    basePermissions (before ++ serverId :: after) everyoneRolePermissions rolePermissions =
      basePermissions (before ++ after) everyoneRolePermissions rolePermissions := by
  refine ext fun b => ?_
  rw [mem_base_iff, mem_base_iff, InUnion, InUnion]
  refine and_congr_right fun _ => ?_
  constructor
  · rintro (h | ⟨id, hid, r, hfind, hbit⟩)
    · exact .inl h
    · simp only [List.mem_append, List.mem_cons] at hid
      rcases hid with hid | rfl | hid
      · exact .inr ⟨id, List.mem_append_left _ hid, r, hfind, hbit⟩
      · rw [hrole r hfind] at hbit
        exact .inl hbit
      · exact .inr ⟨id, List.mem_append_right _ hid, r, hfind, hbit⟩
  · rintro (h | ⟨id, hid, r, hfind, hbit⟩)
    · exact .inl h
    · refine .inr ⟨id, ?_, r, hfind, hbit⟩
      rw [List.mem_append, List.mem_cons]
      exact (List.mem_append.1 hid).imp_right .inr

theorem mem_everyone_fst : b ∈ (roleOverrides (before ++ serverId :: after) overrides).1 ↔
    Allows b (overrideOf overrides serverId 0) ∨ b ∈ (roleOverrides (before ++ after) overrides).1 := by
  rw [mem_roleOverrides_fst, mem_roleOverrides_fst]
  simp only [List.mem_append, List.mem_cons]
  constructor
  · rintro ⟨id, hid | rfl | hid, h⟩
    · exact .inr ⟨id, .inl hid, h⟩
    · exact .inl h
    · exact .inr ⟨id, .inr hid, h⟩
  · rintro (h | ⟨id, hid, h⟩)
    · exact ⟨serverId, .inr (.inl rfl), h⟩
    · exact ⟨id, hid.imp_right .inr, h⟩

theorem mem_everyone_snd : b ∈ (roleOverrides (before ++ serverId :: after) overrides).2 ↔
    Denies b (overrideOf overrides serverId 0) ∨ b ∈ (roleOverrides (before ++ after) overrides).2 := by
  rw [mem_roleOverrides_snd, mem_roleOverrides_snd]
  simp only [List.mem_append, List.mem_cons]
  constructor
  · rintro ⟨id, hid | rfl | hid, h⟩
    · exact .inr ⟨id, .inl hid, h⟩
    · exact .inl h
    · exact .inr ⟨id, .inr hid, h⟩
  · rintro (h | ⟨id, hid, h⟩)
    · exact ⟨serverId, .inr (.inl rfl), h⟩
    · exact ⟨id, hid.imp_right .inr, h⟩

/-- the aggregate of the listed roles, denied first -/
def rolesLayer (p : Permissions) (memberRoleIds : List ℤ) (overrides : List PermissionOverride) : Permissions :=
  (p &&& ~~~(roleOverrides memberRoleIds overrides).2) ||| (roleOverrides memberRoleIds overrides).1

theorem mem_rolesLayer {memberRoleIds : List ℤ} : b ∈ rolesLayer p memberRoleIds overrides ↔
    b ∈ p ∧ b ∈ ~~~(roleOverrides memberRoleIds overrides).2 ∨ b ∈ (roleOverrides memberRoleIds overrides).1 := by
  rw [rolesLayer, mem_or, mem_and]

theorem compute_eq {memberRoleIds : List ℤ} (h : ¬ InUnion memberRoleIds everyoneRolePermissions rolePermissions 0) :
    computePermissions false memberRoleIds everyoneRolePermissions rolePermissions (some overrides) memberId serverId =
      applyOverride (rolesLayer (applyOverride (basePermissions memberRoleIds everyoneRolePermissions rolePermissions)
        (overrideOf overrides serverId 0)) memberRoleIds overrides) (overrideOf overrides memberId 1) := by
  have hadmin : ¬ (basePermissions memberRoleIds everyoneRolePermissions rolePermissions).contains administrator := by
    rw [contains_administrator, mem_base_iff]
    exact fun h' => h h'.2
  rw [computePermissions, if_neg Bool.false_ne_true, if_neg hadmin]
  rfl

/-- with the @everyone role among the roles its override has the last word in the role layer -/
theorem mem_rolesLayer_everyone :
    b ∈ rolesLayer (applyOverride p (overrideOf overrides serverId 0)) (before ++ serverId :: after) overrides ↔
      b ∈ rolesLayer (applyOverride p (overrideOf overrides serverId 0)) (before ++ after) overrides ∨
        Allows b (overrideOf overrides serverId 0) := by
  rw [mem_rolesLayer, mem_rolesLayer, mem_everyone_fst, mem_not, mem_not, mem_everyone_snd]
  rcases overrideOf overrides serverId 0 with _ | ov
  · simp [Allows, Denies]
  · have hallows : Allows b (some ov) ↔ b ∈ ov.allow := by simp [Allows]
    have hdenies : Denies b (some ov) ↔ b ∈ ov.deny := by simp [Denies]
    rw [hallows, hdenies, applyOverride, mem_or, mem_and, mem_not]
    tauto

/-- the member override hides a bit that it decides itself -/
theorem applyOverride_eq_iff {Added : ℕ → Prop} {o : Option PermissionOverride} (h : ∀ b, b ∈ q ↔ b ∈ p ∨ Added b) :
    applyOverride q o = applyOverride p o ↔ ∀ b, Added b → b ∈ p ∨ ∃ ov ∈ o, b ∈ ov.allow ∨ b ∉ ~~~ov.deny := by
  have hext : applyOverride q o = applyOverride p o ↔ ∀ b, b ∈ applyOverride q o ↔ b ∈ applyOverride p o :=
    ⟨fun heq b => by rw [heq], ext⟩
  rw [hext]
  refine forall_congr' fun b => ?_
  cases o with
  | none =>
    simp only [applyOverride, h, Option.mem_def, reduceCtorEq, false_and, exists_false, or_false]
    tauto
  | some ov =>
    simp only [applyOverride, mem_or, mem_and, h, Option.mem_def, Option.some.injEq, exists_eq_left']
    tauto

theorem neutral_iff {memberRoleIds : List ℤ} : Neutral memberRoleIds overrides memberId serverId ↔
    ∀ b, Allows b (overrideOf overrides serverId 0) →
      b ∈ rolesLayer (applyOverride p (overrideOf overrides serverId 0)) memberRoleIds overrides ∨
        ∃ ov ∈ overrideOf overrides memberId 1, b ∈ ov.allow ∨ b ∉ ~~~ov.deny := by
  refine forall_congr' fun b => imp_congr_right fun hb => ?_
  have hmem : b ∈ applyOverride p (overrideOf overrides serverId 0) := by
    obtain ⟨ov, hov, hallow⟩ := hb
    rw [Option.mem_def.1 hov, applyOverride, mem_or]
    exact .inr hallow
  rw [mem_rolesLayer, or_assoc]
  exact or_congr_left (and_iff_right hmem).symm

/-- **The @everyone assignment is neutral exactly if the roles deny nothing that the @everyone override allows**, unless
a role allows it too or the member override decides it. Owners and administrators are exempt. -/
theorem everyone_neutral_iff (isOwner : Bool) (before after : List ℤ) (everyoneRolePermissions : BitVec 64)
    (rolePermissions : List (ℤ × BitVec 64)) (channelOverrides : Option (List PermissionOverride))
    (memberId serverId : ℤ)
    (hrole : ∀ r ∈ rolePermissions.find? (fun r => r.1 = serverId), r.2 = everyoneRolePermissions) :
    computePermissions isOwner (before ++ serverId :: after) everyoneRolePermissions rolePermissions channelOverrides
        memberId serverId =
      computePermissions isOwner (before ++ after) everyoneRolePermissions rolePermissions channelOverrides memberId
        serverId ↔
    isOwner = true ∨ InUnion (before ++ after) everyoneRolePermissions rolePermissions 0 ∨
      Neutral (before ++ after) (channelOverrides.getD []) memberId serverId := by
  cases isOwner with
  | true => simp [computePermissions]
  | false =>
    rw [or_iff_right Bool.false_ne_true]
    have hbase : basePermissions (before ++ serverId :: after) everyoneRolePermissions rolePermissions =
        basePermissions (before ++ after) everyoneRolePermissions rolePermissions := base_everyone hrole
    by_cases hadmin : InUnion (before ++ after) everyoneRolePermissions rolePermissions 0
    · have hcontains : (basePermissions (before ++ after) everyoneRolePermissions rolePermissions).contains
          administrator := by
        rw [contains_administrator, mem_base_iff]
        exact ⟨by decide, hadmin⟩
      refine iff_of_true ?_ (.inl hadmin)
      rw [computePermissions, computePermissions, hbase]
      simp only [hcontains, if_true]
    · rw [or_iff_right hadmin]
      cases channelOverrides with
      | none =>
        refine iff_of_true ?_ ?_
        · rw [computePermissions, computePermissions, hbase]
        · rintro b ⟨ov, hov, -⟩
          cases hov
      | some overrides =>
        have hboth : ¬ InUnion (before ++ serverId :: after) everyoneRolePermissions rolePermissions 0 := by
          intro h
          have hmem := mem_base_iff.2 ⟨by decide, h⟩
          rw [hbase] at hmem
          exact hadmin (mem_base_iff.1 hmem).2
        rw [compute_eq hboth, compute_eq hadmin, hbase, applyOverride_eq_iff fun b => mem_rolesLayer_everyone,
          Option.getD_some, ← neutral_iff]

end Everyone

/-- the channel lets @everyone of server 1 speak, and role 2 takes that away -/
def mutedOverrides : List PermissionOverride := [⟨1, 0, speak, empty⟩, ⟨2, 0, empty, speak⟩]

/-- **The role that `create_server` and `use_invite` store for every member undoes the mute.** -/
theorem everyone_listed :
    (1, defaultEveryone.bits) ∈ [(1, defaultEveryone.bits), (2, 0#64)] ∧
      29 ∉ computePermissions false [2] defaultEveryone.bits [(1, defaultEveryone.bits), (2, 0#64)]
        (some mutedOverrides) 7 1 ∧
      29 ∈ computePermissions false [1, 2] defaultEveryone.bits [(1, defaultEveryone.bits), (2, 0#64)]
        (some mutedOverrides) 7 1 := by
  decide

/-- role 2 alone is neutral where it denies what @everyone is not given -/
theorem everyone_neutral_role :
    computePermissions false [1, 2] defaultEveryone.bits [(1, defaultEveryone.bits), (2, 0#64)]
        (some [⟨2, 0, empty, speak⟩]) 7 1 =
      computePermissions false [2] defaultEveryone.bits [(1, defaultEveryone.bits), (2, 0#64)]
        (some [⟨2, 0, empty, speak⟩]) 7 1 := by
  refine (everyone_neutral_iff false [] [2] defaultEveryone.bits _ _ 7 1 ?_).2 (.inr (.inr ?_))
  · rintro r hr
    obtain rfl := Option.some.inj hr
    rfl
  · rintro b ⟨ov, hov, -⟩
    cases hov

end Lumiere
