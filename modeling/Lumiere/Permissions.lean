/-
Permission sets and the layered permission algorithm (`lumiere-permissions/src/lib.rs`).

A `Permissions` is a 64-bit word; `b ∈ p` says that bit b is set. Truncation and complement keep the declared bits
only, as the bitflags type does. Ids are 64-bit words seen as the signed value of their column: the algorithm only
compares them.

- `mem_computePermissions`: which bits `compute_permissions` grants someone who is neither owner nor administrator.
-/
import Mathlib.Data.Int.Notation
import Mathlib.Data.List.Basic
import Mathlib.Tactic.Tauto

namespace Lumiere

structure Permissions where
  bits : BitVec 64
deriving DecidableEq, Repr

namespace Permissions

def flag (i : ℕ) : Permissions := ⟨BitVec.twoPow 64 i⟩

def administrator : Permissions := flag 0
def viewAuditLog : Permissions := flag 1
def manageServer : Permissions := flag 2
def manageRoles : Permissions := flag 3
def manageChannels : Permissions := flag 4
def kickMembers : Permissions := flag 5
def banMembers : Permissions := flag 6
def createInvite : Permissions := flag 7
def changeNickname : Permissions := flag 8
def manageNicknames : Permissions := flag 9
def manageEmojis : Permissions := flag 10
def manageWebhooks : Permissions := flag 11
def viewChannel : Permissions := flag 12
def moderateMembers : Permissions := flag 13
def sendMessages : Permissions := flag 14
def sendTtsMessages : Permissions := flag 15
def manageMessages : Permissions := flag 16
def embedLinks : Permissions := flag 17
def attachFiles : Permissions := flag 18
def readMessageHistory : Permissions := flag 19
def mentionEveryone : Permissions := flag 20
def useExternalEmojis : Permissions := flag 21
def addReactions : Permissions := flag 22
def useSlashCommands : Permissions := flag 23
def sendMessagesInThreads : Permissions := flag 24
def createPublicThreads : Permissions := flag 25
def createPrivateThreads : Permissions := flag 26
def manageThreads : Permissions := flag 27
def connect : Permissions := flag 28
def speak : Permissions := flag 29
def muteMembers : Permissions := flag 30
def deafenMembers : Permissions := flag 31
def moveMembers : Permissions := flag 32
def useVad : Permissions := flag 33
def prioritySpeaker : Permissions := flag 34
def stream : Permissions := flag 35
def useSoundboard : Permissions := flag 36
def requestToSpeak : Permissions := flag 37

/-- the declared bits -/
def all : Permissions := ⟨0x3FFFFFFFFF#64⟩

def empty : Permissions := ⟨0#64⟩

def fromBitsTruncate (bits : BitVec 64) : Permissions := ⟨bits &&& all.bits⟩

instance : OrOp Permissions := ⟨fun p q => ⟨p.bits ||| q.bits⟩⟩

instance : AndOp Permissions := ⟨fun p q => ⟨p.bits &&& q.bits⟩⟩

instance : Complement Permissions := ⟨fun p => fromBitsTruncate (~~~p.bits)⟩

def contains (p q : Permissions) : Bool := p.bits &&& q.bits = q.bits

def defaultEveryone : Permissions :=
  viewChannel ||| sendMessages ||| readMessageHistory ||| embedLinks ||| attachFiles ||| addReactions |||
    useExternalEmojis ||| connect ||| speak ||| useVad ||| changeNickname ||| createInvite

/-- the declared bits are those of the flags -/
example : [administrator, viewAuditLog, manageServer, manageRoles, manageChannels, kickMembers, banMembers, createInvite,
    changeNickname, manageNicknames, manageEmojis, manageWebhooks, viewChannel, moderateMembers, sendMessages,
    sendTtsMessages, manageMessages, embedLinks, attachFiles, readMessageHistory, mentionEveryone, useExternalEmojis,
    addReactions, useSlashCommands, sendMessagesInThreads, createPublicThreads, createPrivateThreads, manageThreads,
    connect, speak, muteMembers, deafenMembers, moveMembers, useVad, prioritySpeaker, stream, useSoundboard,
    requestToSpeak].foldl (· ||| ·) empty = all := by decide

/-! ## Bits -/

instance : Membership ℕ Permissions := ⟨fun p b => p.bits.getLsbD b = true⟩

instance (b : ℕ) (p : Permissions) : Decidable (b ∈ p) := inferInstanceAs (Decidable (p.bits.getLsbD b = true))

instance : HasSubset Permissions := ⟨fun p q => ∀ b, b ∈ p → b ∈ q⟩

variable {p q r : Permissions} {b : ℕ}

theorem mem_iff : b ∈ p ↔ p.bits.getLsbD b = true := Iff.rfl

theorem subset_iff : p ⊆ q ↔ ∀ b, b ∈ p → b ∈ q := Iff.rfl

theorem lt_of_mem (h : b ∈ p) : b < 64 := BitVec.lt_of_getLsbD h

theorem ext (h : ∀ b, b ∈ p ↔ b ∈ q) : p = q := by
  rcases p with ⟨x⟩
  rcases q with ⟨y⟩
  rw [mk.injEq]
  exact BitVec.eq_of_getLsbD_eq fun i _ => Bool.eq_iff_iff.2 (h i)

@[simp] theorem not_mem_empty : b ∉ empty := by
  simp [mem_iff, empty]

@[simp] theorem mem_or : b ∈ p ||| q ↔ b ∈ p ∨ b ∈ q := by
  show (p.bits ||| q.bits).getLsbD b = true ↔ _
  rw [BitVec.getLsbD_or, Bool.or_eq_true]
  exact Iff.rfl

@[simp] theorem mem_and : b ∈ p &&& q ↔ b ∈ p ∧ b ∈ q := by
  show (p.bits &&& q.bits).getLsbD b = true ↔ _
  rw [BitVec.getLsbD_and, Bool.and_eq_true]
  exact Iff.rfl

@[simp] theorem mem_fromBitsTruncate {x : BitVec 64} : b ∈ fromBitsTruncate x ↔ x.getLsbD b = true ∧ b ∈ all := by
  rw [mem_iff, fromBitsTruncate, BitVec.getLsbD_and, Bool.and_eq_true]
  exact Iff.rfl

@[simp] theorem mem_not : b ∈ ~~~p ↔ b ∉ p ∧ b ∈ all := by
  show b ∈ fromBitsTruncate (~~~p.bits) ↔ _
  rw [mem_fromBitsTruncate, BitVec.getLsbD_not, Bool.and_eq_true, decide_eq_true_iff, Bool.not_eq_true',
    ← Bool.not_eq_true]
  exact ⟨fun h => ⟨h.1.2, h.2⟩, fun h => ⟨⟨lt_of_mem h.2, h.1⟩, h.2⟩⟩

theorem contains_iff : p.contains q = true ↔ q ⊆ p := by
  rw [contains, decide_eq_true_iff, subset_iff]
  constructor
  · intro h b hb
    rw [mem_iff, ← h, BitVec.getLsbD_and, Bool.and_eq_true] at hb
    exact hb.1
  · intro h
    refine BitVec.eq_of_getLsbD_eq fun i _ => ?_
    rw [BitVec.getLsbD_and, Bool.eq_iff_iff, Bool.and_eq_true]
    exact ⟨And.right, fun hq => ⟨h i hq, hq⟩⟩

instance (p q : Permissions) : Decidable (p ⊆ q) := decidable_of_iff (q.contains p = true) contains_iff

theorem contains_administrator : p.contains administrator = true ↔ 0 ∈ p := by
  have hadmin : ∀ b, b ∈ administrator ↔ b = 0 := by
    intro b
    rw [mem_iff, administrator, flag, BitVec.getLsbD_twoPow]
    simp [eq_comm]
  simp only [contains_iff, subset_iff, hadmin, forall_eq]

/-- bits that are none of `p`'s, as the escalation checks compute them -/
theorem and_not_eq_zero {x : BitVec 64} : x &&& ~~~p.bits = 0#64 ↔ ∀ b, x.getLsbD b = true → b ∈ p := by
  constructor
  · intro h b hb
    have hand : (x &&& ~~~p.bits).getLsbD b = false := by
      rw [h]
      exact BitVec.getLsbD_zero
    have hlt : b < 64 := BitVec.lt_of_getLsbD hb
    simp only [BitVec.getLsbD_and, BitVec.getLsbD_not, hb, hlt, decide_true, Bool.true_and, Bool.not_eq_false'] at hand
    exact hand
  · intro h
    refine BitVec.eq_of_getLsbD_eq fun i _ => ?_
    rw [BitVec.getLsbD_and, BitVec.getLsbD_not, BitVec.getLsbD_zero]
    rcases hx : x.getLsbD i with _ | _
    · rfl
    · rw [mem_iff.1 (h i hx)]
      simp

/-- the union of a list of column values, each truncated -/
def union (l : List (BitVec 64)) : Permissions := l.foldl (fun perms bits => perms ||| fromBitsTruncate bits) empty

theorem mem_foldl_or {α : Type} (f : α → Permissions) (l : List α) (p : Permissions) :
    b ∈ l.foldl (fun perms x => perms ||| f x) p ↔ b ∈ p ∨ ∃ x ∈ l, b ∈ f x := by
  induction l generalizing p with
  | nil => simp
  | cons x l ih => simp [ih, or_assoc]

theorem mem_union {l : List (BitVec 64)} : b ∈ union l ↔ b ∈ all ∧ ∃ x ∈ l, x.getLsbD b = true := by
  rw [union, mem_foldl_or fromBitsTruncate]
  simp only [not_mem_empty, mem_fromBitsTruncate, false_or]
  exact ⟨fun ⟨x, hx, hb, ha⟩ => ⟨ha, x, hx, hb⟩, fun ⟨ha, x, hx, hb⟩ => ⟨x, hx, hb, ha⟩⟩

end Permissions

/-! ## The permission algorithm -/

open Permissions

structure PermissionOverride where
  targetId : ℤ
  /-- 0 = role, 1 = member -/
  targetType : ℤ
  allow : Permissions
  deny : Permissions
deriving DecidableEq, Repr

/-- the override of a target, if the channel has one -/
def overrideOf (overrides : List PermissionOverride) (targetId targetType : ℤ) : Option PermissionOverride :=
  overrides.find? fun o => o.targetId = targetId && o.targetType = targetType

def applyOverride (permissions : Permissions) : Option PermissionOverride → Permissions
  | some ov => (permissions &&& ~~~ov.deny) ||| ov.allow
  | none => permissions

def basePermissions (memberRoleIds : List ℤ) (everyoneRolePermissions : BitVec 64)
    (rolePermissions : List (ℤ × BitVec 64)) : Permissions :=
  memberRoleIds.foldl (fun permissions roleId =>
    match rolePermissions.find? fun r => r.1 = roleId with
    | some (_, bits) => permissions ||| fromBitsTruncate bits
    | none => permissions) (fromBitsTruncate everyoneRolePermissions)

/-- what the overrides of the listed roles allow, and what they deny -/
def roleOverrides (memberRoleIds : List ℤ) (overrides : List PermissionOverride) : Permissions × Permissions :=
  memberRoleIds.foldl (fun (roleAllow, roleDeny) roleId =>
    match overrideOf overrides roleId 0 with
    | some ov => (roleAllow ||| ov.allow, roleDeny ||| ov.deny)
    | none => (roleAllow, roleDeny)) (empty, empty)

def computePermissions (isOwner : Bool) (memberRoleIds : List ℤ) (everyoneRolePermissions : BitVec 64)
    (rolePermissions : List (ℤ × BitVec 64)) (channelOverrides : Option (List PermissionOverride))
    (memberId serverId : ℤ) : Permissions :=
  if isOwner then all
  else
    let permissions := basePermissions memberRoleIds everyoneRolePermissions rolePermissions
    if permissions.contains administrator then all
    else
      match channelOverrides with
      | none => permissions
      | some overrides =>
        let permissions := applyOverride permissions (overrideOf overrides serverId 0)
        let (roleAllow, roleDeny) := roleOverrides memberRoleIds overrides
        let permissions := (permissions &&& ~~~roleDeny) ||| roleAllow
        applyOverride permissions (overrideOf overrides memberId 1)

/-- the override allows bit `b`, if there is one -/
def Allows (b : ℕ) (o : Option PermissionOverride) : Prop := ∃ ov ∈ o, b ∈ ov.allow

def Denies (b : ℕ) (o : Option PermissionOverride) : Prop := ∃ ov ∈ o, b ∈ ov.deny

section Layers

variable {memberRoleIds : List ℤ} {everyoneRolePermissions : BitVec 64} {rolePermissions : List (ℤ × BitVec 64)}
  {overrides : List PermissionOverride} {permissions : Permissions} {b : ℕ}

theorem mem_applyOverride (hb : b ∈ all) {o : Option PermissionOverride} :
    b ∈ applyOverride permissions o ↔ Allows b o ∨ ¬ Denies b o ∧ b ∈ permissions := by
  cases o with
  | none => simp [applyOverride, Allows, Denies]
  | some ov =>
    simp only [applyOverride, Allows, Denies, mem_or, mem_and, mem_not, Option.mem_def, Option.some.injEq,
      exists_eq_left']
    tauto

theorem mem_basePermissions :
    b ∈ basePermissions memberRoleIds everyoneRolePermissions rolePermissions ↔
      b ∈ all ∧ (everyoneRolePermissions.getLsbD b = true ∨
        ∃ roleId ∈ memberRoleIds, ∃ r, rolePermissions.find? (fun r => r.1 = roleId) = some r ∧
          r.2.getLsbD b = true) := by
  have hfold : basePermissions memberRoleIds everyoneRolePermissions rolePermissions =
      memberRoleIds.foldl (fun permissions roleId => permissions |||
        ((rolePermissions.find? fun r => r.1 = roleId).elim empty fun r => fromBitsTruncate r.2))
      (fromBitsTruncate everyoneRolePermissions) := by
    rw [basePermissions]
    congr 1
    funext permissions roleId
    generalize List.find? _ rolePermissions = o
    cases o with
    | none => exact ext fun b => by simp
    | some r => rfl
  rw [hfold, mem_foldl_or, mem_fromBitsTruncate]
  have hone : ∀ o : Option (ℤ × BitVec 64), b ∈ o.elim empty (fun r => fromBitsTruncate r.2) ↔
      b ∈ all ∧ ∃ r, o = some r ∧ r.2.getLsbD b = true := by
    intro o
    cases o <;> simp [and_comm]
  simp only [hone]
  constructor
  · rintro (⟨h, ha⟩ | ⟨id, hid, ha, h⟩)
    · exact ⟨ha, .inl h⟩
    · exact ⟨ha, .inr ⟨id, hid, h⟩⟩
  · rintro ⟨ha, h | ⟨id, hid, h⟩⟩
    · exact .inl ⟨h, ha⟩
    · exact .inr ⟨id, hid, ha, h⟩

theorem roleOverrides_aux (ids : List ℤ) (acc : Permissions × Permissions) :
    (b ∈ (ids.foldl (fun (roleAllow, roleDeny) roleId =>
      match overrideOf overrides roleId 0 with
      | some ov => (roleAllow ||| ov.allow, roleDeny ||| ov.deny)
      | none => (roleAllow, roleDeny)) acc).1 ↔ b ∈ acc.1 ∨ ∃ id ∈ ids, Allows b (overrideOf overrides id 0)) ∧
    (b ∈ (ids.foldl (fun (roleAllow, roleDeny) roleId =>
      match overrideOf overrides roleId 0 with
      | some ov => (roleAllow ||| ov.allow, roleDeny ||| ov.deny)
      | none => (roleAllow, roleDeny)) acc).2 ↔ b ∈ acc.2 ∨ ∃ id ∈ ids, Denies b (overrideOf overrides id 0)) := by
  induction ids generalizing acc with
  | nil => simp
  | cons id ids ih =>
    rw [List.foldl_cons, (ih _).1, (ih _).2]
    rcases h : overrideOf overrides id 0 with _ | ov <;> simp [h, Allows, Denies, or_assoc]

theorem mem_roleOverrides_fst : b ∈ (roleOverrides memberRoleIds overrides).1 ↔
    ∃ id ∈ memberRoleIds, Allows b (overrideOf overrides id 0) := by
  rw [roleOverrides, (roleOverrides_aux memberRoleIds (empty, empty)).1]
  simp

theorem mem_roleOverrides_snd : b ∈ (roleOverrides memberRoleIds overrides).2 ↔
    ∃ id ∈ memberRoleIds, Denies b (overrideOf overrides id 0) := by
  rw [roleOverrides, (roleOverrides_aux memberRoleIds (empty, empty)).2]
  simp

/-- **The three override layers, member over roles over everyone.** -/
theorem mem_computePermissions {memberId serverId : ℤ}
    (hadmin : ¬ administrator ⊆ basePermissions memberRoleIds everyoneRolePermissions rolePermissions) (hb : b ∈ all) :
    b ∈ computePermissions false memberRoleIds everyoneRolePermissions rolePermissions (some overrides) memberId
        serverId ↔
      Allows b (overrideOf overrides memberId 1) ∨ ¬ Denies b (overrideOf overrides memberId 1) ∧
        ((∃ id ∈ memberRoleIds, Allows b (overrideOf overrides id 0)) ∨
          (¬ ∃ id ∈ memberRoleIds, Denies b (overrideOf overrides id 0)) ∧
            (Allows b (overrideOf overrides serverId 0) ∨ ¬ Denies b (overrideOf overrides serverId 0) ∧
              b ∈ basePermissions memberRoleIds everyoneRolePermissions rolePermissions)) := by
  rw [← contains_iff] at hadmin
  simp only [computePermissions, Bool.false_eq_true, if_false, if_neg hadmin, mem_applyOverride hb, mem_or, mem_and,
    mem_not, mem_roleOverrides_fst, mem_roleOverrides_snd]
  refine or_congr_right (and_congr_right fun _ => ?_)
  constructor
  · rintro (⟨he, hd, -⟩ | ha)
    · exact .inr ⟨hd, he⟩
    · exact .inl ha
  · rintro (ha | ⟨hd, he⟩)
    · exact .inr ha
    · exact .inl ⟨he, hd, hb⟩

end Layers

end Lumiere
