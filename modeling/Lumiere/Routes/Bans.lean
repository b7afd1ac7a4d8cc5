/-
Bans and members side by side. `create_ban` removes the member in one statement and records the ban in the next;
`use_invite` looks for a ban and inserts the member in one transaction. A join between the two statements of a ban finds
no ban, and the ban is then recorded for a member.

- `NoBannedMember`: nobody is both banned and a member.
- `BansNonMember`: a ban that is recorded is recorded for a user who is no member at that moment.
  `no_banned_member_iff`: nobody is both at any moment of an interleaving exactly if all its bans are recorded so.
- `join_between`: the interleaving of one ban and one join.
-/
import Lumiere.Routes.Concurrent

namespace Lumiere.Routes

open Lumiere.Core Lumiere.Core.Prog Lumiere.Models Lumiere.Db

/-- the requests that ban, kick, leave or join -/
def Request.moderates : Request → Bool
  | .createBan .. | .removeBan .. | .kickMember .. | .leaveServer .. | .useInvite .. => true
  | _ => false

def NoBannedMember (pg : Postgres) : Prop := ∀ b ∈ pg.bans.rows, pg.hasMember b.serverId b.userId = false

instance (pg : Postgres) : Decidable (NoBannedMember pg) :=
  inferInstanceAs (Decidable (∀ b ∈ pg.bans.rows, pg.hasMember b.serverId b.userId = false))

/-- the ban that a statement records -/
def banned? : Sql → Option Ban
  | .upsertBan row => some row
  | _ => none

/-- a ban is recorded for a user who is no member when it is recorded -/
def BansNonMember (w : Sql) (pg : Postgres) : Prop :=
  ∀ row ∈ banned? w, (statement w pg).isOk = true → pg.hasMember row.serverId row.userId = false

instance (w : Sql) (pg : Postgres) : Decidable (BansNonMember w pg) :=
  inferInstanceAs (Decidable (∀ row ∈ banned? w, (statement w pg).isOk = true →
    pg.hasMember row.serverId row.userId = false))

variable {pg pg' : Postgres} {w : Sql} {n : ℕ}

theorem noBannedMember_iff :
    NoBannedMember pg ↔
      ∀ {serverId userId}, pg.isBanned serverId userId = true → pg.hasMember serverId userId = false := by
  constructor
  · intro h serverId userId hb
    obtain ⟨b, hmem, rfl, rfl⟩ := isBanned_iff.1 hb
    exact h b hmem
  · intro h b hb
    exact h (isBanned_iff.2 ⟨b, hb, rfl, rfl⟩)

/-! ## What a step can do -/

/-- a statement that makes nobody a member, and bans no member, keeps the banned and the members apart -/
theorem exec_noBannedMember (h : Sql.exec pg w = .ok (n, pg')) (hw : ∀ row, w ≠ .insertServerMember row)
    (hban : BansNonMember w pg) (hpg : NoBannedMember pg) : NoBannedMember pg' := by
  rw [noBannedMember_iff] at hpg ⊢
  intro serverId userId hb
  have hmember := exec_hasMember serverId userId h
  have hnot : pg.hasMember serverId userId = false := by
    rcases exec_isBanned h hb with hold | ⟨row, rfl, rfl, rfl⟩
    · exact hpg hold
    · exact hban row rfl (by rw [statement_eq_ok.2 h]; rfl)
  cases w with
  | insertServerMember row => exact absurd rfl (hw row)
  | deleteServer id => exact Bool.eq_false_iff.2 fun hm => by simp [(hmember.1 hm).1] at hnot
  | deleteServerMember id member => exact Bool.eq_false_iff.2 fun hm => by simp [(hmember.1 hm).1] at hnot
  | _ => exact hmember.trans hnot

/-- a join makes a user a member who is not banned -/
theorem Joined.noBannedMember {auth : ℤ} {invite : Invite} {now : DateTime} (h : Joined auth invite now pg pg')
    (hpg : NoBannedMember pg) : NoBannedMember pg' := by
  rw [noBannedMember_iff] at hpg ⊢
  intro serverId userId hb
  have hold := h.isBanned hb
  rw [← Bool.not_eq_true, h.hasMember]
  rintro (hmember | ⟨rfl, rfl⟩)
  · rw [hpg hold] at hmember
    cases hmember
  · rw [h.notBanned] at hold
    cases hold

abbrev Apart {α : Type} (p : Handler α) : Prop := p.Keeps statement BansNonMember NoBannedMember

theorem apart_execute (hw : ∀ row, w ≠ .insertServerMember row) : Apart (execute w) :=
  keeps_execute fun _ _ _ hban hpg h => exec_noBannedMember (statement_eq_ok.1 h) hw hban hpg

theorem apart_affected (hw : ∀ row, w ≠ .insertServerMember row) : Apart (affected w) :=
  keeps_affected fun _ _ _ hban hpg h => exec_noBannedMember (statement_eq_ok.1 h) hw hban hpg

variable {auth serverId userId : ℤ}

theorem apart_failIf {c : Prop} [Decidable c] {e : AppError} : Apart (failIf c e) := ReadOnly.keeps (issues_failIf _ _)

theorem apart_kickMember : Apart (kickMember auth serverId userId) :=
  keeps_bind readOnly_requirePermissions.keeps fun _ => keeps_bind readOnly_refuseOwner.keeps fun _ =>
    keeps_bind readOnly_checkRoleHierarchy.keeps fun _ => keeps_bind (apart_affected (by simp)) fun _ =>
      keeps_bind apart_failIf fun _ => apart_execute (by simp)

theorem apart_leaveServer : Apart (leaveServer auth serverId) :=
  keeps_bind readOnly_refuseOwner.keeps fun _ => keeps_bind (apart_affected (by simp)) fun _ =>
    keeps_bind apart_failIf fun _ => apart_execute (by simp)

theorem apart_createBan {reason : Option String} : Apart (createBan auth serverId userId reason) :=
  keeps_bind readOnly_requirePermissions.keeps fun _ => keeps_bind readOnly_refuseOwner.keeps fun _ =>
    keeps_bind readOnly_checkRoleHierarchy.keeps fun _ => keeps_bind (apart_execute (by simp)) fun _ =>
      keeps_bind (apart_execute (by simp)) fun _ => apart_execute (by simp)

theorem apart_removeBan : Apart (removeBan auth serverId userId) :=
  keeps_bind readOnly_requirePermissions.keeps fun _ => keeps_bind (apart_affected (by simp)) fun _ => apart_failIf

theorem apart_useInvite {code : String} {now : DateTime} : Apart (useInvite auth code now) := by
  rw [useInvite_eq]
  refine keeps_bind (keeps_atomically fun pg serverId pg' hpg h => ?_) fun _ => readOnly_fetchServer.keeps
  obtain ⟨invite, -, -, ⟨-, rfl⟩ | hjoined⟩ := inviteTx_eq_ok h
  · exact hpg
  · exact hjoined.noBannedMember hpg

theorem apart_respond {α : Type} {h : Handler α} (hh : Apart h) : Apart (respond h) := keeps_bind hh fun _ => trivial

theorem apart_handle (verifyPassword : String → String → Except String Bool) {r : Request} (hr : r.moderates = true) :
    Apart (r.handle verifyPassword) := by
  cases r with
  | createBan => exact apart_createBan
  | removeBan => exact apart_removeBan
  | kickMember => exact apart_kickMember
  | leaveServer => exact apart_leaveServer
  | useInvite => exact apart_respond apart_useInvite
  | _ => cases hr

/-! ## Runs -/

variable {ι : Type} [DecidableEq ι] (verifyPassword : String → String → Except String Bool)

/-- recorded for a member, a ban makes the member banned at once -/
theorem banned_of_upsertBan {row : Ban} (h : Sql.exec pg (.upsertBan row) = .ok (n, pg')) (hpg' : NoBannedMember pg') :
    pg.hasMember row.serverId row.userId = false := by
  have hsame : pg'.hasMember row.serverId row.userId = pg.hasMember row.serverId row.userId :=
    exec_hasMember row.serverId row.userId h
  rw [← hsame]
  exact noBannedMember_iff.1 hpg' (isBanned_of_upsertBan h)

theorem bansNonMember_of_turn {s : Pool ι (Handler Unit) Postgres} {t : Turn ι Empty} (e : AppError)
    (h : NoBannedMember (turn e s t).shared) : Pool.Allows BansNonMember s t := by
  intro w hw row hrow hok
  cases t with
  | advance i =>
    have hshared : (turn e s (.advance i)).shared = ((s.task i).advance statement s.shared).2 := rfl
    rw [hshared] at h
    rcases hi : s.task i with _ | _ | _ | ⟨w', next⟩ | _ <;> simp only [Pool.executes, hi, pending] at hw <;> cases hw
    cases w with
    | upsertBan row' =>
      obtain rfl : row' = row := Option.some.inj hrow
      rcases hexec : statement (.upsertBan row') s.shared with e' | ⟨n, pg'⟩
      · rw [hexec] at hok
        cases hok
      · rw [hi, advance, hexec] at h
        exact banned_of_upsertBan (statement_eq_ok.1 hexec) h
    | _ => cases hrow
  | interrupt i => cases hw
  | outside k => exact k.elim

/-- **Nobody is both banned and a member exactly if no ban is recorded for a member.** A run interleaves any number of
requests statement by statement; `ts'` is any of its moments, those included in which all requests are over. -/
theorem no_banned_member_iff (r : ι → Request) (hr : ∀ i, (r i).moderates = true) (hpg : NoBannedMember pg)
    (e : AppError) (ts : List (Turn ι Empty)) :
    (∀ ts', ts' <+: ts → NoBannedMember (Core.run (turn e) (requests verifyPassword r pg) ts').shared) ↔
      Every (turn e) (Pool.Allows BansNonMember) (requests verifyPassword r pg) ts := by
  constructor
  · exact every_of_prefixes (I := fun s : Pool ι (Handler Unit) Postgres => NoBannedMember s.shared)
      fun s t => bansNonMember_of_turn e
  · intro hts ts' hprefix
    exact Pool.run_keeps (fun i => apart_handle verifyPassword (hr i)) hpg (fun _ k => k.elim) (hts.of_prefix hprefix)

/-! ## A join between the two statements -/

/-- user 1 bans user 2, who uses the invite -/
def banAndJoin : Fin 2 → Request
  | 0 => .createBan 1 100 2 none
  | 1 => .useInvite 2 "join" ⟨0⟩

/-- the ban as a whole, then the join, which is refused -/
def banFirst : List (Turn (Fin 2) Empty) := List.replicate 7 (.advance 0) ++ List.replicate 3 (.advance 1)

/-- the ban up to its DELETE, the join, then the rest of the ban -/
def joinBetween : List (Turn (Fin 2) Empty) :=
  List.replicate 5 (.advance 0) ++ List.replicate 2 (.advance 1) ++ List.replicate 2 (.advance 0)

theorem no_banned_member_banFirst :
    NoBannedMember
      (Core.run (turn (.internal "")) (requests (fun _ _ => .ok true) banAndJoin invited) banFirst).shared :=
  (no_banned_member_iff (fun _ _ => .ok true) banAndJoin (by decide) (by decide) (.internal "") banFirst).2 (by decide)
    banFirst List.prefix_rfl

/-- **User 2 is banned from the server and a member of it, and both requests are over.** -/
theorem join_between :
    (∀ i, (banAndJoin i).moderates = true) ∧ NoBannedMember invited ∧
      let s := Core.run (turn (.internal "")) (requests (fun _ _ => .ok true) banAndJoin invited) joinBetween
      (∀ i, (s.task i).finished = true) ∧ s.shared.isBanned 100 2 = true ∧ s.shared.hasMember 100 2 = true ∧
        ¬ NoBannedMember s.shared := by
  decide

end Lumiere.Routes
