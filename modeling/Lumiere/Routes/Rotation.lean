/-
Is a refresh token good for one refresh only?

- `Exclusive`: no request finds the session of a token while another one has read it and not sent its DEL yet.
- `refresh_single_use`: in a run of such turns at most one of the requests that present a token succeeds.
- `doubleRefreshTrace`: two requests both read the session before either deletes it, and both succeed.
-/
import Lumiere.Routes.AuthStages
import Mathlib.Data.Fin.VecNotation

namespace Lumiere.Routes

open Lumiere.Core Lumiere.Core.Prog Lumiere.Models Lumiere.Db Lumiere.Auth

/-! ## One token -/

namespace AuthStage

/-- the token whose session the request has read and is about to delete -/
def deletes : AuthStage → Option String
  | .refreshDel jti .. => some jti
  | _ => none

/-- the old session is deleted -/
def rotated : AuthStage → Bool
  | .refreshRem .. | .refreshSet .. | .refreshAdd .. | .ok _ => true
  | _ => false

/-- a refresh of the token that stores its successor under another id -/
def Refreshes (jti : String) : AuthStage → Prop
  | .refresh jti' d | .refreshDel jti' _ _ d | .refreshRem jti' _ _ d => jti' = jti ∧ d.refreshJti ≠ jti
  | .refreshSet _ d _ | .refreshAdd _ d _ => d.refreshJti ≠ jti
  | .ok _ | .failed _ => True
  | _ => False

theorem Refreshes.refreshes {jti : String} {t : AuthStage} (h : t.Refreshes jti) : t.refreshes = true := by
  cases t with
  | deleteMe | deleteMeServers | deleteMeUpdate | revokeAll | revokeEach => exact h.elim
  | _ => rfl

end AuthStage

section SingleUse

variable {jwt : Jwt} {config : AuthConfig} {verifyPassword : String → String → Except String Bool} {e : AppError}
variable {ι : Type}

/-- no request finds the session of a token that another one is about to delete -/
def Exclusive (s : Pool ι AuthStage Stores) : Turn ι Outside → Prop
  | .advance i =>
    match s.task i with
    | .refresh jti _ => (s.shared.redis.get jti).isSome = true → ∀ j, (s.task j).deletes ≠ some jti
    | _ => True
  | _ => True

instance [Fintype ι] (s : Pool ι AuthStage Stores) : (t : Turn ι Outside) → Decidable (Exclusive s t)
  | .advance i => by
    rw [Exclusive]
    cases s.task i <;> dsimp only <;> infer_instance
  | .interrupt _ => isTrue trivial
  | .outside _ => isTrue trivial

/-- what one command of a refresh of the token does -/
structure RefreshStep (jti : String) (t : AuthStage) (r : Redis) (t' : AuthStage) (r' : Redis) : Prop where
  refreshes : t'.Refreshes jti
  deletes : t'.deletes = some jti → (∃ d, t = .refresh jti d) ∧ (r.get jti).isSome = true
  rotated : t'.rotated = true → t.rotated = true ∨ t.deletes = some jti ∧ r'.get jti = none
  gone : r.get jti = none → r'.get jti = none

theorem refreshStep {ttlSeconds : ℕ} {jti : String} {t t' : AuthStage} {r r' : Redis} (h : t.Refreshes jti)
    (hstep : Refreshing ttlSeconds t r t' r') : RefreshStep jti t r t' r' := by
  cases hstep with
  | fails e => exact ⟨trivial, nofun, nofun, id⟩
  | gets userId d hget =>
    obtain ⟨rfl, hd⟩ := h
    exact ⟨⟨rfl, hd⟩, fun _ => ⟨⟨d, rfl⟩, by rw [hget]; rfl⟩, nofun, id⟩
  | deletes session userId d hw =>
    obtain ⟨hj, hd⟩ := h
    have hget : r'.get jti = none := by rw [(exec_del _ hw).2, if_pos hj.symm]
    exact ⟨⟨hj, hd⟩, nofun, fun _ => .inr ⟨congrArg some hj, hget⟩, fun _ => hget⟩
  | removes userId d response hw =>
    exact ⟨h.2, nofun, fun _ => .inl rfl, fun hget => by rw [(exec_srem _ _ hw).1, hget]⟩
  | unsigned userId d e hw => exact ⟨trivial, nofun, nofun, fun hget => by rw [(exec_srem _ _ hw).1, hget]⟩
  | stores response hw =>
    exact ⟨h, nofun, fun _ => .inl rfl, fun hget => by rw [(exec_setEx _ hw).2, if_neg (Ne.symm h), hget]⟩
  | lists response hw => exact ⟨trivial, nofun, fun _ => .inl rfl, fun hget => by rw [(exec_sadd _ _ hw).1, hget]⟩
  | rests response => exact ⟨trivial, nofun, fun _ => .inl rfl, id⟩

/-- the request has found the session of the token -/
def AuthStage.Granted (jti : String) (t : AuthStage) : Prop := t.deletes = some jti ∨ t.rotated = true

structure SingleUse (jti : String) (s : Pool ι AuthStage Stores) : Prop where
  refreshes : ∀ i, (s.task i).Refreshes jti
  one : ∀ i j, (s.task i).Granted jti → (s.task j).Granted jti → i = j
  gone : ∀ i, (s.task i).rotated = true → s.shared.redis.get jti = none

theorem granted_next {jti : String} {s : Pool ι AuthStage Stores} {i : ι} {t' : AuthStage} {s' : Stores}
    (h : SingleUse jti s) (hok : Exclusive s (.advance i)) (hstep : RefreshStep jti (s.task i) s.shared.redis t' s'.redis)
    (hg : t'.Granted jti) : (s.task i).Granted jti ∨ ∀ j, ¬ (s.task j).Granted jti := by
  rcases hg with hdel | hrot
  · obtain ⟨⟨d, hd⟩, hget⟩ := hstep.deletes hdel
    right
    rintro j (hj | hj)
    · rw [Exclusive, hd] at hok
      exact hok hget j hj
    · rw [h.gone j hj] at hget
      cases hget
  · exact .inl ((hstep.rotated hrot).symm.imp_left And.left)

theorem singleUse_start {jti token : String} {draws : ι → Draw} (s : Stores)
    (hjti : ∀ claims, jwt.decode token = some claims → claims.jti = jti ∧ ∀ i, (draws i).refreshJti ≠ jti) :
    SingleUse jti ⟨fun i => AuthStage.ofRefresh jwt token (draws i), s⟩ := by
  have hstart : ∀ i, (∃ e, AuthStage.ofRefresh jwt token (draws i) = .failed e) ∨
      (draws i).refreshJti ≠ jti ∧ AuthStage.ofRefresh jwt token (draws i) = .refresh jti (draws i) := by
    intro i
    rw [AuthStage.ofRefresh]
    rcases hverify : verifyToken jwt token (draws i).verifiedAt with _ | claims
    · exact .inl ⟨_, rfl⟩
    · obtain ⟨rfl, hdraws⟩ := hjti claims (decode_of_verifyToken hverify)
      dsimp only
      split_ifs
      · exact .inl ⟨_, rfl⟩
      · exact .inr ⟨hdraws i, rfl⟩
  have hungranted : ∀ i, ¬ (AuthStage.ofRefresh jwt token (draws i)).Granted jti := by
    intro i hg
    rcases hstart i with ⟨e, he⟩ | ⟨_, he⟩ <;> rw [he] at hg <;> rcases hg with hg | hg <;> cases hg
  refine ⟨fun i => ?_, fun i j hi => (hungranted i hi).elim, fun i hi => (hungranted i (.inr hi)).elim⟩
  show (AuthStage.ofRefresh jwt token (draws i)).Refreshes jti
  rcases hstart i with ⟨e, he⟩ | ⟨hd, he⟩
  · rw [he]
    trivial
  · rw [he]
    exact ⟨rfl, hd⟩

variable [DecidableEq ι]

theorem singleUse_step {jti : String} (s : Pool ι AuthStage Stores) (t : Turn ι Outside) (hok : Exclusive s t)
    (h : SingleUse jti s) : SingleUse jti (authStep jwt config verifyPassword e s t) := by
  cases t with
  | advance i =>
    rcases hnext : (s.task i).next jwt config verifyPassword s.shared with ⟨t', s'⟩
    have hstep := refreshStep (h.refreshes i) (refreshing_next (h.refreshes i).refreshes hnext)
    have hgranted : t'.Granted jti → ∀ j, j ≠ i → ¬ (s.task j).Granted jti := by
      intro hg j hj hgj
      rcases granted_next h hok hstep hg with hi | hnone
      · exact hj (h.one j i hgj hi)
      · exact hnone j hgj
    refine ⟨fun j => ?_, fun j k => ?_, fun j => ?_⟩
    · rw [authStep_task hnext]
      split_ifs
      · exact hstep.refreshes
      · exact h.refreshes j
    · refine Pool.sole_step (fun _ => Pool.advance_other) h.one (fun hg => hgranted ?_) j k
      exact (Pool.advance_own hnext).symm ▸ hg
    · rw [authStep_task hnext, authStep_shared hnext]
      split_ifs with hj
      · intro hrot
        rcases hstep.rotated hrot with hr | ⟨_, hgone⟩
        · exact hstep.gone (h.gone i hr)
        · exact hgone
      · exact fun hrot => hstep.gone (h.gone j hrot)
  | interrupt i =>
    have hstop : ∀ t : AuthStage, t.Refreshes jti → (t.stop e).Refreshes jti ∧
        ((t.stop e).Granted jti → t.Granted jti) ∧ ((t.stop e).rotated = true → t.rotated = true) := by
      intro t ht
      cases t with
      | ok response => exact ⟨trivial, id, id⟩
      | _ => exact ⟨trivial, (fun hg => by rcases hg with hg | hg <;> cases hg), nofun⟩
    have htask : ∀ j, ((authStep jwt config verifyPassword e s (.interrupt i)).task j).Refreshes jti ∧
        (((authStep jwt config verifyPassword e s (.interrupt i)).task j).Granted jti → (s.task j).Granted jti) ∧
        (((authStep jwt config verifyPassword e s (.interrupt i)).task j).rotated = true → (s.task j).rotated = true) := by
      intro j
      rw [authStep_interrupt]
      split_ifs with hj
      · subst hj
        exact hstop _ (h.refreshes j)
      · exact ⟨h.refreshes j, id, id⟩
    exact ⟨fun j => (htask j).1, fun j k hj hk => h.one j k ((htask j).2.1 hj) ((htask k).2.1 hk),
      fun j hj => h.gone j ((htask j).2.2 hj)⟩
  | outside o =>
    refine ⟨h.refreshes, h.one, fun i hi => ?_⟩
    have hgone := h.gone i hi
    cases o with
    | pg pg => exact hgone
    | time ms =>
      rw [Option.eq_none_iff_forall_ne_some] at hgone ⊢
      exact fun session hs => hgone session (get_of_tick _ _ hs)

/-- **Refresh tokens are single use.** In a run of exclusive turns, of any number of requests that present one token and
draw new token ids at most one succeeds. -/
theorem refresh_single_use (jwt : Jwt) (config : AuthConfig) (verifyPassword : String → String → Except String Bool)
    (e : AppError) (token : String) (draws : ι → Draw) (s : Stores) (ts : List (Turn ι Outside)) :
    (∀ claims, jwt.decode token = some claims → ∀ i, (draws i).refreshJti ≠ claims.jti) →
      Every (authStep jwt config verifyPassword e) Exclusive ⟨fun i => .ofRefresh jwt token (draws i), s⟩ ts →
      let requests := run (authProgStep e) ⟨fun i => onRedis (refresh jwt config token (draws i)), s⟩ ts
      ∀ i j, (requests.task i).succeeded = true → (requests.task j).succeeded = true → i = j := by
  intro hdraws hts requests i j hi hj
  have hrun : requests = (run (authStep jwt config verifyPassword e) ⟨fun i => .ofRefresh jwt token (draws i), s⟩ ts).map
      (AuthStage.prog jwt config verifyPassword) := by
    rw [← authStage_programs]
    simp only [requests, Pool.map, prog_ofRefresh]
  obtain ⟨jti, hjti⟩ : ∃ jti, ∀ claims, jwt.decode token = some claims →
      claims.jti = jti ∧ ∀ i, (draws i).refreshJti ≠ jti := by
    rcases hdecode : jwt.decode token with _ | claims
    · exact ⟨"", by simp⟩
    · refine ⟨claims.jti, fun claims' hc => ?_⟩
      obtain rfl := Option.some.inj hc
      exact ⟨rfl, hdraws claims hdecode⟩
  have h : SingleUse jti (run (authStep jwt config verifyPassword e) _ ts) :=
    run_inv_of_every singleUse_step (singleUse_start s hjti) hts
  rw [hrun] at hi hj
  obtain ⟨_, hi⟩ := ok_of_succeeded hi
  obtain ⟨_, hj⟩ := ok_of_succeeded hj
  exact h.one i j (.inr (by rw [hi]; rfl)) (.inr (by rw [hj]; rfl))

end SingleUse

/-! ## Two requests -/

/-- signs the claims of user 7 with the token id -/
def sampleJwt : Jwt where
  encode c := .ok (c.jti ++ ".signed")
  decode token := if token = "a.signed" then some ⟨"7", 1000, 0, "a", .refresh⟩ else none

def sampleConfig : AuthConfig := ⟨900, 1000⟩

/-- user 7 has one session, under the token id `a` -/
def signedIn : Stores where
  pg := ⟨.empty, .empty, .empty, .empty, .empty, .empty, .empty, .empty, .empty, .empty⟩
  redis :=
    { now := 0, refresh := fun jti => if jti = "a" then some ⟨⟨"7", "a", none, none, 0, 0⟩, 1000000⟩ else none,
      userSessions := fun userId => if userId = "7" then ["a"] else [] }

def sampleDraws : Fin 2 → Draw := ![⟨5, 5, "x", 5, "b", 5⟩, ⟨5, 5, "y", 5, "c", 5⟩]

/-- the second request reads the session once the first one has deleted it -/
def oneAfterTheOtherTrace : List (Turn (Fin 2) Outside) :=
  [.advance 0, .advance 0, .advance 1, .outside (.time 5), .advance 0, .advance 0, .advance 0]

theorem refresh_single_use_oneAfterTheOther :
    let requests := run (authProgStep (redisErr "lost"))
      ⟨fun i => onRedis (refresh sampleJwt sampleConfig "a.signed" (sampleDraws i)), signedIn⟩ oneAfterTheOtherTrace
    ∀ i j, (requests.task i).succeeded = true → (requests.task j).succeeded = true → i = j :=
  refresh_single_use sampleJwt sampleConfig (fun _ _ => .ok true) (redisErr "lost") "a.signed" sampleDraws signedIn
    oneAfterTheOtherTrace
    (by intro claims h; obtain rfl := Option.some.inj h; decide) (by decide)

/-- both requests read the session, then both go on -/
def doubleRefreshTrace : List (Turn (Fin 2) Outside) :=
  [.advance 0, .advance 1, .advance 0, .advance 1, .advance 0, .advance 1, .advance 0, .advance 1, .advance 0, .advance 1]

/-- **One token, two new pairs.** -/
theorem refreshed_twice :
    let requests := run (authProgStep (redisErr "lost"))
      ⟨fun i => onRedis (refresh sampleJwt sampleConfig "a.signed" (sampleDraws i)), signedIn⟩ doubleRefreshTrace
    (requests.task 0).succeeded = true ∧ (requests.task 1).succeeded = true := by
  decide

end Lumiere.Routes
