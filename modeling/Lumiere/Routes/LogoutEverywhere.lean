/-
Is logging out everywhere final? One `logout`, `logout_all` or `delete_me` of a user next to any number of refreshes.

- `FreshIds`: the ids under which refreshes store new sessions stay unused until then.
- `Settled`: no refresh of the user stores a session once the logout has read the set of ids, or has one stored but not
  listed when the logout reads it.
- `logout_final`: in a run of such turns, once the logout has succeeded no session of the user is stored, and no refresh
  reads one.
- `survivingTrace`: a refresh between DEL and SETEX while the logout runs leaves a session behind.
-/
import Lumiere.Routes.Rotation

namespace Lumiere.Routes

open Lumiere.Core Lumiere.Core.Prog Lumiere.Models Lumiere.Db Lumiere.Auth

/-! ## Token ids -/

namespace AuthStage

/-- the id under which the request will store its successor -/
def awaits : AuthStage → Option String
  | .refresh _ d | .refreshDel _ _ _ d | .refreshRem _ _ _ d | .refreshSet _ d _ => some d.refreshJti
  | _ => none

/-- the id of a session that the request has read and not yet taken off the list -/
def holds : AuthStage → Option String
  | .refreshDel jti .. | .refreshRem jti .. => some jti
  | _ => none

/-- the id that the request has deleted and not yet taken off the list -/
def removes : AuthStage → Option String
  | .refreshRem jti .. => some jti
  | _ => none

end AuthStage

/-- what a command does to the ids of its request -/
structure IdStep (t : AuthStage) (r : Redis) (t' : AuthStage) (r' : Redis) : Prop where
  awaits : ∀ j, t'.awaits = some j → t.awaits = some j
  holds : ∀ j, t'.holds = some j → t.holds = some j ∨ r.get j ≠ none
  removes : ∀ j, t'.removes = some j → r'.get j = none
  stored : ∀ j, r'.get j ≠ none → r.get j ≠ none ∨ t.awaits = some j ∧ t'.awaits = none

theorem idStep_quiet {t t' : AuthStage} {r r' : Redis} (hawaits : t'.awaits = none) (hholds : t'.holds = none)
    (hremoves : t'.removes = none) (hget : ∀ j, r'.get j ≠ none → r.get j ≠ none) : IdStep t r t' r' :=
  ⟨by simp [hawaits], by simp [hholds], by simp [hremoves], fun j hj => .inl (hget j hj)⟩

theorem get_of_del {jti : String} {r r' : Redis} {n : ℕ} (hw : Command.exec (.del jti) r = .ok (n, r')) (j : String)
    (hj : r'.get j ≠ none) : r.get j ≠ none := by
  rw [(exec_del jti hw).2] at hj
  split_ifs at hj
  · exact (hj rfl).elim
  · exact hj

theorem idStep_refreshing {ttlSeconds : ℕ} {t t' : AuthStage} {r r' : Redis}
    (h : Refreshing ttlSeconds t r t' r') : IdStep t r t' r' := by
  cases h with
  | fails e => exact idStep_quiet rfl rfl rfl fun _ => id
  | gets userId d hget =>
    refine ⟨fun j hj => hj, fun j hj => .inr ?_, nofun, fun j hj => .inl hj⟩
    obtain rfl := Option.some.inj hj
    simp [hget]
  | deletes session userId d hw =>
    refine ⟨fun j hj => hj, fun j hj => .inl hj, fun j hj => ?_, fun j hj => .inl (get_of_del hw j hj)⟩
    obtain rfl := Option.some.inj hj
    rw [(exec_del _ hw).2, if_pos rfl]
  | removes userId d response hw =>
    exact ⟨fun j hj => hj, nofun, nofun, fun j hj => .inl (by rwa [(exec_srem _ _ hw).1] at hj)⟩
  | unsigned userId d e hw => exact idStep_quiet rfl rfl rfl fun j hj => by rwa [(exec_srem _ _ hw).1] at hj
  | stores response hw =>
    refine ⟨nofun, nofun, nofun, fun j hj => ?_⟩
    rw [(exec_setEx _ hw).2] at hj
    split_ifs at hj with hd
    · exact .inr ⟨hd ▸ rfl, rfl⟩
    · exact .inl hj
  | lists response hw => exact idStep_quiet rfl rfl rfl fun j hj => by rwa [(exec_sadd _ _ hw).1] at hj
  | rests response => exact idStep_quiet rfl rfl rfl fun _ => id

/-- ids that are drawn are not in use -/
structure FreshIds {κ : Type} (s : Pool κ AuthStage Stores) : Prop where
  distinct : ∀ i k j, (s.task i).awaits = some j → (s.task k).awaits = some j → i = k
  unstored : ∀ i j, (s.task i).awaits = some j → s.shared.redis.get j = none
  unheld : ∀ i k j, (s.task i).awaits = some j → (s.task k).holds ≠ some j
  gone : ∀ i j, (s.task i).removes = some j → s.shared.redis.get j = none

theorem holds_of_removes {t : AuthStage} {j : String} (h : t.removes = some j) : t.holds = some j := by
  cases t with
  | refreshRem => exact h
  | _ => cases h

theorem FreshIds.turn {κ : Type} [DecidableEq κ] {s s' : Pool κ AuthStage Stores} {i : κ} {t : AuthStage}
    (h : FreshIds s) (htask : ∀ k, s'.task k = if k = i then t else s.task k)
    (hstep : IdStep (s.task i) s.shared.redis t s'.shared.redis) : FreshIds s' := by
  have hawaits : ∀ k j, (s'.task k).awaits = some j → (s.task k).awaits = some j := by
    intro k j hk
    rw [htask] at hk
    split_ifs at hk with hki
    · subst hki
      exact hstep.awaits j hk
    · exact hk
  refine ⟨fun k l j hk hl => h.distinct k l j (hawaits k j hk) (hawaits l j hl), fun k j hk => ?_,
    fun k l j hk hl => ?_, fun k j hk => ?_⟩
  · by_contra hj
    rcases hstep.stored j hj with hold | ⟨hi, hnone⟩
    · exact hold (h.unstored k j (hawaits k j hk))
    · obtain rfl := h.distinct k i j (hawaits k j hk) hi
      rw [htask, if_pos rfl, hnone] at hk
      cases hk
  · have hk := hawaits k j hk
    rw [htask] at hl
    split_ifs at hl with hli
    · subst hli
      rcases hstep.holds j hl with hold | hstored
      · exact h.unheld k l j hk hold
      · exact hstored (h.unstored k j hk)
    · exact h.unheld k l j hk hl
  · rw [htask] at hk
    split_ifs at hk with hki
    · exact hstep.removes j hk
    · by_contra hj
      rcases hstep.stored j hj with hold | ⟨hi, _⟩
      · exact hold (h.gone k j hk)
      · exact h.unheld i k j hi (holds_of_removes hk)

/-! ## The logout -/

namespace AuthStage

/-- a logout of the user, at whatever stage -/
def LogsOut (u : String) : AuthStage → Prop
  | .deleteMe auth _ _ | .deleteMeServers auth _ | .deleteMeUpdate auth _ => toString auth.value = u
  | .revokeAll userId | .revokeEach userId _ => userId = u
  | .ok _ | .failed _ => True
  | _ => False

/-- a logout that has not read the set of ids yet -/
def unread : AuthStage → Bool
  | .deleteMe .. | .deleteMeServers .. | .deleteMeUpdate .. | .revokeAll _ => true
  | _ => false

/-- a logout that has read the set of ids and has not failed -/
def hasRead : AuthStage → Bool
  | .revokeEach .. | .ok _ => true
  | _ => false

end AuthStage

/-- the steps of a logout -/
inductive LoggingOut (u : String) : AuthStage → Redis → AuthStage → Redis → Prop where
  | fails (t : AuthStage) (e : AppError) (r : Redis) : LoggingOut u t r (.failed e) r
  /-- the account is checked and deleted -/
  | checks {t t' : AuthStage} (ht : t.unread = true) (ht' : t'.unread = true) (r : Redis) : LoggingOut u t r t' r
  | reads (r : Redis) : LoggingOut u (.revokeAll u) r (.revokeEach u (r.userSessions u)) r
  | deletes {jti : String} {n : ℕ} {r r' : Redis} (jtis : List String) (h : Command.exec (.del jti) r = .ok (n, r')) :
    LoggingOut u (.revokeEach u (jti :: jtis)) r (.revokeEach u jtis) r'
  | clears {n : ℕ} {r r' : Redis} (h : Command.exec (.delSet u) r = .ok (n, r')) :
    LoggingOut u (.revokeEach u []) r (.ok .noContent) r'
  | rests (response : AuthResponse) (r : Redis) : LoggingOut u (.ok response) r (.ok response) r

theorem loggingOut_next {jwt : Jwt} {config : AuthConfig} {verifyPassword : String → String → Except String Bool}
    {u : String} {t t' : AuthStage} {s s' : Stores} (ht : t.LogsOut u)
    (hnext : t.next jwt config verifyPassword s = (t', s')) :
    t'.LogsOut u ∧ LoggingOut u t s.redis t' s'.redis := by
  cases t with
  | deleteMe auth password now =>
    rw [AuthStage.next] at hnext
    obtain ⟨rfl, rfl⟩ := Prod.mk.inj hnext
    rcases s.pg.users.find? _ with _ | user
    · exact ⟨trivial, .fails ..⟩
    · dsimp only
      rcases verifyPassword password user.passwordHash with e | valid
      · exact ⟨trivial, .fails ..⟩
      · dsimp only
        split_ifs
        · exact ⟨trivial, .fails ..⟩
        · exact ⟨ht, .checks rfl rfl _⟩
  | deleteMeServers auth now =>
    rw [AuthStage.next] at hnext
    obtain ⟨rfl, rfl⟩ := Prod.mk.inj hnext
    split_ifs
    · exact ⟨trivial, .fails ..⟩
    · exact ⟨ht, .checks rfl rfl _⟩
  | deleteMeUpdate auth now =>
    rw [AuthStage.next] at hnext
    rcases Pool.send_cases hnext with ⟨rfl, n, hw⟩ | ⟨e, rfl, rfl⟩
    · obtain ⟨-, rfl⟩ := Prod.mk.inj (Except.ok.inj hw)
      exact ⟨ht, .checks rfl rfl _⟩
    · exact ⟨trivial, .fails ..⟩
  | revokeAll userId =>
    obtain rfl := ht
    obtain ⟨rfl, rfl⟩ := Prod.mk.inj hnext
    exact ⟨rfl, .reads _⟩
  | revokeEach userId jtis =>
    obtain rfl := ht
    cases jtis with
    | nil =>
      rw [AuthStage.next] at hnext
      rcases send_redis_cases hnext with ⟨rfl, n, r, hw, rfl⟩ | ⟨e, rfl, rfl⟩
      · exact ⟨trivial, .clears hw⟩
      · exact ⟨trivial, .fails ..⟩
    | cons jti jtis =>
      rw [AuthStage.next] at hnext
      rcases send_redis_cases hnext with ⟨rfl, n, r, hw, rfl⟩ | ⟨e, rfl, rfl⟩
      · exact ⟨rfl, .deletes jtis hw⟩
      · exact ⟨trivial, .fails ..⟩
  | ok response =>
    obtain ⟨rfl, rfl⟩ := Prod.mk.inj hnext
    exact ⟨trivial, .rests ..⟩
  | failed e =>
    obtain ⟨rfl, rfl⟩ := Prod.mk.inj hnext
    exact ⟨trivial, .fails ..⟩
  | refresh | refreshDel | refreshRem | refreshSet | refreshAdd => exact ht.elim

theorem idStep_loggingOut {u : String} {t t' : AuthStage} {r r' : Redis} (h : LoggingOut u t r t' r') :
    IdStep t r t' r' := by
  cases h with
  | fails e => exact idStep_quiet rfl rfl rfl fun _ => id
  | checks ht ht' =>
    cases t' with
    | deleteMe | deleteMeServers | deleteMeUpdate | revokeAll => exact idStep_quiet rfl rfl rfl fun _ => id
    | _ => cases ht'
  | reads => exact idStep_quiet rfl rfl rfl fun _ => id
  | deletes jtis hw => exact idStep_quiet rfl rfl rfl (get_of_del hw)
  | clears hw => exact idStep_quiet rfl rfl rfl fun j hj => by rwa [(exec_delSet _ hw).1] at hj
  | rests response => exact idStep_quiet rfl rfl rfl fun _ => id

/-- what is left to delete, as the logout goes on; `unlisted` are the ids that are stored and about to be listed -/
def LogoutPhase (u : String) (unlisted : String → Prop) (t : AuthStage) (r : Redis) : Prop :=
  match t with
  | .revokeEach _ jtis => ∀ jti, r.hasSession u jti = true → jti ∈ jtis
  | .ok _ => ∀ jti, r.hasSession u jti = false
  | .failed _ => True
  | _ => r.Covered u unlisted

theorem logoutPhase_unread {u : String} {unlisted : String → Prop} {t : AuthStage} {r : Redis} (ht : t.unread = true) :
    LogoutPhase u unlisted t r ↔ r.Covered u unlisted := by
  cases t with
  | deleteMe | deleteMeServers | deleteMeUpdate | revokeAll => exact Iff.rfl
  | _ => cases ht

theorem logoutPhase_loggingOut {u : String} {unlisted : String → Prop} {t t' : AuthStage} {r r' : Redis}
    (h : LogoutPhase u unlisted t r) (hstep : LoggingOut u t r t' r')
    (hreads : ∀ v, t = .revokeAll v → ∀ jti, unlisted jti → r.hasSession u jti = true → jti ∈ r.userSessions u) :
    LogoutPhase u unlisted t' r' := by
  cases hstep with
  | fails e => trivial
  | checks ht ht' => exact (logoutPhase_unread ht').2 ((logoutPhase_unread ht).1 h)
  | reads => exact fun jti hs => (h jti hs).elim id fun hp => hreads u rfl jti hp hs
  | deletes jtis hw =>
    intro jti hs
    obtain ⟨hne, hold⟩ := hasSession_of_del hw hs
    exact (List.mem_cons.1 (h jti hold)).resolve_left hne
  | clears hw =>
    intro jti
    rw [hasSession_of_get_eq (exec_delSet u hw).1, ← Bool.not_eq_true]
    exact fun hs => List.not_mem_nil (h jti hs)
  | rests response => exact h

/-! ## The refreshes -/

/-- the sessions of a user stay covered by the list and by the refreshes that are about to list one -/
theorem covered_refreshing {ttlSeconds : ℕ} {u : String} {unlisted : String → Prop} {t t' : AuthStage} {r r' : Redis}
    (h : r.Covered u unlisted) (hstep : Refreshing ttlSeconds t r t' r')
    (hgone : ∀ j, t.removes = some j → r.get j = none) :
    r'.Covered u fun jti => unlisted jti ∧ t.lists ≠ some (u, jti) ∨ t'.lists = some (u, jti) := by
  have hquiet : t.lists = none →
      r.Covered u fun jti => unlisted jti ∧ t.lists ≠ some (u, jti) ∨ t'.lists = some (u, jti) := by
    intro ht jti hs
    refine (h jti hs).imp_right fun hp => .inl ⟨hp, ?_⟩
    rw [ht]
    simp
  have hremoved : ∀ j v, t.removes = some j → v = u → ¬ r.hasSession u j = true := by
    intro j v hj _ hs
    obtain ⟨session, hget, _⟩ := hasSession_iff.1 hs
    rw [hgone j hj] at hget
    cases hget
  cases hstep with
  | fails ht e => exact hquiet ht
  | gets userId d hget => exact hquiet rfl
  | deletes session userId d hw => exact (hquiet rfl).del hw
  | removes userId d response hw => exact (hquiet rfl).srem hw fun hu hs => (hremoved _ _ rfl hu hs).elim
  | unsigned userId d e hw => exact (hquiet rfl).srem hw fun hu hs => (hremoved _ _ rfl hu hs).elim
  | stores response hw => exact (hquiet rfl).setEx hw fun hu => .inr (.inr (hu ▸ rfl))
  | lists response hw =>
    intro jti hs
    refine (h.sadd hw jti hs).imp_right fun ⟨hp, hne⟩ => .inl ⟨hp, fun hlists => hne ?_⟩
    obtain ⟨hu, hj⟩ := Prod.mk.inj (Option.some.inj hlists)
    exact ⟨hu.symm, hj.symm⟩
  | rests response => exact hquiet rfl

/-- a refresh that stores no session of the user -/
theorem hasSession_of_refreshing {ttlSeconds : ℕ} {u jti : String} {t t' : AuthStage} {r r' : Redis}
    (hstep : Refreshing ttlSeconds t r t' r') (hu : ∀ session d response, t = .refreshSet session d response →
      session.userId ≠ u) (hs : r'.hasSession u jti = true) : r.hasSession u jti = true := by
  cases hstep with
  | fails ht e => exact hs
  | gets userId d hget => exact hs
  | deletes session userId d hw => exact (hasSession_of_del hw hs).2
  | removes userId d response hw => rwa [hasSession_of_get_eq (exec_srem _ _ hw).1] at hs
  | unsigned userId d e hw => rwa [hasSession_of_get_eq (exec_srem _ _ hw).1] at hs
  | stores response hw =>
    rcases hasSession_of_setEx hw hs with ⟨_, he⟩ | hs
    · exact (hu _ _ _ rfl he).elim
    · exact hs
  | lists response hw => rwa [hasSession_of_get_eq (exec_sadd _ _ hw).1] at hs
  | rests response => exact hs

theorem logoutPhase_mono {u : String} {unlisted unlisted' : String → Prop} {t : AuthStage} {r r' : Redis}
    (h : LogoutPhase u unlisted t r)
    (hcov : t.hasRead = false → r.Covered u unlisted → r'.Covered u unlisted')
    (hkeep : t.hasRead = true → ∀ jti, r'.hasSession u jti = true → r.hasSession u jti = true) :
    LogoutPhase u unlisted' t r' := by
  cases t with
  | revokeEach userId jtis => exact fun jti hs => h jti (hkeep rfl jti hs)
  | ok response =>
    intro jti
    rw [← Bool.not_eq_true]
    intro hs
    have := h jti
    rw [hkeep rfl jti hs] at this
    cases this
  | failed e => trivial
  | _ => exact hcov rfl h

/-! ## Side by side -/

variable {ι : Type}

/-- the ids of the user's sessions that a refresh has stored and not yet listed -/
def Unlisted (u : String) (s : Pool (Option ι) AuthStage Stores) (jti : String) : Prop :=
  ∃ i, (s.task (some i)).lists = some (u, jti)

instance [Fintype ι] (u : String) (s : Pool (Option ι) AuthStage Stores) (jti : String) : Decidable (Unlisted u s jti) :=
  inferInstanceAs (Decidable (∃ i, (s.task (some i)).lists = some (u, jti)))

/-- the turn leaves no session of the user to a logout that has read the set of ids, or is to read it -/
def Settled (u : String) (s : Pool (Option ι) AuthStage Stores) : Turn (Option ι) Outside → Prop
  | .advance none =>
    match s.task none with
    | .revokeAll _ => ∀ i, ∀ p ∈ (s.task (some i)).lists, p.1 = u → s.shared.redis.hasSession u p.2 = true →
      p.2 ∈ s.shared.redis.userSessions u
    | _ => True
  | .advance (some i) =>
    match s.task (some i) with
    | .refreshSet session _ _ => session.userId = u → (s.task none).hasRead = false
    | _ => True
  | .interrupt (some i) =>
    match s.task (some i) with
    | .refreshAdd session d _ => session.userId = u → (s.task none).hasRead = false →
      s.shared.redis.hasSession u d.refreshJti = true → d.refreshJti ∈ s.shared.redis.userSessions u
    | _ => True
  | _ => True

instance [Fintype ι] (u : String) (s : Pool (Option ι) AuthStage Stores) :
    (t : Turn (Option ι) Outside) → Decidable (Settled u s t)
  | .advance none => by
    rw [Settled]
    cases s.task none <;> dsimp only <;> infer_instance
  | .advance (some i) => by
    rw [Settled]
    cases s.task (some i) <;> dsimp only <;> infer_instance
  | .interrupt none => isTrue trivial
  | .interrupt (some i) => by
    rw [Settled]
    cases s.task (some i) <;> dsimp only <;> infer_instance
  | .outside _ => isTrue trivial

structure LogoutInv (u : String) (s : Pool (Option ι) AuthStage Stores) : Prop where
  logsOut : (s.task none).LogsOut u
  refreshes : ∀ i, (s.task (some i)).refreshes = true
  fresh : FreshIds s
  phase : LogoutPhase u (Unlisted u s) (s.task none) s.shared.redis

section Steps

variable {jwt : Jwt} {config : AuthConfig} {verifyPassword : String → String → Except String Bool} {e : AppError}
variable [DecidableEq ι] {u : String} {s : Pool (Option ι) AuthStage Stores}

theorem refreshes_of_refreshing {ttlSeconds : ℕ} {t t' : AuthStage} {r r' : Redis}
    (h : Refreshing ttlSeconds t r t' r') : t'.refreshes = true := by
  cases h <;> rfl

/-- what a refresh is about to list, once task `i` has become `t` -/
theorem unlisted_turn {s' : Pool (Option ι) AuthStage Stores} {i : ι} {t : AuthStage}
    (htask : ∀ k, s'.task k = if k = some i then t else s.task k) {jti : String}
    (h : Unlisted u s jti ∧ (s.task (some i)).lists ≠ some (u, jti) ∨ t.lists = some (u, jti)) : Unlisted u s' jti := by
  rcases h with ⟨⟨k, hk⟩, hi⟩ | ht
  · refine ⟨k, ?_⟩
    rw [htask, if_neg, hk]
    rintro ⟨⟩
    exact hi hk
  · exact ⟨i, by rw [htask, if_pos rfl, ht]⟩

theorem logout_turn (h : LogoutInv u s) (hok : Settled u s (.advance none)) :
    LogoutInv u (authStep jwt config verifyPassword e s (.advance none)) := by
  rcases hnext : (s.task none).next jwt config verifyPassword s.shared with ⟨t, x⟩
  obtain ⟨hout, hstep⟩ := loggingOut_next h.logsOut hnext
  have htask := authStep_task (e := e) hnext
  have hshared := authStep_shared (e := e) hnext
  have hnone : (authStep jwt config verifyPassword e s (.advance none)).task none = t := htask none
  have hsome : ∀ i, (authStep jwt config verifyPassword e s (.advance none)).task (some i) = s.task (some i) :=
    fun i => htask (some i)
  refine ⟨?_, fun i => ?_, h.fresh.turn htask ?_, ?_⟩
  · rw [hnone]
    exact hout
  · rw [hsome]
    exact h.refreshes i
  · rw [hshared]
    exact idStep_loggingOut hstep
  · rw [hnone, hshared]
    have hphase : LogoutPhase u (Unlisted u s) t x.redis := by
      refine logoutPhase_loggingOut h.phase hstep fun v hv jti ⟨i, hi⟩ hs => ?_
      rw [Settled, hv] at hok
      exact hok i (u, jti) hi rfl hs
    exact logoutPhase_mono hphase (fun _ hcov jti hs => (hcov jti hs).imp_right fun ⟨i, hi⟩ => ⟨i, by rw [hsome, hi]⟩)
      fun _ _ => id

theorem refresh_turn {i : ι} (h : LogoutInv u s) (hok : Settled u s (.advance (some i))) :
    LogoutInv u (authStep jwt config verifyPassword e s (.advance (some i))) := by
  rcases hnext : (s.task (some i)).next jwt config verifyPassword s.shared with ⟨t, x⟩
  have hstep := refreshing_next (h.refreshes i) hnext
  have htask := authStep_task (e := e) hnext
  have hshared := authStep_shared (e := e) hnext
  have hnone : (authStep jwt config verifyPassword e s (.advance (some i))).task none = s.task none := htask none
  refine ⟨?_, fun k => ?_, h.fresh.turn htask ?_, ?_⟩
  · rw [hnone]
    exact h.logsOut
  · rw [htask]
    split_ifs
    · exact refreshes_of_refreshing hstep
    · exact h.refreshes k
  · rw [hshared]
    exact idStep_refreshing hstep
  · rw [hnone, hshared]
    refine logoutPhase_mono h.phase (fun _ hcov jti hs => ?_) fun hread jti hs => ?_
    · exact (covered_refreshing hcov hstep (h.fresh.gone (some i)) jti hs).imp_right (unlisted_turn htask)
    · refine hasSession_of_refreshing hstep (fun session d response ht hu => ?_) hs
      rw [Settled, ht] at hok
      rw [hok hu] at hread
      cases hread

theorem stop_refreshes (t : AuthStage) : (t.stop e).refreshes = true := by
  cases t <;> rfl

theorem stop_logsOut (t : AuthStage) : (t.stop e).LogsOut u := by
  cases t <;> trivial

theorem idStep_stop (t : AuthStage) (r : Redis) : IdStep t r (t.stop e) r := by
  cases t <;> exact idStep_quiet rfl rfl rfl fun _ => id

theorem interrupt_turn {k : Option ι} (h : LogoutInv u s) (hok : Settled u s (.interrupt k)) :
    LogoutInv u (authStep jwt config verifyPassword e s (.interrupt k)) := by
  have htask : ∀ l, (authStep jwt config verifyPassword e s (.interrupt k)).task l =
      if l = k then (s.task k).stop e else s.task l := fun l => authStep_interrupt l
  have hshared : (authStep jwt config verifyPassword e s (.interrupt k)).shared = s.shared := rfl
  refine ⟨?_, fun i => ?_, h.fresh.turn htask (idStep_stop _ _), ?_⟩
  · rw [htask]
    split_ifs
    · exact stop_logsOut _
    · exact h.logsOut
  · rw [htask]
    split_ifs
    · exact stop_refreshes _
    · exact h.refreshes i
  · rw [htask, hshared]
    cases k with
    | none =>
      rw [if_pos rfl]
      have hphase := h.phase
      cases ht : s.task none with
      | ok response =>
        rw [ht] at hphase
        exact hphase
      | _ => trivial
    | some i =>
      rw [if_neg nofun]
      refine logoutPhase_mono h.phase (fun hread hcov jti hs => ?_) fun _ _ => id
      rcases hcov jti hs with hlisted | ⟨l, hl⟩
      · exact .inl hlisted
      · by_cases hli : l = i
        · subst hli
          cases ht : s.task (some l) with
          | refreshAdd session d response =>
            rw [ht] at hl
            obtain ⟨rfl, rfl⟩ := Prod.mk.inj (Option.some.inj hl)
            rw [Settled, ht] at hok
            exact .inl (hok rfl hread hs)
          | _ =>
            rw [ht] at hl
            cases hl
        · refine .inr ⟨l, ?_⟩
          rw [htask, if_neg fun he => hli (Option.some.inj he), hl]

theorem logoutInv_step (s : Pool (Option ι) AuthStage Stores) (t : Turn (Option ι) Outside) (hok : Settled u s t)
    (h : LogoutInv u s) : LogoutInv u (authStep jwt config verifyPassword e s t) := by
  cases t with
  | advance k =>
    cases k with
    | none => exact logout_turn h hok
    | some i => exact refresh_turn h hok
  | interrupt k => exact interrupt_turn h hok
  | outside o =>
    cases o with
    | pg pg => exact ⟨h.logsOut, h.refreshes, ⟨h.fresh.distinct, h.fresh.unstored, h.fresh.unheld, h.fresh.gone⟩, h.phase⟩
    | time ms =>
      have hnone : ∀ j, s.shared.redis.get j = none → (s.shared.redis.tick ms).get j = none := by
        intro j hj
        rw [Option.eq_none_iff_forall_ne_some] at hj ⊢
        exact fun session hs => hj session (get_of_tick _ _ hs)
      refine ⟨h.logsOut, h.refreshes, ⟨h.fresh.distinct, fun i j hi => hnone j (h.fresh.unstored i j hi), h.fresh.unheld,
        fun i j hi => hnone j (h.fresh.gone i j hi)⟩, ?_⟩
      exact logoutPhase_mono h.phase (fun _ hcov => hcov.tick) fun _ _ => hasSession_of_tick

end Steps

/-! ## Main result -/

inductive LogoutRequest where
  | logout
  | logoutAll
  | deleteMe (password : String) (now : DateTime)
deriving DecidableEq, Repr

def LogoutRequest.handler (verifyPassword : String → String → Except String Bool) (u : Snowflake) :
    LogoutRequest → AuthHandler AuthResponse
  | .logout => Routes.logout u
  | .logoutAll => Routes.logoutAll u
  | .deleteMe password now => Routes.deleteMe verifyPassword u password now

def LogoutRequest.stage (u : Snowflake) : LogoutRequest → AuthStage
  | .logout | .logoutAll => .revokeAll (toString u.value)
  | .deleteMe password now => .deleteMe u password now

section Main

variable (jwt : Jwt) (config : AuthConfig) (verifyPassword : String → String → Except String Bool) (u : Snowflake)
variable (request : LogoutRequest) (tokens : ι → String) (draws : ι → Draw)

/-- the logout, and a refresh of each token -/
def logoutPrograms : Option ι → AuthHandler AuthResponse
  | none => request.handler verifyPassword u
  | some i => onRedis (refresh jwt config (tokens i) (draws i))

def logoutStages : Option ι → AuthStage
  | none => request.stage u
  | some i => .ofRefresh jwt (tokens i) (draws i)

theorem logoutStages_map (s : Stores) :
    Pool.map (AuthStage.prog jwt config verifyPassword) ⟨logoutStages jwt u request tokens draws, s⟩ =
      ⟨logoutPrograms jwt config verifyPassword u request tokens draws, s⟩ := by
  rw [Pool.map]
  congr 1
  funext k
  cases k with
  | none => cases request <;> rfl
  | some i => exact prog_ofRefresh (tokens i) (draws i)

theorem ofRefresh_cases (token : String) (d : Draw) :
    (∃ e, AuthStage.ofRefresh jwt token d = .failed e) ∨ ∃ jti, AuthStage.ofRefresh jwt token d = .refresh jti d := by
  rw [AuthStage.ofRefresh]
  rcases verifyToken jwt token d.verifiedAt with _ | claims
  · exact .inl ⟨_, rfl⟩
  · dsimp only
    split_ifs
    · exact .inl ⟨_, rfl⟩
    · exact .inr ⟨_, rfl⟩

variable {jwt u request tokens draws}

theorem logoutInv_start {s : Stores} (hdistinct : Function.Injective fun i => (draws i).refreshJti)
    (hnew : ∀ i, s.redis.get (draws i).refreshJti = none)
    (hlisted : ∀ jti, s.redis.hasSession (toString u.value) jti = true → jti ∈ s.redis.userSessions (toString u.value)) :
    LogoutInv (toString u.value) ⟨logoutStages jwt u request tokens draws, s⟩ := by
  have hawaits : ∀ k j, (logoutStages jwt u request tokens draws k).awaits = some j →
      ∃ i, k = some i ∧ (draws i).refreshJti = j := by
    intro k j hk
    cases k with
    | none => cases request <;> cases hk
    | some i =>
      rw [logoutStages] at hk
      rcases ofRefresh_cases jwt (tokens i) (draws i) with ⟨e, he⟩ | ⟨jti, he⟩ <;> rw [he] at hk
      · cases hk
      · exact ⟨i, rfl, Option.some.inj hk⟩
  have hholds : ∀ k, (logoutStages jwt u request tokens draws k).holds = none := by
    intro k
    cases k with
    | none => cases request <;> rfl
    | some i =>
      rw [logoutStages]
      rcases ofRefresh_cases jwt (tokens i) (draws i) with ⟨e, he⟩ | ⟨jti, he⟩ <;> rw [he] <;> rfl
  refine ⟨?_, fun i => ?_, ⟨fun k l j hk hl => ?_, fun k j hk => ?_, fun k l j _ hl => ?_, fun k j hk => ?_⟩, ?_⟩
  · cases request <;> rfl
  · show (AuthStage.ofRefresh jwt (tokens i) (draws i)).refreshes = true
    rcases ofRefresh_cases jwt (tokens i) (draws i) with ⟨e, he⟩ | ⟨jti, he⟩ <;> rw [he] <;> rfl
  · obtain ⟨i, rfl, hi⟩ := hawaits k j hk
    obtain ⟨i', rfl, hi'⟩ := hawaits l j hl
    exact congrArg some (hdistinct (hi.trans hi'.symm))
  · obtain ⟨i, rfl, rfl⟩ := hawaits k j hk
    exact hnew i
  · have hl : (logoutStages jwt u request tokens draws l).holds = some j := hl
    rw [hholds] at hl
    cases hl
  · have hk := holds_of_removes hk
    have hk : (logoutStages jwt u request tokens draws k).holds = some j := hk
    rw [hholds] at hk
    cases hk
  · have hcov : s.redis.Covered (toString u.value) (Unlisted (toString u.value)
        ⟨logoutStages jwt u request tokens draws, s⟩) := fun jti hs => .inl (hlisted jti hs)
    cases request <;> exact hcov

/-- **Logging out everywhere is final.** If every session of the user is listed and the ids that refreshes draw are new,
then in a run of settled turns, once the logout has succeeded no session of the user is stored, and a refresh that
succeeds from there reads a session of somebody else. -/
theorem logout_final (jwt : Jwt) (config : AuthConfig) (verifyPassword : String → String → Except String Bool)
    (e : AppError) (u : Snowflake) (request : LogoutRequest) (tokens : ι → String) (draws : ι → Draw) [DecidableEq ι]
    (s : Stores) (ts : List (Turn (Option ι) Outside)) :
    (Function.Injective fun i => (draws i).refreshJti) → (∀ i, s.redis.get (draws i).refreshJti = none) →
      (∀ jti, s.redis.hasSession (toString u.value) jti = true → jti ∈ s.redis.userSessions (toString u.value)) →
      Every (authStep jwt config verifyPassword e) (Settled (toString u.value))
        ⟨logoutStages jwt u request tokens draws, s⟩ ts →
      let requests := run (authProgStep e) ⟨logoutPrograms jwt config verifyPassword u request tokens draws, s⟩ ts
      (requests.task none).succeeded = true →
        (∀ jti, requests.shared.redis.hasSession (toString u.value) jti = false) ∧
        ∀ token d response r, (refresh jwt config token d).run Command.exec requests.shared.redis = (.ok response, r) →
          ∃ claims session, jwt.decode token = some claims ∧ requests.shared.redis.get claims.jti = some session ∧
            session.userId ≠ toString u.value := by
  intro hdistinct hnew hlisted hts requests hdone
  have hrun : requests = (run (authStep jwt config verifyPassword e) ⟨logoutStages jwt u request tokens draws, s⟩ ts).map
      (AuthStage.prog jwt config verifyPassword) := by
    rw [← authStage_programs, logoutStages_map]
  have h : LogoutInv (toString u.value) (run (authStep jwt config verifyPassword e) _ ts) :=
    run_inv_of_every logoutInv_step (logoutInv_start hdistinct hnew hlisted) hts
  have hnone : ∀ jti, requests.shared.redis.hasSession (toString u.value) jti = false := by
    rw [hrun] at hdone ⊢
    obtain ⟨response, hok⟩ := ok_of_succeeded hdone
    have hphase := h.phase
    rw [hok] at hphase
    exact hphase
  refine ⟨hnone, fun token d response r hrefresh => ?_⟩
  obtain ⟨claims, session, hdecode, hget⟩ := session_of_refresh hrefresh
  refine ⟨claims, session, hdecode, hget, fun hu => ?_⟩
  have hs := hnone claims.jti
  rw [hasSession_iff.2 ⟨session, hget, hu⟩] at hs
  cases hs

end Main

/-! ## A refresh in flight -/

def ada : Snowflake := ⟨7⟩

/-- the refresh ends before the logout reads the set -/
def loggedOutTrace : List (Turn (Option (Fin 1)) Outside) :=
  [.advance (some 0), .advance (some 0), .advance (some 0), .advance (some 0), .advance (some 0), .advance none,
    .outside (.time 5), .advance none, .advance none]

theorem logout_final_loggedOut :
    let requests := run (authProgStep (redisErr "lost"))
      ⟨logoutPrograms sampleJwt sampleConfig (fun _ _ => .ok true) ada .logoutAll (fun _ : Fin 1 => "a.signed")
        fun _ => ⟨5, 5, "x", 5, "b", 5⟩, signedIn⟩ loggedOutTrace
    (requests.task none).succeeded = true ∧ ∀ jti, requests.shared.redis.hasSession "7" jti = false := by
  have hdone : (Pool.task (run (authProgStep (redisErr "lost"))
      ⟨logoutPrograms sampleJwt sampleConfig (fun _ _ => .ok true) ada .logoutAll (fun _ : Fin 1 => "a.signed")
        fun _ => ⟨5, 5, "x", 5, "b", 5⟩, signedIn⟩ loggedOutTrace) none).succeeded = true := by
    decide
  refine ⟨hdone, (logout_final sampleJwt sampleConfig (fun _ _ => .ok true) (redisErr "lost") ada .logoutAll
    (fun _ => "a.signed") (fun _ => ⟨5, 5, "x", 5, "b", 5⟩) signedIn loggedOutTrace ?_ ?_ ?_ ?_ hdone).1⟩
  · exact fun _ _ _ => Subsingleton.elim _ _
  · exact fun _ => rfl
  · intro jti hs
    obtain ⟨session, hget, _⟩ := hasSession_iff.1 hs
    by_cases hj : jti = "a"
    · subst hj
      decide
    · simp [Redis.get, signedIn, hj] at hget
  · decide

/-- a refresh has deleted its session and not stored the next one when the logout reads the set -/
def survivingTrace : List (Turn (Option (Fin 1)) Outside) :=
  [.advance (some 0), .advance (some 0), .advance (some 0), .advance none, .advance none, .advance (some 0),
    .advance (some 0)]

/-- **A session that outlives the logout.** -/
theorem session_survives :
    let requests := run (authProgStep (redisErr "lost"))
      ⟨logoutPrograms sampleJwt sampleConfig (fun _ _ => .ok true) ada .logoutAll (fun _ : Fin 1 => "a.signed")
        fun _ => ⟨5, 5, "x", 5, "b", 5⟩, signedIn⟩ survivingTrace
    (∀ k, (requests.task k).succeeded = true) ∧ requests.shared.redis.hasSession "7" "b" = true := by
  decide

end Lumiere.Routes
