/-
`SessionManager::register`, `remove` and `dispatch_to_user` under any interleaving of connections
(`lumiere-gateway/src/session.rs`).

A connection is named by its session id and belongs to one user. It registers, later removes itself, and may register
again. Each access to one of the two maps is one atomic step; the list of a user is filtered and tested for emptiness
under one guard, which is released before the emptied entry is removed.

- `index_consistent`: with no push for a user while a removal stands between emptying the user's list and removing its
  entry, the two maps agree whenever no call is in progress, and a dispatch reaches exactly the user's sessions.
- `lostSessionTrace`: a push in that gap is lost with the entry.
-/
import Mathlib.Data.Fintype.Basic
import Mathlib.Logic.Function.Basic
import Lumiere.Core.Run

namespace Lumiere.Gateway

open Lumiere.Core

/-- the fields `SessionManager` reads -/
structure GatewaySession (σ U : Type) where
  sessionId : σ
  userId : U
deriving DecidableEq, Repr

namespace SessionManager

variable {σ U : Type}

/-! ## Model -/

inductive Pc (U : Type) where
  | idle
  /-- `register`, in `sessions` and not yet in its user's list -/
  | inserted
  | registered
  /-- `remove`, taken out of `sessions` -/
  | taken (u : U)
  /-- `remove`, the user's list left empty and its guard released -/
  | emptied (u : U)
deriving DecidableEq, Repr

structure St (σ U : Type) where
  sessions : σ → Option (GatewaySession σ U)
  userSessions : U → Option (List σ)
  pc : σ → Pc U

inductive Op (σ : Type) where
  | insert (c : σ)
  | push (c : σ)
  | take (c : σ)
  | retain (c : σ)
  | unlist (c : σ)
deriving DecidableEq, Repr

def init : St σ U := ⟨fun _ => none, fun _ => none, fun _ => .idle⟩

/-- the session ids listed for a user, none where the user has no entry -/
def listed (s : St σ U) (u : U) : List σ := (s.userSessions u).getD []

variable [DecidableEq σ] [DecidableEq U] (user : σ → U)

def goto (s : St σ U) (c : σ) (p : Pc U) : St σ U := { s with pc := Function.update s.pc c p }

def setSession (s : St σ U) (c : σ) (session : Option (GatewaySession σ U)) : St σ U :=
  { s with sessions := Function.update s.sessions c session }

def setList (s : St σ U) (u : U) (l : Option (List σ)) : St σ U :=
  { s with userSessions := Function.update s.userSessions u l }

def step (s : St σ U) : Op σ → St σ U
  | .insert c =>
    match s.pc c with
    | .idle => goto (setSession s c (some ⟨c, user c⟩)) c .inserted
    | _ => s
  | .push c =>
    match s.pc c with
    | .inserted => goto (setList s (user c) (some (listed s (user c) ++ [c]))) c .registered
    | _ => s
  | .take c =>
    match s.pc c with
    | .idle | .registered =>
      match s.sessions c with
      | some session => goto (setSession s c none) c (.taken session.userId)
      | none => s
    | _ => s
  | .retain c =>
    match s.pc c with
    | .taken u =>
      match s.userSessions u with
      | some l =>
        let l' := l.filter (· ≠ c)
        goto (setList s u (some l')) c (if l' = [] then .emptied u else .idle)
      | none => goto s c .idle
    | _ => s
  | .unlist c =>
    match s.pc c with
    | .emptied u => goto (setList s u none) c .idle
    | _ => s

/-- the sessions `dispatch_to_user` makes a `try_send` to, in order -/
def dispatchToUser (s : St σ U) (u : U) : List σ := (listed s u).filter fun c => (s.sessions c).isSome

/-! ## Invariant -/

def Pc.running : Pc U → Bool
  | .idle | .registered => false
  | _ => true

/-- no push for a user between the emptying of its list and the removal of its entry -/
def NotInGap (s : St σ U) : Op σ → Prop
  | .push c => ∀ d, s.pc d ≠ .emptied (user c)
  | _ => True

instance [Fintype σ] (s : St σ U) (o : Op σ) : Decidable (NotInGap user s o) := by
  cases o <;> unfold NotInGap <;> infer_instance

/-- what a connection's position says about its entry in `sessions` and about its user's list -/
def ConnOk (c : σ) (u : U) (session : Option (GatewaySession σ U)) (l : List σ) : Pc U → Prop
  | .idle => session = none ∧ l.count c = 0
  | .inserted => session = some ⟨c, u⟩ ∧ l.count c = 0
  | .registered => session = some ⟨c, u⟩ ∧ l.count c = 1
  | .taken u' => session = none ∧ u' = u
  | .emptied u' => session = none ∧ u' = u ∧ l = []

structure Inv (s : St σ U) : Prop where
  conn : ∀ c, ConnOk c (user c) (s.sessions c) (listed s (user c)) (s.pc c)
  owner : ∀ {u c}, c ∈ listed s u → user c = u
  empty : ∀ {u}, s.userSessions u = some [] → ∃ c, s.pc c = .emptied u

omit [DecidableEq U] in
theorem inv_init : Inv user (init : St σ U) where
  conn _ := ⟨rfl, rfl⟩
  owner h := by cases h
  empty h := by cases h

section

variable {user} {s : St σ U}

section

variable (s) (c d : σ) (p : Pc U) (u v : U) (x : Option (GatewaySession σ U)) (l : Option (List σ))

omit [DecidableEq U] in
@[simp] theorem goto_pc : (goto s c p).pc d = if d = c then p else s.pc d := Function.update_apply ..

omit [DecidableEq U] in
@[simp] theorem goto_sessions : (goto s c p).sessions = s.sessions := rfl

omit [DecidableEq U] in
@[simp] theorem goto_userSessions : (goto s c p).userSessions = s.userSessions := rfl

omit [DecidableEq U] in
@[simp] theorem listed_goto : listed (goto s c p) u = listed s u := rfl

omit [DecidableEq U] in
@[simp] theorem setSession_pc : (setSession s c x).pc = s.pc := rfl

omit [DecidableEq U] in
@[simp] theorem setSession_sessions : (setSession s c x).sessions d = if d = c then x else s.sessions d :=
  Function.update_apply ..

omit [DecidableEq U] in
@[simp] theorem setSession_userSessions : (setSession s c x).userSessions = s.userSessions := rfl

omit [DecidableEq U] in
@[simp] theorem listed_setSession : listed (setSession s c x) u = listed s u := rfl

omit [DecidableEq σ] in
@[simp] theorem setList_pc : (setList s u l).pc = s.pc := rfl

omit [DecidableEq σ] in
@[simp] theorem setList_sessions : (setList s u l).sessions = s.sessions := rfl

omit [DecidableEq σ] in
@[simp] theorem setList_userSessions : (setList s u l).userSessions v = if v = u then l else s.userSessions v :=
  Function.update_apply ..

omit [DecidableEq σ] in
@[simp] theorem listed_setList : listed (setList s u l) v = if v = u then l.getD [] else listed s v := by
  simp only [listed, setList_userSessions]
  split_ifs <;> rfl

end

omit [DecidableEq U] in
/-- a connection is not affected by a change of its user's list that keeps its own listing -/
theorem ConnOk.congr {c : σ} {u : U} {x} {l l' : List σ} {p : Pc U} (h : ConnOk c u x l p)
    (hc : l'.count c = l.count c) (he : p = .emptied u → l' = []) : ConnOk c u x l' p := by
  cases p with
  | emptied v =>
    obtain ⟨hs, rfl, -⟩ := h
    exact ⟨hs, rfl, he rfl⟩
  | taken => exact h
  | _ => exact ⟨h.1, hc.trans h.2⟩

omit [DecidableEq σ] [DecidableEq U] in
theorem Inv.empty_ne [DecidableEq σ] (h : Inv user s) {c : σ} {u : U} (hc : s.pc c ≠ .emptied u)
    (hu : s.userSessions u = some []) : ∃ d, d ≠ c ∧ s.pc d = .emptied u := by
  obtain ⟨d, hd⟩ := h.empty hu
  exact ⟨d, fun hdc => hc (hdc ▸ hd), hd⟩

theorem step_insert (h : Inv user s) (c : σ) : Inv user (step user s (.insert c)) := by
  unfold step
  dsimp only
  split
  · next hp =>
    have hc := h.conn c
    rw [hp] at hc
    refine ⟨fun d => ?_, h.owner, fun {u} hu => ?_⟩
    · by_cases hdc : d = c
      · subst hdc
        simpa [ConnOk] using hc.2
      · simpa [hdc] using h.conn d
    · obtain ⟨d, hdc, hd⟩ := h.empty_ne (c := c) (by simp [hp]) hu
      exact ⟨d, by simpa [hdc] using hd⟩
  · exact h

theorem step_push (h : Inv user s) (c : σ) (ho : NotInGap user s (.push c)) : Inv user (step user s (.push c)) := by
  unfold step
  dsimp only
  split
  · next hp =>
    have hc := h.conn c
    rw [hp] at hc
    refine ⟨fun d => ?_, fun {u d} hd => ?_, fun {u} hu => ?_⟩
    · by_cases hdc : d = c
      · subst hdc
        simpa [ConnOk] using hc
      · have hd := h.conn d
        by_cases hu : user d = user c
        · simp only [goto_sessions, setList_sessions, listed_goto, listed_setList, hu, if_true, goto_pc, if_neg hdc,
            setList_pc, Option.getD_some]
          rw [hu] at hd
          refine hd.congr ?_ fun he => absurd he (ho d)
          simp [List.count_append, Ne.symm hdc]
        · simpa [hu, hdc] using hd
    · simp only [listed_goto, listed_setList, Option.getD_some] at hd
      split_ifs at hd with huc
      · rcases List.mem_append.1 hd with hd | hd
        · exact huc ▸ h.owner hd
        · rw [List.mem_singleton.1 hd, huc]
      · exact h.owner hd
    · simp only [goto_userSessions, setList_userSessions] at hu
      split_ifs at hu with huc
      · simp at hu
      · obtain ⟨d, hdc, hd⟩ := h.empty_ne (c := c) (by simp [hp]) hu
        exact ⟨d, by simpa [hdc] using hd⟩
  · exact h

theorem step_take (h : Inv user s) (c : σ) : Inv user (step user s (.take c)) := by
  have hmove : ∀ x, s.sessions c = some x → (∀ u, s.pc c ≠ .emptied u) →
      Inv user (goto (setSession s c none) c (.taken x.userId)) := by
    intro x hx hp
    have hx' : x.userId = user c := by
      have hc := h.conn c
      cases hpc : s.pc c <;> simp_all [ConnOk]
    refine ⟨fun d => ?_, h.owner, fun {u} hu => ?_⟩
    · by_cases hdc : d = c
      · subst hdc
        simp [ConnOk, hx']
      · simpa [hdc] using h.conn d
    · obtain ⟨d, hdc, hd⟩ := h.empty_ne (hp u) hu
      exact ⟨d, by simpa [hdc] using hd⟩
  unfold step
  dsimp only
  split
  · next hp =>
    split
    · next x hx => exact hmove x hx (by simp [hp])
    · exact h
  · next hp =>
    split
    · next x hx => exact hmove x hx (by simp [hp])
    · exact h
  · exact h

theorem step_retain (h : Inv user s) (c : σ) : Inv user (step user s (.retain c)) := by
  unfold step
  dsimp only
  split
  · next u hp =>
    have hc := h.conn c
    rw [hp] at hc
    obtain ⟨hs, rfl⟩ := hc
    split
    · next l hl =>
      have hlist : listed s (user c) = l := by simp [listed, hl]
      have hself : (l.filter (· ≠ c)).count c = 0 := by simp [List.count_eq_zero]
      have hother : ∀ d, d ≠ c → (l.filter (· ≠ c)).count d = l.count d := fun d hdc =>
        List.count_filter (by simpa using hdc)
      have hsub : ∀ {d}, d ∈ l.filter (· ≠ c) → d ∈ listed s (user c) := fun hd => hlist ▸ List.mem_of_mem_filter hd
      have hnil : l = [] → l.filter (· ≠ c) = [] := by rintro rfl; rfl
      generalize l.filter (· ≠ c) = l' at hself hother hsub hnil
      refine ⟨fun d => ?_, fun {v d} hd => ?_, fun {v} hv => ?_⟩
      · by_cases hdc : d = c
        · subst hdc
          split_ifs with he <;> simp [ConnOk, hs, he, hself]
        · have hd := h.conn d
          by_cases hu : user d = user c
          · simp only [goto_sessions, setList_sessions, listed_goto, listed_setList, hu, if_true, goto_pc, if_neg hdc,
              setList_pc, Option.getD_some]
            rw [hu, hlist] at hd
            refine hd.congr (hother d hdc) fun he => hnil ?_
            rw [he] at hd
            exact hd.2.2
          · simpa [hu, hdc] using hd
      · simp only [listed_goto, listed_setList, Option.getD_some] at hd
        split_ifs at hd with hvc
        · rw [hvc]
          exact h.owner (hsub hd)
        · exact h.owner hd
      · simp only [goto_userSessions, setList_userSessions] at hv
        split_ifs at hv with hvc
        · exact ⟨c, by simp [Option.some.inj hv, hvc]⟩
        · obtain ⟨d, hdc, hd⟩ := h.empty_ne (c := c) (by simp [hp]) hv
          exact ⟨d, by simpa [hdc] using hd⟩
    · next hl =>
      refine ⟨fun d => ?_, h.owner, fun {v} hv => ?_⟩
      · by_cases hdc : d = c
        · subst hdc
          simp [ConnOk, hs, listed, hl]
        · simpa [hdc] using h.conn d
      · obtain ⟨d, hdc, hd⟩ := h.empty_ne (c := c) (by simp [hp]) hv
        exact ⟨d, by simpa [hdc] using hd⟩
  · exact h

theorem step_unlist (h : Inv user s) (c : σ) : Inv user (step user s (.unlist c)) := by
  unfold step
  dsimp only
  split
  · next u hp =>
    have hc := h.conn c
    rw [hp] at hc
    obtain ⟨hs, rfl, hl⟩ := hc
    -- the entry removed is empty, so no listing changes
    have hsame : ∀ v, listed (setList s (user c) none) v = listed s v := fun v => by
      simp only [listed_setList]
      split_ifs with hv
      · rw [hv, hl]; rfl
      · rfl
    refine ⟨fun d => ?_, fun {v d} hd => h.owner ((hsame v) ▸ hd), fun {v} hv => ?_⟩
    · rw [listed_goto, hsame]
      by_cases hdc : d = c
      · subst hdc
        simp [ConnOk, hs, hl]
      · simpa [hdc] using h.conn d
    · simp only [goto_userSessions, setList_userSessions] at hv
      split_ifs at hv with hvc
      obtain ⟨d, hdc, hd⟩ := h.empty_ne (c := c) (by simpa [hp] using Ne.symm hvc) hv
      exact ⟨d, by simpa [hdc] using hd⟩
  · exact h

theorem step_inv (s : St σ U) (o : Op σ) (ho : NotInGap user s o) (h : Inv user s) : Inv user (step user s o) := by
  cases o with
  | insert c => exact step_insert h c
  | push c => exact step_push h c ho
  | take c => exact step_take h c
  | retain c => exact step_retain h c
  | unlist c => exact step_unlist h c

end

/-! ## Main result -/

/-- the two maps agree, and a dispatch reaches the registered sessions of the user, each once -/
structure Consistent (s : St σ U) : Prop where
  listed_once : ∀ c, s.sessions c ≠ none ↔ (listed s (user c)).count c = 1
  session_user : ∀ {c x}, s.sessions c = some x → x = ⟨c, user c⟩
  owner : ∀ {u c}, c ∈ listed s u → user c = u
  nonempty : ∀ u, s.userSessions u ≠ some []
  dispatch : ∀ u c, c ∈ dispatchToUser s u ↔ s.sessions c ≠ none ∧ user c = u
  dispatch_once : ∀ u, (dispatchToUser s u).Nodup

/-- **Gateway session index.** In a run without a push in the gap, `sessions` and `user_sessions` agree whenever no call
is in progress. -/
theorem index_consistent (ops : List (Op σ)) (hops : Every (step user) (NotInGap user) init ops) :
    let s := run (step user) init ops
    (∀ c, (s.pc c).running = false) → Consistent user s := by
  intro s hq
  have h : Inv user s := run_inv_of_every step_inv (inv_init user) hops
  have hconn : ∀ c, s.sessions c = none ∧ (listed s (user c)).count c = 0 ∨
      s.sessions c = some ⟨c, user c⟩ ∧ (listed s (user c)).count c = 1 := fun c => by
    have hc := h.conn c
    have hr := hq c
    cases hp : s.pc c <;> simp_all [ConnOk, Pc.running]
  have honce : ∀ c, s.sessions c ≠ none ↔ (listed s (user c)).count c = 1 := fun c => by
    rcases hconn c with ⟨hs, hl⟩ | ⟨hs, hl⟩ <;> simp [hs, hl]
  refine ⟨honce, fun {c x} hx => ?_, h.owner, fun u hu => ?_, fun u c => ?_, fun u => ?_⟩
  · rcases hconn c with ⟨hs, -⟩ | ⟨hs, -⟩ <;> simp_all
  · obtain ⟨c, hc⟩ := h.empty hu
    simpa [hc, Pc.running] using hq c
  · unfold dispatchToUser
    rw [List.mem_filter, Option.isSome_iff_ne_none]
    constructor
    · rintro ⟨hl, hs⟩
      exact ⟨hs, h.owner hl⟩
    · rintro ⟨hs, rfl⟩
      exact ⟨List.count_pos_iff.1 (by rw [(honce c).1 hs]; exact Nat.one_pos), hs⟩
  · refine List.Nodup.filter _ (List.nodup_iff_count_le_one.2 fun c => ?_)
    by_cases hc : c ∈ listed s u
    · obtain rfl := h.owner hc
      rcases hconn c with ⟨-, hl⟩ | ⟨-, hl⟩ <;> omega
    · rw [List.count_eq_zero.2 hc]
      exact Nat.zero_le 1

/-- two devices of user 7, one of which reconnects after the other has gone -/
def reconnectTrace : List (Op (Fin 3)) :=
  [.insert 0, .insert 1, .push 1, .push 0, .take 1, .retain 1, .take 0, .retain 0, .insert 1, .unlist 0, .push 1]

theorem index_consistent_reconnect : Consistent (fun _ => 7) (run (step fun _ : Fin 3 => 7) init reconnectTrace) :=
  index_consistent (fun _ => 7) reconnectTrace (by decide) (by decide)

/-- a connection of user 7 registers while the user's last one is being removed -/
def lostSessionTrace : List (Op ℕ) :=
  [.insert 0, .push 0, .take 0, .retain 0, .insert 1, .push 1, .unlist 0]

theorem lost_session :
    let s := run (step fun _ => 7) init lostSessionTrace
    (∀ c, (s.pc c).running = false) ∧ s.sessions 1 = some ⟨1, 7⟩ ∧ (listed s 7).count 1 = 0 ∧ dispatchToUser s 7 = [] := by
  refine ⟨fun c => ?_, by decide⟩
  rcases c with _ | _ | c <;> rfl

end SessionManager

end Lumiere.Gateway
