/-
One gateway connection from its first message to its cleanup (`handle_connection` in `lumiere-gateway/src/handler.rs`),
with every outcome of the calls it makes. It remembers its latest session and removes that one when it ends. `Identify`
is refused once there is a session, `Resume` is not; and a resume that fails at its queries has registered a session that
the connection does not come to know of.

What the handlers send, store in Redis and publish does not touch the session manager and is left out.

- `none_left_iff`: no session of the connection is left in the manager exactly if every resume that gets to register names
  the session that the connection has, or is its first and goes through.
- `session_left`: a resume that fails late leaves its session behind.
-/
import Lumiere.Auth.Jwt
import Lumiere.Core.Prog
import Lumiere.Core.Run
import Lumiere.Gateway.Registry

namespace Lumiere.Gateway

open Lumiere.Core Lumiere.Core.Prog Lumiere.Models Lumiere.Auth

namespace Connection

variable {κ : Type}

/-! ## The handlers of a session -/

abbrev GatewaySession (κ : Type) := Session String Snowflake κ

abbrev Manager (κ : Type) := Registry String Snowflake κ

inductive Access (κ : Type) where
  | register (x : GatewaySession κ)

def Access.exec : Access κ → Manager κ → Except String (ℕ × Manager κ)
  | .register x, r => .ok (0, r.register x)

abbrev Call (κ : Type) := Prog (Manager κ) (Access κ) String

/-- what the calls of `handle_identify` return -/
structure IdentifyCalls where
  /-- `verify_token` -/
  tokenType : Except String TokenType
  /-- `claims.sub.parse()` -/
  userId : Except String Snowflake
  /-- whether the query for the user finds a row -/
  user : Except String (Option Unit)
  servers : Except String Unit
  dms : Except String Unit
  /-- `nanoid!(32)` -/
  sessionId : String

/-- the token of an `Identify` or `Resume` -/
def authenticate (tokenType : Except String TokenType) (userId : Except String Snowflake) : Call κ Snowflake := do
  let tokenType ← ofExcept tokenType
  failIf (tokenType ≠ .access) "Not an access token"
  ofExcept userId

def handleIdentify (conn : κ) (calls : IdentifyCalls) : Call κ (GatewaySession κ) := do
  let userId ← authenticate calls.tokenType calls.userId
  let user ← ofExcept calls.user
  let _ ← orFail "User not found" user
  ofExcept calls.servers
  ofExcept calls.dms
  let session : GatewaySession κ := ⟨calls.sessionId, userId, conn⟩
  execute (.register session)
  pure session

/-- what the calls of `handle_resume` return -/
structure ResumeCalls where
  tokenType : Except String TokenType
  userId : Except String Snowflake
  /-- `GET gateway_session:{id}`: the record as JSON, with its `user_id` if that is a string -/
  get : Except String (Option (Except String (Option String)))
  del : Except String Unit
  servers : Except String Unit
  dms : Except String Unit

/-- `handle_resume` up to the session -/
def admitResume (calls : ResumeCalls) : Call κ Snowflake := do
  let userId ← authenticate calls.tokenType calls.userId
  let data ← ofExcept calls.get
  let json ← orFail "Session expired" data
  let storedUserId ← ofExcept json
  let storedUserId ← orFail "Invalid session data" storedUserId
  failIf (storedUserId ≠ toString userId.value) "Session user mismatch"
  ofExcept calls.del
  pure userId

def handleResume (conn : κ) (sessionId : String) (calls : ResumeCalls) : Call κ (GatewaySession κ) := do
  let userId ← admitResume calls
  let session : GatewaySession κ := ⟨sessionId, userId, conn⟩
  execute (.register session)
  ofExcept calls.servers
  ofExcept calls.dms
  pure session

/-! ## The loop -/

inductive Message where
  /-- the payload, if it is well formed -/
  | identify (payload : Option IdentifyCalls)
  | resume (payload : Option (String × ResumeCalls))
  | heartbeat
  | presenceUpdate
  | unknown

inductive Frame where
  /-- the stream ends, fails or is silent for too long, or the client closes it -/
  | stop
  /-- a ping, a pong or a binary frame -/
  | other
  /-- a text frame, with its message if it is one; the loop counts it at this time, in milliseconds -/
  | text (now : ℕ) (message : Option Message)

structure St (κ : Type) where
  manager : Manager κ
  session : Option (GatewaySession κ)
  commandCount : ℕ
  windowStart : ℕ
  /-- the loop goes on -/
  isOpen : Bool

def maxCommandsPerMinute : ℕ := 120

def start (manager : Manager κ) (now : ℕ) : St κ := ⟨manager, none, 0, now, true⟩

def close (s : St κ) : St κ := { s with isOpen := false }

def countCommand (s : St κ) (now : ℕ) : St κ :=
  if 60000 < now - s.windowStart then { s with commandCount := 1, windowStart := now }
  else { s with commandCount := s.commandCount + 1 }

/-- the outcome of a handler of a session -/
def settle (s : St κ) : Except String (GatewaySession κ) × Manager κ → St κ
  | (.ok x, manager) => { s with manager, session := some x }
  | (.error _, manager) => close { s with manager }

variable (conn : κ)

def handleMessage (s : St κ) : Message → St κ
  | .identify payload =>
    if s.session.isSome then close s
    else
      match payload with
      | some calls => settle s ((handleIdentify conn calls).run Access.exec s.manager)
      | none => close s
  | .resume payload =>
    match payload with
    | some (sessionId, calls) => settle s ((handleResume conn sessionId calls).run Access.exec s.manager)
    | none => close s
  | .heartbeat | .presenceUpdate | .unknown => s

def step (s : St κ) (frame : Frame) : St κ :=
  if s.isOpen then
    match frame with
    | .stop => close s
    | .other => s
    | .text now message =>
      let s := countCommand s now
      if maxCommandsPerMinute < s.commandCount then close s
      else
        match message with
        | some m => handleMessage conn s m
        | none => close s
  else s

/-- the session that the connection remembers is removed -/
def cleanup (s : St κ) : Manager κ :=
  match s.session with
  | some x => s.manager.remove x.sessionId
  | none => s.manager

/-- `hello`: the greeting could be sent -/
def handleConnection (hello : Bool) (now : ℕ) (frames : List Frame) (manager : Manager κ) : Manager κ :=
  if hello then cleanup (run (step conn) (start manager now) frames) else manager

/-! ## What the handlers do to the manager -/

section

variable {conn} {manager : Manager κ} {sessionId : String}

theorem readOnly_authenticate {tokenType : Except String TokenType} {userId : Except String Snowflake} :
    (authenticate tokenType userId : Call κ Snowflake).ReadOnly :=
  issues_bind (issues_ofExcept _) fun _ => issues_bind (issues_failIf _ _) fun _ => issues_ofExcept _

theorem readOnly_admitResume {calls : ResumeCalls} : (admitResume calls : Call κ Snowflake).ReadOnly :=
  issues_bind readOnly_authenticate fun _ => issues_bind (issues_ofExcept _) fun _ => issues_bind (issues_orFail _ _)
    fun _ => issues_bind (issues_ofExcept _) fun _ => issues_bind (issues_orFail _ _) fun _ =>
    issues_bind (issues_failIf _ _) fun _ => issues_bind (issues_ofExcept _) fun _ => issues_pure _

/-- both queries of a resume succeed -/
def ResumeCalls.listed (calls : ResumeCalls) : Bool := calls.servers.isOk && calls.dms.isOk

/-- `handle_identify` registers its session last -/
theorem run_handleIdentify (conn : κ) (calls : IdentifyCalls) (manager : Manager κ) :
    (∃ e, (handleIdentify conn calls).run Access.exec manager = (.error e, manager)) ∨
      ∃ x : GatewaySession κ, x.sender = conn ∧
        (handleIdentify conn calls).run Access.exec manager = (.ok x, manager.register x) := by
  rw [handleIdentify, run_bind]
  rcases hauth : (authenticate calls.tokenType calls.userId).run Access.exec manager with ⟨e | userId, manager'⟩
  · obtain rfl := readOnly_authenticate.eq_of_run hauth
    exact .inl ⟨e, rfl⟩
  · obtain rfl := readOnly_authenticate.eq_of_run hauth
    rcases calls.user with e | _ | _
    · exact .inl ⟨e, rfl⟩
    · exact .inl ⟨_, rfl⟩
    rcases calls.servers with e | _
    · exact .inl ⟨e, rfl⟩
    rcases calls.dms with e | _
    · exact .inl ⟨e, rfl⟩
    exact .inr ⟨⟨calls.sessionId, userId, conn⟩, rfl, rfl⟩

/-- `handle_resume` registers its session before the queries -/
theorem run_handleResume (conn : κ) (sessionId : String) (calls : ResumeCalls) (manager : Manager κ) :
    (admitResume calls).succeeds Access.exec manager = false ∧
        (∃ e, (handleResume conn sessionId calls).run Access.exec manager = (.error e, manager)) ∨
      (admitResume calls).succeeds Access.exec manager = true ∧
        ∃ x : GatewaySession κ, x.sender = conn ∧ x.sessionId = sessionId ∧
          if calls.listed then (handleResume conn sessionId calls).run Access.exec manager = (.ok x, manager.register x)
          else ∃ e, (handleResume conn sessionId calls).run Access.exec manager = (.error e, manager.register x) := by
  rw [Prog.succeeds, handleResume, run_bind]
  rcases hadmitted : (admitResume calls).run Access.exec manager with ⟨e | userId, manager'⟩
  · obtain rfl := readOnly_admitResume.eq_of_run hadmitted
    exact .inl ⟨rfl, e, rfl⟩
  · obtain rfl := readOnly_admitResume.eq_of_run hadmitted
    refine .inr ⟨rfl, ⟨sessionId, userId, conn⟩, rfl, rfl, ?_⟩
    rw [ResumeCalls.listed]
    rcases calls.servers with e | _
    · exact ⟨e, rfl⟩
    · rcases calls.dms with e | _
      · exact ⟨e, rfl⟩
      · exact rfl

end

/-! ## The sessions of the connection -/

/-- the message that the loop looks at -/
def served (s : St κ) : Frame → Option Message
  | .text now message => if s.isOpen ∧ (countCommand s now).commandCount ≤ maxCommandsPerMinute then message else none
  | _ => none

/-- a resume that gets to register names the session of the connection, or is its first and goes through -/
def KeepsSession (s : St κ) (frame : Frame) : Prop :=
  ∀ sessionId calls, served s frame = some (.resume (some (sessionId, calls))) →
    (admitResume calls).succeeds Access.exec s.manager = true →
      match s.session with
      | some x => x.sessionId = sessionId
      | none => calls.listed = true

/-- what a frame does to the manager and to the session of the connection, and when it keeps the session -/
inductive Outcome (conn : κ) (s : St κ) (frame : Frame) (s' : St κ) : Prop where
  | same (hm : s'.manager = s.manager) (hs : s'.session = s.session) (ho : s'.isOpen = true → s.isOpen = true)
      (hkeeps : KeepsSession s frame)
  | registered (x : GatewaySession κ) (hx : x.sender = conn) (hm : s'.manager = s.manager.register x)
      (hs : s'.session = some x) (ho : s.isOpen = true)
      (hkeeps : KeepsSession s frame ↔ ∀ y ∈ s.session, y.sessionId = x.sessionId)
  | lost (x : GatewaySession κ) (hx : x.sender = conn) (hm : s'.manager = s.manager.register x)
      (hs : s'.session = s.session) (ho : s'.isOpen = false)
      (hkeeps : KeepsSession s frame ↔ ∃ y ∈ s.session, y.sessionId = x.sessionId)

variable {conn : κ} {s : St κ} {frame : Frame}

theorem countCommand_same (s : St κ) (now : ℕ) : (countCommand s now).manager = s.manager ∧
    (countCommand s now).session = s.session ∧ (countCommand s now).isOpen = s.isOpen := by
  rw [countCommand]
  split_ifs <;> exact ⟨rfl, rfl, rfl⟩

/-- a frame that is not looked at changes neither the manager nor the session -/
theorem step_cases (conn : κ) (s : St κ) (frame : Frame) :
    (∃ s₁ m, served s frame = some m ∧ s₁.manager = s.manager ∧ s₁.session = s.session ∧ s.isOpen = true ∧
      step conn s frame = handleMessage conn s₁ m) ∨
    served s frame = none ∧ (step conn s frame).manager = s.manager ∧ (step conn s frame).session = s.session ∧
      ((step conn s frame).isOpen = true → s.isOpen = true) := by
  unfold step
  by_cases ho : s.isOpen = true
  · rw [if_pos ho]
    cases frame with
    | stop => exact .inr ⟨rfl, rfl, rfl, fun _ => ho⟩
    | other => exact .inr ⟨rfl, rfl, rfl, fun _ => ho⟩
    | text now message =>
      obtain ⟨hm, hs, -⟩ := countCommand_same s now
      dsimp only
      by_cases hlimit : maxCommandsPerMinute < (countCommand s now).commandCount
      · rw [if_pos hlimit]
        exact .inr ⟨if_neg fun h => absurd h.2 (not_le.2 hlimit), hm, hs, fun _ => ho⟩
      · rw [if_neg hlimit]
        have hserved : served s (.text now message) = message := if_pos ⟨ho, not_lt.1 hlimit⟩
        cases message with
        | none => exact .inr ⟨hserved, hm, hs, fun _ => ho⟩
        | some m => exact .inl ⟨_, m, hserved, hm, hs, ho, rfl⟩
  · rw [if_neg ho]
    refine .inr ⟨?_, rfl, rfl, id⟩
    cases frame with
    | text now message => exact if_neg fun h => ho h.1
    | _ => rfl

/-- a message that is no resume with a payload keeps the session -/
theorem keepsSession_of_served {o : Option Message} (h : served s frame = o)
    (ho : ∀ payload, o ≠ some (.resume (some payload))) : KeepsSession s frame :=
  fun _ _ hserved => absurd (h.symm.trans hserved) (ho _)

theorem step_outcome (conn : κ) (s : St κ) (frame : Frame) : Outcome conn s frame (step conn s frame) := by
  rcases step_cases conn s frame with ⟨s₁, m, hserved, hm₁, hs₁, ho, hstep⟩ | ⟨hserved, hm, hs, ho⟩
  · rw [hstep]
    cases m with
    | identify payload =>
      have hkeeps : KeepsSession s frame := keepsSession_of_served hserved (by simp)
      simp only [handleMessage]
      by_cases hsession : s₁.session.isSome = true
      · rw [if_pos hsession]
        exact .same hm₁ hs₁ (fun _ => ho) hkeeps
      · rw [if_neg hsession]
        rw [hs₁, Option.not_isSome_iff_eq_none] at hsession
        cases payload with
        | none => exact .same hm₁ hs₁ (fun _ => ho) hkeeps
        | some calls =>
          rcases run_handleIdentify conn calls s₁.manager with ⟨e, hrun⟩ | ⟨x, hx, hrun⟩
          · simp only [hrun, settle]
            exact .same hm₁ hs₁ (fun _ => ho) hkeeps
          · simp only [hrun, settle]
            refine .registered x hx (by rw [hm₁]) rfl ho ⟨fun _ y hy => ?_, fun _ => hkeeps⟩
            rw [hsession] at hy
            cases hy
    | resume payload =>
      cases payload with
      | none => exact .same hm₁ hs₁ (fun _ => ho) (keepsSession_of_served hserved (by simp))
      | some payload =>
        obtain ⟨sessionId, calls⟩ := payload
        have hkeeps : KeepsSession s frame ↔ ((admitResume calls).succeeds Access.exec s.manager = true →
            match s.session with
            | some x => x.sessionId = sessionId
            | none => calls.listed = true) := by
          constructor
          · intro h
            exact h sessionId calls hserved
          · intro h sessionId' calls' hserved'
            rw [hserved] at hserved'
            cases hserved'
            exact h
        simp only [handleMessage]
        rcases run_handleResume conn sessionId calls s₁.manager with ⟨hadmitted, e, hrun⟩ | ⟨hadmitted, x, hx, hid, hrun⟩
        · simp only [hrun, settle]
          rw [hm₁] at hadmitted
          refine .same hm₁ hs₁ (fun _ => ho) (hkeeps.2 fun h => ?_)
          rw [hadmitted] at h
          cases h
        · rw [hm₁] at hadmitted
          rw [hadmitted] at hkeeps
          by_cases hlisted : calls.listed = true
          · rw [if_pos hlisted] at hrun
            simp only [hrun, settle]
            refine .registered x hx (by rw [hm₁]) rfl ho (hkeeps.trans ?_)
            rcases s.session with _ | y <;> simp [hlisted, hid]
          · rw [if_neg hlisted] at hrun
            obtain ⟨e, hrun⟩ := hrun
            simp only [hrun, settle]
            refine .lost x hx (by rw [← hm₁]; rfl) hs₁ rfl (hkeeps.trans ?_)
            rcases s.session with _ | y <;> simp [hlisted, hid]
    | heartbeat => exact .same hm₁ hs₁ (fun _ => ho) (keepsSession_of_served hserved (by simp))
    | presenceUpdate => exact .same hm₁ hs₁ (fun _ => ho) (keepsSession_of_served hserved (by simp))
    | unknown => exact .same hm₁ hs₁ (fun _ => ho) (keepsSession_of_served hserved (by simp))
  · exact .same hm hs ho (keepsSession_of_served hserved (by simp))

/-! ## Sessions left behind -/

/-- the id has a session of the connection in the manager -/
def Holds (conn : κ) (manager : Manager κ) (id : String) : Prop := ∃ x, manager.sessions id = some x ∧ x.sender = conn

/-- the session of the connection is in the manager, and no other one is -/
structure Good (conn : κ) (s : St κ) : Prop where
  own : ∀ y ∈ s.session, Holds conn s.manager y.sessionId
  only : ∀ id, Holds conn s.manager id → ∃ y ∈ s.session, y.sessionId = id

/-- another session of the connection is in the manager than the one it remembers -/
structure Bad (conn : κ) (s : St κ) : Prop where
  own : ∀ y ∈ s.session, Holds conn s.manager y.sessionId
  left : ∃ id, Holds conn s.manager id ∧ ∀ y ∈ s.session, y.sessionId ≠ id
  busy : s.isOpen = true → s.session.isSome = true

theorem holds_register {manager : Manager κ} {x : GatewaySession κ} (hx : x.sender = conn) {id : String} :
    Holds conn (manager.register x) id ↔ id = x.sessionId ∨ Holds conn manager id := by
  rw [Holds, Registry.register_sessions]
  by_cases hid : id = x.sessionId
  · rw [if_pos hid]
    exact ⟨fun _ => .inl hid, fun _ => ⟨x, rfl, hx⟩⟩
  · rw [if_neg hid]
    exact ⟨.inr, fun h => h.resolve_left hid⟩

theorem step_good (s : St κ) (frame : Frame) (h : Good conn s) (hkeeps : KeepsSession s frame) :
    Good conn (step conn s frame) := by
  cases step_outcome conn s frame with
  | same hm hs _ _ => exact ⟨by rw [hm, hs]; exact h.own, by rw [hm, hs]; exact h.only⟩
  | registered x hx hm hs _ hiff =>
    refine ⟨?_, ?_⟩
    · rw [hm, hs]
      rintro _ ⟨⟩
      exact (holds_register hx).2 (.inl rfl)
    · rw [hm, hs]
      intro id hid
      refine ⟨x, rfl, ?_⟩
      rcases (holds_register hx).1 hid with rfl | hold
      · rfl
      · obtain ⟨y, hy, rfl⟩ := h.only id hold
        exact (hiff.1 hkeeps y hy).symm
  | lost x hx hm hs _ hiff =>
    refine ⟨?_, ?_⟩
    · rw [hm, hs]
      exact fun y hy => (holds_register hx).2 (.inr (h.own y hy))
    · rw [hm, hs]
      intro id hid
      rcases (holds_register hx).1 hid with rfl | hold
      · exact hiff.1 hkeeps
      · exact h.only id hold

theorem step_leaves (s : St κ) (frame : Frame) (h : Good conn s) (hkeeps : ¬ KeepsSession s frame) :
    Bad conn (step conn s frame) := by
  cases step_outcome conn s frame with
  | same _ _ _ hkept => exact absurd hkept hkeeps
  | registered x hx hm hs _ hiff =>
    rw [hiff] at hkeeps
    push Not at hkeeps
    obtain ⟨y, hy, hne⟩ := hkeeps
    refine ⟨?_, ?_, fun _ => by rw [hs]; rfl⟩
    · rw [hm, hs]
      rintro _ ⟨⟩
      exact (holds_register hx).2 (.inl rfl)
    · -- the session that the connection had
      rw [hm, hs]
      refine ⟨y.sessionId, (holds_register hx).2 (.inr (h.own y hy)), ?_⟩
      rintro _ ⟨⟩
      exact hne.symm
  | lost x hx hm hs ho hiff =>
    rw [hiff] at hkeeps
    push Not at hkeeps
    refine ⟨?_, ?_, fun hopen => ?_⟩
    · rw [hm, hs]
      exact fun y hy => (holds_register hx).2 (.inr (h.own y hy))
    · -- the session that it does not come to know of
      rw [hm, hs]
      exact ⟨x.sessionId, (holds_register hx).2 (.inl rfl), hkeeps⟩
    · rw [ho] at hopen
      cases hopen

theorem step_bad (s : St κ) (frame : Frame) (h : Bad conn s) : Bad conn (step conn s frame) := by
  obtain ⟨id, hid, hne⟩ := h.left
  cases step_outcome conn s frame with
  | same hm hs ho _ =>
    exact ⟨by rw [hm, hs]; exact h.own, by rw [hm, hs]; exact h.left, fun hopen => by rw [hs]; exact h.busy (ho hopen)⟩
  | registered x hx hm hs ho _ =>
    refine ⟨?_, ?_, fun _ => by rw [hs]; rfl⟩
    · rw [hm, hs]
      rintro _ ⟨⟩
      exact (holds_register hx).2 (.inl rfl)
    · rw [hm, hs]
      by_cases heq : id = x.sessionId
      · -- the connection takes up the one that was left, and leaves the one it had
        obtain ⟨y, hy⟩ := Option.isSome_iff_exists.1 (h.busy ho)
        refine ⟨y.sessionId, (holds_register hx).2 (.inr (h.own y hy)), ?_⟩
        rintro _ ⟨⟩
        exact fun hback => hne y hy (hback.symm.trans heq.symm)
      · refine ⟨id, (holds_register hx).2 (.inr hid), ?_⟩
        rintro _ ⟨⟩
        exact Ne.symm heq
  | lost x hx hm hs ho _ =>
    refine ⟨?_, ?_, fun hopen => ?_⟩
    · rw [hm, hs]
      exact fun y hy => (holds_register hx).2 (.inr (h.own y hy))
    · rw [hm, hs]
      exact ⟨id, (holds_register hx).2 (.inr hid), hne⟩
    · rw [ho] at hopen
      cases hopen

theorem holds_cleanup {s : St κ} {id : String} :
    Holds conn (cleanup s) id ↔ Holds conn s.manager id ∧ ∀ y ∈ s.session, y.sessionId ≠ id := by
  rw [cleanup]
  rcases s.session with _ | y
  · simp
  · simp only [Option.mem_some_iff, forall_eq', Holds, Registry.remove_sessions]
    by_cases hid : id = y.sessionId
    · simp [hid]
    · simp [hid, Ne.symm hid]

/-- **No session outlives its connection, if its resumes keep to one session.** After the cleanup the manager has no
session whose sender belongs to the connection if and only if every resume that got to register named the session that
the connection had, or was its first and went through. -/
theorem none_left_iff {manager : Manager κ} (hmanager : ∀ id, ¬ Holds conn manager id) (hello : Bool) (now : ℕ)
    (frames : List Frame) :
    (∀ id, ¬ Holds conn (handleConnection conn hello now frames manager) id) ↔
      (hello = true → Every (step conn) KeepsSession (start manager now) frames) := by
  rw [handleConnection]
  cases hello with
  | false => exact iff_of_true hmanager nofun
  | true =>
    rw [if_pos rfl, imp_iff_right rfl]
    have hstart : Good conn (start manager now) := ⟨nofun, fun id hid => absurd hid (hmanager id)⟩
    rcases run_good_or_bad step_good step_leaves step_bad hstart frames with ⟨hframes, hgood⟩ | ⟨hframes, hbad⟩
    · refine iff_of_true (fun id hid => ?_) hframes
      obtain ⟨hold, hne⟩ := holds_cleanup.1 hid
      obtain ⟨y, hy, rfl⟩ := hgood.only id hold
      exact hne y hy rfl
    · refine iff_of_false (fun hnone => ?_) hframes
      obtain ⟨id, hid, hne⟩ := hbad.left
      exact hnone id (holds_cleanup.2 ⟨hid, hne⟩)

/-! ## A session that is left -/

/-- user 7 resumes session "a", whose servers load and whose direct messages do as given -/
def resumeCalls (dms : Except String Unit) : ResumeCalls :=
  { tokenType := .ok .access, userId := .ok ⟨7⟩, get := .ok (some (.ok (some "7"))), del := .ok (), servers := .ok (), dms }

def noSessions : Manager ℕ := ⟨fun _ => none, fun _ => none⟩

theorem not_holds_noSessions (id : String) : ¬ Holds 0 noSessions id := fun ⟨_, h, _⟩ => nomatch h

/-- a connection whose one message is the resume -/
def resuming (dms : Except String Unit) : List Frame := [.text 5 (some (.resume (some ("a", resumeCalls dms))))]

theorem none_left_iff_resumed :
    (∀ id, ¬ Holds 0 (handleConnection 0 true 0 (resuming (.ok ())) noSessions) id) ↔
      (true = true → Every (step 0) KeepsSession (start noSessions 0) (resuming (.ok ()))) :=
  none_left_iff not_holds_noSessions true 0 (resuming (.ok ()))

/-- **A resume whose last query fails leaves its session behind.** -/
theorem session_left :
    (∀ id, ¬ Holds 0 noSessions id) ∧
      Holds 0 (handleConnection 0 true 0 (resuming (.error "pool timed out")) noSessions) "a" :=
  ⟨not_holds_noSessions, ⟨"a", ⟨7⟩, 0⟩, by decide, rfl⟩

end Connection

end Lumiere.Gateway
