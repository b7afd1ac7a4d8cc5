/-
Who is online (`handle_connection`, `handle_identify`, `handle_presence_update` in `lumiere-gateway/src/handler.rs`, and
`update_settings`, `update_presence`, `update_presence_in_redis` in `lumiere-server/src/routes/users.rs`). A status is
written to a key of Redis that expires after five minutes, and is published unless it is `invisible`; a heartbeat renews
the key if it is there; an identify publishes `online` and writes no key; ten seconds after the end of a connection
`offline` is published, if the user has no session by then.

- `present_iff`: a user has a key exactly if a status was written, and since then no five minutes passed without a
  heartbeat that reached Redis. To be connected is neither enough nor needed.
- `heard_sublist`: what the listeners of another user's session send of a user. The one for a common server sends some of
  the identifies and of the visible statuses that are set through the gateway, in their order; the others send nothing. So
  nobody else hears of `offline`, or of what is set by a request.
-/
import Lumiere.Core.Lease
import Lumiere.Core.Json
import Lumiere.Gateway.Registry
import Lumiere.Gateway.Subjects
import Lumiere.Routes.ServerEdits

namespace Lumiere.Gateway.Presence

open Lumiere.Core Lumiere.Db Lumiere.Routes

/-! ## Keys and events -/

/-- the value of a key `presence:{}` -/
structure Entry where
  status : String
  /-- JSON, null where there is none -/
  customStatus : Option Value
  lastActive : ℕ

/-- a `PRESENCE_UPDATE` -/
structure PresenceUpdate where
  userId : ℤ
  status : String
  /-- absent in what an identify or the end of a connection publishes -/
  customStatus : Option (Option Value)

structure Published where
  subject : Subject
  event : PresenceUpdate

/-- `user.{}.presence` -/
def userPresence (userId : ℤ) : Subject := ["user", toString userId, "presence"]

/-- `let valid = ["online", "idle", "dnd", "invisible"]` -/
def validStatus (status : String) : Bool := status ∈ ["online", "idle", "dnd", "invisible"]

/-- a row of `user_settings`, the columns that matter here -/
structure Settings where
  status : String
  customStatus : Option Value

/-- milliseconds -/
def presenceTtl : ℕ := 300 * 1000

def offlineDelay : ℕ := 10 * 1000

/-! ## The system -/

structure St (σ κ : Type) where
  keys : Lease.St ℤ Entry
  manager : Registry σ ℤ κ
  /-- the session that a connection remembers -/
  session : κ → Option (Session σ ℤ κ)
  settings : ℤ → Option Settings
  /-- the tasks that wait to publish `offline`: the user, and until when -/
  departures : List (ℤ × ℕ)
  /-- oldest first -/
  published : List Published

/-- `redis` says whether Redis executes the command -/
inductive Op (σ κ : Type) where
  | tick (n : ℕ)
  /-- an `Identify` that goes through, with the servers of the user -/
  | identify (conn : κ) (sessionId : σ) (userId : ℤ) (servers : List ℤ)
  | resume (conn : κ) (sessionId : σ) (userId : ℤ)
  | heartbeat (conn : κ) (redis : Bool)
  /-- a `PresenceUpdate` with data, and the servers of the user -/
  | presenceUpdate (conn : κ) (data : Value) (servers : List ℤ) (redis : Bool)
  | updatePresence (userId : ℤ) (status : String) (customStatus : Option Value) (redis : Bool)
  | updateSettings (userId : ℤ) (status : Option String) (customStatus : Option (Option Value)) (redis : Bool)
  | disconnect (conn : κ)
  /-- the task at this place goes on -/
  | wake (i : ℕ)

variable {σ κ : Type} [DecidableEq σ] [DecidableEq κ]

namespace St

variable (s : St σ κ)

/-- `SET presence:{} .. EX 300` -/
def write (redis : Bool) (userId : ℤ) (status : String) (customStatus : Option Value) : St σ κ :=
  if redis then { s with keys := s.keys.put presenceTtl userId ⟨status, customStatus, s.keys.now⟩ } else s

def publish (subjects : List Subject) (event : PresenceUpdate) : St σ κ :=
  { s with published := s.published ++ subjects.map fun subject => ⟨subject, event⟩ }

/-- `user.{}.presence`, and the events of the servers -/
def everywhere (userId : ℤ) (servers : List ℤ) : List Subject := userPresence userId :: servers.map serverEvents

def handleIdentify (conn : κ) (sessionId : σ) (userId : ℤ) (servers : List ℤ) : St σ κ :=
  let session : Session σ ℤ κ := ⟨sessionId, userId, conn⟩
  { s with manager := s.manager.register session, session := Function.update s.session conn (some session) }.publish
    (everywhere userId servers) ⟨userId, "online", none⟩

def handleResume (conn : κ) (sessionId : σ) (userId : ℤ) : St σ κ :=
  let session : Session σ ℤ κ := ⟨sessionId, userId, conn⟩
  { s with manager := s.manager.register session, session := Function.update s.session conn (some session) }

/-- `EXPIRE presence:{} 300` -/
def heartbeat (redis : Bool) (userId : ℤ) : St σ κ :=
  if redis then { s with keys := s.keys.renew presenceTtl userId } else s

def handlePresenceUpdate (redis : Bool) (userId : ℤ) (data : Value) (servers : List ℤ) : St σ κ :=
  let status := (data.field "status").asStr.getD "online"
  if !validStatus status then s
  else
    let s := s.write redis userId status (data.get? "custom_status")
    if status ≠ "invisible" then
      s.publish (everywhere userId servers) ⟨userId, status, some (data.get? "custom_status")⟩
    else s

def updatePresenceInRedis (redis : Bool) (userId : ℤ) (status : String) (customStatus : Option Value) : St σ κ :=
  let s := s.write redis userId status customStatus
  if status ≠ "invisible" then s.publish [userPresence userId] ⟨userId, status, some customStatus⟩ else s

def updatePresence (redis : Bool) (userId : ℤ) (status : String) (customStatus : Option Value) : St σ κ :=
  if !validStatus status then s
  else
    -- the row is updated if it is there
    let settings := Function.update s.settings userId ((s.settings userId).map fun _ => ⟨status, customStatus⟩)
    { s with settings }.updatePresenceInRedis redis userId status customStatus

/-- the two fields of the settings; the others do not come here -/
def updateSettings (redis : Bool) (userId : ℤ) (status : Option String) (customStatus : Option (Option Value)) :
    St σ κ :=
  if !status.all validStatus then s
  else match s.settings userId with
    | none => s
    | some row =>
      let row : Settings := ⟨status.getD row.status, customStatus.getD row.customStatus⟩
      let s := { s with settings := Function.update s.settings userId (some row) }
      if status.isSome || customStatus.isSome then s.updatePresenceInRedis redis userId row.status row.customStatus
      else s

/-- the cleanup of a connection -/
def disconnect (conn : κ) : St σ κ :=
  match s.session conn with
  | none => s
  | some session => { s with
      manager := s.manager.remove session.sessionId
      session := Function.update s.session conn none
      departures := s.departures ++ [(session.userId, s.keys.now + offlineDelay)] }

/-- a task that has slept its time looks for the user among the sessions -/
def wake (i : ℕ) : St σ κ :=
  match s.departures[i]? with
  | none => s
  | some (userId, due) =>
    if s.keys.now < due then s
    else
      let s := { s with departures := s.departures.eraseIdx i }
      if (s.manager.userSessions userId).isNone then s.publish [userPresence userId] ⟨userId, "offline", none⟩ else s

end St

def step (s : St σ κ) : Op σ κ → St σ κ
  | .tick n => { s with keys := s.keys.tick n }
  | .identify conn sessionId userId servers =>
    if (s.session conn).isSome then s else s.handleIdentify conn sessionId userId servers
  | .resume conn sessionId userId => s.handleResume conn sessionId userId
  | .heartbeat conn redis => (s.session conn).elim s fun session => s.heartbeat redis session.userId
  | .presenceUpdate conn data servers redis =>
    (s.session conn).elim s fun session => s.handlePresenceUpdate redis session.userId data servers
  | .updatePresence userId status customStatus redis => s.updatePresence redis userId status customStatus
  | .updateSettings userId status customStatus redis => s.updateSettings redis userId status customStatus
  | .disconnect conn => s.disconnect conn
  | .wake i => s.wake i

/-- nobody has been here -/
def init (now : ℕ) (settings : ℤ → Option Settings) : St σ κ :=
  ⟨Lease.init now, ⟨fun _ => none, fun _ => none⟩, fun _ => none, settings, [], []⟩

/-! ## Keys -/

/-- the status of the user that an operation writes to Redis -/
def writes (userId : ℤ) (s : St σ κ) : Op σ κ → Option Entry
  | .presenceUpdate conn data _ redis =>
    let status := (data.field "status").asStr.getD "online"
    if redis && validStatus status && (s.session conn).any fun session => session.userId = userId then
      some ⟨status, data.get? "custom_status", s.keys.now⟩
    else none
  | .updatePresence u status customStatus redis =>
    if redis && validStatus status && decide (u = userId) then some ⟨status, customStatus, s.keys.now⟩ else none
  | .updateSettings u status customStatus redis =>
    if redis && status.all validStatus && (status.isSome || customStatus.isSome) && decide (u = userId) then
      (s.settings u).map fun row => ⟨status.getD row.status, customStatus.getD row.customStatus, s.keys.now⟩
    else none
  | _ => none

/-- a heartbeat of a session of the user, which reaches Redis -/
def beats (userId : ℤ) (s : St σ κ) : Op σ κ → Bool
  | .heartbeat conn redis => redis && (s.session conn).any fun session => session.userId = userId
  | _ => false

/-- what an operation does to the key of the user -/
def act (userId : ℤ) (s : St σ κ) : Op σ κ → Lease.Act Entry
  | .tick n => .tick n
  | o =>
    match writes userId s o with
    | some entry => .set entry
    | none => if beats userId s o then .renew else .idle

omit [DecidableEq σ] [DecidableEq κ] in
theorem presenceTtl_pos : 0 < presenceTtl := Nat.mul_pos (by simp) (by simp)

omit [DecidableEq σ] [DecidableEq κ] in
@[simp] theorem keys_publish (s : St σ κ) (subjects : List Subject) (event : PresenceUpdate) :
    (s.publish subjects event).keys = s.keys := rfl

omit [DecidableEq σ] [DecidableEq κ] in
@[simp] theorem published_write (s : St σ κ) (redis : Bool) (u : ℤ) (status : String) (customStatus : Option Value) :
    (s.write redis u status customStatus).published = s.published := by
  unfold St.write
  split_ifs <;> rfl

omit [DecidableEq σ] [DecidableEq κ] in
theorem left_write (s : St σ κ) (redis : Bool) (u userId : ℤ) (status : String) (customStatus : Option Value) :
    (s.write redis u status customStatus).keys.left userId = Lease.Act.on presenceTtl (s.keys.left userId)
      (if redis && decide (u = userId) then .set ⟨status, customStatus, s.keys.now⟩ else .idle) := by
  unfold St.write
  cases redis with
  | false => simp [Lease.Act.on]
  | true => simp [Lease.left_put _ _ _ _ presenceTtl_pos]

omit [DecidableEq σ] [DecidableEq κ] in
theorem left_updatePresenceInRedis (s : St σ κ) (redis : Bool) (u userId : ℤ) (status : String)
    (customStatus : Option Value) :
    (s.updatePresenceInRedis redis u status customStatus).keys.left userId =
      Lease.Act.on presenceTtl (s.keys.left userId)
        (if redis && decide (u = userId) then .set ⟨status, customStatus, s.keys.now⟩ else .idle) := by
  rw [← left_write]
  unfold St.updatePresenceInRedis
  split_ifs <;> rfl

/-- every operation does to the key of a user what is said of it -/
theorem tracks (userId : ℤ) :
    Lease.Tracks step (act userId) presenceTtl fun s : St σ κ => s.keys.left userId := by
  intro s o
  cases o with
  | tick n => exact Lease.left_tick s.keys userId n
  | identify conn sessionId u servers =>
    simp only [step]
    split_ifs <;> rfl
  | resume conn sessionId u => rfl
  | heartbeat conn redis =>
    simp only [step, act, writes, beats]
    rcases Option.eq_none_or_eq_some (s.session conn) with hsession | ⟨session, hsession⟩
    · simp [hsession, Lease.Act.on]
    · cases redis with
      | false => simp [hsession, St.heartbeat, Lease.Act.on]
      | true => simp [hsession, St.heartbeat, Lease.left_renew _ _ _ presenceTtl_pos]
  | presenceUpdate conn data servers redis =>
    simp only [step, act, writes, beats]
    cases hsession : s.session conn with
    | none => simp [Lease.Act.on]
    | some session =>
      simp only [Option.elim_some, St.handlePresenceUpdate]
      cases hvalid : validStatus ((data.field "status").asStr.getD "online") with
      | false => simp [Lease.Act.on]
      | true =>
        have hwrite := left_write s redis session.userId userId ((data.field "status").asStr.getD "online")
          (data.get? "custom_status")
        simp only [Bool.not_true, Bool.false_eq_true, if_false, Option.any_some, Bool.and_true]
        split_ifs at hwrite ⊢ <;> simpa using hwrite
  | updatePresence u status customStatus redis =>
    simp only [step, act, writes, beats, St.updatePresence]
    cases hvalid : validStatus status with
    | false => simp [Lease.Act.on]
    | true =>
      simp only [Bool.not_true, Bool.false_eq_true, if_false, left_updatePresenceInRedis, Bool.and_true]
      split_ifs <;> rfl
  | updateSettings u status customStatus redis =>
    simp only [step, act, writes, beats, St.updateSettings]
    cases hvalid : status.all validStatus with
    | false => simp [Lease.Act.on]
    | true =>
      cases hrow : s.settings u with
      | none => simp [Lease.Act.on]
      | some row =>
        cases hgiven : status.isSome || customStatus.isSome with
        | false => simp [Lease.Act.on]
        | true =>
          simp only [Bool.not_true, Bool.false_eq_true, if_false, if_true, left_updatePresenceInRedis, Bool.and_true,
            Option.map_some]
          split_ifs <;> rfl
  | disconnect conn =>
    simp only [step, St.disconnect]
    split <;> rfl
  | wake i =>
    simp only [step, St.wake]
    split
    · rfl
    · split_ifs <;> rfl

/-- **Who has a key.** A key holds a status exactly if an operation wrote it, none wrote another since, and no five minutes
passed since without a heartbeat. Identifying, resuming and disconnecting make no difference. -/
theorem present_iff (now : ℕ) (settings : ℤ → Option Settings) (ops : List (Op σ κ)) (userId : ℤ) (entry : Entry) :
    (run step (init now settings) ops).keys.read userId = some entry ↔
      ∃ pre o post, ops = pre ++ o :: post ∧ writes userId (run step (init now settings) pre) o = some entry ∧
        Lease.Kept presenceTtl presenceTtl
          (Lease.acts step (act userId) (run step (init now settings) (pre ++ [o])) post) := by
  have hheld := Lease.held_iff (tracks (σ := σ) (κ := κ) userId) presenceTtl_pos
    (s := init now settings) rfl ops entry
  have hact : ∀ (s : St σ κ) o, act userId s o = .set entry ∨ act userId s o = .take entry ∧ s.keys.left userId = none ↔
      writes userId s o = some entry := by
    intro s o
    unfold act
    split
    · simp [writes]
    · split
      · rename_i hw
        simp [hw]
      · rename_i hw
        split_ifs <;> simp [hw]
  simp only [hact] at hheld
  exact hheld

/-! ## What others hear -/

/-- what an operation shows to the members of these servers -/
def shows (s : St σ κ) : Op σ κ → Option (List ℤ × PresenceUpdate)
  | .identify conn _ userId servers =>
    if (s.session conn).isSome then none else some (servers, ⟨userId, "online", none⟩)
  | .presenceUpdate conn data servers _ =>
    (s.session conn).bind fun session =>
      let status := (data.field "status").asStr.getD "online"
      if validStatus status && decide (status ≠ "invisible") then
        some (servers, ⟨session.userId, status, some (data.get? "custom_status")⟩)
      else none
  | _ => none

/-- what the operations of a run show, in their order -/
def shown : St σ κ → List (Op σ κ) → List (List ℤ × PresenceUpdate)
  | _, [] => []
  | s, o :: ops => (shows s o).toList ++ shown (step s o) ops

/-- of what is shown about the user, what goes to the server -/
def shownTo (serverId userId : ℤ) (shown : List (List ℤ × PresenceUpdate)) : List PresenceUpdate :=
  (shown.filter fun x => x.2.userId = userId).flatMap fun x => List.replicate (x.1.count serverId) x.2

/-- what a subscription to the pattern is to receive -/
def arrivals (pattern : Pattern) (published : List Published) : List PresenceUpdate :=
  (published.filter fun p => pattern.matches p.subject).map Published.event

/-- those about a user -/
def about (userId : ℤ) (events : List PresenceUpdate) : List PresenceUpdate := events.filter fun e => e.userId = userId

section Arrivals

variable {pg : Postgres} {listener userId : ℤ} {pattern : Pattern}

omit [DecidableEq σ] [DecidableEq κ] in
theorem about_arrivals_append (l l' : List Published) :
    about userId (arrivals pattern (l ++ l')) = about userId (arrivals pattern l) ++ about userId (arrivals pattern l') := by
  simp [about, arrivals]

omit [DecidableEq σ] [DecidableEq κ] in
/-- of an event that goes to some servers, a copy for each whose events the pattern matches -/
theorem about_arrivals_servers (servers : List ℤ) (event : PresenceUpdate) :
    about userId (arrivals pattern (servers.map fun id => ⟨serverEvents id, event⟩)) =
      if event.userId = userId then
        List.replicate (servers.countP fun id => pattern.matches (serverEvents id)) event
      else [] := by
  induction servers with
  | nil => simp [about, arrivals]
  | cons id servers ih =>
    rw [List.map_cons, ← List.singleton_append, about_arrivals_append, ih, List.countP_cons]
    cases hid : pattern.matches (serverEvents id) with
    | false => simp [about, arrivals, hid]
    | true =>
      by_cases hevent : event.userId = userId
      · simp [about, arrivals, hid, hevent, List.replicate_succ]
      · simp [about, arrivals, hid, hevent]

omit [DecidableEq σ] [DecidableEq κ] in
/-- what goes to a user's own subject, where the pattern does not match it -/
theorem about_arrivals_own (hown : pattern.matches (userPresence userId) = false) (u : ℤ) (status : String)
    (customStatus : Option (Option Value)) :
    about userId (arrivals pattern [⟨userPresence u, ⟨u, status, customStatus⟩⟩]) = [] := by
  by_cases hu : u = userId
  · subst hu
    simp [about, arrivals, hown]
  · unfold about arrivals
    rw [List.filter_eq_nil_iff]
    intro e he
    obtain ⟨p, hp, rfl⟩ := List.mem_map.mp he
    obtain rfl := List.mem_singleton.mp (List.mem_filter.mp hp).1
    simpa using hu

/-- what an operation adds to what a subscription is to receive -/
theorem about_arrivals_step (hown : pattern.matches (userPresence userId) = false) (s : St σ κ) (o : Op σ κ) :
    about userId (arrivals pattern (step s o).published) = about userId (arrivals pattern s.published) ++
      ((shows s o).toList.filter fun x => x.2.userId = userId).flatMap fun x =>
        List.replicate (x.1.countP fun id => pattern.matches (serverEvents id)) x.2 := by
  have heverywhere : ∀ (u : ℤ) (servers : List ℤ) (status : String) (customStatus : Option (Option Value)),
      about userId (arrivals pattern
          ((St.everywhere u servers).map fun subject => ⟨subject, ⟨u, status, customStatus⟩⟩)) =
        if u = userId then
          List.replicate (servers.countP fun id => pattern.matches (serverEvents id)) ⟨u, status, customStatus⟩
        else [] := by
    intro u servers status customStatus
    unfold St.everywhere
    rw [List.map_cons, List.map_map, ← List.singleton_append, about_arrivals_append, about_arrivals_own hown,
      List.nil_append]
    exact about_arrivals_servers servers ⟨u, status, customStatus⟩
  have hredis : ∀ (s : St σ κ) redis u status customStatus,
      about userId (arrivals pattern (s.updatePresenceInRedis redis u status customStatus).published) =
        about userId (arrivals pattern s.published) := by
    intro s redis u status customStatus
    unfold St.updatePresenceInRedis St.publish
    simp only
    split_ifs
    · simp only [published_write, about_arrivals_append, List.map_cons, List.map_nil, about_arrivals_own hown, List.append_nil]
    · rw [published_write]
  cases o with
  | tick n => simp [step, shows]
  | identify conn sessionId u servers =>
    simp only [step, shows]
    split_ifs
    · simp
    · unfold St.handleIdentify St.publish
      simp only [about_arrivals_append, heverywhere]
      by_cases hu : u = userId <;> simp [hu]
  | resume conn sessionId u => simp [step, St.handleResume, shows]
  | heartbeat conn redis =>
    have hsame : (step s (.heartbeat conn redis)).published = s.published := by
      simp only [step]
      cases s.session conn with
      | none => rfl
      | some session =>
        simp only [Option.elim_some, St.heartbeat]
        split_ifs <;> rfl
    simp [hsame, shows]
  | presenceUpdate conn data servers redis =>
    simp only [step, shows]
    rcases Option.eq_none_or_eq_some (s.session conn) with hsession | ⟨session, hsession⟩
    · simp [hsession]
    · simp only [hsession, Option.elim_some, Option.bind_some, St.handlePresenceUpdate]
      cases hvalid : validStatus ((data.field "status").asStr.getD "online") with
      | false => simp
      | true =>
        by_cases hinvisible : (data.field "status").asStr.getD "online" = "invisible"
        · simp [hinvisible]
        · simp only [Bool.not_true, Bool.false_eq_true, if_false, hinvisible, not_false_eq_true, ne_eq, if_true,
            decide_true, Bool.and_self, St.publish, published_write, about_arrivals_append, heverywhere]
          by_cases hu : session.userId = userId <;> simp [hu]
  | updatePresence u status customStatus redis =>
    simp only [step, shows, St.updatePresence]
    split_ifs
    · simp
    · simp [hredis]
  | updateSettings u status customStatus redis =>
    have hsame : about userId (arrivals pattern (step s (.updateSettings u status customStatus redis)).published) =
        about userId (arrivals pattern s.published) := by
      simp only [step, St.updateSettings]
      by_cases hvalid : (!status.all validStatus) = true
      · rw [if_pos hvalid]
      · rw [if_neg hvalid]
        cases s.settings u with
        | none => rfl
        | some row =>
          simp only
          split_ifs
          · exact hredis _ _ _ _ _
          · rfl
    simp [hsame, shows]
  | disconnect conn =>
    have hsame : (step s (.disconnect conn)).published = s.published := by
      simp only [step, St.disconnect]
      split <;> rfl
    simp [hsame, shows]
  | wake i =>
    simp only [step, shows, St.wake]
    cases s.departures[i]? with
    | none => simp
    | some departure =>
      simp only
      split_ifs
      · simp
      · simp [St.publish, about_arrivals_append, about_arrivals_own hown]
      · simp

theorem about_arrivals_run (hown : pattern.matches (userPresence userId) = false) (s : St σ κ) (ops : List (Op σ κ)) :
    about userId (arrivals pattern (run step s ops).published) = about userId (arrivals pattern s.published) ++
      ((shown s ops).filter fun x => x.2.userId = userId).flatMap fun x =>
        List.replicate (x.1.countP fun id => pattern.matches (serverEvents id)) x.2 := by
  induction ops generalizing s with
  | nil => simp [shown]
  | cons o ops ih =>
    rw [run_cons, ih, about_arrivals_step hown, shown, List.filter_append, List.flatMap_append, List.append_assoc]

end Arrivals

/-! ## The listeners of a session -/

/-- a session whose listeners have the patterns, each in its own task -/
structure Hearing (σ κ ι : Type) where
  system : St σ κ
  /-- how many messages of its subscription a listener has behind it, until it stops -/
  place : ι → Option ℕ
  /-- what the listeners have sent, oldest first -/
  sent : List (ι × PresenceUpdate)

namespace Hearing

inductive Op (σ κ ι : Type) where
  | system (o : Presence.Op σ κ)
  /-- a message that NATS drops, or that was published before the listener subscribed -/
  | lose (i : ι)
  /-- the next message is passed on, if there is `room` in the channel -/
  | forward (i : ι) (room : Bool)
  | abort (i : ι)

variable {ι : Type} [DecidableEq ι] (pattern : ι → Pattern)

def next (s : Hearing σ κ ι) (i : ι) : Option (ℕ × PresenceUpdate) := do
  let n ← s.place i
  let event ← (arrivals (pattern i) s.system.published)[n]?
  return (n, event)

def step (s : Hearing σ κ ι) : Op σ κ ι → Hearing σ κ ι
  | .system o => { s with system := Presence.step s.system o }
  | .lose i =>
    match s.next pattern i with
    | some (n, _) => { s with place := Function.update s.place i (some (n + 1)) }
    | none => s
  | .forward i room =>
    match s.next pattern i with
    | some (n, event) =>
      if room then { s with place := Function.update s.place i (some (n + 1)), sent := s.sent ++ [(i, event)] }
      else { s with place := Function.update s.place i none }
    | none => s
  | .abort i => { s with place := Function.update s.place i none }

def init (now : ℕ) (settings : ℤ → Option Settings) : Hearing σ κ ι := ⟨Presence.init now settings, fun _ => some 0, []⟩

/-- what a listener has sent -/
def sentBy (s : Hearing σ κ ι) (i : ι) : List PresenceUpdate := (s.sent.filter fun x => x.1 = i).map Prod.snd

/-- the operations of the system in a run -/
def systemOps (ops : List (Op σ κ ι)) : List (Presence.Op σ κ) :=
  ops.filterMap fun
    | .system o => some o
    | _ => none

/-- every listener has sent, in their order, some of the messages that it has behind it -/
structure Kept (s : Hearing σ κ ι) : Prop where
  sent : ∀ i, (s.sentBy i).Sublist (arrivals (pattern i) s.system.published)
  behind : ∀ i n, s.place i = some n → (s.sentBy i).Sublist ((arrivals (pattern i) s.system.published).take n)

section Kept

variable {pattern} {s : Hearing σ κ ι}

omit [DecidableEq ι] in
theorem step_published (s : St σ κ) (o : Presence.Op σ κ) : s.published <+: (Presence.step s o).published := by
  have hpublish : ∀ (s : St σ κ) subjects event, s.published <+: (s.publish subjects event).published :=
    fun s _ _ => List.prefix_append s.published _
  have hredis : ∀ (t : St σ κ) redis u status customStatus, t.published = s.published →
      s.published <+: (t.updatePresenceInRedis redis u status customStatus).published := by
    intro t redis u status customStatus hsame
    rw [← hsame]
    unfold St.updatePresenceInRedis
    simp only
    split_ifs
    · exact published_write t redis u status customStatus ▸ hpublish (t.write redis u status customStatus) _ _
    · rw [published_write]
  cases o with
  | tick n => exact List.prefix_rfl
  | identify conn sessionId u servers =>
    simp only [Presence.step]
    split_ifs
    · exact List.prefix_rfl
    · exact hpublish _ _ _
  | resume conn sessionId u => exact List.prefix_rfl
  | heartbeat conn redis =>
    simp only [Presence.step]
    cases s.session conn with
    | none => exact List.prefix_rfl
    | some session =>
      simp only [Option.elim_some, St.heartbeat]
      split_ifs <;> exact List.prefix_rfl
  | presenceUpdate conn data servers redis =>
    simp only [Presence.step]
    cases s.session conn with
    | none => exact List.prefix_rfl
    | some session =>
      simp only [Option.elim_some, St.handlePresenceUpdate]
      split_ifs
      · exact List.prefix_rfl
      · exact published_write s _ _ _ _ ▸ hpublish (s.write _ _ _ _) _ _
      · rw [published_write]
  | updatePresence u status customStatus redis =>
    simp only [Presence.step, St.updatePresence]
    split_ifs
    · exact List.prefix_rfl
    · exact hredis _ _ _ _ _ rfl
  | updateSettings u status customStatus redis =>
    simp only [Presence.step, St.updateSettings]
    by_cases hvalid : (!status.all validStatus) = true
    · rw [if_pos hvalid]
    · rw [if_neg hvalid]
      cases s.settings u with
      | none => exact List.prefix_rfl
      | some row =>
        simp only
        split_ifs
        · exact hredis _ _ _ _ _ rfl
        · exact List.prefix_rfl
  | disconnect conn =>
    simp only [Presence.step, St.disconnect]
    split <;> exact List.prefix_rfl
  | wake i =>
    simp only [Presence.step, St.wake]
    split
    · exact List.prefix_rfl
    · split_ifs
      · exact List.prefix_rfl
      · exact hpublish _ _ _
      · exact List.prefix_rfl

omit [DecidableEq σ] [DecidableEq κ] [DecidableEq ι] in
theorem next_eq_some {i : ι} {n : ℕ} {event : PresenceUpdate} (h : s.next pattern i = some (n, event)) :
    s.place i = some n ∧ (arrivals (pattern i) s.system.published)[n]? = some event := by
  simp only [next, Option.bind_eq_bind, Option.pure_def, Option.bind_eq_some_iff, Option.some.injEq, Prod.mk.injEq] at h
  obtain ⟨_, hplace, _, hevent, rfl, rfl⟩ := h
  exact ⟨hplace, hevent⟩

omit [DecidableEq σ] [DecidableEq κ] in
theorem update_eq_some {place : ι → Option ℕ} {i j : ι} {p : Option ℕ} {m : ℕ}
    (h : Function.update place i p j = some m) : j = i ∧ p = some m ∨ j ≠ i ∧ place j = some m := by
  by_cases hj : j = i
  · subst hj
    exact .inl ⟨rfl, by rwa [Function.update_self] at h⟩
  · exact .inr ⟨hj, by rwa [Function.update_of_ne hj] at h⟩

theorem Kept.step (h : Kept pattern s) (o : Op σ κ ι) : Kept pattern (s.step pattern o) := by
  cases o with
  | system o =>
    have hgrown : ∀ i, arrivals (pattern i) s.system.published <+:
        arrivals (pattern i) (Presence.step s.system o).published :=
      fun i => ((step_published s.system o).filter _).map _
    exact ⟨fun i => (h.sent i).trans (hgrown i).sublist, fun i n hn => (h.behind i n hn).trans ((hgrown i).take n).sublist⟩
  | lose i =>
    simp only [Hearing.step]
    split
    · rename_i n event hnext
      refine ⟨h.sent, fun j m hm => ?_⟩
      rcases update_eq_some hm with ⟨rfl, hn⟩ | ⟨-, hm⟩
      · obtain rfl := Option.some.inj hn
        exact (h.behind j n (next_eq_some hnext).1).trans (List.take_sublist_take_left (Nat.le_succ n))
      · exact h.behind j m hm
    · exact h
  | forward i room =>
    simp only [Hearing.step]
    split
    · rename_i n event hnext
      obtain ⟨hplace, hevent⟩ := next_eq_some hnext
      split_ifs
      · -- the event is the one after the place
        have hone : (s.sentBy i ++ [event]).Sublist ((arrivals (pattern i) s.system.published).take (n + 1)) := by
          rw [List.take_add_one, hevent]
          exact (h.behind i n hplace).append_right [event]
        have hsent : ∀ j, ((s.sent ++ [(i, event)]).filter fun x => x.1 = j).map Prod.snd =
            s.sentBy j ++ if j = i then [event] else [] := by
          intro j
          by_cases hj : i = j <;> simp [sentBy, hj, eq_comm]
        refine ⟨fun j => ?_, fun j m hm => ?_⟩
        · rw [sentBy, hsent]
          by_cases hj : j = i
          · subst hj
            rw [if_pos rfl]
            exact hone.trans (List.take_sublist _ _)
          · rw [if_neg hj, List.append_nil]
            exact h.sent j
        · rw [sentBy, hsent]
          rcases update_eq_some hm with ⟨rfl, hn⟩ | ⟨hj, hm⟩
          · obtain rfl := Option.some.inj hn
            rw [if_pos rfl]
            exact hone
          · rw [if_neg hj, List.append_nil]
            exact h.behind j m hm
      · refine ⟨h.sent, fun j m hm => ?_⟩
        rcases update_eq_some hm with ⟨-, hn⟩ | ⟨-, hm⟩
        · cases hn
        · exact h.behind j m hm
    · exact h
  | abort i =>
    refine ⟨h.sent, fun j m hm => ?_⟩
    rcases update_eq_some hm with ⟨-, hn⟩ | ⟨-, hm⟩
    · cases hn
    · exact h.behind j m hm

theorem run_system (s : Hearing σ κ ι) (ops : List (Op σ κ ι)) :
    (run (step pattern) s ops).system = run Presence.step s.system (systemOps ops) := by
  induction ops generalizing s with
  | nil => rfl
  | cons o ops ih =>
    rw [run_cons, ih]
    cases o with
    | system o => rfl
    | lose i =>
      simp only [Hearing.step, systemOps]
      split <;> rfl
    | forward i room =>
      simp only [Hearing.step, systemOps]
      split
      · split_ifs <;> rfl
      · rfl
    | abort i => rfl

end Kept

end Hearing

section Heard

variable {ι : Type} [DecidableEq ι] {pg : Postgres} {listener userId : ℤ}

omit [DecidableEq σ] [DecidableEq κ] in
theorem shows_status {s : St σ κ} {o : Op σ κ} {x : List ℤ × PresenceUpdate} (h : x ∈ shows s o) :
    x.2.status ≠ "offline" := by
  cases o with
  | identify conn sessionId u servers =>
    simp only [shows, Option.mem_def] at h
    split_ifs at h
    obtain rfl := Option.some.inj h
    exact (by decide : "online" ≠ "offline")
  | presenceUpdate conn data servers redis =>
    simp only [shows, Option.mem_def, Option.bind_eq_some_iff, Option.ite_none_right_eq_some, Option.some.injEq] at h
    obtain ⟨session, -, hvalid, rfl⟩ := h
    rintro hoffline
    rw [show (data.field "status").asStr.getD "online" = "offline" from hoffline] at hvalid
    revert hvalid
    decide
  | _ => cases h

theorem shown_status {s : St σ κ} {ops : List (Op σ κ)} {x : List ℤ × PresenceUpdate} (h : x ∈ shown s ops) :
    x.2.status ≠ "offline" := by
  induction ops generalizing s with
  | nil => cases h
  | cons o ops ih =>
    rcases List.mem_append.mp h with hnow | hlater
    · exact shows_status (Option.mem_toList.mp hnow)
    · exact ih hlater

/-- the patterns of a session, and the user's events that match them -/
theorem subscriptions_cases (hne : userId ≠ listener) {pattern : Pattern} (h : pattern ∈ subscriptions pg listener) :
    pattern.matches (userPresence userId) = false ∧
      ((∃ id ∈ listServers pg listener, pattern = serverPattern id) ∨
        ∀ id, pattern.matches (serverEvents id) = false) := by
  rw [subscriptions, List.mem_cons, List.mem_append, List.mem_map, List.mem_map] at h
  rcases h with rfl | ⟨id, hid, rfl⟩ | ⟨id, -, rfl⟩
  · exact ⟨by simpa [userPattern, userPresence, matches_three] using Ne.symm hne, .inr fun id => by simp⟩
  · exact ⟨by simp [serverPattern, userPresence, matches_three], .inl ⟨id, hid, rfl⟩⟩
  · exact ⟨by simp [channelPattern, userPresence, matches_three], .inr fun id => by simp⟩

/-- user 1 identifies, hides and leaves; of this the listener of the server has the first, that of user 2 nothing -/
def departure : List (Hearing.Op ℕ ℕ (Fin 2)) :=
  [.system (.identify 0 0 1 [100]), .forward 1 true,
    .system (.presenceUpdate 0 (.object [("status", .string "invisible")]) [100] true), .system (.disconnect 0),
    .system (.tick 10000), .system (.wake 0), .forward 0 true, .forward 1 true]

def ofBob : Fin 2 → Pattern
  | 0 => userPattern 2
  | 1 => serverPattern 100

end Heard

end Lumiere.Gateway.Presence
